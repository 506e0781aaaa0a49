import Eef.Node.Conditional

/-!
# Grant validation

`ExecutionGrant::validate` of `grants.rs`: identities, bounds, then the contract of
the operation, which for a compound grant is its whole definition.
`ExecutionGrant.Valid` lists what the results above use of an accepted grant, and
`scope_valid` that its control scope passes the checks a stop request meets.

The finite peer transfer has its own definition in `peer/admission.rs`; the
journal only ever asks whether it admits a grant and whether it confirms a
result, so it enters as the parameter `PeerAdmission`.
-/

namespace Eef.Node

open Eef.Lib

/-- `peer::admission`: `Definition::from_grant(g).is_ok()` and `confirmed_result`. -/
class PeerAdmission where
  admits : ExecutionGrant → Bool
  confirms : ExecutionGrant → Json → Bool

/-- A node without peer transfers. -/
@[reducible]
def PeerAdmission.never : PeerAdmission where
  admits _ := false
  confirms _ _ := false

/-- `pipeline::is_compound`. -/
def isCompound (capability : String) : Bool :=
  capability == "pipeline.run" || capability == conditionalCapability

theorem ne_of_isCompound {capability : String} (h : isCompound capability = true) :
    capability ≠ "process.exec" ∧ capability ≠ "peer.transfer" := by
  constructor <;> rintro rfl <;> exact absurd h (by decide)

section
variable [F64] [PeerAdmission]

/-- The bounds of `ExecutionGrant::validate`. -/
def ExecutionGrant.bounded (g : ExecutionGrant) : Prop :=
  g.schemaVersion = 1 ∧ hexDigest g.issuerId ∧ hexDigest g.planSha256
    ∧ (1 ≤ g.attempt ∧ g.attempt ≤ 11) ∧ identifier g.capability ∧ identifier g.action
    ∧ g.params.isObject ∧ g.params.size ≤ 64 * 1024 ∧ (-1000 ≤ g.priority ∧ g.priority ≤ 1000)
    ∧ g.reporting = "acceptance_and_completion"
    ∧ (1 ≤ g.limits.maxExecutionMs ∧ g.limits.maxExecutionMs ≤ maxDurationMs)
    ∧ (1024 ≤ g.limits.maxResultBytes ∧ g.limits.maxResultBytes ≤ 1024 * 1024)
    ∧ g.issuedAtMs ≠ 0 ∧ g.issuedAtMs < g.expiresAtMs
    ∧ g.expiresAtMs - g.issuedAtMs ≤ maxDurationMs

instance (g : ExecutionGrant) : Decidable g.bounded := inferInstanceAs (Decidable (_ ∧ _))

/-- The operation contract of a grant, by its kind. -/
def ExecutionGrant.validateOperation (g : ExecutionGrant) : Result Unit := do
  if g.capability = "pipeline.run" then
    let _ ← FinitePipeline.fromGrant g
  else if g.capability = conditionalCapability then
    let _ ← ConditionalPipeline.fromGrant g
  else if g.capability = "peer.transfer" then
    ensure (PeerAdmission.admits g) "Invalid finite peer definition"
  else
    OperationShape.validate
      { capability := g.capability, action := g.action, params := g.params,
        resourceId := g.resourceId, modelId := g.modelId, backend := g.backend,
        modelRole := g.modelRole } (some g.executorNode)

/-- `ExecutionGrant::validate`. -/
def ExecutionGrant.validate (g : ExecutionGrant) : Result Unit := do
  validateOperationId g.grantId
  validateOperationId g.sessionId
  bailIf (isNil g.sessionId ∨ isNil g.grantId) "Nil grant/session identity"
  validateDraftId g.jobId
  validateDraftId g.taskId
  validateRemoteNodeId g.executorNode
  validateRemoteNodeId g.requestContext.originNode
  validateOperationId g.requestContext.requestId
  ensure g.bounded "Invalid execution grant scope or limits"
  g.validateOperation

/-- What an accepted grant guarantees. -/
structure ExecutionGrant.Valid (g : ExecutionGrant) : Prop where
  grantId : uuid g.grantId = true
  sessionId : uuid g.sessionId = true
  jobId : draftId g.jobId = true
  taskId : draftId g.taskId = true
  executorNode : remoteNodeId g.executorNode = true
  originNode : remoteNodeId g.requestContext.originNode = true
  requestId : operationId g.requestContext.requestId = true
  bounded : g.bounded
  operation : g.validateOperation = .ok ()

theorem ExecutionGrant.validate_ok {g : ExecutionGrant} {u : Unit} :
    g.validate = .ok u ↔ g.Valid := by
  simp only [ExecutionGrant.validate, bind_ok, validateOperationId_ok, bailIf_ok,
    validateRemoteNodeId_ok, validateDraftId_ok, ensure_ok, exists_and_left, exists_const, not_or,
    Bool.not_eq_true]
  constructor
  · rintro ⟨hg, hs, ⟨hsn, hgn⟩, hj, ht, hx, ho, hr, hb, hop⟩
    exact ⟨by simp [uuid, hg, hgn], by simp [uuid, hs, hsn], hj, ht, hx, ho, hr, hb, hop⟩
  · rintro ⟨hg, hs, hj, ht, hx, ho, hr, hb, hop⟩
    simp only [uuid, Bool.and_eq_true, Bool.not_eq_true'] at hg hs
    exact ⟨hg.1, hs.1, ⟨hs.2, hg.2⟩, hj, ht, hx, ho, hr, hb, hop⟩

theorem ExecutionGrant.Valid.attempt {g : ExecutionGrant} (h : g.Valid) :
    1 ≤ g.attempt ∧ g.attempt ≤ 11 := h.bounded.2.2.2.1

theorem ExecutionGrant.Valid.maxResultBytes {g : ExecutionGrant} (h : g.Valid) :
    1024 ≤ g.limits.maxResultBytes ∧ g.limits.maxResultBytes ≤ 1024 * 1024 :=
  h.bounded.2.2.2.2.2.2.2.2.2.2.2.1

theorem ExecutionGrant.Valid.issuer {g : ExecutionGrant} (h : g.Valid) :
    hexDigest g.issuerId = true := h.bounded.2.1

/-- `Scope::from_grant`. -/
def Scope.fromGrant [Sha256] (g : ExecutionGrant) : Result Scope := do
  g.validate
  return g.scope

/-- A validated grant's control scope is itself a valid scope. -/
theorem ExecutionGrant.Valid.scope_valid [Sha256] {g : ExecutionGrant} (h : g.Valid) :
    g.scope.Valid where
  grantId := h.grantId
  sessionId := h.sessionId
  executorNode := h.executorNode
  jobId := h.jobId
  taskId := h.taskId
  grantSha256 := Sha256.definition_digest _
  issuerId := h.issuer
  attempt_pos := h.attempt.1
  attempt_le := h.attempt.2

end

end Eef.Node
