import Eef.Coordinator.Approval

/-!
# Paired issuance

What `peer_jobs.rs` seals and checks for the two ends of a transfer: the grants an issuance
was made for (`Issuance::validate_for`) and the reports it takes for its own
(`Issuance::confirms`). An issuance is kept as its saved document.

How a pair is read from its parameters, whether a scope is well formed and whether a sealed
envelope carries its issuer's signature are parameters (`Pairing`).
-/

namespace Eef.Coordinator

open Eef.Lib Eef.Node

/-- `Role`. -/
inductive Role where
  | source
  | destination
  deriving DecidableEq, Repr

namespace Role

/-- The serialized name. -/
def name : Role → String
  | .source => "source"
  | .destination => "destination"

def fromJson (j : Json) : Option Role :=
  match j.asVariant with
  | some "source" => some .source
  | some "destination" => some .destination
  | _ => none

/-- The action of the end's grant. -/
def action : Role → String
  | .source => "send"
  | .destination => "receive"

end Role

/-- `Endpoint`. -/
structure Endpoint where
  nodeId : String
  resourceId : String
  deriving DecidableEq, Repr

/-- `Pair`, as an issuance reads it: the ends, the limits and what each end is asked for. -/
structure Pair where
  source : Endpoint
  destination : Endpoint
  limits : Json
  definition : Role → Json

/-- `Pair::endpoint`. -/
def Pair.endpoint (p : Pair) : Role → Endpoint
  | .source => p.source
  | .destination => p.destination

/-- Exact paired transfers. -/
class Pairing where
  /-- `Pair::from_params`. -/
  fromParams : Json → Result Pair
  /-- `Scope::validate`. -/
  validateScope : Json → Result Unit
  /-- `verify_envelope`, of a scope, an end's material and the coordinator's certificate. -/
  verifyEnvelope : Json → Json → Json → Result Unit

/-- `TransferReceipt`. -/
structure TransferReceipt where
  schemaVersion : Nat
  pairSessionId : String
  scopeSha256 : String
  role : Role
  payloadBytes : Nat
  payloadSha256 : String
  dataFrames : Nat
  payloadRetained : Bool
  sinkEffectsConfirmed : Bool
  producerReported : Bool
  sinkReported : Bool
  deriving DecidableEq, Repr

def TransferReceipt.fromJson (j : Json) : Option TransferReceipt := do
  let fs ← j.struct ["schema_version", "pair_session_id", "scope_sha256", "role", "payload_bytes",
    "payload_sha256", "data_frames", "payload_retained", "sink_effects_confirmed",
    "producer_reported", "sink_reported"] 9
  let schemaVersion ← Json.field fs "schema_version" (Json.asUInt 32)
  let pairSessionId ← Json.field fs "pair_session_id" Json.asStr
  let scopeSha256 ← Json.field fs "scope_sha256" Json.asStr
  let role ← Json.field fs "role" Role.fromJson
  let payloadBytes ← Json.field fs "payload_bytes" (Json.asUInt 64)
  let payloadSha256 ← Json.field fs "payload_sha256" Json.asStr
  let dataFrames ← Json.field fs "data_frames" (Json.asUInt 32)
  let payloadRetained ← Json.field fs "payload_retained" Json.asBool
  let sinkEffectsConfirmed ← Json.field fs "sink_effects_confirmed" Json.asBool
  let producerReported ← Json.defaultField fs "producer_reported" Json.asBool false
  let sinkReported ← Json.defaultField fs "sink_reported" Json.asBool false
  return { schemaVersion, pairSessionId, scopeSha256, role, payloadBytes, payloadSha256,
           dataFrames, payloadRetained, sinkEffectsConfirmed, producerReported, sinkReported }

/-- What a receipt that is an object says of its content is what its fields say. -/
theorem TransferReceipt.fromJson_obj {fields : List (String × Json)} {t : TransferReceipt}
    (h : fromJson (.obj fields) = some t) :
    (Json.obj fields).index "payload_bytes" = .nat t.payloadBytes
      ∧ (Json.obj fields).index "payload_sha256" = .str t.payloadSha256 := by
  simp only [fromJson, Json.struct, Json.field, Option.bind_eq_bind, Option.bind_eq_some_iff,
    Option.ite_none_right_eq_some, Option.some.injEq, pure] at h
  obtain ⟨_, ⟨-, rfl⟩, _, -, _, -, _, -, _, -, bytes, ⟨jb, hb, hbytes⟩, sha, ⟨js, hs, hsha⟩, _, -, _,
    -, _, -, _, -, _, -, rfl⟩ := h
  simp only [Json.index, Json.get?, hb, hs, Option.getD_some]
  exact ⟨Json.of_asUInt hbytes, Json.of_asStr hsha⟩

/-- `peer_jobs::definition`: whether the plan is an exact pair. -/
def Plan.pairDefinition [Pairing] (p : Plan) : Result Bool :=
  if p.goal.template = "peer_transfer" then do
    let _ ← Pairing.fromParams p.goal.params
    return true
  else do
    bailIf (p.tasks.any fun t => t.capability == "peer.transfer")
      "Peer operations require an exact paired template"
    return false

namespace Issuance

/-- The scope of a saved issuance. -/
def scope (record : Json) : Json := record.index "scope"

/-- `Scope::party`. -/
def party (record : Json) (role : Role) : Json := (scope record).index role.name

/-- The sealed material of one end. -/
def material (record : Json) (role : Role) : Json := (record.index "material").index role.name

section
variable [Sha256] [Pairing]

/-- `Scope::digest`. -/
def scopeDigest (record : Json) : Result String := do
  Pairing.validateScope (scope record)
  return Sha256.definition (scope record)

/-- The receipt of a successful transfer names this session and this scope. -/
def names (record : Json) (g : ExecutionGrant) (r : TransferReceipt) : Prop :=
  (scope record).index "session_id" = .str r.pairSessionId
    ∧ scopeDigest record = .ok r.scopeSha256
    ∧ r.role = if (party record .source).index "grant_id" = .str g.grantId then .source
      else .destination

instance (record : Json) (g : ExecutionGrant) (r : TransferReceipt) : Decidable (names record g r) :=
  inferInstanceAs (Decidable (_ ∧ _))

variable [F64] [PeerAdmission]

/-- `Issuance::confirms`. -/
def confirms (record : Json) (g : ExecutionGrant) (r : GrantReport) : Bool :=
  decide (r.confirms g) && (decide (r.state ≠ .completed ∨ r.success = false)
    || (TransferReceipt.fromJson r.data).any fun t => decide (names record g t))

end

section
variable [F64] [PeerAdmission] [Sha256]

/-- The header test of `Issuance::validate_for`. -/
def headerFits (record : Json) (p : Plan) (approval : ApprovalRecord) (pair : Pair)
    (grants : List ExecutionGrant) : Prop :=
  record.index "schema_version" = .nat 1 ∧ approval.delegation = none ∧ p.tasks.length = 2
    ∧ grants.length = 2 ∧ (scope record).index "job_id" = .str p.planId
    ∧ (scope record).index "issuer_id" = .str approval.issuerId
    ∧ (scope record).index "plan_sha256" = .str approval.planSha256
    ∧ p.goal.requestContext.map (·.toJson) = some ((scope record).index "request_context")
    ∧ (scope record).index "limits" = pair.limits
    ∧ (material record .source).index "role" = .str Role.source.name
    ∧ (material record .destination).index "role" = .str Role.destination.name
    ∧ (grants.map (·.issuedAtMs)).max?.map Json.nat = some ((scope record).index "issued_at_ms")
    ∧ (grants.map (·.expiresAtMs)).min?.map Json.nat = some ((scope record).index "expires_at_ms")

instance (record : Json) (p : Plan) (approval : ApprovalRecord) (pair : Pair)
    (grants : List ExecutionGrant) : Decidable (headerFits record p approval pair grants) :=
  inferInstanceAs (Decidable (_ ∧ _))

/-- The grant of one end: the approved one, for the end's resource, sealed by its digest. -/
def grantFits (record : Json) (pair : Pair) (role : Role) (t : Task) (g expected : ExecutionGrant) :
    Prop :=
  g = { expected with grantId := g.grantId, sessionId := g.sessionId,
                      issuedAtMs := g.issuedAtMs, expiresAtMs := g.expiresAtMs }
    ∧ g.capability = "peer.transfer" ∧ g.action = role.action
    ∧ g.executorNode = (pair.endpoint role).nodeId
    ∧ g.resourceId = some (pair.endpoint role).resourceId ∧ g.params = pair.definition role
    ∧ g.taskId = t.taskId ∧ (party record role).index "grant_id" = .str g.grantId
    ∧ (party record role).index "grant_sha256" = .str g.digest
    ∧ (party record role).index "node_id" = .str g.executorNode
    ∧ (party record role).index "control_session_id" = .str g.sessionId
    ∧ g.resourceId.map Json.str = some ((party record role).index "resource_id")
    ∧ t.dependencies = []

instance (record : Json) (pair : Pair) (role : Role) (t : Task) (g expected : ExecutionGrant) :
    Decidable (grantFits record pair role t g expected) := inferInstanceAs (Decidable (_ ∧ _))

variable [Pairing]

/-- One turn of the loop of `Issuance::validate_for`. -/
def validateEnd (record : Json) (p : Plan) (approval : ApprovalRecord) (pair : Pair)
    (grants : List ExecutionGrant) (i : Nat) (role : Role) : Result Unit := do
  let g ← context grants[i]? "index out of bounds"
  g.validate
  let expected ← p.scope i approval
  let t ← context p.tasks[i]? "index out of bounds"
  ensure (grantFits record pair role t g expected) "Pair grant/resource/session differs"
  Pairing.verifyEnvelope (scope record) (material record role)
    (record.index "coordinator_certificate")

/-- `Issuance::validate_for`. -/
def validateFor (record : Json) (p : Plan) (grants : List ExecutionGrant) : Result Unit := do
  let paired ← p.pairDefinition
  ensure (paired = true) "Pair issuance on an ordinary job"
  let pair ← Pairing.fromParams p.goal.params
  let approval ← context p.approval "Pair lacks owner approval"
  ensure (headerFits record p approval pair grants) "Pair issuance differs from reviewed approval"
  Pairing.validateScope (scope record)
  validateEnd record p approval pair grants 0 .source
  validateEnd record p approval pair grants 1 .destination

/-- An issuance is for exactly two grants. -/
theorem validateFor_length {record : Json} {p : Plan} {grants : List ExecutionGrant} {u : Unit}
    (h : validateFor record p grants = .ok u) : grants.length = 2 ∧ p.tasks.length = 2 := by
  simp only [validateFor, bind_ok, ensure_ok, context_ok] at h
  obtain ⟨_, -, _, -, _, -, _, -, _, ⟨-, -, htasks, hgrants, -⟩, -⟩ := h
  exact ⟨hgrants, htasks⟩

end

end Issuance

end Eef.Coordinator
