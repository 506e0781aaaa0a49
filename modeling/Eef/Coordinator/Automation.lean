import Eef.Coordinator.Documents

/-!
# Definitions and owner policies

What an owner stores before anything recurs: a definition (`automation.rs`) freezes one
compiled plan that was not run, and an authorization (`automation_policy.rs`) approves
exactly its operations for a bounded time, number of runs and amount of work. A
definition is disabled or removed, an authorization approved or revoked; both keep their
creation command.

`currentAt` is the test every admission makes. What the compiler says of a scope
(`PlanInput::validate`, `validate_scope_compilation`) is the parameter `ScopeCompiler`:
it reads the scope and the time of approval, which no command changes.
-/

namespace Eef.Coordinator

open Eef.Lib Eef.Node

/-- `AutomationCommand::Define`. -/
structure Define where
  operationId : String
  fromJob : String
  revision : Nat
  planSha256 : String
  name : String
  everyMs : Nat
  maxRuns : Nat
  validForMs : Nat
  deriving DecidableEq, Repr

namespace Define

def toJson (c : Define) : Json :=
  .obj [("operation", .str "define"), ("operation_id", .str c.operationId),
    ("from_job", .str c.fromJob), ("revision", .nat c.revision),
    ("plan_sha256", .str c.planSha256), ("name", .str c.name), ("every_ms", .nat c.everyMs),
    ("max_runs", .nat c.maxRuns), ("valid_for_ms", .nat c.validForMs)]

/-- `AutomationCommand::validate`. -/
def validate (c : Define) : Result Unit := do
  validateOperationId c.operationId
  validateDraftId c.fromJob
  ensure (c.revision ≠ 0 ∧ c.revision ≠ u64Max ∧ hexDigest c.planSha256
    ∧ c.name.toList.any (!isWhitespace ·) ∧ c.name.utf8ByteSize ≤ 128
    ∧ c.name.toList.any isControl = false
    ∧ (1000 ≤ c.everyMs ∧ c.everyMs ≤ 86400000) ∧ (1 ≤ c.maxRuns ∧ c.maxRuns ≤ 128)
    ∧ (1000 ≤ c.validForMs ∧ c.validForMs ≤ 86400000) ∧ c.everyMs ≤ c.validForMs)
    "Invalid source, name or bounded automation timing/run limits"

end Define

/-- `AutomationCommand::Remove`. -/
structure Remove where
  id : String
  revision : Nat
  operationId : String
  deriving DecidableEq, Repr

def Remove.validate (c : Remove) : Result Unit := do
  validateOperationId c.operationId
  validateOperationId c.id
  ensure (c.revision = 1) "Only a revision-one disabled definition can be removed"

/-- `RemovalReceipt`. -/
structure RemovalReceipt where
  operationId : String
  sourceRevision : Nat
  deriving DecidableEq, Repr

/-- The `state` of a definition. -/
inductive DefinitionState where
  | disabled
  | removed
  deriving DecidableEq, Repr

def DefinitionState.name : DefinitionState → String
  | disabled => "disabled"
  | removed => "removed"

/-- `automation::Definition`; its source is the frozen plan. -/
structure Definition where
  schemaVersion : Nat
  id : String
  ownerContext : RequestContext
  createdAtMs : Nat
  creation : Define
  sourceSha256 : String
  definitionSha256 : String
  revision : Nat
  state : DefinitionState
  source : Option Plan
  removal : Option RemovalReceipt
  deriving DecidableEq, Repr

/-- `PolicyCommand::Approve`. -/
structure Approve where
  definition : String
  revision : Nat
  definitionSha256 : String
  generation : Nat
  operationId : String
  validForMs : Nat
  maxRuns : Nat
  maxExecutionMsPerTask : Nat
  maxResultBytesPerTask : Nat
  maxReservedExecutionMs : Nat
  maxReservedResultBytes : Nat
  deriving DecidableEq, Repr

namespace Approve

def toJson (c : Approve) : Json :=
  .obj [("operation", .str "approve"), ("definition", .str c.definition),
    ("revision", .nat c.revision), ("definition_sha256", .str c.definitionSha256),
    ("generation", .nat c.generation), ("operation_id", .str c.operationId),
    ("valid_for_ms", .nat c.validForMs), ("max_runs", .nat c.maxRuns),
    ("max_execution_ms_per_task", .nat c.maxExecutionMsPerTask),
    ("max_result_bytes_per_task", .nat c.maxResultBytesPerTask),
    ("max_reserved_execution_ms", .nat c.maxReservedExecutionMs),
    ("max_reserved_result_bytes", .nat c.maxReservedResultBytes)]

/-- `PolicyCommand::limits`. -/
def limits (c : Approve) : GrantLimits := ⟨c.maxExecutionMsPerTask, c.maxResultBytesPerTask⟩

/-- `MAX_RESERVED_EXECUTION_MS`. -/
def maxReservedExecution : Nat := 86400000

/-- `MAX_RESERVED_RESULT_BYTES`. -/
def maxReservedResults : Nat := 128 * 1024 * 1024

/-- `PolicyCommand::validate`. -/
def validate (c : Approve) : Result Unit := do
  validateOperationId c.operationId
  bailIf (isNil c.operationId) "Policy receipts cannot be nil"
  validateOperationId c.definition
  ensure (c.revision = 1 ∧ c.generation ≠ u64Max ∧ hexDigest c.definitionSha256
    ∧ (1000 ≤ c.validForMs ∧ c.validForMs ≤ 86400000) ∧ (1 ≤ c.maxRuns ∧ c.maxRuns ≤ 128)
    ∧ (1 ≤ c.maxExecutionMsPerTask ∧ c.maxExecutionMsPerTask ≤ maxDurationMs)
    ∧ (1024 ≤ c.maxResultBytesPerTask ∧ c.maxResultBytesPerTask ≤ 1024 * 1024)
    ∧ c.maxExecutionMsPerTask ≤ c.validForMs
    ∧ (1 ≤ c.maxReservedExecutionMs ∧ c.maxReservedExecutionMs ≤ maxReservedExecution)
    ∧ (1024 ≤ c.maxReservedResultBytes ∧ c.maxReservedResultBytes ≤ maxReservedResults))
    "Invalid exact definition, generation or bounded approval options"

end Approve

/-- `PolicyCommand::Revoke`. -/
structure Revoke where
  id : String
  revision : Nat
  operationId : String
  deriving DecidableEq, Repr

def Revoke.validate (c : Revoke) : Result Unit := do
  validateOperationId c.operationId
  bailIf (isNil c.operationId) "Policy receipts cannot be nil"
  validateOperationId c.id
  ensure (c.revision = 1) "Revocation requires approval revision one"

/-- `ScopedOperation`. -/
structure ScopedOperation where
  capability : String
  action : String
  params : Json
  constraints : Json
  dependencies : List Nat
  timeoutMs : Nat
  executorNode : String
  resourceId : Option String
  modelId : Option String
  backend : Option String
  deriving DecidableEq, Repr

def ScopedOperation.toJson (o : ScopedOperation) : Json :=
  .obj [("capability", .str o.capability), ("action", .str o.action), ("params", o.params),
    ("constraints", o.constraints), ("dependencies", .arr (o.dependencies.map .nat)),
    ("timeout_ms", .nat o.timeoutMs), ("executor_node", .str o.executorNode),
    ("resource_id", .ofOption .str o.resourceId), ("model_id", .ofOption .str o.modelId),
    ("backend", .ofOption .str o.backend)]

/-- `FixedScope`. -/
structure FixedScope where
  ownerContext : RequestContext
  input : PlanInput
  operations : List ScopedOperation
  deriving DecidableEq, Repr

def FixedScope.toJson (s : FixedScope) : Json :=
  .obj [("owner_context", s.ownerContext.toJson), ("input", s.input.toJson),
    ("operations", .arr (s.operations.map ScopedOperation.toJson))]

/-- What the compiler accepts of an owner's scope. -/
class ScopeCompiler where
  /-- `PlanInput::validate`. -/
  input : PlanInput → Result Unit
  /-- `validate_scope_compilation`, at the time of approval. -/
  compiles : FixedScope → Nat → Result Unit

/-- A compiler without restrictions of its own. -/
@[reducible]
def ScopeCompiler.always : ScopeCompiler where
  input _ := .ok ()
  compiles _ _ := .ok ()

/-- `Revocation`. -/
structure Revocation where
  operationId : String
  sourceRevision : Nat
  revokedAtMs : Nat
  runtimeId : String
  deriving DecidableEq, Repr

/-- The `state` of an authorization. -/
inductive PolicyState where
  | approved
  | revoked
  deriving DecidableEq, Repr

def PolicyState.name : PolicyState → String
  | approved => "approved"
  | revoked => "revoked"

/-- `Authorization`. -/
structure Authorization where
  schemaVersion : Nat
  id : String
  creation : Approve
  generation : Nat
  runtimeId : String
  issuerId : String
  approvedAtMs : Nat
  expiresAtMs : Nat
  scope : FixedScope
  scopeSha256 : String
  authorizationSha256 : String
  revision : Nat
  state : PolicyState
  revocation : Option Revocation
  deriving DecidableEq, Repr

section
variable [F64] [PeerAdmission] [Sha256] [Planner] [Pairing] [ScopeCompiler]

/-! ## Definitions -/

namespace Definition

def removalJson (r : RemovalReceipt) : Json :=
  .obj [("operation_id", .str r.operationId), ("source_revision", .nat r.sourceRevision)]

/-- The fields a definition keeps through its removal. -/
def fixedFields (d : Definition) : List (String × Json) :=
  [("schema_version", .nat d.schemaVersion), ("id", .str d.id),
    ("owner_context", d.ownerContext.toJson), ("created_at_ms", .nat d.createdAtMs),
    ("creation", d.creation.toJson), ("source_sha256", .str d.sourceSha256)]

def toJson (d : Definition) : Json :=
  .obj (d.fixedFields ++ [("definition_sha256", .str d.definitionSha256),
    ("revision", .nat d.revision), ("state", .str d.state.name),
    ("source", .ofOption Plan.toJson d.source), ("removal", .ofOption removalJson d.removal)])

/-- `Definition::digest`. -/
def digest (d : Definition) : String := Sha256.definition (.obj d.fixedFields)

/-- The source is the plan the definition was made from. -/
def sourceFits (d : Definition) (p : Plan) : Prop :=
  Sha256.definition p.toJson = d.sourceSha256 ∧ p.planId = d.creation.fromJob
    ∧ p.revision = d.creation.revision
    ∧ (p.planning.any fun r => r.planSha256 == d.creation.planSha256) = true
    ∧ p.status = .awaitingApproval ∧ p.goal.requestContext = some d.ownerContext
    ∧ p.approval = none ∧ p.execution = none ∧ p.toJson.size ≤ 1024 * 1024

instance (d : Definition) (p : Plan) : Decidable (d.sourceFits p) :=
  inferInstanceAs (Decidable (_ ∧ _))

/-- `Definition::validate`. -/
def validate (d : Definition) : Result Unit := do
  d.creation.validate
  ensure (d.schemaVersion = 1 ∧ d.id = d.creation.operationId ∧ d.createdAtMs ≠ 0
    ∧ hexDigest d.sourceSha256 ∧ d.digest = d.definitionSha256)
    "Damaged or future automation definition; retain for inspection"
  validateRemoteNodeId d.ownerContext.originNode
  match d.source, d.removal with
  | some p, none => do
    ensure (d.revision = 1 ∧ d.state = .disabled)
      "Unsupported automation lifecycle; no timers or work started"
    ensure (d.sourceFits p) "Invalid automation source snapshot"
  | none, some r => do
    ensure (d.revision = 2 ∧ d.state = .removed)
      "Unsupported automation lifecycle; no timers or work started"
    validateOperationId r.operationId
    ensure (r.sourceRevision = 1 ∧ r.operationId ≠ d.id) "Invalid removal receipt"
  | _, _ => .error "Unsupported automation lifecycle; no timers or work started"

/-- `automations::validate_definition`. -/
def validateStored (d : Definition) : Result Unit := do
  d.validate
  match d.source with
  | none => .ok ()
  | some p => do
    p.validateReview
    ensure (p.planning.isSome ∧ p.status = .awaitingApproval ∧ p.approval = none
      ∧ p.execution = none) "Invalid retained automation source"

/-- What `Remove` leaves of a definition. -/
def remove (d : Definition) (c : Remove) : Definition :=
  { d with
    revision := 2
    state := .removed
    source := none
    removal := some ⟨c.operationId, c.revision⟩ }

end Definition

/-! ## Scopes -/

namespace FixedScope

/-- One operation of a scope, at its place. -/
def validateOperation (index : Nat) (o : ScopedOperation) : Result Unit := do
  validateRemoteNodeId o.executorNode
  ensure (o.dependencies = List.range index ∧ o.timeoutMs ≠ 0 ∧ o.params.isObject
    ∧ o.constraints.isObject ∧ o.constraints.index "node_id" = .str o.executorNode)
    "Invalid fixed operation binding/dependencies"

/-- `FixedScope::validate`. -/
def validate (s : FixedScope) : Result Unit := do
  validateOperationId s.ownerContext.requestId
  validateRemoteNodeId s.ownerContext.originNode
  ScopeCompiler.input s.input
  ensure (s.operations ≠ [] ∧ s.operations.length ≤ 128 ∧ s.toJson.size ≤ 1024 * 1024)
    "Invalid bounded fixed-operation scope"
  each (fun e => validateOperation e.2 e.1) s.operations.zipIdx

/-- `FixedScope::run_allowance`: the milliseconds and the result bytes of one run. -/
def runAllowance (s : FixedScope) (limits : GrantLimits) : Result (Nat × Nat) := do
  s.validate
  ensure (s.operations.length * limits.maxExecutionMs ≤ u64Max) "Duration overflow"
  ensure (s.operations.length * limits.maxResultBytes ≤ u64Max) "Result allowance overflow"
  return (s.operations.length * limits.maxExecutionMs, s.operations.length * limits.maxResultBytes)

end FixedScope

/-- The operation a compiled task stands for. -/
def scopedOperation (index : Nat) (t : Task) (b : PlannedBinding) : ScopedOperation where
  capability := t.capability
  action := t.action
  params := t.params
  constraints := t.constraints
  dependencies := List.range index
  timeoutMs := t.timeoutMs
  executorNode := b.nodeId
  resourceId := b.resourceId
  modelId := b.modelId
  backend := b.backend

/-- `automation_policy::fixed_scope`. -/
def Plan.fixedScope (p : Plan) : Result FixedScope := do
  let paired ← p.pairDefinition
  bailIf (paired = true) "Paired transport currently requires an explicit one-shot owner approval"
  p.validateReview
  let planning ← context p.planning "Policy requires a compiled source"
  let origin ← context p.goal.requestContext "Missing source origin"
  let scope : FixedScope :=
    { ownerContext := origin
      input := planning.input
      operations := (p.tasks.zip planning.bindings).zipIdx.map fun e =>
        scopedOperation e.2 e.1.1 e.1.2 }
  scope.validate
  return scope

/-! ## Policies -/

namespace Authorization

def revocationJson (r : Revocation) : Json :=
  .obj [("operation_id", .str r.operationId), ("source_revision", .nat r.sourceRevision),
    ("revoked_at_ms", .nat r.revokedAtMs), ("runtime_id", .str r.runtimeId)]

/-- The fields an authorization keeps through its revocation. -/
def fixedFields (a : Authorization) : List (String × Json) :=
  [("schema_version", .nat a.schemaVersion), ("id", .str a.id), ("creation", a.creation.toJson),
    ("generation", .nat a.generation), ("runtime_id", .str a.runtimeId),
    ("issuer_id", .str a.issuerId), ("approved_at_ms", .nat a.approvedAtMs),
    ("expires_at_ms", .nat a.expiresAtMs), ("scope", a.scope.toJson),
    ("scope_sha256", .str a.scopeSha256)]

def toJson (a : Authorization) : Json :=
  .obj (a.fixedFields ++ [("authorization_sha256", .str a.authorizationSha256),
    ("revision", .nat a.revision), ("state", .str a.state.name),
    ("revocation", .ofOption revocationJson a.revocation)])

/-- `Authorization::digest`. -/
def digest (a : Authorization) : String := Sha256.definition (.obj a.fixedFields)

/-- The bounds of `Authorization::validate`, for a run of `duration` and `results`. -/
def bounded (a : Authorization) (duration results : Nat) : Prop :=
  a.schemaVersion = 1 ∧ a.id = a.creation.operationId ∧ a.creation.generation + 1 = a.generation
    ∧ hexDigest a.issuerId ∧ a.approvedAtMs ≠ 0
    ∧ a.approvedAtMs + a.creation.validForMs = a.expiresAtMs ∧ a.expiresAtMs ≤ u64Max
    ∧ Sha256.definition a.scope.toJson = a.scopeSha256 ∧ a.digest = a.authorizationSha256
    ∧ duration ≤ a.creation.maxReservedExecutionMs ∧ results ≤ a.creation.maxReservedResultBytes
    ∧ ∀ o ∈ a.scope.operations, a.creation.maxExecutionMsPerTask ≤ o.timeoutMs

instance (a : Authorization) (duration results : Nat) : Decidable (a.bounded duration results) :=
  inferInstanceAs (Decidable (_ ∧ _))

/-- `Authorization::validate`. -/
def validate (a : Authorization) : Result Unit := do
  a.creation.validate
  a.scope.validate
  validateOperationId a.runtimeId
  let (duration, results) ← a.scope.runAllowance a.creation.limits
  ensure (a.bounded duration results)
    "Damaged or unbounded reusable approval; retained without activation"
  match a.revocation with
  | none => do
    ensure (a.revision = 1 ∧ a.state = .approved)
      "Unsupported authorization lifecycle; no automatic activation"
  | some r => do
    ensure (a.revision = 2 ∧ a.state = .revoked)
      "Unsupported authorization lifecycle; no automatic activation"
    validateOperationId r.operationId
    validateOperationId r.runtimeId
    ensure (r.operationId ≠ a.id ∧ r.sourceRevision = 1 ∧ r.revokedAtMs ≠ 0)
      "Invalid retained policy revocation"

/-- `Authorization::current_at`: eligible now, for this runtime and issuer. -/
def currentAt (a : Authorization) (runtime issuer : String) (generation : Nat) (d : Definition)
    (now : Nat) : Bool :=
  isOk a.validate && isOk d.validate && a.revocation.isNone && d.state == .disabled
    && d.source.isSome && d.id == a.creation.definition
    && d.definitionSha256 == a.creation.definitionSha256 && a.runtimeId == runtime
    && a.issuerId == issuer && a.generation == generation
    && decide (a.approvedAtMs ≤ now) && decide (now < a.expiresAtMs)

/-- The grant an operation of the policy is checked as; never issued. -/
def grantOf (a : Authorization) (fromJob : String) (o : ScopedOperation) : ExecutionGrant where
  schemaVersion := 1
  grantId := a.id
  sessionId := a.runtimeId
  issuerId := a.issuerId
  executorNode := o.executorNode
  jobId := fromJob
  taskId := fromJob
  attempt := 1
  planSha256 := a.scopeSha256
  requestContext := a.scope.ownerContext
  capability := o.capability
  action := o.action
  params := o.params
  resourceId := o.resourceId
  modelId := o.modelId
  backend := o.backend
  modelRole := (o.constraints.index "model_role").asStr
  priority := 0
  limits := a.creation.limits
  reporting := "acceptance_and_completion"
  issuedAtMs := a.approvedAtMs
  expiresAtMs := a.approvedAtMs + a.creation.maxExecutionMsPerTask

/-- The approval does not widen or substitute the definition. -/
def within (a : Authorization) (d : Definition) : Prop :=
  a.creation.definition = d.id ∧ a.creation.revision = 1
    ∧ a.creation.definitionSha256 = d.definitionSha256
    ∧ a.creation.validForMs ≤ d.creation.validForMs ∧ a.creation.maxRuns ≤ d.creation.maxRuns
    ∧ d.createdAtMs ≤ a.approvedAtMs ∧ a.scope.ownerContext = d.ownerContext

instance (a : Authorization) (d : Definition) : Decidable (a.within d) :=
  inferInstanceAs (Decidable (_ ∧ _))

/-- The scope is that of the frozen source, as long as it is there. -/
def matchesSource (a : Authorization) (d : Definition) : Result Unit :=
  match d.source with
  | none => .ok ()
  | some p => do
    let scope ← p.fixedScope
    ensure (scope = a.scope) "Approval scope differs from frozen compiled source"

/-- `automation_policy::validate_authorization`. -/
def validateFor (a : Authorization) (d : Definition) : Result Unit := do
  a.validate
  d.validate
  ensure (a.within d) "Approval widens or substitutes the retained definition"
  a.matchesSource d
  ScopeCompiler.compiles a.scope a.approvedAtMs
  each (fun o => do
    ensure (a.approvedAtMs + a.creation.maxExecutionMsPerTask ≤ u64Max) "Policy time overflow"
    (a.grantOf d.creation.fromJob o).validate) a.scope.operations

/-- What `Revoke` makes of a policy. -/
def revoke (a : Authorization) (c : Revoke) (runtime : String) (now : Nat) : Authorization :=
  { a with
    revision := 2
    state := .revoked
    revocation := some ⟨c.operationId, c.revision, now, runtime⟩ }

end Authorization

end

end Eef.Coordinator
