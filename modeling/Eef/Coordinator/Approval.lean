import Eef.Coordinator.Plan
import Eef.Node.Admission

/-!
# Commands and the owner's approval

The command records of `eefn` with their validators, and the approval a reviewed plan
carries (`request_approval.rs`): the grant it stands for (`scope`) and what a stored
approval has to satisfy (`validateApproval`), for a finite plan and for a continuous one
(`workload_jobs::validate_approval`).
-/

namespace Eef.Coordinator

open Eef.Lib Eef.Node

/-! ## Commands and records -/

/-- `ExecuteCommand::validate`. -/
def ExecuteCommand.validate (c : ExecuteCommand) : Result Unit := do
  validateDraftId c.id
  validateOperationId c.operationId
  ensure (isNil c.operationId = false ∧ c.expectedRevision ≠ 0 ∧ c.expectedRevision ≠ u64Max
    ∧ hexDigest c.approvalSha256) "Invalid exact approval execution command"

/-- `AbandonCommand::validate`. -/
def AbandonCommand.validate (c : AbandonCommand) : Result Unit := do
  validateDraftId c.id
  validateOperationId c.operationId
  validateOperationId c.grantId
  ensure (isNil c.operationId = false ∧ isNil c.grantId = false ∧ c.operationId ≠ c.grantId
    ∧ c.expectedRevision ≠ 0 ∧ c.expectedRevision ≠ u64Max ∧ c.acknowledgeEffectsMayContinue)
    "Exact uncertainty acknowledgement and receipt identities required"

/-- `RecoverCommand::validate`. -/
def RecoverCommand.validate (c : RecoverCommand) : Result Unit := do
  validateDraftId c.id
  validateOperationId c.operationId
  validateOperationId c.grantId
  ensure (c.expectedRevision ≠ 0 ∧ c.expectedRevision ≠ u64Max ∧ isNil c.operationId = false
    ∧ isNil c.grantId = false ∧ c.operationId ≠ c.grantId)
    "Exact source revision and distinct recovery receipt required"

section
variable [F64] [PeerAdmission] [Sha256]

/-- `RetainedResult::confirms`. -/
def RetainedResult.confirms (s : RetainedResult) (g : ExecutionGrant) : Bool :=
  isOk s.validate && s.receipt.confirms g
    && decide (s.maxResultBytes = 0 ∨ s.maxResultBytes = g.limits.maxResultBytes)
    && s.report.all fun r => decide (r.confirms g)

/-- `stop::Report::confirms`. -/
def confirmsStop (r : StopReport) (g : ExecutionGrant) : Bool :=
  match Scope.fromGrant g with
  | .ok s => r.confirmsScope s
  | .error _ => false

/-- `RecoveryRecord::validate`. -/
def RecoveryRecord.validate (r : RecoveryRecord) : Result Unit := do
  r.command.validate
  r.result.validate
  ensure (r.schemaVersion = 1 ∧ r.decidedAtMs ≠ 0 ∧ r.result.receipt.jobId = r.command.id
    ∧ r.result.receipt.grantId = r.command.grantId
    ∧ (r.result.report.any fun report => report.state == .completed) = true)
    "Only retained completed evidence can reconcile tracking"

/-! ## Approval -/

def TriggerLink.toJson (l : TriggerLink) : Json :=
  .obj [("schedule_id", .str l.scheduleId), ("trigger_id", .str l.triggerId)]

def Delegation.toJson (d : Delegation) : Json :=
  .obj ([("schema_version", .nat d.schemaVersion), ("reservation_id", .str d.reservationId),
    ("policy_id", .str d.policyId), ("policy_sha256", .str d.policySha256),
    ("definition_id", .str d.definitionId), ("generation", .nat d.generation),
    ("runtime_id", .str d.runtimeId)]
    ++ (d.trigger.map fun l => ("trigger", l.toJson)).toList)

def WorkloadTemplate.toJson (t : WorkloadTemplate) : Json :=
  .obj [("schema_version", .nat t.schemaVersion), ("executor_node", .str t.executorNode),
    ("priority", intJson t.priority), ("source", t.source.toJson), ("limits", t.limits.toJson),
    ("events", t.events.toJson)]

/-- `ApprovalRecord` as a document, without its own digest. -/
def ApprovalRecord.toJson (a : ApprovalRecord) : Json :=
  .obj ([("schema_version", .nat a.schemaVersion), ("operation_id", .str a.operationId),
    ("source_revision", .nat a.sourceRevision), ("plan_sha256", .str a.planSha256),
    ("issuer_id", .str a.issuerId), ("approved_at_ms", .nat a.approvedAtMs),
    ("valid_for_ms", .nat a.validForMs), ("expires_at_ms", .nat a.expiresAtMs),
    ("limits", .obj [("max_execution_ms", .nat a.limits.maxExecutionMs),
      ("max_result_bytes", .nat a.limits.maxResultBytes)])]
    ++ (a.delegation.map fun d => ("delegation", d.toJson)).toList
    ++ (a.workload.map fun w => ("workload", w.toJson)).toList)

/-- `request_approval::digest`. -/
def ApprovalRecord.digest (a : ApprovalRecord) : String := Sha256.definition a.toJson

/-- `Delegation::validate`. -/
def Delegation.validate (d : Delegation) : Result Unit := do
  match d.trigger with
  | none => pure ()
  | some l =>
    validateUuid l.scheduleId
    validateUuid l.triggerId
    ensure (l.scheduleId ≠ l.triggerId ∧ l.scheduleId ≠ d.policyId ∧ l.triggerId ≠ d.reservationId)
      "Invalid durable trigger reference"
  each validateUuid [d.reservationId, d.policyId, d.definitionId, d.runtimeId]
  ensure (d.schemaVersion = 1 ∧ d.generation ≠ 0 ∧ d.reservationId ≠ d.policyId
    ∧ hexDigest d.policySha256) "Invalid delegated approval reference"

/-- `workload_leases::definition::TEMPLATE`. -/
def workloadTemplate : String := "continuous_workload"

/-- `workload_leases::definition::CAPABILITY`. -/
def workloadCapability : String := "workload.session"

namespace WorkloadTemplate

def fromJson (j : Json) : Option WorkloadTemplate := do
  let fs ← j.struct ["schema_version", "executor_node", "priority", "source", "limits", "events"] 6
  let schemaVersion ← Json.field fs "schema_version" (Json.asUInt 32)
  let executorNode ← Json.field fs "executor_node" Json.asStr
  let priority ← Json.field fs "priority" asI32
  let source ← Json.field fs "source" Source.fromJson
  let limits ← Json.field fs "limits" Limits.fromJson
  let events ← Json.field fs "events" Events.fromJson
  return { schemaVersion, executorNode, priority, source, limits, events }

/-- `Template::validate`. -/
def validate (t : WorkloadTemplate) : Result Unit := do
  ensure (t.schemaVersion = 2 ∧ t.toJson.size ≤ 64 * 1024)
    "Invalid workload template schema or size"
  validateComponents t.executorNode t.priority t.source t.limits t.events

/-- `Template::from_params`. -/
def fromParams (params : Json) : Result WorkloadTemplate := do
  ensure (params.keys = ["workload"]) "Workload input requires one exact definition"
  let t ← context (fromJson (params.index "workload")) "Workload template cannot be decoded"
  t.validate
  return t

/-- `mirror`: the short window and the reporting budget in the common record. -/
def mirror (t : WorkloadTemplate) : GrantLimits :=
  ⟨t.limits.maxLeaseMs, t.events.maxTotalBytes⟩

end WorkloadTemplate

/-- `validate_options`. -/
def validateOptions (planSha256 : String) (validForMs : Nat) (limits : GrantLimits) : Result Unit :=
  ensure (hexDigest planSha256 ∧ (1 ≤ validForMs ∧ validForMs ≤ 86400000)
    ∧ (1 ≤ limits.maxExecutionMs ∧ limits.maxExecutionMs ≤ maxDurationMs)
    ∧ (1024 ≤ limits.maxResultBytes ∧ limits.maxResultBytes ≤ 1024 * 1024)
    ∧ limits.maxExecutionMs ≤ validForMs)
    "Invalid approval digest, validity or execution/result bounds"

/-- A delegated approval names its reservation. -/
def ApprovalRecord.validateDelegation (a : ApprovalRecord) : Result Unit :=
  match a.delegation with
  | none => .ok ()
  | some d => do
    d.validate
    ensure (d.reservationId = a.operationId) "Delegation receipt differs from approval"

namespace Plan

/-- The grant `request_approval::scope` derives for a task, before its own checks. -/
def scopeOf (p : Plan) (task : Task) (binding : PlannedBinding) (origin : RequestContext)
    (record : ApprovalRecord) : ExecutionGrant where
  schemaVersion := 1
  grantId := record.operationId
  sessionId := record.operationId
  issuerId := record.issuerId
  executorNode := binding.nodeId
  jobId := p.planId
  taskId := task.taskId
  attempt := 1
  planSha256 := record.planSha256
  requestContext := origin
  capability := task.capability
  action := task.action
  params := task.params
  resourceId := binding.resourceId
  modelId := binding.modelId
  backend := binding.backend
  modelRole := (task.constraints.index "model_role").asStr
  priority := 0
  limits := record.limits
  reporting := "acceptance_and_completion"
  issuedAtMs := record.approvedAtMs
  expiresAtMs := record.approvedAtMs + record.limits.maxExecutionMs

/-- `request_approval::scope`. -/
def scope (p : Plan) (index : Nat) (record : ApprovalRecord) : Result ExecutionGrant := do
  bailIf (record.schemaVersion ≠ 1 ∨ record.workload.isSome)
    "Workload approval cannot authorize a v1 operation"
  let task ← context p.tasks[index]? "index out of bounds"
  let planning ← context p.planning "Missing compiled plan"
  let binding ← context planning.bindings[index]? "index out of bounds"
  let origin ← context p.goal.requestContext "Missing request origin"
  ensure (record.approvedAtMs + record.limits.maxExecutionMs ≤ u64Max) "Approval time overflow"
  bailIf (task.timeoutMs < record.limits.maxExecutionMs) "Approval exceeds compiled task deadline"
  let value := p.scopeOf task binding origin record
  value.validate
  return value

/-- The bounds of `request_approval::validate_retained`. -/
def approvalBounds (p : Plan) (record : ApprovalRecord) (planning : PlanningRecord)
    (draft : DraftRecord) : Prop :=
  isNil record.operationId = false ∧ record.schemaVersion = 1 ∧ hexDigest record.issuerId
    ∧ (p.execution = none → p.status = .approved ∨ p.status = .cancelled)
    ∧ planning.sourceRevision < record.sourceRevision ∧ record.sourceRevision < p.revision
    ∧ planning.compiledAtMs ≤ record.approvedAtMs ∧ record.approvedAtMs ≠ 0
    ∧ record.approvedAtMs + record.validForMs = record.expiresAtMs ∧ record.expiresAtMs ≤ u64Max
    ∧ record.planSha256 = planning.planSha256 ∧ record.operationId ≠ planning.operationId
    ∧ record.operationId ∉ draft.proposals ∧ record.operationId ∉ draft.answers
    ∧ hexDigest record.approvalSha256 ∧ record.digest = record.approvalSha256

instance (p : Plan) (record : ApprovalRecord) (planning : PlanningRecord) (draft : DraftRecord) :
    Decidable (p.approvalBounds record planning draft) := inferInstanceAs (Decidable (_ ∧ _))

/-- `workload_jobs::template`. -/
def template (p : Plan) : Result WorkloadTemplate := do
  ensure (p.goal.template = workloadTemplate ∧ p.tasks.length = 1)
    "Not one reviewed workload session"
  WorkloadTemplate.fromParams p.goal.params

/-- `unique_operation`. -/
def uniqueOperation (p : Plan) (id : String) : Result Unit := do
  validateUuid id
  let draft ← context p.requestReview "Workload lacks review"
  ensure (id ∉ draft.proposals ∧ id ∉ draft.answers ∧ ∀ r ∈ p.planning, r.operationId ≠ id)
    "Workload operation identity reused"

/-- The bounds of `workload_jobs::validate_approval`. -/
def workloadApprovalBounds (p : Plan) (a : ApprovalRecord) (r : PlanningRecord)
    (w : WorkloadTemplate) : Prop :=
  a.schemaVersion = 2 ∧ a.workload = some w ∧ a.delegation = none ∧ r.schemaVersion = 2
    ∧ a.planSha256 = r.planSha256 ∧ hexDigest a.issuerId ∧ a.limits = w.mirror
    ∧ r.sourceRevision < a.sourceRevision ∧ a.sourceRevision < p.revision
    ∧ r.compiledAtMs ≤ a.approvedAtMs ∧ 0 < a.approvedAtMs
    ∧ (w.limits.maxSessionMs ≤ a.validForMs ∧ a.validForMs ≤ 86400000)
    ∧ a.approvedAtMs + a.validForMs = a.expiresAtMs ∧ a.expiresAtMs ≤ u64Max
    ∧ a.digest = a.approvalSha256
    ∧ (p.execution.isSome ∨ p.status = .approved ∨ p.status = .cancelled)

instance (p : Plan) (a : ApprovalRecord) (r : PlanningRecord) (w : WorkloadTemplate) :
    Decidable (p.workloadApprovalBounds a r w) := inferInstanceAs (Decidable (_ ∧ _))

/-- `workload_jobs::validate_approval`. -/
def validateWorkloadApproval (p : Plan) : Result Unit := do
  let a ← context p.approval "Workload approval unavailable"
  let r ← context p.planning "Workload lacks concrete planning"
  let w ← p.template
  p.uniqueOperation a.operationId
  ensure (p.workloadApprovalBounds a r w) "Damaged workload approval; no v1 fallback or activation"

/-- `request_approval::validate_retained`. -/
def validateApproval (p : Plan) : Result Unit :=
  match p.approval with
  | none => ensure (p.status ≠ .approved) "Approved state lacks an owner receipt"
  | some record =>
    if record.schemaVersion = 2 ∨ record.workload.isSome then p.validateWorkloadApproval
    else do
      let planning ← context p.planning "Approval lacks a concrete plan"
      let draft ← context p.requestReview "Approval lacks a request review"
      validateOptions record.planSha256 record.validForMs record.limits
      validateOperationId record.operationId
      record.validateDelegation
      ensure (p.approvalBounds record planning draft)
        "Damaged owner approval; retained without activation"
      each (fun i => do let _ ← p.scope i record) (List.range p.tasks.length)

end Plan

end

end Eef.Coordinator
