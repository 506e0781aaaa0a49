import Eef.Coordinator.Peer

/-!
# What a stored execution has to satisfy

`request_execution::validate_retained` with the validators it calls: stop evidence
(`execution_stop.rs`), recovery records (`request_recovery.rs`), paired issuance
(`peer_jobs.rs`) and continuous workloads (`workload_jobs.rs`). `validateReview` is
`jobs::validate_retained_review`, which every read and every write of a job runs.

What the planner makes of a draft (`Planner`) is a parameter: it reads only the part of a
plan that no execution changes.
-/

namespace Eef.Coordinator

open Eef.Lib Eef.Node

/-- The compiler's part of `validate_retained_review`: the draft, its preparation and the
template it expands to, compared with the compiled tasks and their digest. -/
class Planner where
  definition : PlanDefinition → Result Unit

section
variable [F64] [PeerAdmission] [Sha256]

namespace Plan

/-! ## Stop evidence -/

/-- `execution_stop::validate`. -/
def validateStop (p : Plan) : Result Unit :=
  match p.execution with
  | none => .ok ()
  | some e => do
    bailIf (e.stopRequestedAtMs.any fun t => decide (t < e.startedAtMs ∨ i64Max < t))
      "Damaged execution stop timestamp"
    ensure (∀ a ∈ e.attempts, ∀ stop ∈ a.stop,
      (e.stopRequestedAtMs.any fun t => decide (t ≤ stop.sendAttemptedAtMs)) = true
      ∧ stop.sendAttemptedAtMs ≤ i64Max ∧ stop.outcomeUnknown = stop.report.isNone
      ∧ (stop.report.all fun r => confirmsStop r a.grant) = true)
      "Stop delivery differs from retained issuance"

/-! ## Execution -/

/-- `request_execution::result`. -/
def resultOf (g : ExecutionGrant) (r : GrantReport) : TaskResult where
  taskId := g.taskId
  success := r.success
  data := .null
  error := r.errorCode.getD ""
  errorType := if r.success then "" else "GrantExecution"
  durationMs := 0
  attempts := 1

end Plan

/-- A task without an attempt. -/
def Task.unissued (t : Task) : Prop :=
  (t.status = .pending ∨ t.status = .cancelled) ∧ t.attempts = 0 ∧ t.result = none
    ∧ t.assignments = []

instance (t : Task) : Decidable t.unissued := inferInstanceAs (Decidable (_ ∧ _))

namespace GrantedAttempt

/-- Completed, and the final report says so. -/
def succeeded (a : GrantedAttempt) : Prop :=
  a.state = .completed ∧ (a.finalReport.any fun r => r.success) = true

instance (a : GrantedAttempt) : Decidable a.succeeded := inferInstanceAs (Decidable (_ ∧ _))

/-- The task status and the report an attempt stands for, if its parts fit together. -/
def lifecycle (a : GrantedAttempt) (paired : Bool) : Option (TaskStatus × Option GrantReport) :=
  match a.state with
  | .issued =>
    if a.acknowledgement.isNone ∧ a.report.isNone then some (.running, none) else none
  | .accepted =>
    if a.acknowledgement.isSome ∧ a.report.isNone then some (.running, none) else none
  | .completed =>
    match a.finalReport with
    | some r =>
      if (a.acknowledgement.isSome ∨ a.recovery.isSome) ∧ r.state = .completed then
        some (if r.success then .completed else .failed, some r)
      else none
    | none => none
  | .rejected =>
    if a.acknowledgement.isNone ∧ (a.report.any fun r => r.state == .rejected) then
      some (.failed, a.report)
    else none
  | .unknown =>
    if (a.report.all fun r => r.state == .unknown) ∧
        (a.report.isNone ∨ a.acknowledgement.isSome ∨ paired) then
      some (.interrupted, a.report)
    else none

end GrantedAttempt

namespace Plan

/-! ## Pairs -/

section
variable [Pairing]

/-- The completed, successful reports of a pair. -/
def pairReports (e : ExecutionRecord) : List GrantReport :=
  (e.attempts.filterMap (·.report)).filter fun r => r.state == .completed && r.success

/-- Two successful ends moved the same content. -/
def pairContent (e : ExecutionRecord) : Prop :=
  ∀ a b, pairReports e = [a, b] →
    a.data.index "payload_bytes" = b.data.index "payload_bytes"
      ∧ a.data.index "payload_sha256" = b.data.index "payload_sha256"

instance (e : ExecutionRecord) : Decidable (pairContent e) :=
  match h : pairReports e with
  | [a, b] => decidable_of_iff
      (a.data.index "payload_bytes" = b.data.index "payload_bytes"
        ∧ a.data.index "payload_sha256" = b.data.index "payload_sha256") (by
        simp only [pairContent, h, List.cons.injEq, and_true, and_imp]
        constructor
        · rintro ha x y rfl rfl
          exact ha
        · intro ha
          exact ha a b rfl rfl)
  | [] => .isTrue (by simp [pairContent, h])
  | [_] => .isTrue (by simp [pairContent, h])
  | _ :: _ :: _ :: _ => .isTrue (by simp [pairContent, h])

/-- The status a settled pair has to have. -/
def pairOutcome (p : Plan) (e : ExecutionRecord) : PlanStatus :=
  if e.attempts.any fun a => a.state == .unknown then .interrupted
  else if p.tasks.any fun t => t.status == .failed then .failed
  else .completed

/-- The joint state of an issued pair. -/
def pairStates (p : Plan) (e : ExecutionRecord) : Prop :=
  pairContent e ∧ e.abandonment = none ∧ (∀ a ∈ e.attempts, a.recovery = none)
    ∧ if e.attempts.any fun a => a.state.live then p.status.live = true
      else p.status = p.pairOutcome e
        ∨ (p.pairOutcome e = .completed ∧ p.status = .cancelled)

instance (p : Plan) (e : ExecutionRecord) : Decidable (p.pairStates e) :=
  inferInstanceAs (Decidable (_ ∧ _))

/-- The tests of `peer_jobs::validate_retained` on the two ends of an issued pair. -/
def validateJoint (p : Plan) (e : ExecutionRecord) : Result Unit := do
  ensure (pairContent e) "Paired endpoints reported different content; no joint completion"
  ensure (e.abandonment = none ∧ ∀ a ∈ e.attempts, a.recovery = none)
    "Unsupported partial paired recovery/closure"
  let running := e.attempts.any fun a => a.state.live
  ensure (running = true → p.status.live = true) "Active pair has a terminal parent"
  ensure (running = false → p.status = p.pairOutcome e
    ∨ (p.pairOutcome e = .completed ∧ p.status = .cancelled))
    "Pair parent does not match both terminal outcomes"

omit [F64] [PeerAdmission] [Sha256] [Pairing] in
/-- They test the joint state. -/
theorem validateJoint_ok {p : Plan} {e : ExecutionRecord} {u : Unit} :
    p.validateJoint e = .ok u ↔ p.pairStates e := by
  simp only [validateJoint, pairStates, bind_ok, ensure_ok, exists_const, and_assoc]
  refine and_congr_right fun _ => and_congr_right fun _ => and_congr_right fun _ => ?_
  cases e.attempts.any fun a => a.state.live <;> simp

/-- `peer_jobs::validate_retained` of an execution. -/
def validatePair (p : Plan) (e : ExecutionRecord) : Result Bool := do
  let paired ← p.pairDefinition
  match e.peer with
  | some record =>
    ensure (paired = true) "Incomplete or misplaced paired issuance"
    Issuance.validateFor record p (e.attempts.map (·.grant))
    p.validateJoint e
    ensure (∀ a ∈ e.attempts, (∀ v ∈ a.acknowledgement, Issuance.confirms record a.grant v = true)
      ∧ ∀ v ∈ a.finalReport, Issuance.confirms record a.grant v = true) "Cross-session paired report"
  | none => ensure (paired = false ∨ e.attempts = []) "Incomplete or misplaced paired issuance"
  return paired

end

/-- The header test of `request_execution::validate_retained`. -/
def executionBounds (p : Plan) (e : ExecutionRecord) (approval : ApprovalRecord)
    (planning : PlanningRecord) (draft : DraftRecord) : Prop :=
  e.schemaVersion = 1 ∧ e.command.id = p.planId
    ∧ e.command.approvalSha256 = approval.approvalSha256
    ∧ approval.sourceRevision < e.command.expectedRevision
    ∧ e.command.expectedRevision < p.revision
    ∧ approval.approvedAtMs ≤ e.startedAtMs ∧ e.startedAtMs < approval.expiresAtMs
    ∧ e.command.operationId ≠ approval.operationId ∧ e.command.operationId ≠ planning.operationId
    ∧ e.command.operationId ∉ draft.proposals ∧ e.command.operationId ∉ draft.answers
    ∧ (p.status = .running ∨ p.status = .stopping ∨ p.status = .completed ∨ p.status = .failed
      ∨ p.status = .interrupted ∨ p.status = .cancelled ∨ p.status = .abandoned)
    ∧ e.attempts.length ≤ p.tasks.length

instance (p : Plan) (e : ExecutionRecord) (approval : ApprovalRecord) (planning : PlanningRecord)
    (draft : DraftRecord) : Decidable (p.executionBounds e approval planning draft) :=
  inferInstanceAs (Decidable (_ ∧ _))

/-- The grant of an attempt is the approved one, under its own identity and times. -/
def grantFixed (e : ExecutionRecord) (approval : ApprovalRecord) (planning : PlanningRecord)
    (paired : Bool) (i : Nat) (t : Task) (a : GrantedAttempt) (expected : ExecutionGrant) : Prop :=
  a.grant = { expected with grantId := a.grant.grantId, sessionId := a.grant.sessionId,
                            issuedAtMs := a.grant.issuedAtMs, expiresAtMs := a.grant.expiresAtMs }
    ∧ e.startedAtMs ≤ a.grant.issuedAtMs ∧ a.grant.expiresAtMs ≤ approval.expiresAtMs
    ∧ a.grant.issuedAtMs + a.grant.limits.maxExecutionMs ≤ u64Max
    ∧ a.grant.expiresAtMs =
      min (a.grant.issuedAtMs + a.grant.limits.maxExecutionMs) approval.expiresAtMs
    ∧ (∀ b ∈ e.attempts.take i, b.grant.grantId ≠ a.grant.grantId)
    ∧ a.grant.grantId ≠ e.command.operationId ∧ a.grant.grantId ≠ approval.operationId
    ∧ a.grant.grantId ≠ planning.operationId ∧ t.attempts = 1 ∧ t.assignments.length = 1
    ∧ (paired = false → 0 < i → ∀ b ∈ e.attempts[i - 1]?, b.succeeded)

instance (e : ExecutionRecord) (approval : ApprovalRecord) (planning : PlanningRecord)
    (paired : Bool) (i : Nat) (t : Task) (a : GrantedAttempt) (expected : ExecutionGrant) :
    Decidable (grantFixed e approval planning paired i t a expected) :=
  inferInstanceAs (Decidable (_ ∧ _))

/-- The assignment a grant leaves on its task. -/
def assignmentOf (g : ExecutionGrant) : Assignment :=
  ⟨1, g.executorNode, g.resourceId, g.modelId, g.backend, g.issuedAtMs⟩

/-- The saved reports confirm the grant. -/
def reportsFixed (a : GrantedAttempt) : Prop :=
  (∀ ack ∈ a.acknowledgement, ack.state = .accepted ∧ ack.confirms a.grant)
    ∧ (∀ r ∈ a.report, r.confirms a.grant ∧ r.state ≠ .accepted)

/-- The bounds of `request_recovery::validate_record`. -/
def recoveryBounds (p : Plan) (e : ExecutionRecord) (a : GrantedAttempt) (r : RecoveryRecord) :
    Prop :=
  a.state = .completed ∧ RetainedResult.confirms r.result a.grant = true ∧ r.command.id = p.planId
    ∧ r.command.grantId = a.grant.grantId
    ∧ e.command.expectedRevision < r.command.expectedRevision
    ∧ r.command.expectedRevision + 1 ≤ p.revision
    ∧ a.grant.issuedAtMs ≤ r.decidedAtMs ∧ r.decidedAtMs ≤ p.updatedAtMs
    ∧ p.operationUsed r.command.operationId = false ∧ e.abandonment = none
    ∧ (e.attempts.getLast?.any fun last => last.grant.grantId == a.grant.grantId) = true
    ∧ (∀ report ∈ a.report, report.state = .unknown)
    ∧ ¬(a.report.isSome ∧ a.acknowledgement.isNone)
    ∧ ¬(p.status = .running ∨ p.status = .stopping ∨ p.status = .abandoned)
    ∧ ((∀ t ∈ p.tasks, t.status = .completed) → p.status = .completed)
    ∧ ((∃ t ∈ p.tasks, t.status = .failed) → p.status = .failed)

instance (p : Plan) (e : ExecutionRecord) (a : GrantedAttempt) (r : RecoveryRecord) :
    Decidable (p.recoveryBounds e a r) := inferInstanceAs (Decidable (_ ∧ _))

/-- `request_recovery::validate_record`. -/
def validateRecovery (p : Plan) (e : ExecutionRecord) (a : GrantedAttempt) : Result Unit :=
  match a.recovery with
  | none => .ok ()
  | some r => do
    r.validate
    ensure (p.recoveryBounds e a r) "Damaged recovery evidence; retained without dispatch or replay"

/-- One turn of the loop of `request_execution::validate_retained`. -/
def validateTask (p : Plan) (e : ExecutionRecord) (approval : ApprovalRecord)
    (planning : PlanningRecord) (paired : Bool) (i : Nat) (t : Task) : Result Unit :=
  match e.attempts[i]? with
  | none => ensure t.unissued "Unissued reviewed task has execution state"
  | some a => do
    a.grant.validate
    let expected ← p.scope i approval
    ensure (grantFixed e approval planning paired i t a expected)
      "Grant differs from its fixed approved definition or predecessor"
    ensure (t.assignments = [assignmentOf a.grant]) "Grant assignment changed"
    ensure (∀ ack ∈ a.acknowledgement, ack.state = .accepted ∧ ack.confirms a.grant)
      "Invalid durable grant acknowledgement"
    ensure (∀ r ∈ a.report, r.confirms a.grant ∧ r.state ≠ .accepted) "Invalid scoped completion"
    p.validateRecovery e a
    let (status, report) ← context (a.lifecycle paired) "Grant lifecycle is inconsistent"
    ensure (t.status = status) "Task does not match its grant lifecycle"
    ensure (t.result = report.map (resultOf a.grant)) "Task result differs from the scoped receipt"

/-- The results the attempts stand for. -/
def attemptResults (p : Plan) (e : ExecutionRecord) (paired : Bool) : List (String × TaskResult) :=
  (p.tasks.zip e.attempts).filterMap fun (t, a) =>
    (a.lifecycle paired).bind fun s => s.2.map fun r => (t.taskId, resultOf a.grant r)

/-- Two result maps agree. -/
def sameResults (a b : List (String × TaskResult)) : Prop :=
  ∀ k ∈ a.map Prod.fst ++ b.map Prod.fst, a.lookup k = b.lookup k

instance (a b : List (String × TaskResult)) : Decidable (sameResults a b) :=
  inferInstanceAs (Decidable (∀ _ ∈ _, _))

/-- The statuses of plan, tasks and attempts go together. -/
def statusFits (p : Plan) (e : ExecutionRecord) (paired : Bool) : Prop :=
  (p.status.live = false → ∀ a ∈ e.attempts, a.state.live = false)
    ∧ (p.status = .completed → ∀ t ∈ p.tasks, t.status = .completed)
    ∧ (p.status = .failed → ∃ t ∈ p.tasks, t.status = .failed)
    ∧ (p.status = .cancelled → ∀ t ∈ p.tasks,
      ¬(t.status = .pending ∨ t.status = .running ∨ t.status = .interrupted))
    ∧ (paired = false → p.status.live = true → ∀ t ∈ p.tasks,
      ¬(t.status = .interrupted ∨ t.status = .failed))
    ∧ e.attempts.countP (fun a => a.state.live) ≤ (if paired then 2 else 1)

instance (p : Plan) (e : ExecutionRecord) (paired : Bool) : Decidable (p.statusFits e paired) :=
  inferInstanceAs (Decidable (_ ∧ _))

/-- The state test of `request_execution::validate_retained`. -/
def statesAgree (p : Plan) (e : ExecutionRecord) (paired : Bool) : Prop :=
  sameResults (p.attemptResults e paired) p.results ∧ p.statusFits e paired

instance (p : Plan) (e : ExecutionRecord) (paired : Bool) : Decidable (p.statesAgree e paired) :=
  inferInstanceAs (Decidable (_ ∧ _))

/-- The bounds of an abandonment. -/
def abandonmentBounds (p : Plan) (e : ExecutionRecord) (record : AbandonRecord)
    (a : GrantedAttempt) : Prop :=
  record.schemaVersion = 1 ∧ p.status = .abandoned ∧ record.command.id = p.planId
    ∧ record.command.grantId = a.grant.grantId
    ∧ e.command.expectedRevision < record.command.expectedRevision
    ∧ record.command.expectedRevision + 1 = p.revision
    ∧ a.grant.issuedAtMs ≤ record.decidedAtMs ∧ e.startedAtMs ≤ record.decidedAtMs
    ∧ record.decidedAtMs ≤ p.updatedAtMs ∧ p.operationUsed record.command.operationId = false
    ∧ a.state = .unknown
    ∧ ∀ t ∈ p.tasks, ¬(t.status = .pending ∨ t.status = .running ∨ t.status = .failed)

instance (p : Plan) (e : ExecutionRecord) (record : AbandonRecord) (a : GrantedAttempt) :
    Decidable (p.abandonmentBounds e record a) := inferInstanceAs (Decidable (_ ∧ _))

/-- The abandonment test of `request_execution::validate_retained`. -/
def validateAbandonment (p : Plan) (e : ExecutionRecord) : Result Unit :=
  match e.abandonment with
  | none => ensure (p.status ≠ .abandoned)
      "Abandoned tracking lacks an explicit uncertainty acknowledgement"
  | some record => do
    record.command.validate
    let a ← context e.attempts.getLast? "Abandonment lacks an issued attempt"
    ensure (p.abandonmentBounds e record a)
      "Damaged abandonment receipt; retained without recovery or replay"

end Plan

/-! ## Continuous workloads -/

/-- `COMPLETION_RESERVE`. -/
def completionReserve : Nat := 16 * 1024

def consumedJson (r : ConsumedReceipt) : Json :=
  .obj ([("schema_version", .nat r.schemaVersion), ("node_id", .str r.nodeId),
    ("issuer_id", .str r.issuerId), ("grant_id", .str r.grantId),
    ("grant_sha256", .str r.grantSha256), ("job_id", .str r.jobId), ("task_id", .str r.taskId),
    ("attempt", .nat r.attempt), ("state", .str r.state.name),
    ("accepted_at_ms", .nat r.acceptedAtMs), ("updated_at_ms", .nat r.updatedAtMs)]
    ++ (r.pipelineProgress.map fun p => ("pipeline_progress", p.toJson)).toList)

namespace Completion

def toJson (c : Completion) : Json :=
  .obj [("schema_version", .nat c.schemaVersion), ("receipt", consumedJson c.receipt),
    ("report", c.report.toJson),
    ("last_issued_lease_sequence", .nat c.lastIssuedLeaseSequence),
    ("recorded_at_ms", .nat c.recordedAtMs)]

/-- `node_receipt`. -/
def nodeReceipt (c : Completion) (d : WorkloadDefinition) : WorkloadReceipt where
  schemaVersion := 3
  receipt := c.receipt
  definition := d
  executionAuthorized := false
  restartAuthorized := false
  completion := some c.report

/-- The bounds of `Completion::validate`. -/
def bounded (c : Completion) (d : WorkloadDefinition) (ack : WorkloadReceipt) (issuedAtMs : Nat) :
    Prop :=
  c.schemaVersion = 1 ∧ ack.definition = d ∧ ack.receipt.state = .accepted
    ∧ c.receipt.state = .completed ∧ c.receipt.acceptedAtMs = ack.receipt.acceptedAtMs
    ∧ ack.receipt.updatedAtMs ≤ c.receipt.updatedAtMs
    ∧ ack.receipt.updatedAtMs ≤ c.report.recordedAtMs
    ∧ c.report.leaseSequence ≤ c.lastIssuedLeaseSequence ∧ issuedAtMs ≤ c.recordedAtMs
    ∧ c.toJson.size ≤ completionReserve - 1024

instance (c : Completion) (d : WorkloadDefinition) (ack : WorkloadReceipt) (issuedAtMs : Nat) :
    Decidable (c.bounded d ack issuedAtMs) := inferInstanceAs (Decidable (_ ∧ _))

/-- `Completion::validate`. -/
def validate (c : Completion) (d : WorkloadDefinition) (ack : WorkloadReceipt)
    (issuedAtMs : Nat) : Result Unit := do
  ack.validate
  (c.nodeReceipt d).validate
  ensure (c.bounded d ack issuedAtMs)
    "Completed workload differs from its consumed ACK or issued lease history"

end Completion

namespace Plan

/-- The workload's definition is that of the approved plan, whatever its state. -/
def workloadFixed (p : Plan) (e : ExecutionRecord) (w : WorkloadExecution) (a : ApprovalRecord)
    (t : WorkloadTemplate) (task : Task) : Prop :=
  e.attempts = [] ∧ e.peer = none ∧ e.abandonment = none ∧ e.stopRequestedAtMs = none
    ∧ e.command.id = p.planId ∧ e.command.approvalSha256 = a.approvalSha256
    ∧ e.command.operationId ≠ a.operationId ∧ a.sourceRevision < e.command.expectedRevision
    ∧ e.command.expectedRevision < p.revision ∧ e.startedAtMs = w.issuedAtMs
    ∧ a.approvedAtMs ≤ w.issuedAtMs ∧ w.issuedAtMs + t.limits.maxSessionMs ≤ u64Max
    ∧ w.issuedAtMs + t.limits.maxSessionMs ≤ a.expiresAtMs
    ∧ (⟨w.definition.schemaVersion, w.definition.executorNode, w.definition.priority,
        w.definition.source, w.definition.limits, w.definition.events⟩ : WorkloadTemplate) = t
    ∧ w.definition.planSha256 = a.planSha256 ∧ w.definition.issuerId = a.issuerId
    ∧ w.definition.jobId = p.planId ∧ w.definition.taskId = task.taskId ∧ w.definition.attempt = 1
    ∧ some w.definition.requestContext = p.goal.requestContext
    ∧ w.definition.grantId ≠ e.command.operationId ∧ w.definition.grantId ≠ a.operationId
    ∧ task.capability = workloadCapability ∧ task.attempts = 1 ∧ task.result = none
    ∧ p.results = [] ∧ task.assignments.length = 1

instance (p : Plan) (e : ExecutionRecord) (w : WorkloadExecution) (a : ApprovalRecord)
    (t : WorkloadTemplate) (task : Task) : Decidable (p.workloadFixed e w a t task) :=
  inferInstanceAs (Decidable (_ ∧ _))

/-- The states of plan, task and workload go together. -/
def workloadStates (p : Plan) (w : WorkloadExecution) (task : Task) : Prop :=
  match w.state with
  | .issued => w.acknowledgement = none ∧ w.completion = none ∧ p.status = .running
      ∧ task.status = .running
  | .accepted => w.acknowledgement.isSome ∧ w.completion = none ∧ p.status = .running
      ∧ task.status = .running
  | .unknown => w.completion = none ∧ p.status = .interrupted ∧ task.status = .interrupted
  | .completed => w.acknowledgement.isSome ∧ w.completion.isSome ∧ p.status = .completed
      ∧ task.status = .completed
  | .rejected => False

instance (p : Plan) (w : WorkloadExecution) (task : Task) : Decidable (p.workloadStates w task) := by
  unfold workloadStates
  split <;> infer_instance

/-- The acknowledgement a workload retains. -/
def validateAcknowledgement (w : WorkloadExecution) : Result Unit :=
  match w.acknowledgement with
  | none => .ok ()
  | some ack => do
    ack.validate
    ensure (ack.definition = w.definition ∧ ack.receipt.state = .accepted)
      "Wrong workload consumption ACK"

/-- The completion a workload retains. -/
def validateCompletion (p : Plan) (w : WorkloadExecution) : Result Unit :=
  match w.completion with
  | none => .ok ()
  | some c => do
    ensure (c.recordedAtMs ≤ p.updatedAtMs) "Completion is newer than its coordinator checkpoint"
    let ack ← context w.acknowledgement "Completion lacks consumed ACK"
    c.validate w.definition ack w.issuedAtMs

/-- `workload_jobs::validate_execution`. -/
def validateWorkload (p : Plan) : Result Unit := do
  let e ← context p.execution "Missing workload execution"
  let w ← context e.workload "Missing workload issuance"
  let a ← context p.approval "Missing workload approval"
  let t ← p.template
  let task ← context p.tasks[0]? "index out of bounds"
  w.definition.validate
  e.command.validate
  p.uniqueOperation e.command.operationId
  ensure (e.schemaVersion = if w.completion.isSome then 3 else 2)
    "Workload issuance differs from its exact approved plan"
  ensure (p.workloadFixed e w a t task) "Workload issuance differs from its exact approved plan"
  p.uniqueOperation w.definition.grantId
  ensure (task.assignments =
    [⟨1, t.executorNode, some t.source.resourceId, none, none, w.issuedAtMs⟩])
    "Workload assignment changed"
  validateAcknowledgement w
  p.validateCompletion w
  ensure (p.workloadStates w task) "Invalid workload lifecycle; retained evidence cannot resume work"

/-! ## The whole record -/

variable [Pairing]

/-- `request_execution::validate_retained`. -/
def validateExecution (p : Plan) : Result Unit :=
  if p.execution.any fun e => e.schemaVersion == 2 || e.workload.isSome then p.validateWorkload
  else do
    p.validateStop
    match p.execution with
    | none => pure ()
    | some e =>
      let paired ← p.validatePair e
      e.command.validate
      let approval ← context p.approval "Execution lacks owner approval"
      let planning ← context p.planning "Execution lacks concrete plan"
      let draft ← context p.requestReview "Execution lacks review"
      ensure (p.executionBounds e approval planning draft)
        "Damaged execution receipt; retained without replay"
      each (fun it => p.validateTask e approval planning paired it.2 it.1) p.tasks.zipIdx
      ensure (p.statesAgree e paired) "Reviewed execution/result state is inconsistent"
      p.validateAbandonment e

/-- The state tests of `request_planning::validate_retained`; a test on the definition is
`Planner`'s. -/
def plannedBounds (p : Plan) (record : PlanningRecord) : Prop :=
  record.sourceRevision ≠ 0 ∧ record.sourceRevision < p.revision
    ∧ (p.execution = none →
      p.status = .awaitingApproval ∨ p.status = .approved ∨ p.status = .cancelled)
    ∧ p.tasks ≠ [] ∧ p.tasks.length ≤ 128 ∧ record.bindings.length = p.tasks.length
    ∧ (p.execution = none → p.results = [])
    ∧ (p.tasks.map (·.taskId)).Nodup
    ∧ (p.execution = none → ∀ t ∈ p.tasks, t.attempts = 0 ∧ t.result = none ∧ t.assignments = []
      ∧ t.status = if p.status = .cancelled then .cancelled else .pending)

instance (p : Plan) (record : PlanningRecord) : Decidable (p.plannedBounds record) :=
  inferInstanceAs (Decidable (_ ∧ _))

variable [Planner]

/-- `request_planning::validate_retained`. -/
def validatePlanned (p : Plan) : Result Unit := do
  let record ← context p.planning "Missing concrete plan record"
  ensure (p.plannedBounds record) "Invalid retained concrete plan state"
  p.validateApproval
  p.validateExecution

/-- The tests of a review that has not been compiled. -/
def unplannedBounds (p : Plan) : Prop :=
  p.approval = none ∧ p.execution = none ∧ (p.status = .review ∨ p.status = .cancelled)
    ∧ p.tasks = []

instance (p : Plan) : Decidable p.unplannedBounds := inferInstanceAs (Decidable (_ ∧ _))

/-- `jobs::validate_retained_review`. -/
def validateReview (p : Plan) : Result Unit :=
  match p.requestReview with
  | some draft => do
    Planner.definition p.definition
    ensure (∀ r ∈ draft.sourceRevisions, r < p.revision)
      "Damaged resolution revision; retained for recovery"
    bailIf (p.execution = none ∧ p.results ≠ []) "Damaged review state; retained for recovery"
    if p.planning.isSome then p.validatePlanned
    else ensure p.unplannedBounds "Damaged unplanned review state; retained for recovery"
  | none =>
    bailIf ((p.status = .review ∨ p.status = .awaitingApproval ∨ p.status = .approved
        ∨ p.status = .abandoned) ∨ p.planning.isSome ∨ p.approval.isSome ∨ p.execution.isSome)
      "Damaged review data; retained for recovery"

end Plan

end

/-! ## Plans to evaluate -/

/-- The owner's approval of one reachability check. -/
def sampleApproval : ApprovalRecord where
  schemaVersion := 1
  operationId := "66666666-6666-4666-8666-666666666666"
  sourceRevision := 3
  planSha256 := sampleGrant.planSha256
  issuerId := sampleGrant.issuerId
  approvedAtMs := 1000
  validForMs := 60000
  expiresAtMs := 61000
  limits := ⟨5000, 65536⟩
  approvalSha256 := "18e948a9e83ffe73fad7990566fbf74a0ec1f61c71f310f4aa733dc7ee1f258c"
  delegation := none
  workload := none

/-- The compiled check. -/
def samplePlanning : PlanningRecord where
  schemaVersion := 1
  operationId := "99999999-9999-4999-8999-999999999999"
  sourceRevision := 2
  proposalIndex := 0
  compiledAtMs := 900
  input := ⟨1, "reachability", .obj [], .obj []⟩
  bindings := [⟨sampleGrant.taskId, sampleGrant.executorNode, none, none, none⟩]
  planSha256 := sampleGrant.planSha256
  preparation := none

/-- Its only task. -/
def sampleTask : Task where
  requestContext := none
  taskId := sampleGrant.taskId
  capability := sampleGrant.capability
  action := sampleGrant.action
  params := .obj []
  dependencies := []
  timeoutMs := 60000
  retryCount := 0
  retryDelayMs := 0
  constraints := .obj []
  status := .pending
  result := none
  attempts := 0
  assignments := []

/-- An approved plan of one check. -/
def samplePlan : Plan where
  execution := none
  approval := some sampleApproval
  planning := some samplePlanning
  requestReview := some ⟨["12121212-1212-4212-8212-121212121212"], [], [1], .obj []⟩
  planId := sampleGrant.jobId
  goal := ⟨some sampleGrant.requestContext, "ping", "reachability", .obj [], .obj []⟩
  tasks := [sampleTask]
  status := .approved
  results := []
  revision := 4
  updatedAtMs := 1000
  history := []

/-- The command that executes it. -/
def sampleExecute : ExecuteCommand where
  id := sampleGrant.jobId
  expectedRevision := 4
  operationId := "13131313-1313-4313-8313-131313131313"
  approvalSha256 := sampleApproval.approvalSha256

/-- The template of the sample workload. -/
def sampleTemplate : WorkloadTemplate where
  schemaVersion := 2
  executorNode := sampleWorkload.executorNode
  priority := 0
  source := sampleWorkload.source
  limits := sampleWorkload.limits
  events := sampleWorkload.events

/-- Its approval. -/
def workloadApproval : ApprovalRecord :=
  { sampleApproval with
    schemaVersion := 2
    limits := sampleTemplate.mirror
    approvalSha256 := "6e0826c0f1ce19911ab901ff68bf39b5e2fbf820d5a6abfacb8f4443c1a260e2"
    workload := some sampleTemplate }

/-- A plan whose workload was issued. -/
def workloadPlan : Plan :=
  { samplePlan with
    execution := some ⟨2, { sampleExecute with approvalSha256 := workloadApproval.approvalSha256 },
      1000, [], none, none, none, some ⟨sampleWorkload, 1000, .issued, none, none⟩⟩
    approval := some workloadApproval
    planning := some { samplePlanning with schemaVersion := 2 }
    goal := ⟨some sampleGrant.requestContext, "listen", workloadTemplate,
      .obj [("workload", sampleTemplate.toJson)], .obj []⟩
    tasks := [{ sampleTask with
      taskId := sampleWorkload.taskId
      capability := workloadCapability
      status := .running
      attempts := 1
      assignments := [⟨1, sampleWorkload.executorNode, some sampleWorkload.source.resourceId, none,
        none, 1000⟩] }]
    status := .running
    revision := 5 }

/-- SHA-256 on the two approvals. -/
@[reducible]
def approvalSha : Sha256 :=
  Sha256.table
    [(sampleApproval.toJson, sampleApproval.approvalSha256),
      (workloadApproval.toJson, workloadApproval.approvalSha256)] [] []
    sampleGrant.planSha256 sampleGrant_planSha256 (by decide) Sha256.no_rows Sha256.no_rows

/-- A planner that compiled the two plans. -/
@[reducible]
def samplePlanner : Planner where
  definition d :=
    ensure (d = samplePlan.definition ∨ d = workloadPlan.definition) "Damaged review state"

/-- A coordinator without pairs. -/
@[reducible]
def Pairing.never : Pairing where
  fromParams _ := .error "Invalid exact pair"
  validateScope _ := .error "Invalid peer scope or bounds"
  verifyEnvelope _ _ _ := .error "Saved peer envelope identity or scope differs"

section
attribute [local instance] F64.bits PeerAdmission.never approvalSha samplePlanner Pairing.never

/-- The coordinator accepts the two plans. -/
theorem plans_reviewed :
    samplePlan.validateReview = .ok () ∧ workloadPlan.validateReview = .ok () := by
  decide +kernel

theorem samplePlan_valid : samplePlan.validateReview = .ok () := plans_reviewed.1

theorem workloadPlan_valid : workloadPlan.validateReview = .ok () := plans_reviewed.2

end

end Eef.Coordinator
