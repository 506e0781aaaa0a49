import Eef.Coordinator.Execution

/-!
# The transitions of a reviewed execution

The closures that change a stored plan, as the engine and the driver run them: `start`,
`issueNext` (`drive` up to the saved grant), `record` (`AttemptJournal::record`), `cancel`,
`deliverStop` and `confirmStop` (`stop_one`), `interrupt`, `recover`
(`request_recovery::apply`), `abandon` and the driver's own settlement of a stop. A closure that answers `Ok(false)` leaves the plan alone and is
`none` here.

`commit` is what `JobStore::edit` does with the plan a closure leaves: earlier stop and
workload evidence has to survive, the revision goes up, and the result has to pass
`validateReview`.
-/

namespace Eef.Coordinator

open Eef.Lib Eef.Node

/-- `ApprovalRecord::active_at`. -/
def ApprovalRecord.activeAt (a : ApprovalRecord) (p : Plan) (now : Nat) : Prop :=
  p.status = .approved ∧ a.approvedAtMs ≤ now ∧ now < a.expiresAtMs

instance (a : ApprovalRecord) (p : Plan) (now : Nat) : Decidable (a.activeAt p now) :=
  inferInstanceAs (Decidable (_ ∧ _))

/-- The attempt a grant starts as. -/
def GrantedAttempt.ofGrant (g : ExecutionGrant) : GrantedAttempt :=
  ⟨g, .issued, none, none, none, none⟩

/-- The attempt state a final report leads to. -/
def finalState : ReceiptState → AttemptState
  | .completed => .completed
  | .rejected => .rejected
  | _ => .unknown

/-- The task status a final report leads to. -/
def finalStatus (r : GrantReport) : TaskStatus :=
  if r.state = .unknown then .interrupted else if r.success then .completed else .failed

def Task.assign (a : Assignment) (t : Task) : Task :=
  { t with status := .running, attempts := 1, assignments := t.assignments ++ [a] }

def GrantedAttempt.accept (r : GrantReport) (a : GrantedAttempt) : GrantedAttempt :=
  { a with state := .accepted, acknowledgement := some r }

def GrantedAttempt.settle (r : GrantReport) (a : GrantedAttempt) : GrantedAttempt :=
  { a with state := finalState r.state, report := some r }

def GrantedAttempt.reconcile (r : RecoveryRecord) (a : GrantedAttempt) : GrantedAttempt :=
  { a with state := .completed, recovery := some r }

def Task.settle (s : TaskStatus) (v : TaskResult) (t : Task) : Task :=
  { t with status := s, result := some v }

def GrantedAttempt.interrupted (a : GrantedAttempt) : GrantedAttempt :=
  if a.state.live then { a with state := .unknown } else a

def WorkloadExecution.interrupted (w : WorkloadExecution) : WorkloadExecution :=
  if w.state.live then { w with state := .unknown } else w

def Task.interrupted (t : Task) : Task :=
  if t.status = .running then { t with status := .interrupted } else t

section
variable [F64] [PeerAdmission] [Sha256]

namespace Plan

/-! ## Start and issuance -/

/-- `request_execution::start`. -/
def start (p : Plan) (c : ExecuteCommand) (now : Nat) : Result Plan := do
  c.validate
  let a ← context p.approval "Owner approval missing"
  bailIf (a.workload.isSome ∨ a.schemaVersion ≠ 1)
    "Workload approval cannot enter the v1 execution path"
  ensure (p.execution = none ∧ p.planId = c.id ∧ p.revision = c.expectedRevision
    ∧ a.approvalSha256 = c.approvalSha256 ∧ a.activeAt p now) "Execution state/approval changed"
  return { p with execution := some ⟨1, c, now, [], none, none, none, none⟩, status := .running }

/-- `append_attempt`. -/
def appendAttempt (p : Plan) (g : ExecutionGrant) : Plan :=
  { p with
    tasks := p.tasks.modify p.attempts.length (Task.assign (assignmentOf g))
    execution := p.execution.map fun e =>
      { e with attempts := e.attempts ++ [GrantedAttempt.ofGrant g] } }

/-- `request_execution::issue`. -/
def issue [Pairing] (p : Plan) (index : Nat) (g : ExecutionGrant) : Result Plan := do
  let paired ← p.pairDefinition
  bailIf (paired = true) "Peer grants require one atomic paired issuance"
  ensure (p.status = .running) "Issuance requires the active reviewed execution"
  let e ← context p.execution "Missing execution receipt"
  let t ← context p.tasks[index]? "index out of bounds"
  ensure (e.attempts.length = index ∧ t.status = .pending ∧ t.attempts = 0
    ∧ (0 < index →
      (e.attempts[index - 1]?.any fun b => b.report.any fun r => r.success) = true))
    "Task already issued or dependencies unresolved"
  return p.appendAttempt g

/-- The grant `drive` makes for the next task, under a fresh identity. -/
def nextGrant (p : Plan) (grantId session : String) (now : Nat) : Result ExecutionGrant := do
  let e ← context p.execution "Missing execution receipt"
  let approval ← context p.approval "Owner approval missing"
  ensure (approval.approvedAtMs ≤ now ∧ now < approval.expiresAtMs)
    "Owner approval expired or clock changed"
  let scope ← p.scope e.attempts.length approval
  ensure (now + scope.limits.maxExecutionMs ≤ u64Max) "Grant time overflow"
  let grant : ExecutionGrant :=
    { scope with grantId := grantId, sessionId := session, issuedAtMs := now,
                 expiresAtMs := min (now + scope.limits.maxExecutionMs) approval.expiresAtMs }
  grant.validate
  return grant

/-- The issuance checkpoint of `drive`: the plan is the one the driver read, since the
closure compares its revision. -/
def issueNext [Pairing] (p : Plan) (grantId session : String) (now : Nat) : Result Plan := do
  let g ← p.nextGrant grantId session now
  p.issue p.attempts.length g

/-- `peer_jobs::issue`: both grants of a pair, with the sealed issuance. -/
def issuePair [Pairing] (p : Plan) (g₁ g₂ : ExecutionGrant) (issuance : Json) : Result Plan := do
  let e ← context p.execution "Missing execution request"
  ensure (p.status = .running ∧ e.attempts = [] ∧ e.peer = none
    ∧ ∀ t ∈ p.tasks, t.status = .pending ∧ t.attempts = 0 ∧ t.assignments = [])
    "Pair issuance requires two untouched reviewed tasks"
  Issuance.validateFor issuance p [g₁, g₂]
  let q : Plan := { p with execution := some { e with peer := some issuance } }
  return (q.appendAttempt g₁).appendAttempt g₂

/-! ## Reports -/

/-- `peer_jobs::settle`. -/
def settlePair (p : Plan) : Plan :=
  if p.attempts.any fun a => a.state.live then p
  else { p with
    status :=
      if p.attempts.any fun a => a.state == .unknown then .interrupted
      else if p.tasks.any fun t => t.status == .failed then .failed
      else if p.status = .stopping then .cancelled
      else .completed }

/-- What a final report makes of the plan. -/
def settleReport (p : Plan) (report : GrantReport) : Plan :=
  if p.execution.any fun e => e.peer.isSome then p.settlePair
  else if report.state = .unknown then { p with status := .interrupted }
  else if report.success = false then ({ p with status := .failed } : Plan).cancelPending
  else if p.status = .stopping then ({ p with status := .cancelled } : Plan).cancelPending
  else if ∀ t ∈ p.tasks, t.status = .completed then { p with status := .completed }
  else p

/-- A final report follows the state its attempt is in. -/
def finalAllowed (e : ExecutionRecord) (a : GrantedAttempt) (r : GrantReport) : Prop :=
  (a.state = .issued ∧ r.state = .rejected)
    ∨ (e.peer.isSome ∧ a.state = .issued ∧ r.state = .unknown)
    ∨ (a.state = .accepted ∧ (r.state = .completed ∨ r.state = .unknown))

instance (e : ExecutionRecord) (a : GrantedAttempt) (r : GrantReport) :
    Decidable (finalAllowed e a r) := inferInstanceAs (Decidable (_ ∨ _))

/-- The plan with a final report on attempt `i` and task `j`. -/
def applyReport (p : Plan) (i j : Nat) (g : ExecutionGrant) (r : GrantReport) : Plan :=
  { p.updateAttempt i (GrantedAttempt.settle r) with
    tasks := p.tasks.modify j (Task.settle (finalStatus r) (resultOf g r))
    results := Assoc.set g.taskId (resultOf g r) p.results }

/-- `AttemptJournal::record`. -/
def record [Pairing] (p : Plan) (grantId : String) (r : GrantReport) : Result (Option Plan) := do
  let e ← context p.execution "Missing issuance"
  let i ← context (e.attempts.findIdx? fun a => a.grant.grantId == grantId) "Unknown issued grant"
  let a ← context e.attempts[i]? "Unknown issued grant"
  ensure (r.confirms a.grant) "Report does not confirm issued authority"
  ensure (∀ peer ∈ e.peer, Issuance.confirms peer a.grant r = true)
    "Report belongs to another paired session"
  if a.acknowledgement = some r ∨ a.report = some r then return none
  else do
    ensure (p.status.live = true) "No live reviewed attempt"
    if r.state = .accepted then do
      ensure (a.state = .issued) "Attempt already acknowledged or unresolved"
      return some (p.updateAttempt i (GrantedAttempt.accept r))
    else do
      ensure (finalAllowed e a r) "Completion lacks the matching saved acceptance"
      let j ← context (p.tasks.findIdx? fun t => t.taskId == a.grant.taskId) "Unknown task"
      return some ((p.applyReport i j a.grant r).settleReport r)

/-! ## Stop and interruption -/

/-- `TaskEngine::cancel`. -/
def cancel (p : Plan) (hasRunner : Bool) (now : Nat) : Result Plan := do
  bailIf (p.attempts.any fun a => a.state == .unknown)
    ("Issued work is uncertain; inspect grant receipts/effects before claiming remote stop. "
      ++ "It will not replay or migrate.")
  bailIf (p.status = .completed ∨ p.status = .failed ∨ p.status = .cancelled)
    "Job is already finished"
  let q : Plan := { p with
    status := if hasRunner then .stopping else .cancelled
    execution := p.execution.map fun e =>
      { e with stopRequestedAtMs := some (e.stopRequestedAtMs.getD (max now e.startedAtMs)) } }
  return if hasRunner then q else q.cancelPending

/-- `can_settle_unissued_stop`. -/
def canSettleUnissuedStop (p : Plan) : Bool :=
  p.status == .stopping && p.execution.any fun e =>
    e.workload.isNone && e.attempts.all fun a => a.state == .completed || a.state == .rejected

/-- `settle_unissued_stop`, also the driver's settlement of a stop it reads. -/
def settleStop (p : Plan) : Plan := ({ p with status := .cancelled } : Plan).cancelPending

/-- The closure of `JobStore::interrupt`. -/
def interrupt (p : Plan) : Plan :=
  if p.status.active then
    if p.canSettleUnissuedStop then p.settleStop
    else { p with
      execution := p.execution.map fun e =>
        { e with attempts := e.attempts.map GrantedAttempt.interrupted
                 workload := e.workload.map WorkloadExecution.interrupted }
      status := .interrupted
      tasks := p.tasks.map Task.interrupted }
  else p

/-- The attempt of a grant with a stop about to be sent. -/
def GrantedAttempt.deliver (now : Nat) (a : GrantedAttempt) : GrantedAttempt :=
  { a with stop := some ⟨now, none, true⟩ }

/-- The attempt of a grant with the node's answer to the stop. -/
def GrantedAttempt.confirmStop (r : StopReport) (a : GrantedAttempt) : GrantedAttempt :=
  { a with stop := a.stop.map fun d => { d with report := some r, outcomeUnknown := false } }

/-- The first checkpoint of `stop_one`: saved before the only send. -/
def deliverStop (p : Plan) (g : ExecutionGrant) (now : Nat) : Result (Option Plan) := do
  let e ← context p.execution "Missing execution issuance"
  match e.stopRequestedAtMs with
  | none => return none
  | some requested => do
    let i ← context (e.attempts.findIdx? fun a => a.grant.grantId == g.grantId)
      "Stop grant is not issued"
    let a ← context e.attempts[i]? "Stop grant is not issued"
    ensure (a.grant = g) "Stop cannot retarget changed issuance"
    if a.stop.isSome then return none
    else return some (p.updateAttempt i (GrantedAttempt.deliver (max now requested)))

/-- The second checkpoint of `stop_one`: the node's answer. -/
def confirmStop (p : Plan) (g : ExecutionGrant) (r : StopReport) : Result (Option Plan) := do
  let e ← context p.execution "Stop issuance vanished"
  let i ← context (e.attempts.findIdx? fun a => a.grant.grantId == g.grantId)
    "Stop issuance vanished"
  let a ← context e.attempts[i]? "Stop issuance vanished"
  ensure (a.grant = g ∧ confirmsStop r g = true) "Stop receipt scope changed"
  let d ← context a.stop "Stop send checkpoint missing"
  match d.report with
  | some existing => do
    ensure (existing = r) "Stop receipt already differs"
    return none
  | none => return some (p.updateAttempt i (GrantedAttempt.confirmStop r))

/-! ## Recovery and abandonment -/

variable [Pairing]

/-- `receipt_attempt`. -/
def receiptAttempt (p : Plan) (id grantId : String) (origin : Option String) :
    Result GrantedAttempt := do
  validateDraftId id
  validateOperationId grantId
  bailIf (isNil grantId) "Invalid grant ID"
  ensure (p.planId = id ∧ ∀ node ∈ origin, (p.goal.requestContext.any (·.originNode == node)) = true)
    "Request not found for this origin"
  p.validateExecution
  context (p.attempts.find? fun a => a.grant.grantId == grantId)
    "Issued attempt not found for this request"

/-- Who decides. -/
def actor (origin : Option String) : Actor :=
  if origin.isSome then .originNode else .coordinatorOwner

/-- `request_recovery::eligible`: true for an exact reuse. -/
def eligible (p : Plan) (c : RecoverCommand) (origin : Option String) (unavailable : Bool) :
    Result Bool := do
  c.validate
  let a ← p.receiptAttempt c.id c.grantId origin
  match a.recovery with
  | some r =>
    ensure (r.command = c ∧ r.actor = actor origin)
      "Recovery already retained; inspect without replacing the receipt"
    return true
  | none =>
    let e ← context p.execution "No reviewed execution"
    bailIf e.peer.isSome
      "Paired reconciliation is not available; inspect both retained receipts without replay"
    ensure (unavailable = false ∧ p.status = .interrupted ∧ p.revision = c.expectedRevision
      ∧ a.state = .unknown ∧ e.abandonment = none
      ∧ (e.attempts.getLast?.any fun last => last.grant.grantId == c.grantId) = true
      ∧ p.operationUsed c.operationId = false
      ∧ ∀ b ∈ e.attempts, ∀ r ∈ b.recovery, r.command.operationId ≠ c.operationId)
      ("Recovery requires the exact idle interrupted revision and uncertain last grant; "
        ++ "no job change")
    return false

/-- `request_recovery::settle`. -/
def settleRecovery (p : Plan) (success : Bool) : Plan :=
  if success = false then { p.cancelPending with status := .failed }
  else if ∀ t ∈ p.tasks, t.status = .completed then { p with status := .completed }
  else { p with status := .interrupted }

/-- The plan with retained evidence on its last attempt. -/
def applyRecovery (p : Plan) (i : Nat) (g : ExecutionGrant) (record : RecoveryRecord)
    (report : GrantReport) : Plan :=
  { p.updateAttempt i (GrantedAttempt.reconcile record) with
    tasks := p.tasks.modify i
      (Task.settle (if report.success then .completed else .failed) (resultOf g report))
    results := Assoc.set g.taskId (resultOf g report) p.results }

/-- `request_recovery::apply`. -/
def recover (p : Plan) (c : RecoverCommand) (origin : Option String) (unavailable : Bool)
    (evidence : RetainedResult) (now : Nat) : Result (Option Plan) := do
  let reused ← p.eligible c origin unavailable
  if reused then return none
  else do
    let a ← context p.attempts.getLast? "No issued attempt"
    let record : RecoveryRecord := ⟨1, c, actor origin, now, evidence⟩
    record.validate
    ensure (RetainedResult.confirms evidence a.grant = true ∧ p.updatedAtMs ≤ now
      ∧ a.grant.issuedAtMs ≤ now)
      "Retained result does not confirm the exact issued grant; no job change"
    let report ← context evidence.report "Missing retained report"
    return some ((p.applyRecovery (p.attempts.length - 1) a.grant record report).settleRecovery
      report.success)

/-- `request_execution::abandon`. -/
def abandon (p : Plan) (c : AbandonCommand) (origin : Option String) (unavailable : Bool)
    (now : Nat) : Result (Option Plan) := do
  c.validate
  let a ← p.receiptAttempt c.id c.grantId origin
  let e ← context p.execution "No reviewed execution"
  bailIf e.peer.isSome
    ("Paired tracking closure needs explicit joint uncertainty handling; "
      ++ "inspect both receipts")
  match e.abandonment with
  | some existing =>
    ensure (existing.command = c ∧ existing.actor = actor origin)
      "Abandonment already retained; inspect it without replacing the receipt"
    return none
  | none =>
    ensure (unavailable = false ∧ p.status = .interrupted ∧ p.revision = c.expectedRevision
      ∧ a.state = .unknown ∧ p.updatedAtMs ≤ now ∧ a.grant.issuedAtMs ≤ now
      ∧ p.operationUsed c.operationId = false)
      ("Abandonment requires the exact idle interrupted revision/uncertain grant and a new "
        ++ "receipt; no job change")
    let record : AbandonRecord := ⟨1, c, actor origin, now⟩
    let q : Plan := { p with execution := some { e with abandonment := some record } }
    return some { q.cancelPending with status := .abandoned }

end Plan

/-! ## Saving -/

namespace Plan

/-- The saved deliveries of a plan, by grant (`execution_stop::snapshot`). -/
def deliveries (p : Plan) : List (String × Delivery) :=
  p.attempts.filterMap fun a => a.stop.map fun s => (a.grant.grantId, s)

/-- `execution_stop::preserve`. -/
def preserveStop (old new : Plan) : Result Unit := do
  ensure (∀ t ∈ old.execution.bind (·.stopRequestedAtMs),
    new.execution.bind (·.stopRequestedAtMs) = some t)
    "A retained stop request cannot be erased or retimed"
  ensure (∀ d ∈ old.deliveries, (new.deliveries.lookup d.1).isSome)
    "A stop delivery cannot be erased or retargeted"
  ensure (∀ d ∈ old.deliveries, ∀ s ∈ new.deliveries.lookup d.1,
    d.2.sendAttemptedAtMs = s.sendAttemptedAtMs ∧ (d.2.report.isSome → d.2 = s))
    "Retained stop receipt is immutable"

/-- The moves `workload_jobs::preserve` allows. -/
def workloadMoves : AttemptState → AttemptState → Bool
  | .issued, s => s == .issued || s == .accepted || s == .unknown
  | .accepted, s => s == .accepted || s == .completed || s == .unknown
  | .unknown, s => s == .unknown
  | .completed, s => s == .completed
  | .rejected, _ => false

/-- The workload of a plan with the record it belongs to (`workload_jobs::snapshot`). -/
def workloadOf (p : Plan) : Option (ExecutionRecord × WorkloadExecution) :=
  p.execution.bind fun e => e.workload.map fun w => (e, w)

/-- `workload_jobs::preserve`. -/
def preserveWorkload (old new : Plan) : Result Unit :=
  match old.workloadOf with
  | none => .ok ()
  | some (e, w) => do
    let (e', w') ← context new.workloadOf "Retained workload issuance cannot be erased"
    ensure (w'.definition = w.definition ∧ w'.issuedAtMs = w.issuedAtMs ∧ e'.command = e.command
      ∧ e'.startedAtMs = e.startedAtMs
      ∧ (w.acknowledgement = none ∨ w'.acknowledgement = w.acknowledgement)
      ∧ (w.completion = none ∨ w'.completion = w.completion))
      "Retained workload identity/ACK/completion is immutable"
    ensure (workloadMoves w.state w'.state = true)
      "Retired workload cannot return to active state"

/-- What `JobStore::edit` does with the plan its closure leaves. -/
def commit [Pairing] [Planner] (old new : Plan) (event : String) (now : Nat) : Result Plan := do
  preserveStop old new
  preserveWorkload old new
  let q ← new.stamp event now
  q.validateReview
  return q

end Plan

end

end Eef.Coordinator
