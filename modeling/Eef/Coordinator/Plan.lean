import Eef.Node.EventJournal
import Eef.Node.Lease

/-!
# Reviewed plans

The coordinator's job record (`task.rs`), with the parts a reviewed execution adds to
it: the compiled plan (`request_planning.rs`), the owner's approval
(`request_approval.rs`) and the execution record (`request_execution.rs`,
`request_recovery.rs`, `execution_stop.rs`).

A record that other files only carry along is kept as the document it is. What a
reader checks of a plan before it believes it is in `Execution.lean`.
-/

namespace Eef.Coordinator

open Eef.Lib Eef.Node

/-- `TaskStatus`. -/
inductive TaskStatus where
  | pending
  | running
  | completed
  | failed
  | skipped
  | cancelled
  | interrupted
  deriving DecidableEq, Repr

/-- `PlanStatus`. -/
inductive PlanStatus where
  | review
  | awaitingApproval
  | approved
  | pending
  | running
  | completed
  | failed
  | cancelled
  | paused
  | pausing
  | stopping
  | interrupted
  | abandoned
  deriving DecidableEq, Repr

/-- `Pending | Running | Pausing | Stopping`: a runner is expected. -/
def PlanStatus.active (s : PlanStatus) : Bool :=
  s == .pending || s == .running || s == .pausing || s == .stopping

/-- `Running | Stopping`. -/
def PlanStatus.live (s : PlanStatus) : Bool := s == .running || s == .stopping

theorem PlanStatus.active_of_live {s : PlanStatus} (h : s.live = true) : s.active = true := by
  cases s <;> simp_all [PlanStatus.live, PlanStatus.active]

/-- `TaskResult`. -/
structure TaskResult where
  taskId : String
  success : Bool
  data : Json
  error : String
  errorType : String
  durationMs : Nat
  attempts : Nat
  deriving DecidableEq, Repr

/-- `jobs::Assignment`. -/
structure Assignment where
  attempt : Nat
  nodeId : String
  resourceId : Option String
  modelId : Option String
  backend : Option String
  assignedAtMs : Nat
  deriving DecidableEq, Repr

/-- `Task`. -/
structure Task where
  requestContext : Option RequestContext
  taskId : String
  capability : String
  action : String
  params : Json
  dependencies : List String
  timeoutMs : Nat
  retryCount : Nat
  retryDelayMs : Nat
  constraints : Json
  status : TaskStatus
  result : Option TaskResult
  attempts : Nat
  assignments : List Assignment
  deriving DecidableEq, Repr

/-- `Goal`. -/
structure Goal where
  requestContext : Option RequestContext
  description : String
  template : String
  params : Json
  constraints : Json
  deriving DecidableEq, Repr

/-- `PlanInput`. -/
structure PlanInput where
  schemaVersion : Nat
  template : String
  params : Json
  constraints : Json
  deriving DecidableEq, Repr

/-- `PlannedBinding`. -/
structure PlannedBinding where
  taskId : String
  nodeId : String
  resourceId : Option String
  modelId : Option String
  backend : Option String
  deriving DecidableEq, Repr

/-- `PlanningRecord`. -/
structure PlanningRecord where
  schemaVersion : Nat
  operationId : String
  sourceRevision : Nat
  proposalIndex : Nat
  compiledAtMs : Nat
  input : PlanInput
  bindings : List PlannedBinding
  planSha256 : String
  preparation : Option Json
  deriving DecidableEq, Repr

/-- `DraftRecord`: the operation ids of its proposals and answers, the source revisions
its resolutions and preparations name, and the document they are read from. -/
structure DraftRecord where
  proposals : List String
  answers : List String
  sourceRevisions : List Nat
  document : Json
  deriving DecidableEq, Repr

/-- `TriggerLink`. -/
structure TriggerLink where
  scheduleId : String
  triggerId : String
  deriving DecidableEq, Repr

/-- `Delegation`. -/
structure Delegation where
  schemaVersion : Nat
  reservationId : String
  policyId : String
  policySha256 : String
  definitionId : String
  generation : Nat
  runtimeId : String
  trigger : Option TriggerLink
  deriving DecidableEq, Repr

/-- `workload_leases::definition::Template`. -/
structure WorkloadTemplate where
  schemaVersion : Nat
  executorNode : String
  priority : Int
  source : Source
  limits : Limits
  events : Events
  deriving DecidableEq, Repr

/-- `ApprovalRecord`. -/
structure ApprovalRecord where
  schemaVersion : Nat
  operationId : String
  sourceRevision : Nat
  planSha256 : String
  issuerId : String
  approvedAtMs : Nat
  validForMs : Nat
  expiresAtMs : Nat
  limits : GrantLimits
  approvalSha256 : String
  delegation : Option Delegation
  workload : Option WorkloadTemplate
  deriving DecidableEq, Repr

/-- `ExecuteCommand`. -/
structure ExecuteCommand where
  id : String
  expectedRevision : Nat
  operationId : String
  approvalSha256 : String
  deriving DecidableEq, Repr

/-- `AbandonActor`, also `RecoveryActor`. -/
inductive Actor where
  | coordinatorOwner
  | originNode
  deriving DecidableEq, Repr

/-- `AbandonCommand`. -/
structure AbandonCommand where
  id : String
  expectedRevision : Nat
  operationId : String
  grantId : String
  acknowledgeEffectsMayContinue : Bool
  deriving DecidableEq, Repr

/-- `AbandonRecord`. -/
structure AbandonRecord where
  schemaVersion : Nat
  command : AbandonCommand
  actor : Actor
  decidedAtMs : Nat
  deriving DecidableEq, Repr

/-- `RecoverCommand`. -/
structure RecoverCommand where
  id : String
  expectedRevision : Nat
  operationId : String
  grantId : String
  deriving DecidableEq, Repr

/-- `RecoveryRecord`. -/
structure RecoveryRecord where
  schemaVersion : Nat
  command : RecoverCommand
  actor : Actor
  decidedAtMs : Nat
  result : RetainedResult
  deriving DecidableEq, Repr

/-- `execution_stop::Delivery`. -/
structure Delivery where
  sendAttemptedAtMs : Nat
  report : Option StopReport
  outcomeUnknown : Bool
  deriving DecidableEq, Repr

/-- `AttemptState`. -/
inductive AttemptState where
  | issued
  | accepted
  | completed
  | rejected
  | unknown
  deriving DecidableEq, Repr

/-- `Issued | Accepted`. -/
def AttemptState.live (s : AttemptState) : Bool := s == .issued || s == .accepted

/-- `GrantedAttempt`. -/
structure GrantedAttempt where
  grant : ExecutionGrant
  state : AttemptState
  acknowledgement : Option GrantReport
  report : Option GrantReport
  recovery : Option RecoveryRecord
  stop : Option Delivery
  deriving DecidableEq, Repr

/-- `GrantedAttempt::final_report`. -/
def GrantedAttempt.finalReport (a : GrantedAttempt) : Option GrantReport :=
  (a.recovery.bind fun r => r.result.report) <|> a.report

/-- `workload_jobs::Completion`. -/
structure Completion where
  schemaVersion : Nat
  receipt : ConsumedReceipt
  report : CompletionReport
  lastIssuedLeaseSequence : Nat
  recordedAtMs : Nat
  deriving DecidableEq, Repr

/-- `workload_jobs::Execution`. -/
structure WorkloadExecution where
  definition : WorkloadDefinition
  issuedAtMs : Nat
  state : AttemptState
  acknowledgement : Option WorkloadReceipt
  completion : Option Completion
  deriving DecidableEq, Repr

/-- `ExecutionRecord`. The paired issuance is a document here: what it seals is checked
by `peer_jobs.rs` against the transport. -/
structure ExecutionRecord where
  schemaVersion : Nat
  command : ExecuteCommand
  startedAtMs : Nat
  attempts : List GrantedAttempt
  abandonment : Option AbandonRecord
  peer : Option Json
  stopRequestedAtMs : Option Nat
  workload : Option WorkloadExecution
  deriving DecidableEq, Repr

/-- `JobEvent`. -/
structure JobEvent where
  revision : Nat
  atMs : Nat
  message : String
  deriving DecidableEq, Repr

/-- `Plan`. -/
structure Plan where
  execution : Option ExecutionRecord
  approval : Option ApprovalRecord
  planning : Option PlanningRecord
  requestReview : Option DraftRecord
  planId : String
  goal : Goal
  tasks : List Task
  status : PlanStatus
  results : List (String × TaskResult)
  revision : Nat
  updatedAtMs : Nat
  history : List JobEvent
  deriving DecidableEq, Repr

/-- A task that waits is cancelled. -/
def Task.cancelled (t : Task) : Task :=
  if t.status = .pending then { t with status := .cancelled } else t

/-- A task before anything was issued for it. -/
def Task.fresh (t : Task) : Task :=
  { t with status := .pending, result := none, attempts := 0, assignments := [] }

/-- The part of a plan that is fixed once it is compiled. -/
structure PlanDefinition where
  planId : String
  goal : Goal
  tasks : List Task
  planning : Option PlanningRecord
  requestReview : Option DraftRecord
  deriving DecidableEq, Repr

namespace Plan

def definition (p : Plan) : PlanDefinition :=
  ⟨p.planId, p.goal, p.tasks.map Task.fresh, p.planning, p.requestReview⟩

/-- The attempts of a plan, none before it is executed. -/
def attempts (p : Plan) : List GrantedAttempt := (p.execution.map (·.attempts)).getD []

/-- `jobs::stamp`: every saved edit takes the next revision and enters the history. -/
def stamp (p : Plan) (event : String) (now : Nat) : Result Plan := do
  ensure (p.revision < u64Max) "Job revision exhausted; checkpoint unchanged"
  let history := p.history ++ [⟨p.revision + 1, now, event⟩]
  return { p with
    revision := p.revision + 1
    updatedAtMs := now
    history := if 128 < history.length then history.tail else history }

/-- `cancel_pending`. -/
def cancelPending (p : Plan) : Plan := { p with tasks := p.tasks.map Task.cancelled }

/-- Replaces one attempt of the execution. -/
def updateAttempt (p : Plan) (i : Nat) (f : GrantedAttempt → GrantedAttempt) : Plan :=
  { p with execution := p.execution.map fun e => { e with attempts := e.attempts.modify i f } }

/-- `operation_used`. -/
def operationUsed (p : Plan) (id : String) : Bool :=
  (p.execution.any fun e =>
    e.command.operationId == id || e.attempts.any fun a => a.grant.grantId == id)
  || (p.approval.any fun a => a.operationId == id)
  || (p.planning.any fun a => a.operationId == id)
  || (p.requestReview.any fun r => r.proposals.contains id || r.answers.contains id)

end Plan

end Eef.Coordinator
