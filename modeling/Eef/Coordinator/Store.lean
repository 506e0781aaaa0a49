import Eef.Coordinator.Recurrence
import Eef.Coordinator.Transitions
import Eef.Lib.Table
import Mathlib.Data.List.Sort

/-!
# The coordinator's journal

The nine tables of `jobs.rs` and its modules, and what reading them checks. A row is the
record its text spells; `reserved` is the column of that name. Every reader validates
what it reads against the rows it depends on: a policy against its definition, a schedule
against its policy, a trigger against its schedule (`validatedHistory`), a reservation
against its policy, its schedule and the job it was made for (`checkOccurrences`).
-/

namespace Eef.Coordinator

open Eef.Lib Eef.Node

/-- A row of `durable_jobs`. -/
structure JobRow where
  plan : Plan
  reserved : Nat
  deriving DecidableEq, Repr

/-- A row of `automation_authorizations`. -/
structure PolicyRow where
  record : Authorization
  reserved : Nat
  deriving DecidableEq, Repr

/-- A row of `automation_schedules`. -/
structure ScheduleRow where
  record : Schedule
  reserved : Nat
  deriving DecidableEq, Repr

/-- `model_verification_intents::Intent`, of a model on a node. -/
structure Intent where
  nodeId : String
  operationId : String
  definition : Json
  coordinatorRuntimeId : String
  createdAtMs : Nat
  deriving DecidableEq, Repr

/-- `setup_model_check::State`. -/
inductive CheckState where
  | waiting
  | launching
  | cancelled
  | expired
  | finished
  | unknown
  deriving DecidableEq, Repr

/-- `setup_model_check::Record`; each row reserves 4096 bytes. -/
structure SetupCheck where
  nodeId : String
  operationId : String
  definition : Json
  coordinatorRuntimeId : String
  createdAtMs : Nat
  state : CheckState
  outcome : Option Json
  deriving DecidableEq, Repr

/-- `JobStore`: its tables and the limits it was opened with. -/
structure Store where
  maxCount : Nat
  maxBytes : Nat
  jobs : List JobRow
  definitions : List Definition
  authorizations : List PolicyRow
  occurrences : List Reservation
  archives : List Archive
  schedules : List ScheduleRow
  triggers : List Trigger
  intents : List Intent
  checks : List SetupCheck
  deriving DecidableEq, Repr

/-- A journal without rows. -/
def Store.fresh (maxCount maxBytes : Nat) : Store :=
  ⟨maxCount, maxBytes, [], [], [], [], [], [], [], [], []⟩

/-- `SCHEDULE_COST`. -/
def scheduleCost : Nat := 4096

/-- `reserve` of `automation_authorizations.rs`. -/
def Authorization.reserve (a : Authorization) : Nat :=
  if a.revocation = none then 1024 else 0

section
variable [F64] [PeerAdmission] [Sha256] [Planner] [Pairing] [ScopeCompiler]

namespace Store

/-! ## Definitions and policies -/

/-- `read_definition`. -/
def readDefinition (s : Store) (id : String) : Result Definition := do
  let d ← context (Table.find Definition.id id s.definitions) "Automation definition unavailable"
  d.validateStored
  return d

/-- `validate_read_record`. -/
def checkPolicy (s : Store) (row : PolicyRow) : Result Unit := do
  let d ← s.readDefinition row.record.creation.definition
  row.record.validateFor d
  ensure (row.reserved = row.record.reserve) "Authorization identity/revocation reserve mismatch"

/-- `automation_authorizations::read`. -/
def readPolicy (s : Store) (id : String) : Result (Option Authorization) :=
  match Table.find (fun row => row.record.id) id s.authorizations with
  | none => .ok none
  | some row => do
    s.checkPolicy row
    return some row.record

/-- The generations of a definition's policies. -/
def generations (s : Store) (definition : String) : List Nat :=
  ((s.authorizations.map (·.record)).filter fun a => a.creation.definition = definition).map
    (·.generation)

/-- `automation_authorizations::records`. -/
def policies (s : Store) : Result (List Authorization) := do
  each s.checkPolicy s.authorizations
  ensure (∀ row ∈ s.authorizations,
    (s.generations row.record.creation.definition).insertionSort (· ≤ ·) =
      List.range' 1 (s.generations row.record.creation.definition).length)
    "Authorization generation history is damaged; retain without activation"
  return s.authorizations.map (·.record)

/-- The latest generation of a definition, zero before its first approval. -/
def latestGeneration (s : Store) (definition : String) : Nat :=
  (s.generations definition).foldr max 0

/-! ## Schedules and triggers -/

/-- `automation_schedules::policy`. -/
def policyOf (s : Store) (id : String) : Result Authorization := do
  let p ← s.readPolicy id
  context p "Trigger policy missing"

/-- What reading a schedule checks. -/
def checkSchedule (s : Store) (row : ScheduleRow) : Result Unit := do
  let p ← s.policyOf row.record.creation.policy
  let d ← s.readDefinition p.creation.definition
  row.record.validateData p d
  ensure (row.record.toJson.size ≤ scheduleCost
    ∧ row.reserved = scheduleCost - row.record.toJson.size) "Schedule row identity/headroom differs"

/-- `read_schedule`. -/
def readSchedule (s : Store) (id : String) : Result (Option Schedule) :=
  match Table.find (fun row => row.record.id) id s.schedules with
  | none => .ok none
  | some row => do
    s.checkSchedule row
    return some row.record

/-- A schedule that has to be there. -/
def scheduleOf (s : Store) (id msg : String) : Result Schedule := do
  let sch ← s.readSchedule id
  context sch msg

/-- What reading a trigger checks. -/
def checkTrigger (s : Store) (t : Trigger) : Result Unit := do
  let sch ← s.scheduleOf t.scheduleId "Trigger schedule missing"
  let p ← s.policyOf sch.creation.policy
  t.validateData sch p

/-- `read_trigger`, of a trigger that has to be there. -/
def triggerOf (s : Store) (id : String) : Result Trigger := do
  let t ← context (Table.find Trigger.id id s.triggers) "Trigger missing"
  s.checkTrigger t
  return t

/-- The triggers of a schedule, in order. -/
def ownTriggers (s : Store) (id : String) : List Trigger :=
  (s.triggers.filter fun t => t.scheduleId = id).insertionSort fun a b => a.ordinal ≤ b.ordinal

/-- The request of a live job. -/
def hasRequest (s : Store) (request : String) : Bool :=
  s.jobs.any fun row => row.plan.goal.requestContext.any fun c => c.requestId == request

/-- The clock of a claim in flight is that of its launch, else of its claim. -/
def inFlightAt (sch : Schedule) (t : Trigger) : Prop :=
  sch.observedAtMs = sch.launchStartedAtMs.getD t.claimedAtMs
    ∧ ∀ at' ∈ sch.launchStartedAtMs, t.claimedAtMs ≤ at' ∧ at' < sch.expiresAtMs

instance (sch : Schedule) (t : Trigger) : Decidable (inFlightAt sch t) :=
  inferInstanceAs (Decidable (_ ∧ _))

/-- A refusal is of the last claim, for which no work is retained. -/
def checkRefusal (s : Store) (sch : Schedule) : Result Unit :=
  match sch.refusal with
  | none => .ok ()
  | some r => do
    let t ← context (s.ownTriggers sch.id).getLast? "Refusal lacks actual durable claim"
    ensure (r.triggerId = t.id ∧ r.triggerSha256 = t.recordSha256)
      "Backend refusal differs from immutable claim"
    bailIf ((s.occurrences.any fun o => o.id == t.reservationId) = true
      ∨ s.hasRequest t.requestContext.requestId = true)
      "Refused-before-launch evidence conflicts with retained work; no resolution"

/-- A schedule and its own claims. -/
def checkClaims (s : Store) (sch : Schedule) : Result Unit := do
  let own := s.ownTriggers sch.id
  ensure (own.length = sch.claimedRuns ∧ own.map (·.ordinal) = List.range' 1 own.length
    ∧ ∀ id ∈ sch.activeTrigger, (own.getLast?.any fun t => t.id == id) = true)
    "Trigger ordinal/count/ownership history differs; no budget reset"
  ensure (sch.state = .inFlight → (own.getLast?.any fun t => decide (inFlightAt sch t)) = true)
    "In-flight schedule clock differs from its claim"
  s.checkRefusal sch

/-- The schedules that wait or have a claim in flight. -/
def activeSchedules (s : Store) : List Schedule :=
  (s.schedules.map (·.record)).filter fun sch => sch.state.active

/-- `validated_history`. -/
def validatedHistory (s : Store) : Result Unit := do
  let _ ← s.policies
  each s.checkSchedule s.schedules
  each s.checkTrigger s.triggers
  ensure (s.triggers.flatMap Trigger.identities).Nodup
    "Trigger identity is reused across retained claims"
  ensure (s.activeSchedules.map (·.definitionId)).Nodup
    "Multiple active schedules own the same definition; no trigger overlap"
  each (fun row => s.checkClaims row.record) s.schedules

/-- `automation_schedules::current`. -/
def current (s : Store) (sch : Schedule) (runtime issuer : String) (now : Nat) : Result Bool := do
  let p ← s.policyOf sch.creation.policy
  let d ← s.readDefinition sch.definitionId
  let _ ← s.policies
  return sch.runtimeId == runtime && sch.issuerId == issuer
    && p.currentAt runtime issuer (s.latestGeneration sch.definitionId) d now

/-- `trigger_for_request`. -/
def triggerForRequest (s : Store) (request : String) : Result (Option Trigger) :=
  match Table.find (fun t : Trigger => t.requestContext.requestId) request s.triggers with
  | none => .ok none
  | some t => do
    s.checkTrigger t
    return some t

/-- The delegation of a job's approval. -/
def delegationOf (p : Plan) : Option Delegation := p.approval.bind (·.delegation)

/-- A delegation is the one its trigger was claimed for. -/
def delegatedBy (p : Plan) (origin : RequestContext) (d : Delegation) (link : TriggerLink)
    (sch : Schedule) (t : Trigger) : Prop :=
  link.scheduleId = sch.id ∧ link.triggerId = t.id ∧ d.policyId = sch.creation.policy
    ∧ d.reservationId = t.reservationId ∧ d.runtimeId = sch.runtimeId ∧ origin = t.requestContext
    ∧ ∀ e ∈ p.execution, e.command.operationId = t.executionId

instance (p : Plan) (origin : RequestContext) (d : Delegation) (link : TriggerLink)
    (sch : Schedule) (t : Trigger) : Decidable (delegatedBy p origin d link sch t) :=
  inferInstanceAs (Decidable (_ ∧ _))

/-- The cases of `validate_delegation`: the claim of the job's request, if there is one,
and the trigger its approval names. -/
def linkedTo (s : Store) (p : Plan) (origin : RequestContext) :
    Option Trigger → Option (Delegation × TriggerLink) → Result Unit
  | none, none => .ok ()
  | some t, some (d, link) => do
    let sch ← s.scheduleOf t.scheduleId "Schedule missing"
    ensure (delegatedBy p origin d link sch t) "Delegation differs from durable trigger lineage"
  | some _, none =>
    bailIf (p.approval.isSome = true) "Trigger-linked job cannot omit or import schedule authority"
  | none, some _ => .error "Trigger-linked job cannot omit or import schedule authority"

/-- `validate_delegation`. -/
def validateDelegation (s : Store) (p : Plan) : Result Unit :=
  match p.goal.requestContext with
  | none => .ok ()
  | some origin => do
    let claim ← s.triggerForRequest origin.requestId
    s.linkedTo p origin claim ((delegationOf p).bind fun d => d.trigger.map (d, ·))

/-! ## Occurrences -/

/-- `matching_scope`. -/
def matchingScope (p : Plan) (a : Authorization) : Result Unit := do
  let scope ← p.fixedScope
  ensure (scope.ownerContext.originNode = a.scope.ownerContext.originNode
    ∧ scope.ownerContext.originArea = a.scope.ownerContext.originArea
    ∧ scope.ownerContext.requestId ≠ a.scope.ownerContext.requestId)
    "Occurrence needs a fresh request identity with the exact approved node/area origin"
  ensure ({ scope with ownerContext := a.scope.ownerContext } = a.scope)
    "Occurrence operations/input/bindings differ from fixed approval scope"

/-- A reservation belongs to its policy and to the approval it gave. -/
def reservedUnder (r : Reservation) (a : Authorization) (d : Definition)
    (allowance : Nat × Nat) (approval : ApprovalRecord) : Prop :=
  r.approvedJob.planId ≠ d.creation.fromJob ∧ r.delegation.definitionId = a.creation.definition
    ∧ r.delegation.policySha256 = a.authorizationSha256 ∧ r.delegation.generation = a.generation
    ∧ r.delegation.runtimeId = a.runtimeId ∧ r.ordinal ≤ a.creation.maxRuns
    ∧ approval.issuerId = a.issuerId ∧ approval.limits = a.creation.limits
    ∧ approval.expiresAtMs = a.expiresAtMs ∧ approval.delegation = some r.delegation
    ∧ a.approvedAtMs ≤ r.reservedAtMs ∧ r.reservedAtMs < a.expiresAtMs
    ∧ (r.reservedExecutionMs, r.reservedResultBytes) = allowance
    ∧ r.reservedExecutionMs ≤ a.expiresAtMs - r.reservedAtMs

instance (r : Reservation) (a : Authorization) (d : Definition) (allowance : Nat × Nat)
    (approval : ApprovalRecord) : Decidable (reservedUnder r a d allowance approval) :=
  inferInstanceAs (Decidable (_ ∧ _))

/-- `validate_record` of `automation_occurrences.rs`. -/
def checkReservation (s : Store) (r : Reservation) : Result Unit := do
  r.validate
  let a ← s.readPolicy r.delegation.policyId
  let a ← context a "Missing retained occurrence policy"
  let d ← s.readDefinition a.creation.definition
  r.approvedJob.validateReview
  s.validateDelegation r.approvedJob
  matchingScope r.approvedJob a
  let approval ← context r.approvedJob.approval "Reservation lacks its actual delegated approval"
  let allowance ← a.scope.runAllowance a.creation.limits
  ensure (reservedUnder r a d allowance approval)
    "Damaged occurrence lineage/bounds; retain without activation"

/-- `automation_occurrences::row`. -/
def reservation (s : Store) (id : String) : Result (Option Reservation) :=
  match Table.find Reservation.id id s.occurrences with
  | none => .ok none
  | some r => do
    s.checkReservation r
    return some r

/-- `live_matches`. -/
def liveMatches (r : Reservation) (p : Plan) : Result Unit := do
  ensure (p.planId = r.approvedJob.planId ∧ r.approvedJob.revision ≤ p.revision
    ∧ p.goal.requestContext = r.approvedJob.goal.requestContext
    ∧ p.approval = r.approvedJob.approval) "Current job differs from retained occurrence authority"
  let scope ← p.fixedScope
  let reserved ← r.approvedJob.fixedScope
  ensure (scope = reserved ∧ p.planning.map (·.planSha256) =
    r.approvedJob.planning.map (·.planSha256))
    "Current job differs from retained occurrence authority"

/-- `validate_job`. -/
def validateJob (s : Store) (p : Plan) : Result Unit := do
  s.validateDelegation p
  bailIf ((s.archives.any fun a => a.command.job == p.planId) = true)
    "Archived job unexpectedly live; no replay or replacement"
  match s.occurrences.find? fun r => r.approvedJob.planId = p.planId with
  | some r => do
    s.checkReservation r
    liveMatches r p
  | none => bailIf ((delegationOf p).isSome = true) "Delegated job has no durable reservation"

/-- `jobs::read`. -/
def readJob (s : Store) (id : String) : Result Plan := do
  let row ← context (Table.find (fun row => row.plan.planId) id s.jobs) "Job not found"
  row.plan.validateReview
  s.validateJob row.plan
  return row.plan

/-- `validate_record` of `automation_occurrence_archives.rs`. -/
def checkArchive (s : Store) (a : Archive) : Result Unit := do
  a.validate
  let r ← s.reservation a.command.reservation
  let r ← context r "Archive reservation missing; no refund"
  ensure (r.reservationSha256 = a.command.reservationSha256 ∧ r.reservedAtMs ≤ a.archivedAtMs
    ∧ a.terminalJob.updatedAtMs ≤ a.archivedAtMs ∧ a.terminalJob.resolved = true)
    "Damaged/unresolved/future terminal evidence; no replay or refund"
  a.terminalJob.validateReview
  liveMatches r a.terminalJob
  bailIf ((s.jobs.any fun row => row.plan.planId == a.command.job) = true)
    "Archived occurrence unexpectedly has a live job; retain without replay"

/-- `retained_plan`. -/
def retainedPlan (s : Store) (r : Reservation) : Result Plan :=
  match s.archives.find? fun a => a.command.reservation = r.id with
  | some a => do
    s.checkArchive a
    return a.terminalJob
  | none => do
    let row ← context (Table.find (fun row => row.plan.planId) r.approvedJob.planId s.jobs)
      "Occurrence job and terminal proof missing; no replacement or refund"
    row.plan.validateReview
    liveMatches r row.plan
    return row.plan

/-- The reservations of a policy, in order. -/
def group (s : Store) (policy : String) : List Reservation :=
  (s.occurrences.filter fun r => r.delegation.policyId = policy).insertionSort
    fun a b => a.ordinal ≤ b.ordinal

/-- The reservations of a policy against its budget. -/
def checkBudget (s : Store) (policy : String) : Result Unit := do
  let a ← s.readPolicy policy
  let a ← context a "Missing reservation policy"
  let group := s.group policy
  ensure (group.map (·.ordinal) = List.range' 1 group.length)
    "Occurrence budget history has a gap or duplicate"
  ensure ((group.map (·.reservedExecutionMs)).sum ≤ u64Max
    ∧ (group.map (·.reservedResultBytes)).sum ≤ u64Max) "Budget overflow"
  ensure (group.length ≤ a.creation.maxRuns
    ∧ (group.map (·.reservedExecutionMs)).sum ≤ a.creation.maxReservedExecutionMs
    ∧ (group.map (·.reservedResultBytes)).sum ≤ a.creation.maxReservedResultBytes)
    "Occurrence reservations exceed retained approval budget"

/-- `checked_records`, and `validate_all` of `automation_occurrences.rs`. -/
def checkOccurrences (s : Store) : Result Unit := do
  s.validatedHistory
  each s.checkArchive s.archives
  each (fun r => do
    s.checkReservation r
    let _ ← s.retainedPlan r) s.occurrences
  each (fun r => s.checkBudget r.delegation.policyId) s.occurrences

/-- Whether the job of a reservation came to an end. -/
def resolvedOccurrence (s : Store) (r : Reservation) : Bool :=
  match s.retainedPlan r with
  | .ok p => p.resolved
  | .error _ => false

/-- `definition_resolved`. -/
def definitionResolved (s : Store) (definition : String) : Result Bool := do
  s.checkOccurrences
  return (s.occurrences.filter fun r => r.delegation.definitionId = definition).all
    s.resolvedOccurrence

/-- `allowance_from_records`. -/
def allowanceLeft (s : Store) (a : Authorization) : Result Bool := do
  let own := s.occurrences.filter fun r => r.delegation.policyId = a.id
  ensure ((own.map (·.reservedExecutionMs)).sum ≤ u64Max
    ∧ (own.map (·.reservedResultBytes)).sum ≤ u64Max) "Budget overflow"
  let (duration, bytes) ← a.scope.runAllowance a.creation.limits
  return decide (own.length < a.creation.maxRuns
    ∧ duration ≤ a.creation.maxReservedExecutionMs - (own.map (·.reservedExecutionMs)).sum
    ∧ bytes ≤ a.creation.maxReservedResultBytes - (own.map (·.reservedResultBytes)).sum)

/-- `allowance_available`. -/
def allowanceAvailable (s : Store) (a : Authorization) : Result Bool := do
  s.checkOccurrences
  s.allowanceLeft a

/-- `trigger_admission_state`: whether the definition's occurrences are resolved, and
whether the policy has a run left. -/
def triggerAdmissionState (s : Store) (definition : String) (a : Authorization) :
    Result (Bool × Bool) := do
  let resolved ← s.definitionResolved definition
  if resolved then return (true, ← s.allowanceLeft a) else return (false, false)

/-- `source_job`: the job a trigger was launched as. -/
def sourceJob (s : Store) (t : Trigger) : Result (Option Plan) := do
  match ← s.reservation t.reservationId with
  | some r => do
    let p ← s.retainedPlan r
    s.validateDelegation p
    return some p
  | none => do
    let found := s.jobs.filter fun row =>
      row.plan.goal.requestContext.any fun c => c.requestId == t.requestContext.requestId
    each (fun row => do let _ ← s.readJob row.plan.planId) found
    match (found.map (·.plan)).filter fun p => p.goal.requestContext == some t.requestContext with
    | [] => return none
    | [p] => return some p
    | _ => .error "Partial trigger admission is ambiguous; no replacement"

/-- `resolved_claim`. -/
def resolvedClaim (s : Store) (t : Trigger) : Result Bool := do
  let sch ← s.scheduleOf t.scheduleId "Schedule missing"
  if (sch.refusalResolution.any fun r => r.triggerId == t.id) then do
    s.validatedHistory
    return true
  else match ← s.reservation t.reservationId with
    | some r => do
      let p ← s.retainedPlan r
      s.validateDelegation p
      return p.resolved
    | none => do
      let p ← s.sourceJob t
      return p.any fun p => p.approval.isNone && p.execution.isNone && p.resolved

end Store

end

end Eef.Coordinator
