import Eef.Coordinator.JobValidation

/-!
# The journal's commands

Every operation that writes the journal, as a function to a new journal and its reply.
An operation that fails returns no journal: its writes are the last thing it does, or
stand in a transaction that is dropped. A clock that an operation reads twice gives two
readings, `now` and `commit`; nothing relates them but the operation's own tests. The
identities an operation draws at random are arguments.
-/

namespace Eef.Coordinator

open Eef.Lib Eef.Node

section
variable [F64] [PeerAdmission] [Sha256] [Planner] [Pairing] [ScopeCompiler]

namespace Store

/-! ## Definitions -/

/-- The owner, or the node a definition came from. -/
def authorize (d : Definition) (origin : Option String) : Result Unit :=
  bailIf (origin.any (· != d.ownerContext.originNode) = true) "Automation definition unavailable"

/-- A compiled plan that nobody approved or executed, at an exact revision. -/
def unapproved (p : Plan) (revision : Nat) (planSha256 : String) : Prop :=
  p.revision = revision ∧ p.status = .awaitingApproval ∧ p.approval = none ∧ p.execution = none
    ∧ (p.planning.any fun r => r.planSha256 == planSha256) = true

instance (p : Plan) (revision : Nat) (planSha256 : String) :
    Decidable (unapproved p revision planSha256) := inferInstanceAs (Decidable (_ ∧ _))

/-- The definition of a compiled plan, before its digest. -/
def draftDefinition (c : Define) (p : Plan) (owner : RequestContext) (now : Nat) : Definition where
  schemaVersion := 1
  id := c.operationId
  ownerContext := owner
  createdAtMs := now
  creation := c
  sourceSha256 := Sha256.definition p.toJson
  definitionSha256 := ""
  revision := 1
  state := .disabled
  source := some p
  removal := none

/-- `AutomationCommand::Define`. -/
def define (s : Store) (c : Define) (origin : Option String) (now : Nat) :
    Result (Store × Definition × Bool) := do
  c.validate
  each validateRemoteNodeId origin.toList
  if (Table.find Definition.id c.operationId s.definitions).isSome then do
    let d ← s.readDefinition c.operationId
    authorize d origin
    ensure (d.creation = c)
      "Automation operation receipt conflicts; inspect the retained definition"
    return (s, d, true)
  else do
    let p ← s.readJob c.fromJob
    let owner ← context p.goal.requestContext "Automation source requires immutable origin"
    bailIf (origin.any (· != owner.originNode) = true) "Automation source unavailable"
    ensure (unapproved p c.revision c.planSha256)
      "Automation source changed, approved or executed; inspect before defining"
    let d := draftDefinition c p owner now
    let d := { d with definitionSha256 := d.digest }
    let s ← s.saveDefinition d true
    return (s, d, false)

/-- `AutomationCommand::Remove`. -/
def remove (s : Store) (c : Remove) (origin : Option String) : Result (Store × Definition × Bool) := do
  c.validate
  each validateRemoteNodeId origin.toList
  let d ← s.readDefinition c.id
  authorize d origin
  match d.removal with
  | some r => do
    ensure (r.operationId = c.operationId ∧ r.sourceRevision = c.revision)
      "Removal receipt changed; inspect retained definition"
    return (s, d, true)
  | none => do
    ensure (d.revision = c.revision ∧ d.state = .disabled ∧ c.operationId ≠ c.id)
      "Definition state/revision changed"
    let d := d.remove c
    let s ← s.saveDefinition d false
    return (s, d, false)

/-! ## Policies -/

/-- What has to hold when a policy is saved. -/
def approvable (s : Store) (c : Approve) (a : Authorization) (d : Definition) (runtime : String)
    (now : Nat) : Prop :=
  d.state = .disabled ∧ d.revision = 1 ∧ d.source.isSome
    ∧ s.latestGeneration c.definition = c.generation ∧ a.creation = c ∧ a.runtimeId = runtime
    ∧ a.generation = s.latestGeneration c.definition + 1 ∧ a.approvedAtMs ≤ now
    ∧ now < a.expiresAtMs

instance (s : Store) (c : Approve) (a : Authorization) (d : Definition) (runtime : String)
    (now : Nat) : Decidable (s.approvable c a d runtime now) := inferInstanceAs (Decidable (_ ∧ _))

/-- `PolicyCommand::Approve`; the candidate was checked against the current providers. -/
def approve (s : Store) (c : Approve) (candidate : Option Authorization) (runtime : String)
    (now : Nat) : Result (Store × Authorization × Bool) := do
  c.validate
  validateOperationId runtime
  let retained ← s.policies
  match retained.find? fun a => a.id = c.operationId with
  | some old => do
    ensure (old.creation = c) "Approval receipt conflicts with retained policy"
    return (s, old, true)
  | none => do
    let a ← context candidate "Approval requires independently checked current issuer/providers"
    let d ← s.readDefinition c.definition
    ensure (s.approvable c a d runtime now)
      "Definition/generation/runtime/validity changed before policy checkpoint"
    let s ← s.savePolicy a true
    return (s, a, false)

/-- `PolicyCommand::Revoke`. -/
def revoke (s : Store) (c : Revoke) (runtime : String) (now : Nat) :
    Result (Store × Authorization × Bool) := do
  c.validate
  validateOperationId runtime
  let _ ← s.policies
  let a ← s.readPolicy c.id
  let a ← context a "Authorization unavailable"
  match a.revocation with
  | some old => do
    ensure (old.operationId = c.operationId ∧ old.sourceRevision = c.revision)
      "Revocation receipt conflicts; inspect retained policy"
    return (s, a, true)
  | none => do
    ensure (a.revision = c.revision ∧ a.state = .approved ∧ c.operationId ≠ c.id ∧ now ≠ 0)
      "Policy state/revision changed before revocation"
    let a := a.revoke c runtime now
    let s ← s.savePolicy a false
    return (s, a, false)

/-! ## Jobs -/

/-- `source_authority`: no more source work for a claim whose schedule ended. -/
def sourceAuthority (s : Store) (origin : RequestContext) (now : Nat) : Result Unit := do
  match ← s.triggerForRequest origin.requestId with
  | none => .ok ()
  | some t => do
    let sch ← s.scheduleOf t.scheduleId "Schedule missing"
    ensure (origin = t.requestContext ∧ sch.state = .inFlight ∧ sch.activeTrigger = some t.id)
      "Durable trigger source admission/compilation stopped or changed authority"
    let current ← s.current sch sch.runtimeId sch.issuerId now
    ensure (current = true)
      "Durable trigger source admission/compilation stopped or changed authority"

/-- `insert_locked`. -/
def insertJob (s : Store) (p : Plan) (now saved : Nat) : Result (Store × Plan) := do
  p.validate
  each (fun origin => s.sourceAuthority origin now) p.goal.requestContext.toList
  bailIf ((s.archives.any fun a => a.command.job == p.planId) = true)
    "Archived occurrence job identity cannot be recreated"
  ensure (s.count < s.maxCount)
    "Job history is full. Remove finished jobs or increase jobs.max_count."
  let q ← p.stamp (if p.status = .review then "Request review saved; no execution authorized"
    else "Job saved before execution") saved
  s.checkSize q.planId q.toJson.size q.reserve
  ensure (q.updatedAtMs ≤ i64Max) "out of range integral type conversion attempted"
  ensure (Table.find (fun row => row.plan.planId) q.planId s.jobs = none)
    "UNIQUE constraint failed: durable_jobs.job_id"
  return ({ s with jobs := s.jobs ++ [⟨q, q.reserve⟩] }, q)

/-- `automation_schedules::fence`. -/
def scheduleFence (s : Store) (p : Plan) (runtime : String) (now : Nat) : Result Unit := do
  s.validateDelegation p
  match (delegationOf p).bind (·.trigger) with
  | none => .ok ()
  | some link => do
    let sch ← s.scheduleOf link.scheduleId "Schedule missing"
    ensure (sch.state = .inFlight ∧ sch.activeTrigger = some link.triggerId
      ∧ sch.runtimeId = runtime ∧ sch.observedAtMs ≤ now ∧ now < sch.expiresAtMs)
      "Durable trigger stopped/interrupted/expired; no new issuance"

/-- `automation_occurrences::fence`. -/
def fence (s : Store) (p : Plan) (runtime issuer : String) (now : Nat) : Result Unit :=
  match delegationOf p with
  | none => .ok ()
  | some d => do
    s.checkOccurrences
    let r ← context (s.occurrences.find? fun r => r.id = d.reservationId) "Reservation missing"
    liveMatches r p
    let a ← s.readPolicy d.policyId
    let a ← context a "Policy missing"
    let definition ← s.readDefinition d.definitionId
    let _ ← s.policies
    ensure (a.currentAt runtime issuer (s.latestGeneration d.definitionId) definition now = true)
      ("Delegated occurrence policy expired, revoked, superseded, removed or from an old "
        ++ "runtime")
    s.scheduleFence p runtime now

/-- `edit_with_gate`: one edit of a stored job, behind the policy fence of an issuance. -/
def editJob (s : Store) (id event : String) (gate : Option (String × String)) (now saved : Nat)
    (f : Plan → Result (Option Plan)) : Result Store := do
  let p ← s.readJob id
  match gate with
  | some (runtime, issuer) => s.fence p runtime issuer now
  | none => .ok ()
  match ← f p with
  | none => return s
  | some q => do
    match q.goal.requestContext with
    | some origin =>
      if p.planning = none ∧ q.planning.isSome then s.sourceAuthority origin now else .ok ()
    | none => .ok ()
    let q ← p.commit q event saved
    s.validateJob q
    s.updateJob q

/-- `remove_finished`. -/
def removeFinished (s : Store) (id : String) : Result Store := do
  let p ← s.readJob id
  match p.goal.requestContext with
  | some origin => do
    let t ← s.triggerForRequest origin.requestId
    bailIf (t.isSome = true)
      "Trigger lineage must be retained; use exact occurrence archiving after resolution"
  | none => .ok ()
  bailIf ((s.occurrences.any fun r => r.approvedJob.planId == id) = true)
    ("Occurrence lineage must be retained; use the exact owner automation-occurrences archive "
      ++ "command. No budget refund or replacement authorized")
  ensure (p.status = .completed ∨ p.status = .failed ∨ p.status = .cancelled
    ∨ p.status = .abandoned) "Only finished jobs can be removed"
  return { s with jobs := s.jobs.filter fun row => row.plan.planId ≠ id }

/-! ## Occurrences -/

/-- `reservation_link`. -/
def reservationLink (s : Store) (p : Plan) (a : Authorization) (reservation : String) (now : Nat) :
    Result (Option TriggerLink) :=
  match p.goal.requestContext with
  | none => .ok none
  | some origin => do
    match ← s.triggerForRequest origin.requestId with
    | none => return none
    | some t => do
      let sch ← s.scheduleOf t.scheduleId "Schedule missing"
      ensure (t.requestContext = origin ∧ t.reservationId = reservation ∧ sch.creation.policy = a.id
        ∧ sch.state = .inFlight ∧ sch.activeTrigger = some t.id ∧ sch.observedAtMs ≤ now)
        "Durable trigger stopped/interrupted/stale; no new reservation"
      let current ← s.current sch a.runtimeId a.issuerId now
      ensure (current = true) "Durable trigger stopped/interrupted/stale; no new reservation"
      return some ⟨sch.id, t.id⟩

/-- The approval a reservation gives, before its digest. -/
def delegatedApproval (c : Reserve) (a : Authorization) (issuer : String) (d : Delegation)
    (now : Nat) : ApprovalRecord where
  schemaVersion := 1
  operationId := c.operationId
  sourceRevision := c.revision
  planSha256 := c.planSha256
  issuerId := issuer
  approvedAtMs := now
  validForMs := a.expiresAtMs - now
  expiresAtMs := a.expiresAtMs
  limits := a.creation.limits
  approvalSha256 := ""
  delegation := some d
  workload := none

/-- The reservation of an approved job, before its digest. -/
def draftReservation (c : Reserve) (d : Delegation) (ordinal now : Nat) (allowance : Nat × Nat)
    (q : Plan) : Reservation where
  schemaVersion := 1
  id := c.operationId
  command := c
  delegation := d
  ordinal := ordinal
  reservedAtMs := now
  reservedExecutionMs := allowance.1
  reservedResultBytes := allowance.2
  approvedJob := q
  approvedJobSha256 := Sha256.definition q.toJson
  reservationSha256 := ""

/-- A run is left in the policy's budget and time. -/
def affordable (a : Authorization) (own : List Reservation) (allowance : Nat × Nat) (now : Nat) :
    Prop :=
  own.length < a.creation.maxRuns
    ∧ allowance.1 ≤ a.creation.maxReservedExecutionMs - (own.map (·.reservedExecutionMs)).sum
    ∧ allowance.2 ≤ a.creation.maxReservedResultBytes - (own.map (·.reservedResultBytes)).sum
    ∧ allowance.1 ≤ a.expiresAtMs - now

instance (a : Authorization) (own : List Reservation) (allowance : Nat × Nat) (now : Nat) :
    Decidable (affordable a own allowance now) := inferInstanceAs (Decidable (_ ∧ _))

/-- The transaction of a reservation: the job with its approval, and the record. -/
def commitReservation (s : Store) (q : Plan) (r : Reservation) : Result Store := do
  let s ← s.updateJob q
  ensure (s.count < s.maxCount) "Job/automation history is full; reservation not saved"
  ensure (r.toJson.size ≤ s.maxBytes - (s.jobBytes + s.definitionBytes))
    "Job/automation storage is full; approval and reservation rolled back"
  ensure (∀ o ∈ s.occurrences, o.id ≠ r.id ∧ o.approvedJob.planId ≠ q.planId)
    "UNIQUE constraint failed: automation_occurrences"
  let s := { s with occurrences := s.occurrences ++ [r] }
  s.validateJob q
  s.checkOccurrences
  return s

/-- `OccurrenceCommand::Reserve`. -/
def reserve (s : Store) (c : Reserve) (runtime : String) (issuer : Option String)
    (now saved commit : Nat) : Result (Store × Reservation × Bool) := do
  c.validate
  validateUuid runtime
  s.checkOccurrences
  match s.occurrences.find? fun r => r.id = c.operationId with
  | some old => do
    ensure (old.command = c) "Occurrence receipt conflicts; inspect original reservation"
    return (s, old, true)
  | none => do
    let issuer ← context issuer "Reservation needs independently checked current providers/issuer"
    let a ← s.readPolicy c.policy
    let a ← context a "Policy unavailable"
    let definition ← s.readDefinition a.creation.definition
    let _ ← s.policies
    let generation := s.latestGeneration a.creation.definition
    ensure (a.authorizationSha256 = c.policySha256
      ∧ a.currentAt runtime issuer generation definition now = true)
      "Exact current reusable approval is unavailable"
    let p ← s.readJob c.job
    ensure (unapproved p c.revision c.planSha256)
      "Occurrence needs exact unapproved independently compiled job revision/digest"
    matchingScope p a
    bailIf (c.job = definition.creation.fromJob
      ∨ (s.occurrences.any fun r => r.approvedJob.planId == c.job) = true)
      "Original/already-reserved job cannot become a new occurrence"
    each (fun r => do
      let p ← s.retainedPlan r
      ensure (p.resolved = true)
        "Previous occurrence is unfinished/uncertain; no overlap or replacement")
      (s.occurrences.filter fun r => r.delegation.definitionId = a.creation.definition)
    let own := s.occurrences.filter fun r => r.delegation.policyId = c.policy
    let allowance ← a.scope.runAllowance a.creation.limits
    ensure ((own.map (·.reservedExecutionMs)).sum ≤ u64Max
      ∧ (own.map (·.reservedResultBytes)).sum ≤ u64Max) "Budget overflow"
    ensure (affordable a own allowance now)
      "Occurrence run/duration/result/remaining-time budget exhausted"
    let link ← s.reservationLink p a c.operationId now
    let d : Delegation := ⟨1, c.operationId, c.policy, c.policySha256, a.creation.definition,
      generation, runtime, link⟩
    let approval := delegatedApproval c a issuer d now
    let approval := { approval with approvalSha256 := approval.digest }
    let q ← { p with approval := some approval, status := .approved }.stamp
      "Occurrence authority reserved atomically; no timer, grant or dispatch" saved
    q.validateReview
    let r := draftReservation c d (own.length + 1) now allowance q
    let r := { r with reservationSha256 := r.digest }
    s.checkReservation r
    let s ← s.commitReservation q r
    ensure (now ≤ commit ∧ a.currentAt runtime issuer generation definition commit = true
      ∧ allowance.1 ≤ a.expiresAtMs - commit)
      "Clock changed or policy expired before reservation commit; rolled back"
    return (s, r, false)

/-- The archive of a finished job, before its digest. -/
def draftArchive (c : ArchiveCommand) (runtime : String) (p : Plan) (now : Nat) : Archive where
  schemaVersion := 1
  id := c.operationId
  command := c
  runtimeId := runtime
  archivedAtMs := now
  terminalJob := p
  terminalJobSha256 := Sha256.definition p.toJson
  archiveSha256 := ""

/-- The transaction of an archive: its row in place of the job's. -/
def commitArchive (s : Store) (a : Archive) : Result Store := do
  let old ← context (Table.find (fun row => row.plan.planId) a.command.job s.jobs)
    "Query returned no rows"
  ensure (∀ b ∈ s.archives, b.id ≠ a.id ∧ b.command.reservation ≠ a.command.reservation
    ∧ b.command.job ≠ a.command.job) "UNIQUE constraint failed: automation_occurrence_archives"
  let s := { s with
    archives := s.archives ++ [a]
    jobs := s.jobs.filter fun row => row.plan.planId ≠ a.command.job }
  ensure (a.toJson.size ≤ old.cost ∨ s.jobBytes + s.definitionBytes ≤ s.maxBytes)
    "Archive metadata exceeds storage quota; terminal job retained"
  s.checkArchive a
  s.checkOccurrences
  return s

/-- `OccurrenceCommand::Archive`. -/
def archive (s : Store) (c : ArchiveCommand) (runtime : String) (now commit : Nat) :
    Result (Store × Archive × Bool) := do
  c.validate
  validateUuid runtime
  s.checkOccurrences
  match s.archives.find? fun a => a.id = c.operationId with
  | some a => do
    s.checkArchive a
    ensure (a.command = c) "Archive receipt conflicts; inspect original archive"
    return (s, a, true)
  | none => do
    let other ← s.reservation c.operationId
    let policy ← s.readPolicy c.operationId
    bailIf (other.isSome = true ∨ policy.isSome = true)
      "Archive receipt is already an authority identity"
    let r ← s.reservation c.reservation
    let r ← context r "Reservation unavailable"
    let p ← s.readJob c.job
    ensure (r.reservationSha256 = c.reservationSha256 ∧ r.approvedJob.planId = c.job
      ∧ p.revision = c.revision ∧ p.resolved = true)
      "Archive needs exact proven completed or unissued cancelled occurrence revision"
    let a := draftArchive c runtime p now
    let a := { a with archiveSha256 := a.digest }
    a.validate
    let s ← s.commitArchive a
    ensure (now ≤ commit) "Clock moved backwards before archive commit; job retained"
    return (s, a, false)

/-! ## Schedules -/

/-- The schedule of a policy when it is armed. -/
def armed (c : Arm) (a : Authorization) (everyMs : Nat) (runtime issuer : String) (now : Nat) :
    Schedule where
  schemaVersion := 1
  id := c.operationId
  creation := c
  definitionId := a.creation.definition
  runtimeId := runtime
  issuerId := issuer
  generation := a.generation
  armedAtMs := now
  expiresAtMs := a.expiresAtMs
  everyMs := everyMs
  revision := 1
  state := .waiting
  observedAtMs := now
  nextDueMs := some (now + everyMs)
  activeTrigger := none
  launchStartedAtMs := none
  refusal := none
  refusalResolution := none
  claimedRuns := 0
  stop := none
  reason := none
  recordSha256 := ""

/-- The claims of a schedule are resolved. -/
def claimsResolved (s : Store) (id : String) : Bool :=
  (s.triggers.filter fun t => t.scheduleId = id).all fun t =>
    match s.resolvedClaim t with
    | .ok b => b
    | .error _ => false

/-- `schedule_arm`. -/
def scheduleArm (s : Store) (c : Arm) (runtime issuer : String) (now commit : Nat) :
    Result (Store × Schedule × Bool) := do
  validateUuid c.operationId
  validateUuid c.policy
  validateUuid runtime
  ensure (c.operationId ≠ c.policy ∧ c.policySha256.utf8ByteSize = 64
    ∧ c.policySha256.toList.all fun ch => isLowerHex ch || ('A' ≤ ch && ch ≤ 'F'))
    "Invalid exact schedule arm"
  s.validatedHistory
  match ← s.readSchedule c.operationId with
  | some sch => do
    ensure (sch.creation = c) "Schedule receipt conflicts"
    return (s, sch, true)
  | none => do
    let a ← s.readPolicy c.policy
    let a ← context a "Policy missing"
    let d ← s.readDefinition a.creation.definition
    let due := now + d.creation.everyMs
    ensure (due ≤ u64Max) "Trigger time overflow"
    let sch := armed c a d.creation.everyMs runtime issuer now
    let current ← s.current sch runtime issuer now
    let (duration, _) ← a.scope.runAllowance a.creation.limits
    ensure (c.policySha256 = a.authorizationSha256 ∧ current = true
      ∧ duration ≤ a.expiresAtMs - due) "Current policy/time budget cannot arm schedule"
    each s.checkSchedule s.schedules
    bailIf ((s.schedules.any fun row => row.record.definitionId == a.creation.definition
      && (row.record.state.active || !s.claimsResolved row.record.id)) = true)
      "Previous schedule/claim is active or unresolved; no overlap"
    let resolved ← s.definitionResolved a.creation.definition
    ensure (resolved = true) "Previous occurrence is unresolved; no schedule replacement"
    let available ← s.allowanceAvailable a
    ensure (available = true) "Policy occurrence budget exhausted; no schedule armed"
    let (s', sch) ← s.saveSchedule sch true
    let current ← s'.current sch runtime issuer commit
    ensure (now ≤ commit ∧ current = true ∧ duration ≤ a.expiresAtMs - max due commit)
      "Schedule clock/policy changed before commit"
    return (s', sch, false)

/-- The identities a claim draws. -/
structure Drawn where
  trigger : String
  request : String
  reservation : String
  execution : String
  deriving DecidableEq, Repr

/-- Why a schedule that is due is interrupted instead. -/
def claimRefused (sch : Schedule) (current : Bool) (due now : Nat) : Option String :=
  if now < sch.observedAtMs then some "backward_clock"
  else if current = false then some "policy_changed"
  else if min (due + sch.everyMs) u64Max ≤ now then some "missed_trigger"
  else none

/-- Why a schedule ends. -/
def exhaustedBy (sch : Schedule) (a : Authorization) (available : Bool) : String :=
  if a.creation.maxRuns ≤ sch.claimedRuns then "run_budget"
  else if available = false then "policy_budget"
  else "time_budget"

/-- The claim of a schedule that is due. -/
def claimed (sch : Schedule) (a : Authorization) (drawn : Drawn) (due now : Nat) : Trigger :=
  let t : Trigger :=
    { schemaVersion := 1
      id := drawn.trigger
      scheduleId := sch.id
      ordinal := sch.claimedRuns + 1
      dueAtMs := due
      claimedAtMs := now
      requestContext := ⟨drawn.request, a.scope.ownerContext.originNode,
        a.scope.ownerContext.originArea⟩
      reservationId := drawn.reservation
      executionId := drawn.execution
      recordSha256 := "" }
  { t with recordSha256 := t.digest }

/-- The commit fence of a claim. -/
def claimFence (s : Store) (sch : Schedule) (runtime issuer : String) (duration due now commit : Nat) :
    Result Unit := do
  bailIf (commit < now) "Trigger clock moved backward before commit; no claim saved"
  bailIf (min (due + sch.everyMs) u64Max ≤ commit)
    "Trigger window elapsed before commit; no claim saved (missed_trigger)"
  let current ← s.current sch runtime issuer commit
  ensure (current = true) "Trigger authority changed or expired before commit; no claim saved"
  ensure (duration ≤ sch.expiresAtMs - commit)
    "Trigger remaining time budget became insufficient before commit; no claim saved"

/-- The claim itself, in its transaction. -/
def commitClaim (s : Store) (sch : Schedule) (a : Authorization) (runtime issuer : String)
    (drawn : Drawn) (duration due now commit : Nat) : Result (Store × Trigger) := do
  let t := claimed sch a drawn due now
  let sch ← sch.advance now
  let sch := { sch with
    claimedRuns := t.ordinal
    state := .inFlight
    nextDueMs := none
    activeTrigger := some t.id
    launchStartedAtMs := none }
  let (s, sch) ← s.saveSchedule sch false
  let s ← s.insertTrigger t
  s.validatedHistory
  s.claimFence sch runtime issuer duration due now commit
  return (s, t)

/-- `schedule_claim_due`. -/
def scheduleClaimDue (s : Store) (id runtime issuer : String) (drawn : Drawn) (now commit : Nat) :
    Result (Store × Option Trigger) := do
  s.validatedHistory
  let sch ← s.scheduleOf id "Schedule missing"
  if sch.state ≠ .waiting then return (s, none)
  else do
    let due := sch.nextDueMs.getD 0
    let current ← s.current sch runtime issuer now
    match claimRefused sch current due now with
    | some reason => do
      let sch ← sch.interrupted reason now
      let (s, _) ← s.saveSchedule sch false
      return (s, none)
    | none =>
      if now < due then return (s, none)
      else do
        let a ← s.policyOf sch.creation.policy
        let (resolved, available) ← s.triggerAdmissionState sch.definitionId a
        ensure (resolved = true) "Previous occurrence is unfinished/uncertain; no trigger overlap"
        let (duration, _) ← a.scope.runAllowance a.creation.limits
        if a.creation.maxRuns ≤ sch.claimedRuns ∨ available = false
            ∨ sch.expiresAtMs - now < duration then do
          let next ← sch.advance now
          let (s, _) ← s.saveSchedule { next with
            state := .exhausted
            reason := some (exhaustedBy sch a available)
            nextDueMs := none } false
          return (s, none)
        else do
          let (s, t) ← s.commitClaim sch a runtime issuer drawn duration due now commit
          return (s, some t)

/-- The operation names no identity of a retained claim. -/
def unclaimed (s : Store) (operation : String) : Prop :=
  ∀ t ∈ s.triggers, operation ∉ t.identities

instance (s : Store) (operation : String) : Decidable (s.unclaimed operation) :=
  inferInstanceAs (Decidable (∀ _ ∈ _, _))

/-- `schedule_stop`. -/
def scheduleStop (s : Store) (id : String) (revision : Nat) (operation : String) (now : Nat) :
    Result (Store × Schedule × Bool) := do
  validateUuid operation
  s.validatedHistory
  let sch ← s.scheduleOf id "Schedule missing"
  match sch.stop with
  | some old => do
    ensure (old = ⟨operation, revision⟩) "Stop receipt conflicts"
    return (s, sch, true)
  | none => do
    ensure (revision = sch.revision ∧ operation ≠ id ∧ operation ≠ sch.creation.policy)
      "Exact current stop revision/receipt required"
    ensure (s.unclaimed operation) "Stop receipt conflicts with retained trigger identity"
    let sch ← sch.advance now
    let (s, sch) ← s.saveSchedule { sch with
      state := .stopped
      stop := some ⟨operation, revision⟩
      nextDueMs := none
      reason := some "owner_stop" } false
    return (s, sch, false)

/-- A settled schedule waits for its next trigger, or is exhausted. -/
def settled (sch : Schedule) (a : Authorization) (available : Bool) (duration next : Nat) :
    Schedule :=
  if a.creation.maxRuns ≤ sch.claimedRuns ∨ available = false
      ∨ sch.expiresAtMs - next < duration then
    { sch with
      activeTrigger := none
      launchStartedAtMs := none
      state := .exhausted
      nextDueMs := none
      reason := some (exhaustedBy sch a available) }
  else
    { sch with
      activeTrigger := none
      launchStartedAtMs := none
      state := .waiting
      nextDueMs := some next }

/-- `schedule_settle`. -/
def scheduleSettle (s : Store) (id runtime issuer : String) (now : Nat) :
    Result (Store × Schedule) := do
  s.validatedHistory
  let sch ← s.scheduleOf id "Schedule missing"
  ensure (sch.state = .inFlight) "Only an in-flight claim can settle; no automatic restart"
  let t ← s.triggerOf (sch.activeTrigger.getD "")
  let resolved ← s.resolvedClaim t
  ensure (resolved = true) "Trigger admission/completion is unresolved; no replacement"
  if now < sch.observedAtMs then do
    let sch ← sch.interrupted "backward_clock" now
    s.saveSchedule sch false
  else do
    let current ← s.current sch runtime issuer now
    if current = false then do
      let sch ← sch.interrupted "policy_changed" now
      s.saveSchedule sch false
    else do
      let a ← s.policyOf sch.creation.policy
      ensure (now + sch.everyMs ≤ u64Max) "Trigger time overflow"
      let next ← sch.advance now
      let available ← s.allowanceAvailable a
      let (duration, _) ← a.scope.runAllowance a.creation.limits
      s.saveSchedule (settled next a available duration (now + sch.everyMs)) false

/-- `trigger_begin_launch`. -/
def triggerBeginLaunch (s : Store) (id runtime : String) (now commit : Nat) :
    Result (Store × Bool) := do
  s.validatedHistory
  let t ← s.triggerOf id
  let sch ← s.scheduleOf t.scheduleId "Schedule missing"
  ensure (sch.runtimeId = runtime ∧ sch.state = .inFlight ∧ sch.activeTrigger = some id)
    "Trigger no longer owns admission authority"
  if sch.launchStartedAtMs.isSome then return (s, false)
  else do
    let source ← s.sourceJob t
    bailIf (source.isSome = true) "Source already exists; no implicit continuation"
    let current ← s.current sch runtime sch.issuerId now
    ensure (sch.observedAtMs ≤ now ∧ current = true) "Trigger clock/policy changed before launch"
    let sch ← sch.advance now
    let (s, sch) ← s.saveSchedule { sch with launchStartedAtMs := some now } false
    let current ← s.current sch runtime sch.issuerId commit
    ensure (now ≤ commit ∧ current = true) "Trigger clock/policy changed before launch commit"
    return (s, true)

/-- The refusal of a claim, before its digest. -/
def draftRefusal (t : Trigger) (runtime : String) (now : Nat) : Refusal :=
  let r : Refusal := ⟨1, t.id, t.recordSha256, runtime, now, "refused_before_launch", ""⟩
  { r with refusalSha256 := r.digest }

/-- `trigger_record_refusal`. -/
def triggerRecordRefusal (s : Store) (id runtime : String) (now : Nat) : Result (Store × Bool) := do
  s.validatedHistory
  let t ← s.triggerOf id
  let sch ← s.scheduleOf t.scheduleId "Schedule missing"
  if sch.refusal.isSome then return (s, true)
  else if sch.runtimeId ≠ runtime ∨ sch.state ≠ .inFlight ∨ sch.activeTrigger ≠ some id
      ∨ sch.launchStartedAtMs.isSome then return (s, false)
  else do
    let source ← s.sourceJob t
    if source.isSome then return (s, false)
    else do
      let sch ← sch.interrupted "preflight_refused" now
      let (s, _) ← s.saveSchedule { sch with refusal := some (draftRefusal t runtime now) } false
      s.validatedHistory
      return (s, true)

/-- `resolve_trigger_refusal`. -/
def resolveTriggerRefusal (s : Store) (id : String) (revision : Nat)
    (trigger hash operation : String) (now : Nat) : Result (Store × Schedule × Bool) := do
  validateUuid operation
  validateUuid trigger
  s.validatedHistory
  let sch ← s.scheduleOf id "Schedule missing"
  match sch.refusalResolution with
  | some old => do
    ensure (old.sourceRevision = revision ∧ old.triggerId = trigger ∧ old.refusalSha256 = hash
      ∧ old.operationId = operation)
      "Refusal-resolution receipt conflicts; inspect original state"
    return (s, sch, true)
  | none => do
    let refusal ← context sch.refusal
      "No backend refusal proof; missing source is not no-work evidence"
    ensure (sch.revision = revision ∧ (sch.state = .interrupted ∨ sch.state = .stopped)
      ∧ refusal.triggerId = trigger ∧ refusal.refusalSha256 = hash ∧ operation ≠ sch.id
      ∧ operation ≠ sch.creation.policy ∧ s.unclaimed operation)
      "Exact current refusal revision/hash/receipt required; no forced resolution"
    let sch ← sch.advance now
    let (s, sch) ← s.saveSchedule { sch with
      state := .resolved
      nextDueMs := none
      reason := some "refusal_resolved"
      refusalResolution := some ⟨operation, revision, trigger, hash, now⟩ } false
    s.validatedHistory
    return (s, sch, false)

/-- `schedule_interrupt_now`. -/
def scheduleInterruptNow (s : Store) (id reason : String) (now : Nat) :
    Result (Store × Schedule) := do
  s.validatedHistory
  let sch ← s.scheduleOf id "Schedule missing"
  if sch.state.active then do
    let sch ← sch.interrupted reason now
    s.saveSchedule sch false
  else return (s, sch)

/-- `trigger_interrupt_now`. -/
def triggerInterruptNow (s : Store) (id reason : String) (now : Nat) :
    Result (Store × Schedule) := do
  s.validatedHistory
  let t ← s.triggerOf id
  let sch ← s.scheduleOf t.scheduleId "Schedule missing"
  if sch.state = .inFlight ∧ sch.activeTrigger = some id then do
    let sch ← sch.interrupted reason now
    s.saveSchedule sch false
  else return (s, sch)

/-- The schedules still active, interrupted one after the other. -/
def interruptAll (s : Store) (clock : Nat → Nat) : Nat → List Schedule → Result Store
  | _, [] => .ok s
  | i, sch :: rest =>
    if sch.state.active then do
      let sch ← sch.interrupted "restart" (clock i)
      let (s, _) ← s.saveSchedule sch false
      s.interruptAll clock (i + 1) rest
    else s.interruptAll clock (i + 1) rest

/-- `interrupt_on_open`. -/
def interruptOnOpen (s : Store) (clock : Nat → Nat) : Result Store := do
  each s.checkSchedule s.schedules
  let s ← s.interruptAll clock 0 (s.schedules.map (·.record))
  s.validatedHistory
  return s

end Store

end

end Eef.Coordinator
