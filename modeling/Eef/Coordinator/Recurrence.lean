import Eef.Coordinator.Automation

/-!
# Occurrences, schedules and triggers

The records of recurring work. A reservation (`automation_occurrence.rs`) takes one run
of a policy for one compiled job; an archive keeps the finished job when its row goes.
A schedule (`automation_schedules.rs`) claims triggers of a policy one at a time; its
state says whether it waits, has one in flight, or has ended, and never again runs.

Each record carries the digest of its other fields. A trigger's columns are its own
fields, so a row is its record.
-/

namespace Eef.Coordinator

open Eef.Lib Eef.Node

/-- `OccurrenceCommand::Reserve`. -/
structure Reserve where
  policy : String
  policySha256 : String
  job : String
  revision : Nat
  planSha256 : String
  operationId : String
  deriving DecidableEq, Repr

namespace Reserve

def toJson (c : Reserve) : Json :=
  .obj [("operation", .str "reserve"), ("policy", .str c.policy),
    ("policy_sha256", .str c.policySha256), ("job", .str c.job), ("revision", .nat c.revision),
    ("plan_sha256", .str c.planSha256), ("operation_id", .str c.operationId)]

/-- `OccurrenceCommand::validate`. -/
def validate (c : Reserve) : Result Unit := do
  validateUuid c.policy
  validateUuid c.operationId
  validateDraftId c.job
  ensure (c.policy ≠ c.operationId ∧ c.revision ≠ 0 ∧ c.revision ≠ u64Max
    ∧ hexDigest c.policySha256 ∧ hexDigest c.planSha256) "Invalid exact occurrence reservation"

end Reserve

/-- `OccurrenceCommand::Archive`. -/
structure ArchiveCommand where
  reservation : String
  reservationSha256 : String
  job : String
  revision : Nat
  operationId : String
  deriving DecidableEq, Repr

namespace ArchiveCommand

def toJson (c : ArchiveCommand) : Json :=
  .obj [("operation", .str "archive"), ("reservation", .str c.reservation),
    ("reservation_sha256", .str c.reservationSha256), ("job", .str c.job),
    ("revision", .nat c.revision), ("operation_id", .str c.operationId)]

/-- `OccurrenceCommand::validate`. -/
def validate (c : ArchiveCommand) : Result Unit := do
  validateUuid c.reservation
  validateUuid c.operationId
  validateDraftId c.job
  ensure (c.reservation ≠ c.operationId ∧ c.revision ≠ 0 ∧ c.revision ≠ u64Max
    ∧ hexDigest c.reservationSha256) "Invalid exact occurrence archive"

end ArchiveCommand

/-- `Reservation`; the approved job is its plan. -/
structure Reservation where
  schemaVersion : Nat
  id : String
  command : Reserve
  delegation : Delegation
  ordinal : Nat
  reservedAtMs : Nat
  reservedExecutionMs : Nat
  reservedResultBytes : Nat
  approvedJob : Plan
  approvedJobSha256 : String
  reservationSha256 : String
  deriving DecidableEq, Repr

/-- `automation_occurrence::Archive`; the terminal job is its plan. -/
structure Archive where
  schemaVersion : Nat
  id : String
  command : ArchiveCommand
  runtimeId : String
  archivedAtMs : Nat
  terminalJob : Plan
  terminalJobSha256 : String
  archiveSha256 : String
  deriving DecidableEq, Repr

/-- `archives::resolved`: completed, or cancelled before anything was issued. -/
def Plan.resolved (p : Plan) : Bool :=
  match p.status with
  | .completed => !p.tasks.isEmpty && p.tasks.all (fun t => t.status == .completed)
      && p.execution.any fun e => e.attempts.length == p.tasks.length
  | .cancelled => (p.execution.all fun e => e.attempts.isEmpty)
      && (p.tasks.all fun t => t.status == .cancelled && t.attempts == 0 && t.assignments.isEmpty
        && t.result.isNone) && p.results.isEmpty
  | _ => false

/-- `automation_schedules::Arm`. -/
structure Arm where
  policy : String
  policySha256 : String
  operationId : String
  deriving DecidableEq, Repr

/-- `automation_schedules::State`. -/
inductive ScheduleState where
  | waiting
  | inFlight
  | stopped
  | interrupted
  | exhausted
  | resolved
  deriving DecidableEq, Repr

namespace ScheduleState

def name : ScheduleState → String
  | waiting => "waiting"
  | inFlight => "in_flight"
  | stopped => "stopped"
  | interrupted => "interrupted"
  | exhausted => "exhausted"
  | resolved => "resolved"

/-- `Waiting | InFlight`. -/
def active (s : ScheduleState) : Bool := s == .waiting || s == .inFlight

end ScheduleState

/-- `automation_schedules::Stop`. -/
structure StopReceipt where
  operationId : String
  sourceRevision : Nat
  deriving DecidableEq, Repr

/-- `Refusal`. -/
structure Refusal where
  schemaVersion : Nat
  triggerId : String
  triggerSha256 : String
  runtimeId : String
  observedAtMs : Nat
  phase : String
  refusalSha256 : String
  deriving DecidableEq, Repr

/-- `RefusalResolution`. -/
structure RefusalResolution where
  operationId : String
  sourceRevision : Nat
  triggerId : String
  refusalSha256 : String
  resolvedAtMs : Nat
  deriving DecidableEq, Repr

/-- `automation_schedules::Schedule`. -/
structure Schedule where
  schemaVersion : Nat
  id : String
  creation : Arm
  definitionId : String
  runtimeId : String
  issuerId : String
  generation : Nat
  armedAtMs : Nat
  expiresAtMs : Nat
  everyMs : Nat
  revision : Nat
  state : ScheduleState
  observedAtMs : Nat
  nextDueMs : Option Nat
  activeTrigger : Option String
  launchStartedAtMs : Option Nat
  refusal : Option Refusal
  refusalResolution : Option RefusalResolution
  claimedRuns : Nat
  stop : Option StopReceipt
  reason : Option String
  recordSha256 : String
  deriving DecidableEq, Repr

/-- `automation_schedules::Trigger`. -/
structure Trigger where
  schemaVersion : Nat
  id : String
  scheduleId : String
  ordinal : Nat
  dueAtMs : Nat
  claimedAtMs : Nat
  requestContext : RequestContext
  reservationId : String
  executionId : String
  recordSha256 : String
  deriving DecidableEq, Repr

/-- The identities a claim takes. -/
def Trigger.identities (t : Trigger) : List String :=
  [t.id, t.reservationId, t.executionId, t.requestContext.requestId]

section
variable [F64] [Sha256]

/-! ## Occurrences -/

namespace Reservation

/-- The fields under the reservation's own digest. -/
def fields (r : Reservation) : List (String × Json) :=
  [("schema_version", .nat r.schemaVersion), ("id", .str r.id), ("command", r.command.toJson),
    ("delegation", r.delegation.toJson), ("ordinal", .nat r.ordinal),
    ("reserved_at_ms", .nat r.reservedAtMs), ("reserved_execution_ms", .nat r.reservedExecutionMs),
    ("reserved_result_bytes", .nat r.reservedResultBytes), ("approved_job", r.approvedJob.toJson),
    ("approved_job_sha256", .str r.approvedJobSha256)]

def toJson (r : Reservation) : Json :=
  .obj (r.fields ++ [("reservation_sha256", .str r.reservationSha256)])

/-- `Reservation::digest`. -/
def digest (r : Reservation) : String := Sha256.definition (.obj r.fields)

/-- The bounds of `Reservation::validate`. -/
def bounded (r : Reservation) : Prop :=
  r.schemaVersion = 1 ∧ r.id = r.command.operationId ∧ r.id = r.delegation.reservationId
    ∧ r.delegation.policyId = r.command.policy ∧ r.delegation.policySha256 = r.command.policySha256
    ∧ (1 ≤ r.ordinal ∧ r.ordinal ≤ 128) ∧ r.reservedAtMs ≠ 0
    ∧ (1 ≤ r.reservedExecutionMs ∧ r.reservedExecutionMs ≤ Approve.maxReservedExecution)
    ∧ (1024 ≤ r.reservedResultBytes ∧ r.reservedResultBytes ≤ Approve.maxReservedResults)
    ∧ r.toJson.size ≤ 2 * 1024 * 1024 ∧ r.approvedJob.planId = r.command.job
    ∧ r.approvedJob.revision = r.command.revision + 1 ∧ r.approvedJob.status = .approved
    ∧ r.approvedJob.execution = none
    ∧ (r.approvedJob.planning.any fun p => p.planSha256 == r.command.planSha256) = true
    ∧ (r.approvedJob.approval.any fun a => a.operationId == r.id
        && a.sourceRevision == r.command.revision && a.approvedAtMs == r.reservedAtMs
        && a.delegation == some r.delegation) = true
    ∧ Sha256.definition r.approvedJob.toJson = r.approvedJobSha256
    ∧ r.digest = r.reservationSha256

instance (r : Reservation) : Decidable r.bounded := inferInstanceAs (Decidable (_ ∧ _))

/-- `Reservation::validate`. -/
def validate (r : Reservation) : Result Unit := do
  r.command.validate
  r.delegation.validate
  ensure r.bounded "Damaged/future occurrence reservation; retained without replay"

end Reservation

namespace Archive

/-- The fields under the archive's own digest. -/
def fields (a : Archive) : List (String × Json) :=
  [("schema_version", .nat a.schemaVersion), ("id", .str a.id), ("command", a.command.toJson),
    ("runtime_id", .str a.runtimeId), ("archived_at_ms", .nat a.archivedAtMs),
    ("terminal_job", a.terminalJob.toJson), ("terminal_job_sha256", .str a.terminalJobSha256)]

def toJson (a : Archive) : Json :=
  .obj (a.fields ++ [("archive_sha256", .str a.archiveSha256)])

/-- `Archive::digest`. -/
def digest (a : Archive) : String := Sha256.definition (.obj a.fields)

/-- `Archive::validate`. -/
def validate (a : Archive) : Result Unit := do
  a.command.validate
  validateUuid a.runtimeId
  ensure (a.toJson.size ≤ 2 * 1024 * 1024)
    "Terminal archive exceeds 2 MiB; keep the live job until evidence compaction is available"
  ensure (a.schemaVersion = 1 ∧ a.id = a.command.operationId ∧ a.archivedAtMs ≠ 0
    ∧ a.terminalJob.planId = a.command.job ∧ a.terminalJob.revision = a.command.revision
    ∧ (a.terminalJob.status = .completed ∨ a.terminalJob.status = .cancelled)
    ∧ a.terminalJobSha256 = Sha256.definition a.terminalJob.toJson ∧ a.archiveSha256 = a.digest)
    "Damaged/future terminal archive; retain without replay or refund"

end Archive

/-! ## Schedules -/

namespace Refusal

/-- The fields under the refusal's own digest. -/
def fields (r : Refusal) : List (String × Json) :=
  [("schema_version", .nat r.schemaVersion), ("trigger_id", .str r.triggerId),
    ("trigger_sha256", .str r.triggerSha256), ("runtime_id", .str r.runtimeId),
    ("observed_at_ms", .nat r.observedAtMs), ("phase", .str r.phase)]

def toJson (r : Refusal) : Json := .obj (r.fields ++ [("refusal_sha256", .str r.refusalSha256)])

def digest (r : Refusal) : String := Sha256.definition (.obj r.fields)

end Refusal

def RefusalResolution.toJson (r : RefusalResolution) : Json :=
  .obj [("operation_id", .str r.operationId), ("source_revision", .nat r.sourceRevision),
    ("trigger_id", .str r.triggerId), ("refusal_sha256", .str r.refusalSha256),
    ("resolved_at_ms", .nat r.resolvedAtMs)]

namespace Schedule

def armJson (c : Arm) : Json :=
  .obj [("policy", .str c.policy), ("policy_sha256", .str c.policySha256),
    ("operation_id", .str c.operationId)]

def stopJson (s : StopReceipt) : Json :=
  .obj [("operation_id", .str s.operationId), ("source_revision", .nat s.sourceRevision)]

/-- The fields under the schedule's own digest. -/
def fields (s : Schedule) : List (String × Json) :=
  [("schema_version", .nat s.schemaVersion), ("id", .str s.id), ("creation", armJson s.creation),
    ("definition_id", .str s.definitionId), ("runtime_id", .str s.runtimeId),
    ("issuer_id", .str s.issuerId), ("generation", .nat s.generation),
    ("armed_at_ms", .nat s.armedAtMs), ("expires_at_ms", .nat s.expiresAtMs),
    ("every_ms", .nat s.everyMs), ("revision", .nat s.revision), ("state", .str s.state.name),
    ("observed_at_ms", .nat s.observedAtMs), ("next_due_ms", .ofOption .nat s.nextDueMs),
    ("active_trigger", .ofOption .str s.activeTrigger)]
    ++ optionalField "launch_started_at_ms" .nat s.launchStartedAtMs
    ++ optionalField "refusal" Refusal.toJson s.refusal
    ++ optionalField "refusal_resolution" RefusalResolution.toJson s.refusalResolution
    ++ [("claimed_runs", .nat s.claimedRuns), ("stop", .ofOption stopJson s.stop),
      ("reason", .ofOption .str s.reason)]

def toJson (s : Schedule) : Json := .obj (s.fields ++ [("record_sha256", .str s.recordSha256)])

/-- `automation_schedules::digest`. -/
def digest (s : Schedule) : String := Sha256.definition (.obj s.fields)

/-- `s.record_sha256 = digest(s)?`. -/
def sealed (s : Schedule) : Schedule := { s with recordSha256 := s.digest }

/-- The schedule belongs to its policy and definition. -/
def bounded (s : Schedule) (p : Authorization) (d : Definition) : Prop :=
  s.schemaVersion = 1 ∧ s.creation.operationId = s.id
    ∧ s.creation.policySha256 = p.authorizationSha256 ∧ s.id ≠ p.id ∧ s.id ≠ s.definitionId
    ∧ s.id ≠ s.runtimeId ∧ s.definitionId = p.creation.definition ∧ s.runtimeId = p.runtimeId
    ∧ s.issuerId = p.issuerId ∧ s.generation = p.generation ∧ s.expiresAtMs = p.expiresAtMs
    ∧ p.approvedAtMs ≤ s.armedAtMs ∧ s.armedAtMs < s.expiresAtMs
    ∧ s.everyMs = d.creation.everyMs ∧ s.revision ≠ 0 ∧ s.claimedRuns * 2 ≤ s.revision
    ∧ s.claimedRuns ≤ p.creation.maxRuns ∧ s.observedAtMs ≠ 0 ∧ s.recordSha256 = s.digest
    ∧ s.toJson.size ≤ 4096

instance (s : Schedule) (p : Authorization) (d : Definition) : Decidable (s.bounded p d) :=
  inferInstanceAs (Decidable (_ ∧ _))

/-- The stop receipt of a schedule. -/
def validateStop (s : Schedule) : Result Unit :=
  match s.stop with
  | none => .ok ()
  | some r => do
    validateUuid r.operationId
    ensure (r.operationId ≠ s.id
      ∧ (s.refusalResolution = none → r.sourceRevision + 1 = s.revision)
      ∧ (s.refusalResolution.isSome → min (r.sourceRevision + 1) u64Max < s.revision)
      ∧ (s.state = .stopped ∨ s.state = .resolved)) "Damaged schedule stop receipt"

/-- The refusal evidence of a schedule. -/
def validateRefusal (s : Schedule) : Result Unit :=
  match s.refusal with
  | none => .ok ()
  | some r => do
    validateUuid r.triggerId
    validateUuid r.runtimeId
    ensure (r.schemaVersion = 1 ∧ r.runtimeId = s.runtimeId ∧ r.observedAtMs ≠ 0
      ∧ s.activeTrigger = some r.triggerId ∧ s.launchStartedAtMs = none
      ∧ (s.state = .interrupted ∨ s.state = .stopped ∨ s.state = .resolved)
      ∧ r.phase = "refused_before_launch" ∧ r.refusalSha256 = r.digest)
      "Damaged backend refusal evidence; no no-work inference"

/-- The resolution of a refusal. -/
def validateResolution (s : Schedule) : Result Unit :=
  match s.refusalResolution with
  | none => bailIf (s.state = .resolved) "Resolved schedule lacks its exact receipt"
  | some r => do
    validateUuid r.operationId
    let refusal ← context s.refusal "Resolution lacks actual backend refusal"
    ensure (s.state = .resolved ∧ r.operationId ≠ s.id ∧ r.operationId ≠ refusal.triggerId
      ∧ r.sourceRevision + 1 = s.revision ∧ r.resolvedAtMs ≠ 0
      ∧ r.refusalSha256 = refusal.refusalSha256 ∧ r.triggerId = refusal.triggerId)
      "Damaged exact refusal-resolution receipt"

/-- Why a schedule can be interrupted. -/
def interruptReasons : List String :=
  ["restart", "backward_clock", "missed_trigger", "policy_changed", "launch_failed",
    "source_present", "shutdown", "clock_discontinuity", "job_unresolved", "checkpoint_failed",
    "preflight_refused"]

/-- The fields that go with a state. -/
def shape (s : Schedule) : ScheduleState → Prop
  | .waiting => s.stop = none ∧ s.reason = none ∧ s.activeTrigger = none
      ∧ s.launchStartedAtMs = none ∧ s.armedAtMs ≤ s.observedAtMs
      ∧ (s.nextDueMs.any fun n => decide (s.observedAtMs < n ∧ n < s.expiresAtMs)) = true
  | .inFlight => s.stop = none ∧ s.reason = none ∧ s.activeTrigger.isSome ∧ s.nextDueMs = none
      ∧ s.armedAtMs ≤ s.observedAtMs ∧ 0 < s.claimedRuns
  | .stopped => s.stop.isSome ∧ s.nextDueMs = none ∧ s.reason = some "owner_stop"
  | .interrupted => s.stop = none ∧ s.nextDueMs = none
      ∧ (s.reason.any fun r => interruptReasons.contains r) = true
  | .exhausted => s.stop = none ∧ s.nextDueMs = none ∧ s.activeTrigger = none
      ∧ s.launchStartedAtMs = none
      ∧ (s.reason = some "run_budget" ∨ s.reason = some "time_budget"
        ∨ s.reason = some "policy_budget")
  | .resolved => s.refusalResolution.isSome ∧ s.refusal.isSome ∧ s.nextDueMs = none
      ∧ s.activeTrigger.isSome ∧ s.reason = some "refusal_resolved"

instance (s : Schedule) : (state : ScheduleState) → Decidable (s.shape state)
  | .waiting => inferInstanceAs (Decidable (_ ∧ _))
  | .inFlight => inferInstanceAs (Decidable (_ ∧ _))
  | .stopped => inferInstanceAs (Decidable (_ ∧ _))
  | .interrupted => inferInstanceAs (Decidable (_ ∧ _))
  | .exhausted => inferInstanceAs (Decidable (_ ∧ _))
  | .resolved => inferInstanceAs (Decidable (_ ∧ _))

/-- `validate_schedule_data`. -/
def validateData (s : Schedule) (p : Authorization) (d : Definition) : Result Unit := do
  each validateUuid [s.id, s.definitionId, s.runtimeId, s.creation.policy]
  ensure (s.bounded p d) "Damaged/future schedule; retain without activation"
  each validateUuid s.activeTrigger.toList
  s.validateStop
  s.validateRefusal
  s.validateResolution
  ensure (s.shape s.state) "Schedule lifecycle is inconsistent; no catch-up or replay"

/-- `advance`. -/
def advance (s : Schedule) (now : Nat) : Result Schedule := do
  ensure (s.revision < u64Max) "Schedule revision exhausted"
  return { s with revision := s.revision + 1, observedAtMs := now }

/-- `interrupted`. -/
def interrupted (s : Schedule) (reason : String) (now : Nat) : Result Schedule := do
  let s ← s.advance now
  return { s with state := .interrupted, reason := some reason, nextDueMs := none }

end Schedule

namespace Trigger

/-- The fields under the trigger's own digest. -/
def fields (t : Trigger) : List (String × Json) :=
  [("schema_version", .nat t.schemaVersion), ("id", .str t.id),
    ("schedule_id", .str t.scheduleId), ("ordinal", .nat t.ordinal), ("due_at_ms", .nat t.dueAtMs),
    ("claimed_at_ms", .nat t.claimedAtMs), ("request_context", t.requestContext.toJson),
    ("reservation_id", .str t.reservationId), ("execution_id", .str t.executionId)]

def toJson (t : Trigger) : Json := .obj (t.fields ++ [("record_sha256", .str t.recordSha256)])

def digest (t : Trigger) : String := Sha256.definition (.obj t.fields)

/-- The trigger is a claim of its schedule, made in time. -/
def bounded (t : Trigger) (s : Schedule) (p : Authorization) : Prop :=
  t.schemaVersion = 1 ∧ t.ordinal ≠ 0 ∧ t.ordinal ≤ s.claimedRuns ∧ t.dueAtMs ≤ t.claimedAtMs
    ∧ min (s.armedAtMs + s.everyMs) u64Max ≤ t.dueAtMs ∧ t.claimedAtMs < s.expiresAtMs
    ∧ t.claimedAtMs - t.dueAtMs < s.everyMs
    ∧ t.requestContext.originNode = p.scope.ownerContext.originNode
    ∧ t.requestContext.originArea = p.scope.ownerContext.originArea
    ∧ t.requestContext.requestId ≠ p.scope.ownerContext.requestId
    ∧ [t.id, t.scheduleId, t.reservationId, t.executionId, t.requestContext.requestId, p.id].Nodup
    ∧ t.recordSha256 = t.digest ∧ t.toJson.size ≤ 4096

instance (t : Trigger) (s : Schedule) (p : Authorization) : Decidable (t.bounded s p) :=
  inferInstanceAs (Decidable (_ ∧ _))

/-- `validate_trigger_data`. -/
def validateData (t : Trigger) (s : Schedule) (p : Authorization) : Result Unit := do
  each validateUuid [t.id, t.scheduleId, t.reservationId, t.executionId]
  validateUuid t.requestContext.requestId
  ensure (t.bounded s p) "Damaged trigger identity/time/context; no replacement"

end Trigger

end

end Eef.Coordinator
