import Eef.Coordinator.Store
import Mathlib.Algebra.Order.BigOperators.Group.List

/-!
# What the journal charges for

The bytes of every table as `usage` adds them up, and the admission test each writer
makes: `checkSize` for jobs, `quota` for schedules and triggers, and the sums of
`saveDefinition` and `savePolicy`. A row that does not grow is always written. The sum
`savePolicy` makes has no term for the setup-model checks; every other one does.
-/

namespace Eef.Coordinator

open Eef.Lib Eef.Node

/-- `RECORD_BYTES` of a setup-model check, also the bound of an intent. -/
def recordBytes : Nat := 4096

/-- `8 * 1024 * 1024`. -/
def maxRecordBytes : Nat := 8 * 1024 * 1024

/-- `request_execution::reserved_bytes`. -/
def Plan.reservedBytes (p : Plan) : Nat :=
  match p.execution.bind (·.workload) with
  | some w =>
    match w.state with
    | .issued => w.definition.events.maxTotalBytes + (2 * 65536 + 8192 + completionReserve)
    | .accepted => w.definition.events.maxTotalBytes + (8192 + completionReserve)
    | _ => 0
  | none => ((p.attempts.filter fun a => a.state.live).map fun a =>
      a.grant.limits.maxResultBytes + if a.state = .issued then 32768 else 16384).sum

/-- `jobs::reserve`. -/
def Plan.reserve (p : Plan) : Nat :=
  if 0 < p.reservedBytes then p.reservedBytes
  else match p.status with
    | .pending | .running => 4096
    | .pausing | .stopping => 3072
    | .review | .awaitingApproval | .approved | .paused | .interrupted => 1024
    | _ => 0

/-- An intent as a document. -/
def Intent.toJson (i : Intent) : Json :=
  .obj [("schema_version", .nat 1), ("definition", i.definition),
    ("coordinator_runtime_id", .str i.coordinatorRuntimeId), ("created_at_ms", .nat i.createdAtMs)]

section
variable [F64]

def JobRow.cost (r : JobRow) : Nat := r.plan.toJson.size + r.reserved

def PolicyRow.cost (r : PolicyRow) : Nat := r.record.toJson.size + r.reserved

def ScheduleRow.cost (r : ScheduleRow) : Nat := r.record.toJson.size + r.reserved

namespace Store

/-- `automations::count`: the rows of the nine tables. -/
def count (s : Store) : Nat :=
  s.jobs.length + s.definitions.length + s.authorizations.length + s.occurrences.length
    + s.archives.length + s.schedules.length + s.triggers.length + s.intents.length
    + s.checks.length

/-- The jobs with what they reserve. -/
def jobBytes (s : Store) : Nat := (s.jobs.map JobRow.cost).sum

/-- `model_verification_intents::bytes`. -/
def intentBytes (s : Store) : Nat := (s.intents.map fun i => i.toJson.size).sum

/-- `setup_model_checks::bytes`. -/
def checkBytes (s : Store) : Nat := s.checks.length * recordBytes

/-- `automation_authorizations::bytes`. -/
def policyBytes (s : Store) : Nat := (s.authorizations.map PolicyRow.cost).sum

/-- The definitions. -/
def sourceBytes (s : Store) : Nat := (s.definitions.map fun d => d.toJson.size).sum

/-- `automation_occurrences::bytes`: occurrences, archives, schedules and triggers. -/
def recurrenceBytes (s : Store) : Nat :=
  (s.occurrences.map fun r => r.toJson.size).sum + (s.archives.map fun a => a.toJson.size).sum
    + (s.schedules.map ScheduleRow.cost).sum + (s.triggers.map fun t => t.toJson.size).sum

/-- `definition_bytes`: everything but the jobs. -/
def definitionBytes (s : Store) : Nat :=
  s.sourceBytes + s.policyBytes + s.recurrenceBytes + s.intentBytes + s.checkBytes

/-- `check_size`. -/
def checkSize (s : Store) (id : String) (size reserved : Nat) : Result Unit :=
  if (Table.find (fun row => row.plan.planId) id s.jobs).any fun row =>
      decide (size + reserved ≤ row.cost) then .ok ()
  else do
    ensure (size + reserved ≤ maxRecordBytes)
      "Job record exceeds 8 MiB; execution cannot advance without a durable checkpoint"
    ensure (size + reserved ≤ s.maxBytes
      - (((s.jobs.filter fun row => row.plan.planId ≠ id).map JobRow.cost).sum + s.definitionBytes))
      "Job storage is full. Remove finished jobs or increase jobs.max_bytes."

/-- `quota` for a record that costs `cost` in place of one that cost `previous`. -/
def quota (s : Store) (new : Bool) (previous : Option Nat) (cost : Nat) : Result Unit := do
  bailIf (new = true ∧ s.maxCount ≤ s.count) "Trigger history count quota exhausted"
  if previous.any fun old => decide (cost ≤ old) then .ok ()
  else do
    ensure (cost ≤ s.maxBytes - (s.jobBytes + s.definitionBytes - previous.getD 0))
      "Trigger byte quota exhausted; no claim advanced"

/-! ## A journal with room -/

/-- No row is larger than a record may be, and the bytes are enough for as many of them as are
counted, and one more. -/
structure Roomy (s : Store) : Prop where
  jobs : ∀ row ∈ s.jobs, row.cost ≤ maxRecordBytes
  definitions : ∀ d ∈ s.definitions, d.toJson.size ≤ maxRecordBytes
  policies : ∀ row ∈ s.authorizations, row.cost ≤ maxRecordBytes
  occurrences : ∀ r ∈ s.occurrences, r.toJson.size ≤ maxRecordBytes
  archives : ∀ a ∈ s.archives, a.toJson.size ≤ maxRecordBytes
  schedules : ∀ row ∈ s.schedules, row.cost ≤ maxRecordBytes
  triggers : ∀ t ∈ s.triggers, t.toJson.size ≤ maxRecordBytes
  intents : ∀ i ∈ s.intents, i.toJson.size ≤ maxRecordBytes
  room : (s.maxCount + 1) * maxRecordBytes ≤ s.maxBytes

/-- Its rows take at most their number of records. -/
theorem Roomy.used_le {s : Store} (h : s.Roomy) :
    s.jobBytes + s.definitionBytes ≤ s.count * maxRecordBytes := by
  have hsum : ∀ {α : Type} {f : α → Nat} {l : List α}, (∀ a ∈ l, f a ≤ maxRecordBytes) →
      (l.map f).sum ≤ l.length * maxRecordBytes := by
    intro α f l hl
    have hle := List.sum_le_card_nsmul (l.map f) maxRecordBytes fun n hn => by
      obtain ⟨a, ha, rfl⟩ := List.mem_map.mp hn
      exact hl a ha
    rwa [List.length_map, Nat.nsmul_eq_mul] at hle
  have hjobs : s.jobBytes ≤ _ := hsum h.jobs
  have hsources : s.sourceBytes ≤ _ := hsum h.definitions
  have hpolicies : s.policyBytes ≤ _ := hsum h.policies
  have hoccurrences := hsum h.occurrences
  have harchives := hsum h.archives
  have hschedules := hsum h.schedules
  have htriggers := hsum h.triggers
  have hintents : s.intentBytes ≤ _ := hsum h.intents
  have hchecks : s.checkBytes ≤ s.checks.length * maxRecordBytes :=
    Nat.mul_le_mul_left _ (by decide)
  simp only [definitionBytes, recurrenceBytes, count, Nat.add_mul]
  omega

/-- So one more fits. -/
theorem Roomy.fits {s : Store} (h : s.Roomy) (hcount : s.count ≤ s.maxCount) {cost : Nat}
    (hcost : cost ≤ maxRecordBytes) :
    cost ≤ s.maxBytes - (s.jobBytes + s.definitionBytes) := by
  have hused := h.used_le
  have hroom := h.room
  have hmul : s.count * maxRecordBytes ≤ s.maxCount * maxRecordBytes :=
    Nat.mul_le_mul_right _ hcount
  rw [Nat.add_mul, Nat.one_mul] at hroom
  omega

/-- So does another record of a job that is there, or a new one. -/
theorem Roomy.checkSize {s : Store} (h : s.Roomy) (hcount : s.count ≤ s.maxCount) (id : String)
    {size reserved : Nat} (hcost : size + reserved ≤ maxRecordBytes) :
    s.checkSize id size reserved = .ok () := by
  have hothers : ((s.jobs.filter fun row => row.plan.planId ≠ id).map JobRow.cost).sum ≤ s.jobBytes :=
    (List.filter_sublist.map JobRow.cost).sum_le_sum fun _ _ => Nat.zero_le _
  have hfits := h.fits hcount hcost
  unfold Store.checkSize
  split
  · rfl
  · simp only [bind_ok, ensure_ok]
    exact ⟨(), hcost, hfits.trans (Nat.sub_le_sub_left (Nat.add_le_add_right hothers _) _)⟩

/-- A job of a mebibyte is within the bound. -/
theorem cost_le {p : Plan} {reserved : Nat} (h : p.toJson.size ≤ 1024 * 1024)
    (hreserved : reserved ≤ 4096) : JobRow.cost ⟨p, reserved⟩ ≤ maxRecordBytes := by
  simp only [JobRow.cost, maxRecordBytes]
  omega

theorem Roomy.quota {s : Store} (h : s.Roomy) (hcount : s.count < s.maxCount) {cost : Nat}
    (hcost : cost ≤ maxRecordBytes) : s.quota true none cost = .ok () := by
  unfold Store.quota
  simp only [bind_ok, bailIf_ok, ensure_ok, Option.any_none, Bool.false_eq_true, if_false,
    Option.getD_none, Nat.sub_zero]
  exact ⟨(), fun hfull => absurd hfull.2 (Nat.not_le_of_lt hcount), h.fits (Nat.le_of_lt hcount) hcost⟩

/-- Other jobs may stand in the place of those that are there. -/
theorem Roomy.withJobs {s : Store} (h : s.Roomy) {rows : List JobRow}
    (hrows : ∀ row ∈ rows, row.cost ≤ maxRecordBytes) : Roomy { s with jobs := rows } :=
  ⟨hrows, h.definitions, h.policies, h.occurrences, h.archives, h.schedules, h.triggers, h.intents,
    h.room⟩

section
variable [PeerAdmission] [Sha256] [Planner] [Pairing] [ScopeCompiler]

/-- `save_definition`. -/
def saveDefinition (s : Store) (d : Definition) (new : Bool) : Result Store := do
  d.validateStored
  let previous := (Table.find Definition.id d.id s.definitions).map fun d => d.toJson.size
  bailIf (new = true ∧ s.maxCount ≤ s.count)
    "Job/automation history is full; increase jobs.max_count or remove finished jobs"
  ensure ((previous.any fun old => decide (d.toJson.size ≤ old)) = true
    ∨ (d.toJson.size ≤ maxRecordBytes ∧ d.toJson.size ≤ s.maxBytes - (s.jobBytes
      + ((s.definitions.filter fun e => e.id ≠ d.id).map fun d => d.toJson.size).sum
      + (s.policyBytes + s.recurrenceBytes + (s.intentBytes + s.checkBytes)))))
    "Job/automation storage is full; definition was not saved"
  if new then do
    ensure (Table.find Definition.id d.id s.definitions = none)
      "UNIQUE constraint failed: automation_definitions.definition_id"
    return { s with definitions := s.definitions ++ [d] }
  else
    return { s with definitions := Table.update (fun e => e.id == d.id) (fun _ => d) s.definitions }

/-- `save_authorization`. -/
def savePolicy (s : Store) (a : Authorization) (new : Bool) : Result Store := do
  let d ← s.readDefinition a.creation.definition
  a.validateFor d
  let cost := a.toJson.size + a.reserve
  bailIf (new = true ∧ s.maxCount ≤ s.count) "Job/definition/authorization history is full"
  let previous := (Table.find (fun row => row.record.id) a.id s.authorizations).map PolicyRow.cost
  -- no term for `setup_model_checks` here
  ensure ((previous.any fun old => decide (cost ≤ old)) = true
    ∨ (cost ≤ maxRecordBytes ∧ cost ≤ s.maxBytes - (s.jobBytes + s.sourceBytes
      + ((s.authorizations.filter fun row => row.record.id ≠ a.id).map PolicyRow.cost).sum
      + (s.recurrenceBytes + s.intentBytes))))
    "Job/definition/authorization storage is full; no policy saved"
  if new then do
    ensure (Table.find (fun row => row.record.id) a.id s.authorizations = none)
      "UNIQUE constraint failed: automation_authorizations.authorization_id"
    return { s with authorizations := s.authorizations ++ [⟨a, a.reserve⟩] }
  else
    return { s with
      authorizations := Table.update (fun row => row.record.id == a.id) (fun _ => ⟨a, a.reserve⟩)
        s.authorizations }

/-- `save_schedule`; the record is sealed with its digest. -/
def saveSchedule (s : Store) (sch : Schedule) (new : Bool) : Result (Store × Schedule) := do
  let sch := sch.sealed
  let p ← s.policyOf sch.creation.policy
  let d ← s.readDefinition p.creation.definition
  sch.validateData p d
  let row : ScheduleRow := ⟨sch, scheduleCost - sch.toJson.size⟩
  let previous := (Table.find (fun row => row.record.id) sch.id s.schedules).map ScheduleRow.cost
  s.quota new previous scheduleCost
  if new then do
    ensure (Table.find (fun row => row.record.id) sch.id s.schedules = none)
      "UNIQUE constraint failed: automation_schedules.schedule_id"
    return ({ s with schedules := s.schedules ++ [row] }, sch)
  else
    return ({ s with
      schedules := Table.update (fun e => e.record.id == sch.id) (fun _ => row) s.schedules }, sch)

/-- A new row of `automation_triggers`, with its unique columns. -/
def insertTrigger (s : Store) (t : Trigger) : Result Store := do
  s.quota true ((Table.find Trigger.id t.id s.triggers).map fun t => t.toJson.size) t.toJson.size
  ensure (∀ u ∈ s.triggers, u.id ≠ t.id ∧ u.requestContext.requestId ≠ t.requestContext.requestId
    ∧ u.reservationId ≠ t.reservationId
    ∧ ¬(u.scheduleId = t.scheduleId ∧ u.ordinal = t.ordinal))
    "UNIQUE constraint failed: automation_triggers"
  return { s with triggers := s.triggers ++ [t] }

/-- `UPDATE durable_jobs`. -/
def updateJob (s : Store) (p : Plan) : Result Store := do
  s.checkSize p.planId p.toJson.size p.reserve
  ensure (p.updatedAtMs ≤ i64Max) "out of range integral type conversion attempted"
  return { s with
    jobs := Table.update (fun row => row.plan.planId == p.planId) (fun _ => ⟨p, p.reserve⟩) s.jobs }

/-! ## One row more -/

variable {s : Store}

omit [PeerAdmission] [Sha256] [Planner] [Pairing] [ScopeCompiler] in
theorem Roomy.updateJob (h : s.Roomy) (hcount : s.count ≤ s.maxCount) {p : Plan}
    (hsize : p.toJson.size ≤ 1024 * 1024) (hreserve : p.reserve ≤ 4096)
    (hclock : p.updatedAtMs ≤ i64Max) :
    s.updateJob p = .ok { s with
      jobs := Table.update (fun row => row.plan.planId == p.planId) (fun _ => ⟨p, p.reserve⟩) s.jobs } := by
  have hcost : JobRow.cost ⟨p, p.reserve⟩ ≤ maxRecordBytes := cost_le hsize hreserve
  exact bind_ok.mpr ⟨(), h.checkSize hcount _ hcost, bind_ok.mpr ⟨(), ensure_ok.mpr hclock, rfl⟩⟩

omit [ScopeCompiler] in
theorem Roomy.saveDefinition (h : s.Roomy) (hcount : s.count < s.maxCount) {d : Definition}
    (hstored : d.validateStored = .ok ()) (hsize : d.toJson.size ≤ maxRecordBytes)
    (hfresh : Table.find Definition.id d.id s.definitions = none) :
    s.saveDefinition d true = .ok { s with definitions := s.definitions ++ [d] } := by
  have hothers : ((s.definitions.filter fun e => e.id ≠ d.id).map fun d => d.toJson.size).sum ≤
      s.sourceBytes := (List.filter_sublist.map _).sum_le_sum fun _ _ => Nat.zero_le _
  have hfits := h.fits (Nat.le_of_lt hcount) hsize
  unfold Store.saveDefinition
  refine bind_ok.mpr ⟨(), hstored, bind_ok.mpr ⟨(), bailIf_ok.mpr ?_, ?_⟩⟩
  · exact fun hfull => Nat.not_le_of_lt hcount hfull.2
  refine bind_ok.mpr ⟨(), ensure_ok.mpr (.inr ⟨hsize, hfits.trans ?_⟩), ?_⟩
  · refine Nat.sub_le_sub_left ?_ _
    simp only [definitionBytes]
    omega
  · exact bind_ok.mpr ⟨(), ensure_ok.mpr hfresh, rfl⟩

theorem Roomy.savePolicy (h : s.Roomy) (hcount : s.count < s.maxCount) {a : Authorization}
    {d : Definition} (hread : s.readDefinition a.creation.definition = .ok d)
    (hvalid : a.validateFor d = .ok ()) (hsize : PolicyRow.cost ⟨a, a.reserve⟩ ≤ maxRecordBytes)
    (hfresh : Table.find (fun row => row.record.id) a.id s.authorizations = none) :
    s.savePolicy a true =
      .ok { s with authorizations := s.authorizations ++ [⟨a, a.reserve⟩] } := by
  have hothers : ((s.authorizations.filter fun row => row.record.id ≠ a.id).map PolicyRow.cost).sum ≤
      s.policyBytes := (List.filter_sublist.map _).sum_le_sum fun _ _ => Nat.zero_le _
  have hfits := h.fits (Nat.le_of_lt hcount) hsize
  unfold Store.savePolicy
  refine bind_ok.mpr ⟨_, hread, bind_ok.mpr ⟨(), hvalid, bind_ok.mpr ⟨(), bailIf_ok.mpr ?_, ?_⟩⟩⟩
  · exact fun hfull => Nat.not_le_of_lt hcount hfull.2
  refine bind_ok.mpr ⟨(), ensure_ok.mpr (.inr ⟨hsize, hfits.trans ?_⟩), ?_⟩
  · refine Nat.sub_le_sub_left ?_ _
    simp only [definitionBytes]
    omega
  · exact bind_ok.mpr ⟨(), ensure_ok.mpr hfresh, rfl⟩

omit [PeerAdmission] [Sha256] [Planner] [Pairing] [ScopeCompiler] in
theorem Roomy.insertTrigger (h : s.Roomy) (hcount : s.count < s.maxCount) {t : Trigger}
    (hsize : t.toJson.size ≤ maxRecordBytes) (hnone : s.triggers = []) :
    s.insertTrigger t = .ok { s with triggers := [t] } := by
  unfold Store.insertTrigger
  rw [hnone]
  refine bind_ok.mpr ⟨(), h.quota hcount hsize, bind_ok.mpr ⟨(), ensure_ok.mpr ?_, rfl⟩⟩
  exact fun _ hmem => absurd hmem List.not_mem_nil

end

end Store

end

end Eef.Coordinator
