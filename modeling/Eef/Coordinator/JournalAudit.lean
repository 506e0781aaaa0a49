import Eef.Coordinator.ScheduleFence
import Eef.Lib.Lists

/-!
# The audit of a journal

When a coordinator starts it audits its journal (`validate_automations`): every definition, policy,
schedule, trigger, archive and reservation is read back, each against the rows it depends on, and
then every job. It does not start if one of them fails. `Intact` is a journal that passes, with the
columns the tables keep unique.

A row is checked against others through what reading those gives (`readDefinition`, `policyOf`,
`scheduleOf`, `triggerForRequest`), so a command that changes one table is followed through the
checks of the rest by what it keeps of these (`Keeps`): a definition that is removed, a policy that is
revoked and a schedule that goes on keep all that the checks of other rows compare.
-/

namespace Eef.Coordinator

open Eef.Lib Eef.Node

/-- A definition as it was, or without its source. -/
structure Definition.Kept (d d' : Definition) : Prop where
  same : d' = { d with
    revision := d'.revision
    state := d'.state
    source := d'.source
    removal := d'.removal }
  source : d'.source = d.source ∨ d'.source = none

/-- A policy as it was, or revoked. -/
structure Authorization.Kept (a a' : Authorization) : Prop where
  same : a' = { a with
    revision := a'.revision
    state := a'.state
    revocation := a'.revocation }
  revoked : a.revocation.isSome = true → a'.revocation.isSome = true

/-- A schedule that went on. -/
structure Schedule.Kept (sch sch' : Schedule) : Prop where
  same : sch' = { sch with
    revision := sch'.revision
    state := sch'.state
    observedAtMs := sch'.observedAtMs
    nextDueMs := sch'.nextDueMs
    activeTrigger := sch'.activeTrigger
    launchStartedAtMs := sch'.launchStartedAtMs
    refusal := sch'.refusal
    refusalResolution := sch'.refusalResolution
    claimedRuns := sch'.claimedRuns
    stop := sch'.stop
    reason := sch'.reason
    recordSha256 := sch'.recordSha256 }
  claimed : sch.claimedRuns ≤ sch'.claimedRuns

theorem Definition.Kept.refl (d : Definition) : d.Kept d := ⟨rfl, .inl rfl⟩

theorem Authorization.Kept.refl (a : Authorization) : a.Kept a := ⟨rfl, fun h => h⟩

theorem Schedule.Kept.refl (sch : Schedule) : sch.Kept sch := ⟨rfl, Nat.le_refl _⟩

section
variable [F64] [PeerAdmission] [Sha256] [Planner] [Pairing] [ScopeCompiler]

/-! ## The audit -/

namespace Store

/-- `JobStore::validate_automations`. -/
def validateAutomations (s : Store) : Result Unit := do
  each (fun d : Definition => do let _ ← s.readDefinition d.id) s.definitions
  let _ ← s.policies
  s.validatedHistory
  s.checkOccurrences

/-- What `JobStore::list` checks of a job. -/
def checkJob (s : Store) (p : Plan) : Result Unit := do
  p.validateReview
  s.validateJob p

/-- `JobStore::list`. -/
def list (s : Store) : Result (List Plan) := do
  each (fun row => s.checkJob row.plan) s.jobs
  return s.jobs.map (·.plan)

/-- The columns that the database keeps unique. -/
structure Unique (s : Store) : Prop where
  definitions : Table.Keyed Definition.id s.definitions
  policies : Table.Keyed (fun row => row.record.id) s.authorizations
  schedules : Table.Keyed (fun row => row.record.id) s.schedules
  jobs : Table.Keyed (fun row => row.plan.planId) s.jobs
  reservations : Table.Keyed Reservation.id s.occurrences
  reserved : Table.Keyed (fun r : Reservation => r.approvedJob.planId) s.occurrences

/-- A journal that passes its audit, and whose jobs are all read back. -/
structure Intact (s : Store) : Prop extends s.Unique where
  audited : s.validateAutomations = .ok ()
  listed : ∀ row ∈ s.jobs, s.checkJob row.plan = .ok ()

/-! ## Reading -/

omit [ScopeCompiler] in
theorem readDefinition_iff {s : Store} {id : String} {d : Definition} :
    s.readDefinition id = .ok d ↔
      Table.find Definition.id id s.definitions = some d ∧ d.validateStored = .ok () := by
  simp only [readDefinition, bind_ok, context_ok, pure_ok]
  constructor
  · intro h
    obtain ⟨d', hfind, _, hvalid, rfl⟩ := h
    exact ⟨hfind, hvalid⟩
  · intro h
    exact ⟨d, h.1, (), h.2, rfl⟩

theorem policyOf_iff {s : Store} {id : String} {a : Authorization} :
    s.policyOf id = .ok a ↔ ∃ row, Table.find (fun row => row.record.id) id s.authorizations = some row ∧
      s.checkPolicy row = .ok () ∧ row.record = a := by
  unfold policyOf readPolicy
  cases hfind : Table.find (fun row => row.record.id) id s.authorizations with
  | none =>
    simp only [ok_bind, context_ok]
    constructor
    · intro h
      cases h
    · intro h
      obtain ⟨row, hrow, -⟩ := h
      cases hrow
  | some row =>
    simp only [bind_ok, context_ok, pure_ok, Option.some.injEq]
    constructor
    · intro h
      obtain ⟨_, ⟨_, hcheck, rfl⟩, heq⟩ := h
      exact ⟨row, rfl, hcheck, Option.some.inj heq⟩
    · intro h
      obtain ⟨row', rfl, hcheck, rfl⟩ := h
      exact ⟨_, ⟨(), hcheck, rfl⟩, rfl⟩

theorem readPolicy_iff {s : Store} {id : String} {a : Authorization} :
    s.readPolicy id = .ok (some a) ↔ s.policyOf id = .ok a := by
  simp only [policyOf, bind_ok, context_ok]
  constructor
  · intro h
    exact ⟨some a, h, rfl⟩
  · intro h
    obtain ⟨_, h, rfl⟩ := h
    exact h

theorem scheduleOf_iff {s : Store} {id msg : String} {sch : Schedule} :
    s.scheduleOf id msg = .ok sch ↔
      ∃ row, Table.find (fun row => row.record.id) id s.schedules = some row ∧
        s.checkSchedule row = .ok () ∧ row.record = sch := by
  unfold scheduleOf readSchedule
  cases hfind : Table.find (fun row => row.record.id) id s.schedules with
  | none =>
    simp only [ok_bind, context_ok]
    constructor
    · intro h
      cases h
    · intro h
      obtain ⟨row, hrow, -⟩ := h
      cases hrow
  | some row =>
    simp only [bind_ok, context_ok, pure_ok, Option.some.injEq]
    constructor
    · intro h
      obtain ⟨_, ⟨_, hcheck, rfl⟩, heq⟩ := h
      exact ⟨row, rfl, hcheck, Option.some.inj heq⟩
    · intro h
      obtain ⟨row', rfl, hcheck, rfl⟩ := h
      exact ⟨_, ⟨(), hcheck, rfl⟩, rfl⟩

theorem policies_iff {s : Store} {as : List Authorization} : s.policies = .ok as ↔
    (∀ row ∈ s.authorizations, s.checkPolicy row = .ok ()) ∧
    (∀ row ∈ s.authorizations,
      (s.generations row.record.creation.definition).insertionSort (· ≤ ·) =
        List.range' 1 (s.generations row.record.creation.definition).length) ∧
    s.authorizations.map (·.record) = as := by
  simp only [policies, bind_ok, each_ok, ensure_ok, pure_ok, exists_const]

/-- What a checked history consists of. -/
structure History (s : Store) : Prop where
  policies : ∃ as, s.policies = .ok as
  schedules : ∀ row ∈ s.schedules, s.checkSchedule row = .ok ()
  triggers : ∀ t ∈ s.triggers, s.checkTrigger t = .ok ()
  identities : (s.triggers.flatMap Trigger.identities).Nodup
  active : (s.activeSchedules.map (·.definitionId)).Nodup
  claims : ∀ row ∈ s.schedules, s.checkClaims row.record = .ok ()

theorem validatedHistory_iff {s : Store} : s.validatedHistory = .ok () ↔ s.History := by
  simp only [validatedHistory, bind_ok, each_ok, ensure_ok]
  constructor
  · intro h
    obtain ⟨as, hpolicies, _, hschedules, _, htriggers, _, hidentities, _, hactive, hclaims⟩ := h
    exact ⟨⟨as, hpolicies⟩, hschedules, htriggers, hidentities, hactive, hclaims⟩
  · intro h
    obtain ⟨as, hpolicies⟩ := h.policies
    exact ⟨as, hpolicies, (), h.schedules, (), h.triggers, (), h.identities, (), h.active, h.claims⟩

/-- What the checked records of `automation_occurrences.rs` consist of. -/
structure Occurrences (s : Store) : Prop where
  history : s.validatedHistory = .ok ()
  archives : ∀ a ∈ s.archives, s.checkArchive a = .ok ()
  records : ∀ r ∈ s.occurrences, s.checkReservation r = .ok ()
  plans : ∀ r ∈ s.occurrences, ∃ p, s.retainedPlan r = .ok p
  budgets : ∀ r ∈ s.occurrences, s.checkBudget r.delegation.policyId = .ok ()

theorem checkOccurrences_iff {s : Store} : s.checkOccurrences = .ok () ↔ s.Occurrences := by
  simp only [checkOccurrences, bind_ok, each_ok, pure_ok]
  constructor
  · intro h
    obtain ⟨_, hhistory, _, harchives, _, hrecords, hbudgets⟩ := h
    refine ⟨hhistory, harchives, fun r hr => ?_, fun r hr => ?_, hbudgets⟩
    · obtain ⟨_, hrecord, -⟩ := hrecords r hr
      exact hrecord
    · obtain ⟨_, -, p, hp, -⟩ := hrecords r hr
      exact ⟨p, hp⟩
  · intro h
    refine ⟨(), h.history, (), h.archives, (), fun r hr => ?_, h.budgets⟩
    obtain ⟨p, hp⟩ := h.plans r hr
    exact ⟨(), h.records r hr, p, hp, trivial⟩

theorem validateAutomations_iff {s : Store} (hkeyed : Table.Keyed Definition.id s.definitions) :
    s.validateAutomations = .ok () ↔
      (∀ d ∈ s.definitions, d.validateStored = .ok ()) ∧ s.checkOccurrences = .ok () := by
  simp only [validateAutomations, bind_ok, each_ok, pure_ok, readDefinition_iff]
  constructor
  · intro h
    obtain ⟨_, hdefinitions, _, -, _, -, hoccurrences⟩ := h
    refine ⟨fun d hd => ?_, hoccurrences⟩
    obtain ⟨d', ⟨hfind, hvalid⟩, -⟩ := hdefinitions d hd
    rw [Table.find_of_mem hkeyed hd] at hfind
    cases hfind
    exact hvalid
  · intro h
    have hhistory := (checkOccurrences_iff.mp h.2).history
    obtain ⟨as, hpolicies⟩ := (validatedHistory_iff.mp hhistory).policies
    refine ⟨(), fun d hd => ?_, as, hpolicies, (), hhistory, h.2⟩
    exact ⟨d, ⟨Table.find_of_mem hkeyed hd, h.1 d hd⟩, trivial⟩

end Store

/-! ## What a check compares -/

omit [PeerAdmission] [Planner] [Pairing] [ScopeCompiler] in
/-- A schedule is checked against its policy and definition; both may have gone on. -/
theorem Schedule.validateData_kept {sch : Schedule} {a a' : Authorization} {d d' : Definition}
    (ha : a.Kept a') (hd : d.Kept d') (h : sch.validateData a d = .ok ()) :
    sch.validateData a' d' = .ok () := by
  rw [ha.same, hd.same]
  exact h

theorem Authorization.validateFor_kept {a : Authorization} {d d' : Definition} (hd : d.Kept d')
    (hvalid : d'.validate = .ok ()) (h : a.validateFor d = .ok ()) : a.validateFor d' = .ok () := by
  simp only [validateFor, bind_ok, ensure_ok] at h ⊢
  obtain ⟨_, ha, _, -, _, hwithin, _, hsource, _, hcompiles, hgrants⟩ := h
  have hwithin' : a.within d' := by
    rw [hd.same]
    exact hwithin
  have hsource' : a.matchesSource d' = .ok () := by
    unfold matchesSource at hsource ⊢
    rcases hd.source with heq | heq
    · rw [heq]
      exact hsource
    · rw [heq]
  refine ⟨(), ha, (), hvalid, (), hwithin', (), hsource', (), hcompiles, ?_⟩
  rw [hd.same]
  exact hgrants

omit [PeerAdmission] [Planner] [Pairing] [ScopeCompiler] in
theorem Trigger.validateData_kept {tr : Trigger} {sch sch' : Schedule} {a a' : Authorization}
    (hsch : sch.Kept sch') (ha : a.Kept a') (h : tr.validateData sch a = .ok ()) :
    tr.validateData sch' a' = .ok () := by
  simp only [validateData, bind_ok, ensure_ok] at h ⊢
  obtain ⟨_, hids, _, hrequest, hbounded⟩ := h
  refine ⟨(), hids, (), hrequest, ?_⟩
  have hclaimed := hsch.claimed
  rw [hsch.same, ha.same]
  simp only [bounded] at hbounded ⊢
  exact ⟨hbounded.1, hbounded.2.1, Nat.le_trans hbounded.2.2.1 hclaimed, hbounded.2.2.2⟩

namespace Store

/-- The definitions and policies that are read in `s` are still read in `t`, further on. -/
structure KeepsPolicies (s t : Store) : Prop where
  definition : ∀ {id : String} {d : Definition}, s.readDefinition id = .ok d →
    ∃ d', t.readDefinition id = .ok d' ∧ d.Kept d'
  policy : ∀ {id : String} {a : Authorization}, s.policyOf id = .ok a →
    ∃ a', t.policyOf id = .ok a' ∧ a.Kept a'

/-- And so are the schedules. -/
structure Keeps (s t : Store) : Prop extends s.KeepsPolicies t where
  schedule : ∀ {id msg : String} {sch : Schedule}, s.scheduleOf id msg = .ok sch →
    ∃ sch', t.scheduleOf id msg = .ok sch' ∧ sch.Kept sch'

/-- The trigger of a request. -/
abbrev requested (s : Store) (request : String) : Option Trigger :=
  Table.find (fun t : Trigger => t.requestContext.requestId) request s.triggers

/-- The request of a plan has the trigger it had. -/
def SameTrigger (s t : Store) (p : Plan) : Prop :=
  ∀ c ∈ p.goal.requestContext, t.requested c.requestId = s.requested c.requestId

variable {s t : Store}

theorem checkPolicy_kept (hdefinition : ∀ {id : String} {d : Definition},
      s.readDefinition id = .ok d → ∃ d', t.readDefinition id = .ok d' ∧ d.Kept d')
    {row : PolicyRow} (h : s.checkPolicy row = .ok ()) : t.checkPolicy row = .ok () := by
  simp only [checkPolicy, bind_ok, ensure_ok] at h ⊢
  obtain ⟨d, hd, _, hvalid, hreserved⟩ := h
  obtain ⟨d', hd', hkept⟩ := hdefinition hd
  have hstored := (readDefinition_iff.mp hd').2
  simp only [Definition.validateStored, bind_ok] at hstored
  obtain ⟨_, hdvalid, -⟩ := hstored
  exact ⟨d', hd', (), Authorization.validateFor_kept hkept hdvalid hvalid, hreserved⟩

theorem checkSchedule_kept (h : s.KeepsPolicies t) {row : ScheduleRow} (hcheck : s.checkSchedule row = .ok ()) :
    t.checkSchedule row = .ok () := by
  simp only [checkSchedule, bind_ok, ensure_ok] at hcheck ⊢
  obtain ⟨a, ha, d, hd, _, hvalid, hfull⟩ := hcheck
  obtain ⟨a', ha', hkept⟩ := h.policy ha
  obtain ⟨d', hd', hdkept⟩ := h.definition hd
  refine ⟨a', ha', d', ?_, (), Schedule.validateData_kept hkept hdkept hvalid, hfull⟩
  rw [hkept.same]
  exact hd'

theorem checkTrigger_kept (h : s.Keeps t) {tr : Trigger} (hcheck : s.checkTrigger tr = .ok ()) :
    t.checkTrigger tr = .ok () := by
  simp only [checkTrigger, bind_ok] at hcheck ⊢
  obtain ⟨sch, hsch, a, ha, hvalid⟩ := hcheck
  obtain ⟨sch', hsch', hkept⟩ := h.schedule hsch
  obtain ⟨a', ha', hakept⟩ := h.policy ha
  refine ⟨sch', hsch', a', ?_, Trigger.validateData_kept hkept hakept hvalid⟩
  rw [hkept.same]
  exact ha'

theorem triggerForRequest_kept (h : s.Keeps t) {request : String} {tr : Option Trigger}
    (hsame : t.requested request = s.requested request)
    (hread : s.triggerForRequest request = .ok tr) : t.triggerForRequest request = .ok tr := by
  have hsame : Table.find (fun t : Trigger => t.requestContext.requestId) request t.triggers =
      Table.find (fun t : Trigger => t.requestContext.requestId) request s.triggers := hsame
  unfold triggerForRequest at hread ⊢
  rw [hsame]
  cases hfind : Table.find (fun t : Trigger => t.requestContext.requestId) request s.triggers with
  | none =>
    rw [hfind] at hread
    exact hread
  | some claim =>
    simp only [hfind, bind_ok] at hread ⊢
    obtain ⟨_, hcheck, hread⟩ := hread
    exact ⟨(), checkTrigger_kept h hcheck, hread⟩

theorem linkedTo_kept (h : s.Keeps t) {p : Plan} {origin : RequestContext} {claim : Option Trigger}
    {link : Option (Delegation × TriggerLink)} (hlinked : s.linkedTo p origin claim link = .ok ()) :
    t.linkedTo p origin claim link = .ok () := by
  cases claim with
  | none =>
    cases link with
    | none => rfl
    | some link => cases hlinked
  | some tr =>
    cases link with
    | none => exact hlinked
    | some link =>
      simp only [linkedTo, bind_ok, ensure_ok] at hlinked ⊢
      obtain ⟨sch, hsch, hby⟩ := hlinked
      obtain ⟨sch', hsch', hkept⟩ := h.schedule hsch
      refine ⟨sch', hsch', ?_⟩
      rw [hkept.same]
      exact hby

theorem validateDelegation_kept (h : s.Keeps t) {p : Plan} (hsame : s.SameTrigger t p)
    (hvalid : s.validateDelegation p = .ok ()) : t.validateDelegation p = .ok () := by
  unfold validateDelegation at hvalid ⊢
  cases horigin : p.goal.requestContext with
  | none => rfl
  | some origin =>
    simp only [horigin, bind_ok] at hvalid ⊢
    obtain ⟨claim, hclaim, hlinked⟩ := hvalid
    exact ⟨claim, triggerForRequest_kept h (hsame origin horigin) hclaim, linkedTo_kept h hlinked⟩

theorem checkReservation_kept (h : s.Keeps t) {r : Reservation}
    (hsame : s.SameTrigger t r.approvedJob) (hcheck : s.checkReservation r = .ok ()) :
    t.checkReservation r = .ok () := by
  simp only [checkReservation, bind_ok, context_ok, ensure_ok] at hcheck ⊢
  obtain ⟨_, hvalid, _, ha, a, rfl, d, hd, _, hreview, _, hdelegation, _, hscope, approval,
    happroval, allowance, hallowance, hunder⟩ := hcheck
  obtain ⟨a', ha', hakept⟩ := h.policy (readPolicy_iff.mp ha)
  obtain ⟨d', hd', hdkept⟩ := h.definition hd
  refine ⟨(), hvalid, some a', readPolicy_iff.mpr ha', a', rfl, d', ?_, (), hreview, (),
    validateDelegation_kept h hsame hdelegation, (), ?_, approval, happroval, allowance, ?_, ?_⟩
  · rw [hakept.same]
    exact hd'
  · rw [hakept.same]
    exact hscope
  · rw [hakept.same]
    exact hallowance
  · rw [hakept.same, hdkept.same]
    exact hunder

theorem reservation_kept (h : s.Keeps t) (hsame : t.occurrences = s.occurrences)
    (htriggers : ∀ r ∈ s.occurrences, s.SameTrigger t r.approvedJob) {id : String}
    {r : Option Reservation} (hread : s.reservation id = .ok r) : t.reservation id = .ok r := by
  unfold reservation at hread ⊢
  rw [hsame]
  cases hfind : Table.find Reservation.id id s.occurrences with
  | none =>
    rw [hfind] at hread
    exact hread
  | some o =>
    simp only [hfind, bind_ok] at hread ⊢
    obtain ⟨_, hcheck, hread⟩ := hread
    exact ⟨(), checkReservation_kept h (htriggers o (Table.find_some hfind).1) hcheck, hread⟩

theorem checkArchive_kept (h : s.Keeps t) (hsame : t.occurrences = s.occurrences)
    (htriggers : ∀ r ∈ s.occurrences, s.SameTrigger t r.approvedJob) {a : Archive}
    (hjobs : (t.jobs.any fun row => row.plan.planId == a.command.job) = true →
      (s.jobs.any fun row => row.plan.planId == a.command.job) = true)
    (hcheck : s.checkArchive a = .ok ()) : t.checkArchive a = .ok () := by
  simp only [checkArchive, bind_ok, context_ok, ensure_ok, bailIf_ok] at hcheck ⊢
  obtain ⟨_, hvalid, _, hread, r, rfl, _, hsha, _, hreview, _, hlive, hnone⟩ := hcheck
  exact ⟨(), hvalid, some r, reservation_kept h hsame htriggers hread, r, rfl, (), hsha, (), hreview,
    (), hlive, fun hany => hnone (hjobs hany)⟩

theorem checkBudget_kept (h : s.Keeps t) (hsame : t.occurrences = s.occurrences) {policy : String}
    (hcheck : s.checkBudget policy = .ok ()) : t.checkBudget policy = .ok () := by
  have hgroup : t.group policy = s.group policy := by
    unfold group
    rw [hsame]
  simp only [checkBudget, bind_ok, context_ok, ensure_ok, hgroup] at hcheck ⊢
  obtain ⟨_, ha, a, rfl, _, hordinals, _, hoverflow, hbudget⟩ := hcheck
  obtain ⟨a', ha', hkept⟩ := h.policy (readPolicy_iff.mp ha)
  refine ⟨some a', readPolicy_iff.mpr ha', a', rfl, (), hordinals, (), hoverflow, ?_⟩
  rw [hkept.same]
  exact hbudget

theorem validateJob_kept (h : s.Keeps t) {p : Plan} (htrigger : s.SameTrigger t p)
    (harchives : (t.archives.any fun a => a.command.job == p.planId) = true →
      (s.archives.any fun a => a.command.job == p.planId) = true)
    (hfind : (t.occurrences.find? fun r => r.approvedJob.planId = p.planId) =
      s.occurrences.find? fun r => r.approvedJob.planId = p.planId)
    (htriggers : ∀ r ∈ s.occurrences, s.SameTrigger t r.approvedJob)
    (hcheck : s.validateJob p = .ok ()) : t.validateJob p = .ok () := by
  simp only [validateJob, bind_ok, bailIf_ok, hfind] at hcheck ⊢
  obtain ⟨_, hdelegation, _, hnone, hcheck⟩ := hcheck
  refine ⟨(), validateDelegation_kept h htrigger hdelegation, (), fun hany => hnone (harchives hany), ?_⟩
  cases hfound : s.occurrences.find? fun r => r.approvedJob.planId = p.planId with
  | none =>
    rw [hfound] at hcheck
    exact hcheck
  | some r =>
    simp only [hfound, bind_ok] at hcheck ⊢
    obtain ⟨_, hrecord, hlive⟩ := hcheck
    exact ⟨(), checkReservation_kept h (htriggers r (List.mem_of_find?_eq_some hfound)) hrecord, hlive⟩

/-! ## What a command keeps -/

omit [F64] [PeerAdmission] [Sha256] [Planner] [Pairing] [ScopeCompiler] in
theorem SameTrigger.of_eq (h : t.triggers = s.triggers) (p : Plan) : s.SameTrigger t p := by
  intro c _
  unfold requested
  rw [h]

theorem KeepsPolicies.of_eq (hdefinitions : t.definitions = s.definitions)
    (hpolicies : t.authorizations = s.authorizations) : s.KeepsPolicies t := by
  have hdefinition : ∀ {id : String} {d : Definition}, s.readDefinition id = .ok d →
      ∃ d', t.readDefinition id = .ok d' ∧ d.Kept d' := by
    intro id d hd
    refine ⟨d, ?_, .refl d⟩
    rw [readDefinition_iff, hdefinitions]
    exact readDefinition_iff.mp hd
  refine ⟨hdefinition, ?_⟩
  intro id a ha
  obtain ⟨row, hfind, hcheck, rfl⟩ := policyOf_iff.mp ha
  exact ⟨_, policyOf_iff.mpr ⟨row, hpolicies ▸ hfind, checkPolicy_kept hdefinition hcheck, rfl⟩,
    .refl _⟩

theorem Keeps.of_policies (h : s.KeepsPolicies t) (hschedules : t.schedules = s.schedules) :
    s.Keeps t := by
  refine ⟨h, ?_⟩
  intro id msg sch hsch
  obtain ⟨row, hfind, hcheck, rfl⟩ := scheduleOf_iff.mp hsch
  exact ⟨_, scheduleOf_iff.mpr ⟨row, hschedules ▸ hfind, checkSchedule_kept h hcheck, rfl⟩, .refl _⟩

theorem policies_kept (h : s.KeepsPolicies t) (hpolicies : t.authorizations = s.authorizations)
    (hread : ∃ as, s.policies = .ok as) : ∃ as, t.policies = .ok as := by
  obtain ⟨as, hread⟩ := hread
  obtain ⟨hcheck, hsorted, rfl⟩ := policies_iff.mp hread
  have hgenerations : ∀ definition, t.generations definition = s.generations definition := by
    intro definition
    unfold generations
    rw [hpolicies]
  refine ⟨_, policies_iff.mpr ⟨fun row hrow => ?_, fun row hrow => ?_, rfl⟩⟩
  · exact checkPolicy_kept h.definition (hcheck row (hpolicies ▸ hrow))
  · rw [hgenerations]
    exact hsorted row (hpolicies ▸ hrow)

/-- The job of a reservation that was not archived is there, as it was approved. -/
def Live (s : Store) (r : Reservation) : Prop :=
  ∃ row, Table.find (fun row => row.plan.planId) r.approvedJob.planId s.jobs = some row ∧
    row.plan.validateReview = .ok () ∧ liveMatches r row.plan = .ok ()

/-- The archive of a reservation. -/
abbrev archived (s : Store) (r : Reservation) : Option Archive :=
  s.archives.find? fun a => a.command.reservation = r.id

theorem retainedPlan_iff {r : Reservation} : (∃ p, s.retainedPlan r = .ok p) ↔
    (∀ a, s.archived r = some a → s.checkArchive a = .ok ()) ∧ (s.archived r = none → s.Live r) := by
  unfold retainedPlan archived
  cases hfind : s.archives.find? fun a => a.command.reservation = r.id with
  | some a =>
    simp only [bind_ok, pure_ok]
    constructor
    · intro h
      obtain ⟨p, _, hcheck, -⟩ := h
      exact ⟨fun b hb => Option.some.inj hb ▸ hcheck, fun hnone => absurd hnone (Option.some_ne_none a)⟩
    · intro h
      exact ⟨a.terminalJob, (), h.1 a rfl, rfl⟩
  | none =>
    simp only [bind_ok, context_ok, pure_ok]
    constructor
    · intro h
      obtain ⟨p, row, hrow, _, hreview, _, hlive, -⟩ := h
      exact ⟨fun b hb => absurd hb.symm (Option.some_ne_none b), fun _ => ⟨row, hrow, hreview, hlive⟩⟩
    · intro h
      obtain ⟨row, hrow, hreview, hlive⟩ := h.2 trivial
      exact ⟨row.plan, row, hrow, (), hreview, (), hlive, rfl⟩

/-- The work of a journal goes on: reservations and archives as they were, no archived job back,
every reserved job still there. -/
structure Works (s t : Store) : Prop where
  occurrences : t.occurrences = s.occurrences
  archives : t.archives = s.archives
  reservedTriggers : ∀ r ∈ s.occurrences, s.SameTrigger t r.approvedJob
  archivedJobs : ∀ a ∈ s.archives, (t.jobs.any fun row => row.plan.planId == a.command.job) = true →
    (s.jobs.any fun row => row.plan.planId == a.command.job) = true
  live : ∀ r ∈ s.occurrences, s.archived r = none → s.Live r → t.Live r

theorem Occurrences.keep (hs : s.Occurrences) (h : s.Keeps t) (hworks : s.Works t)
    (hhistory : t.validatedHistory = .ok ()) : t.Occurrences := by
  have harchives : ∀ a ∈ t.archives, t.checkArchive a = .ok () := by
    intro a ha
    rw [hworks.archives] at ha
    exact checkArchive_kept h hworks.occurrences hworks.reservedTriggers (hworks.archivedJobs a ha)
      (hs.archives a ha)
  refine ⟨hhistory, harchives, fun r hr => ?_, fun r hr => ?_, fun r hr => ?_⟩
  · rw [hworks.occurrences] at hr
    exact checkReservation_kept h (hworks.reservedTriggers r hr) (hs.records r hr)
  · rw [hworks.occurrences] at hr
    obtain ⟨-, hlive⟩ := retainedPlan_iff.mp (hs.plans r hr)
    refine retainedPlan_iff.mpr ⟨fun a ha => harchives a (List.mem_of_find?_eq_some ha), fun hnone => ?_⟩
    unfold archived at hnone
    rw [hworks.archives] at hnone
    exact hworks.live r hr hnone (hlive hnone)
  · rw [hworks.occurrences] at hr
    exact checkBudget_kept h hworks.occurrences (hs.budgets r hr)

/-- The history of a journal whose schedules and triggers did not change. -/
theorem History.keep (hs : s.History) (h : s.KeepsPolicies t) (hpolicies : ∃ as, t.policies = .ok as)
    (hschedules : t.schedules = s.schedules) (htriggers : t.triggers = s.triggers)
    (hrefusal : ∀ row ∈ s.schedules, s.checkRefusal row.record = .ok () →
      t.checkRefusal row.record = .ok ()) : t.History := by
  have hown : ∀ id, t.ownTriggers id = s.ownTriggers id := by
    intro id
    unfold ownTriggers
    rw [htriggers]
  refine ⟨hpolicies, fun row hrow => ?_, fun tr htr => ?_, ?_, ?_, fun row hrow => ?_⟩
  · exact checkSchedule_kept h (hs.schedules row (hschedules ▸ hrow))
  · exact checkTrigger_kept (Keeps.of_policies h hschedules) (hs.triggers tr (htriggers ▸ htr))
  · rw [htriggers]
    exact hs.identities
  · unfold activeSchedules
    rw [hschedules]
    exact hs.active
  · rw [hschedules] at hrow
    have hclaims := hs.claims row hrow
    simp only [checkClaims, bind_ok, ensure_ok, hown] at hclaims ⊢
    obtain ⟨_, hordinals, _, hclock, hcheck⟩ := hclaims
    exact ⟨(), hordinals, (), hclock, hrefusal row hrow hcheck⟩

/-! ## Journals that stay intact -/

theorem Intact.stored (hs : s.Intact) : ∀ d ∈ s.definitions, d.validateStored = .ok () :=
  ((validateAutomations_iff hs.definitions).mp hs.audited).1

theorem Intact.occurrences (hs : s.Intact) : s.Occurrences :=
  checkOccurrences_iff.mp ((validateAutomations_iff hs.definitions).mp hs.audited).2

theorem Intact.history (hs : s.Intact) : s.History :=
  validatedHistory_iff.mp hs.occurrences.history

theorem Unique.intact (hunique : s.Unique) (hstored : ∀ d ∈ s.definitions, d.validateStored = .ok ())
    (hoccurrences : s.Occurrences) (hlisted : ∀ row ∈ s.jobs, s.checkJob row.plan = .ok ()) :
    s.Intact :=
  ⟨hunique, (validateAutomations_iff hunique.definitions).mpr
    ⟨hstored, checkOccurrences_iff.mpr hoccurrences⟩, hlisted⟩

theorem checkJob_iff {p : Plan} :
    s.checkJob p = .ok () ↔ p.validateReview = .ok () ∧ s.validateJob p = .ok () := by
  simp only [checkJob, bind_ok]
  constructor
  · intro h
    obtain ⟨_, hreview, hjob⟩ := h
    exact ⟨hreview, hjob⟩
  · intro h
    exact ⟨(), h.1, h.2⟩

theorem checkJob_kept (h : s.Keeps t) (hworks : s.Works t) {p : Plan} (htrigger : s.SameTrigger t p)
    (hcheck : s.checkJob p = .ok ()) : t.checkJob p = .ok () := by
  obtain ⟨hreview, hjob⟩ := checkJob_iff.mp hcheck
  refine checkJob_iff.mpr ⟨hreview, validateJob_kept h htrigger ?_ ?_ hworks.reservedTriggers hjob⟩
  · rw [hworks.archives]
    exact id
  · rw [hworks.occurrences]

/-- A journal whose jobs, reservations and archives did not change. -/
structure SameWork (s t : Store) : Prop where
  jobs : t.jobs = s.jobs
  occurrences : t.occurrences = s.occurrences
  archives : t.archives = s.archives
  listedTriggers : ∀ row ∈ s.jobs, s.SameTrigger t row.plan
  reservedTriggers : ∀ r ∈ s.occurrences, s.SameTrigger t r.approvedJob

theorem SameWork.works (h : s.SameWork t) : s.Works t := by
  refine ⟨h.occurrences, h.archives, h.reservedTriggers, ?_, ?_⟩
  · intro a _ hany
    rw [h.jobs] at hany
    exact hany
  · intro r _ _ hlive
    unfold Live
    rw [h.jobs]
    exact hlive

omit [F64] [PeerAdmission] [Sha256] [Planner] [Pairing] [ScopeCompiler] in
theorem SameWork.refusal (h : s.SameWork t) (htriggers : t.triggers = s.triggers) {sch : Schedule}
    (hcheck : s.checkRefusal sch = .ok ()) : t.checkRefusal sch = .ok () := by
  unfold checkRefusal ownTriggers hasRequest at hcheck ⊢
  rw [h.jobs, h.occurrences, htriggers]
  exact hcheck

theorem Intact.sameWork (hs : s.Intact) (h : s.Keeps t) (hwork : s.SameWork t) (hunique : t.Unique)
    (hstored : ∀ d ∈ t.definitions, d.validateStored = .ok ()) (hhistory : t.History) : t.Intact := by
  refine hunique.intact hstored (hs.occurrences.keep h hwork.works (validatedHistory_iff.mpr hhistory)) ?_
  intro row hrow
  rw [hwork.jobs] at hrow
  exact checkJob_kept h hwork.works (hwork.listedTriggers row hrow) (hs.listed row hrow)

end Store

end

end Eef.Coordinator
