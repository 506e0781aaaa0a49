import Eef.Coordinator.JournalBudgets

/-!
# The pace of a schedule

A schedule that settles waits for a whole interval from its own clock, which is not before its last
claim; so however clocks jump and whatever interrupts it, the claims of a schedule are an interval
apart, each of them due after the one before (`Paced`), and a launch that was allowed once is never
allowed again (`Launched`).
-/

namespace Eef.Coordinator

open Eef.Lib Eef.Node

section
variable [F64] [PeerAdmission] [Sha256] [Planner] [Pairing] [ScopeCompiler]

namespace Store

variable {s t : Store}

/-! ## Claims -/

/-- The claims of a schedule are an interval apart, and so is the next one, when it waits for it. -/
structure PacedRow (s : Store) (sch : Schedule) : Prop where
  apart : (s.ownTriggers sch.id).IsChain fun a b => a.claimedAtMs + sch.everyMs ≤ b.dueAtMs
  waits : sch.state = .waiting → ∀ tr, (s.ownTriggers sch.id).getLast? = some tr →
    ∃ due ∈ sch.nextDueMs, tr.claimedAtMs + sch.everyMs ≤ due

/-- So are those of every schedule. -/
def Paced (s : Store) : Prop := ∀ row ∈ s.schedules, s.PacedRow row.record

omit [F64] [PeerAdmission] [Sha256] [Planner] [Pairing] [ScopeCompiler] in
theorem Paced.of_eq (hs : s.Paced) (hschedules : t.schedules = s.schedules)
    (htriggers : t.triggers = s.triggers) : t.Paced := by
  intro row hrow
  rw [hschedules] at hrow
  have hown : t.ownTriggers row.record.id = s.ownTriggers row.record.id := by
    unfold ownTriggers
    rw [htriggers]
  obtain ⟨hapart, hwaits⟩ := hs row hrow
  exact ⟨hown ▸ hapart, hown ▸ hwaits⟩

/-- A claim in flight was made before the clock of its schedule. -/
theorem Intact.flying (hs : s.Intact) {row : ScheduleRow} (hrow : row ∈ s.schedules)
    (hstate : row.record.state = .inFlight) {tr : Trigger}
    (hlast : (s.ownTriggers row.record.id).getLast? = some tr) :
    tr.claimedAtMs ≤ row.record.observedAtMs := by
  have hclaims := hs.history.claims row hrow
  simp only [checkClaims, bind_ok, ensure_ok] at hclaims
  obtain ⟨_, -, _, hclock, -⟩ := hclaims
  have hat := hclock hstate
  rw [hlast, Option.any_some, decide_eq_true_eq] at hat
  rw [hat.1]
  cases hlaunch : row.record.launchStartedAtMs with
  | none => exact Nat.le_refl _
  | some at' => exact (hat.2 at' (by rw [hlaunch]; rfl)).1

omit [F64] [PeerAdmission] [Sha256] [Planner] [Pairing] [ScopeCompiler] in
/-- A claim of another schedule. -/
theorem ownTriggers_other {tr : Trigger} (htriggers : t.triggers = s.triggers ++ [tr]) {id : String}
    (hother : tr.scheduleId ≠ id) : t.ownTriggers id = s.ownTriggers id := by
  unfold ownTriggers
  rw [htriggers, List.filter_append, List.filter_cons_of_neg (by rw [decide_eq_true_eq]; exact hother),
    List.filter_nil, List.append_nil]

/-- The next claim of a schedule comes after all that it has. -/
theorem ownTriggers_claim (hs : s.Intact) {row : ScheduleRow} (hrow : row ∈ s.schedules) {tr : Trigger}
    (htriggers : t.triggers = s.triggers ++ [tr]) (hown : tr.scheduleId = row.record.id)
    (hordinal : tr.ordinal = row.record.claimedRuns + 1) :
    t.ownTriggers row.record.id = s.ownTriggers row.record.id ++ [tr] := by
  have hclaims := hs.history.claims row hrow
  simp only [checkClaims, bind_ok, ensure_ok] at hclaims
  obtain ⟨_, ⟨hlength, hordinals, -⟩, -⟩ := hclaims
  unfold ownTriggers
  rw [htriggers, List.filter_append, List.filter_cons_of_pos (by rw [decide_eq_true_eq]; exact hown),
    List.filter_nil]
  refine Table.insertionSort_concat fun a ha => ?_
  have hmem : a.ordinal ∈ (s.ownTriggers row.record.id).map (·.ordinal) := by
    refine List.mem_map_of_mem ?_
    rw [ownTriggers, List.mem_insertionSort]
    exact ha
  rw [hordinals, List.mem_range'_1] at hmem
  omega

theorem Arranges.paced (h : s.Arranges t) (hs : s.Intact) (hpaced : s.Paced) : t.Paced := by
  cases h with
  | keeps h => exact h ▸ hpaced
  | @goes old row h htriggers hgoes hrefusal hrests =>
    have hown : ∀ id, t.ownTriggers id = s.ownTriggers id := by
      intro id
      unfold ownTriggers
      rw [htriggers]
    intro e he
    rcases h.mem he with rfl | he
    · have hold := (Table.find_some h.found).1
      obtain ⟨hapart, hwaits⟩ := hpaced old hold
      have hevery : e.record.everyMs = old.record.everyMs := by rw [hgoes.kept.same]
      refine ⟨?_, fun hstate tr hlast => ?_⟩
      · rw [hown, h.id, hevery]
        exact hapart
      · rw [hown, h.id] at hlast
        rcases hgoes.waits hstate with ⟨hwaiting, hsame⟩ | ⟨hflying, due, hdue, hle⟩
        · rw [hsame, hevery]
          exact hwaits hwaiting tr hlast
        · have hclock := hs.flying hold hflying hlast
          refine ⟨due, hdue, ?_⟩
          omega
    · obtain ⟨hapart, hwaits⟩ := hpaced e he
      exact ⟨hown _ ▸ hapart, hown _ ▸ hwaits⟩
  | @claims old row tr h htriggers hclaims hfresh hrequest hhistory hresolved =>
    intro e he
    have hold := (Table.find_some h.found).1
    by_cases hid : e.record.id = row.record.id
    · have hsame : e = row := by
        rw [h.schedules, Table.mem_update] at he
        obtain ⟨e', he', rfl⟩ := he
        split
        · rfl
        · next hne =>
          rw [if_neg hne] at hid
          exact absurd (beq_iff_eq.mpr hid) hne
      subst hsame
      obtain ⟨hapart, hwaits⟩ := hpaced old hold
      have hevery : e.record.everyMs = old.record.everyMs := by rw [hclaims.kept.same]
      have hown := ownTriggers_claim hs hold htriggers hclaims.own hclaims.ordinal
      refine ⟨?_, fun hstate => ?_⟩
      · rw [h.id, hown, hevery, List.isChain_append]
        refine ⟨hapart, List.isChain_singleton _, fun last hlast next hnext => ?_⟩
        obtain ⟨due, hdue, hle⟩ := hwaits hclaims.waiting last hlast
        cases hnext
        rw [hclaims.due, hdue]
        exact hle
      · rw [hclaims.flying] at hstate
        cases hstate
    · have hrow : e ∈ s.schedules := by
        rcases h.mem he with rfl | he
        · exact absurd rfl hid
        · exact he
      have hother : tr.scheduleId ≠ e.record.id := by
        rw [hclaims.own, ← h.id]
        exact fun heq => hid heq.symm
      obtain ⟨hapart, hwaits⟩ := hpaced e hrow
      have hown := ownTriggers_other htriggers hother
      exact ⟨hown ▸ hapart, hown ▸ hwaits⟩
  | @arms row hunclaimed hchecked hfresh halone hresolved h =>
    subst h
    intro e he
    rcases List.mem_append.mp he with he | he
    · obtain ⟨hapart, hwaits⟩ := hpaced e he
      exact ⟨hapart, hwaits⟩
    · rw [List.mem_singleton.mp he]
      have hown : s.ownTriggers row.record.id = [] := ownTriggers_fresh hs.history hfresh
      refine ⟨?_, fun _ tr hlast => ?_⟩
      · show (s.ownTriggers row.record.id).IsChain _
        rw [hown]
        exact .nil
      · have hlast : (s.ownTriggers row.record.id).getLast? = some tr := hlast
        rw [hown] at hlast
        cases hlast

theorem Changes.paced (h : s.Changes t) (hs : s.Intact) (hpaced : s.Paced) : t.Paced := by
  cases h with
  | governs h => exact hpaced.of_eq (by rw [h.rest]) (by rw [h.rest])
  | employs h => exact hpaced.of_eq (by rw [h.rest]) (by rw [h.rest])
  | settles h => exact hpaced.of_eq (by rw [h.rest]) (by rw [h.rest])
  | arranges h =>
    have hstep : ∀ s t : Store, s.Intact ∧ s.Paced → s.Arranges t → t.Intact ∧ t.Paced :=
      fun s t hs h => ⟨h.intact hs.1, h.paced hs.1 hs.2⟩
    exact (Run.invariant hstep ⟨hs, hpaced⟩ h).2
  | leaves h => exact hpaced.of_eq (by rw [h.rest]) (by rw [h.rest])

/-! ## Launches -/

/-- A claim whose launch was allowed: while a schedule has it in flight, its launch is recorded. -/
def Launched (s : Store) (id : String) : Prop :=
  (∃ tr ∈ s.triggers, tr.id = id) ∧
  ∀ row ∈ s.schedules, row.record.activeTrigger = some id → row.record.launchStartedAtMs.isSome = true

omit [F64] [PeerAdmission] [Sha256] [Planner] [Pairing] [ScopeCompiler] in
theorem Launched.of_eq {id : String} (hs : s.Launched id) (hschedules : t.schedules = s.schedules)
    (htriggers : t.triggers = s.triggers) : t.Launched id := by
  unfold Launched
  rw [hschedules, htriggers]
  exact hs

theorem Arranges.launched {id : String} (h : s.Arranges t) (hs : s.Launched id) : t.Launched id := by
  cases h with
  | keeps h => exact h ▸ hs
  | @goes old row h htriggers hgoes hrefusal hrests =>
    refine ⟨htriggers ▸ hs.1, fun e he hactive => ?_⟩
    rcases h.mem he with rfl | he
    · have hold := hs.2 old (Table.find_some h.found).1 (hgoes.trigger id hactive)
      exact hgoes.launch id hactive hold
    · exact hs.2 e he hactive
  | @claims old row tr h htriggers hclaims hfresh hrequest hhistory hresolved =>
    obtain ⟨u, hu, hid⟩ := hs.1
    refine ⟨⟨u, htriggers ▸ List.mem_append_left _ hu, hid⟩, fun e he hactive => ?_⟩
    rcases h.mem he with rfl | he
    · rw [hclaims.trigger] at hactive
      exact absurd (hid.trans (Option.some.inj hactive).symm) (hfresh u hu)
    · exact hs.2 e he hactive
  | @arms row hunclaimed hchecked hfresh halone hresolved h =>
    subst h
    refine ⟨hs.1, fun e he hactive => ?_⟩
    rcases List.mem_append.mp he with he | he
    · exact hs.2 e he hactive
    · rw [List.mem_singleton.mp he, hunclaimed.trigger] at hactive
      cases hactive

theorem Changes.launched {id : String} (h : s.Changes t) (hs : s.Launched id) : t.Launched id := by
  cases h with
  | governs h => exact hs.of_eq (by rw [h.rest]) (by rw [h.rest])
  | employs h => exact hs.of_eq (by rw [h.rest]) (by rw [h.rest])
  | settles h => exact hs.of_eq (by rw [h.rest]) (by rw [h.rest])
  | arranges h =>
    exact Run.invariant (I := fun s => s.Launched id) (fun _ _ hs h => h.launched hs) hs h
  | leaves h => exact hs.of_eq (by rw [h.rest]) (by rw [h.rest])

/-- One schedule has a claim in flight. -/
theorem Intact.owner (hs : s.Intact) {row : ScheduleRow} (hrow : row ∈ s.schedules) {tr : Trigger}
    (htr : tr ∈ s.triggers) (hactive : row.record.activeTrigger = some tr.id) :
    tr.scheduleId = row.record.id := by
  have hclaims := hs.history.claims row hrow
  simp only [checkClaims, bind_ok, ensure_ok] at hclaims
  obtain ⟨_, ⟨-, -, hlast⟩, -⟩ := hclaims
  have hown := hlast tr.id hactive
  cases hfind : (s.ownTriggers row.record.id).getLast? with
  | none =>
    rw [hfind] at hown
    cases hown
  | some u =>
    rw [hfind, Option.any_some, beq_iff_eq] at hown
    have hmem := List.mem_of_getLast? hfind
    rw [ownTriggers, List.mem_insertionSort, List.mem_filter, decide_eq_true_eq] at hmem
    have hsame : u = tr :=
      (hs.history.keyed (f := Trigger.id) fun tr => by simp [Trigger.identities]).eq hmem.1 htr hown
    rw [← hsame]
    exact hmem.2

/-- A launch that is allowed is recorded with its claim. -/
theorem triggerBeginLaunch_launched (hs : s.Intact) {id runtime : String} {now commit : Nat}
    (h : s.triggerBeginLaunch id runtime now commit = .ok (t, true)) : t.Launched id := by
  simp only [triggerBeginLaunch, bind_ok] at h
  obtain ⟨_, -, tr, htrigger, sch, hread, _, -, h⟩ := h
  split_ifs at h with hstarted
  · rw [pure_ok] at h
    cases h
  · simp only [bind_ok, Schedule.advance_ok, pure_ok] at h
    obtain ⟨source, -, _, -, current, -, _, -, next, ⟨-, rfl⟩, ⟨u, saved⟩, hsave, _, -, _, -, h⟩ := h
    cases h
    obtain ⟨htriggers, old, row, hreplaces, rfl, hrow⟩ := saveSchedule_replaces hread hsave rfl
    simp only [triggerOf, bind_ok, context_ok, pure_ok] at htrigger
    obtain ⟨tr', hfind, _, -, rfl⟩ := htrigger
    obtain ⟨htr, hid⟩ := Table.find_some hfind
    refine ⟨⟨tr', htriggers ▸ htr, hid⟩, fun e he hactive => ?_⟩
    rcases hreplaces.mem he with rfl | hmem
    · rw [hrow]
      rfl
    · -- another row cannot have the claim in flight
      have hother := hs.owner hmem htr (hid.symm ▸ hactive)
      obtain ⟨e', hfind', -, hsame⟩ := scheduleOf_iff.mp hread
      rw [hother, Table.find_of_mem hs.schedules hmem] at hfind'
      cases hfind'
      rw [hreplaces.schedules, Table.mem_update] at he
      obtain ⟨e', he', heq⟩ := he
      split at heq
      · rw [heq, hrow]
        rfl
      · next hne =>
        rw [← heq, hsame, hreplaces.id] at hne
        exact absurd (beq_self_eq_true _) hne

/-- And is not allowed again. -/
theorem Launched.refuses {id : String} (hs : s.Launched id) {runtime : String} {now commit : Nat} :
    s.triggerBeginLaunch id runtime now commit ≠ .ok (t, true) := by
  intro h
  simp only [triggerBeginLaunch, bind_ok, ensure_ok] at h
  obtain ⟨_, -, tr, -, sch, hread, _, ⟨-, -, hactive⟩, h⟩ := h
  obtain ⟨row, hfind, -, rfl⟩ := scheduleOf_iff.mp hread
  have hlaunched := hs.2 row (Table.find_some hfind).1 hactive
  rw [if_pos hlaunched, pure_ok] at h
  cases h

/-- The claims of a schedule are numbered as it counts them. -/
theorem Intact.numbered (hs : s.Intact) {row : ScheduleRow} (hrow : row ∈ s.schedules) :
    (s.ownTriggers row.record.id).map (·.ordinal) = List.range' 1 row.record.claimedRuns ∧
    ∀ id ∈ row.record.activeTrigger,
      ((s.ownTriggers row.record.id).getLast?.any fun tr => tr.id == id) = true := by
  have hclaims := hs.history.claims row hrow
  simp only [checkClaims, bind_ok, ensure_ok] at hclaims
  obtain ⟨_, ⟨hlength, hordinals, hlast⟩, -⟩ := hclaims
  exact ⟨by rw [hordinals, hlength], hlast⟩

/-- And were made in time. -/
theorem Intact.in_time (hs : s.Intact) {row : ScheduleRow} (hrow : row ∈ s.schedules) {tr : Trigger}
    (htr : tr ∈ s.ownTriggers row.record.id) :
    min (row.record.armedAtMs + row.record.everyMs) u64Max ≤ tr.dueAtMs ∧
    tr.dueAtMs ≤ tr.claimedAtMs ∧ tr.claimedAtMs < tr.dueAtMs + row.record.everyMs ∧
    tr.claimedAtMs < row.record.expiresAtMs := by
  rw [ownTriggers, List.mem_insertionSort, List.mem_filter, decide_eq_true_eq] at htr
  have hcheck := hs.history.triggers tr htr.1
  simp only [checkTrigger, bind_ok, htr.2] at hcheck
  obtain ⟨sch, hread, a, -, hvalid⟩ := hcheck
  obtain ⟨e, hfind, -, rfl⟩ := scheduleOf_iff.mp hread
  rw [Table.find_of_mem hs.schedules hrow] at hfind
  cases hfind
  simp only [Trigger.validateData, bind_ok, ensure_ok] at hvalid
  obtain ⟨_, -, _, -, hbounded⟩ := hvalid
  simp only [Trigger.bounded] at hbounded
  obtain ⟨-, -, -, hdue, harmed, hexpires, hwithin, -⟩ := hbounded
  refine ⟨harmed, hdue, ?_, hexpires⟩
  omega

/-- A launch that is allowed is the last of its claim. -/
theorem Intact.launches_once (hs : s.Intact) {id runtime : String} {now commit : Nat}
    (h : s.triggerBeginLaunch id runtime now commit = .ok (t, true)) {u : Store} (hrun : Run Turn t u)
    {runtime' : String} {now' commit' : Nat} {v : Store} :
    u.triggerBeginLaunch id runtime' now' commit' ≠ .ok (v, true) := by
  have ht := (triggerBeginLaunch_arranges h).intact hs
  have hlaunched := triggerBeginLaunch_launched hs h
  have hstep : ∀ s t : Store, s.Intact ∧ s.Launched id → Turn s t → t.Intact ∧ t.Launched id := by
    intro s t hs h
    have hchanges := h.command.changes hs.1
    exact ⟨hchanges.intact hs.1, hchanges.launched hs.2⟩
  exact (Run.invariant hstep ⟨ht, hlaunched⟩ hrun).2.refuses

/-- Every journal that a coordinator wrote is paced. -/
theorem Written.paced (hs : s.Written) : s.Paced := by
  obtain ⟨maxCount, maxBytes, hrun⟩ := hs
  have hstep : ∀ s t : Store, s.Sound ∧ s.Paced → Turn s t → t.Sound ∧ t.Paced := fun s t hs h =>
    ⟨h.sound hs.1, (h.command.changes hs.1.intact).paced hs.1.intact hs.2⟩
  exact (Run.invariant hstep ⟨fresh_sound maxCount maxBytes, fun _ h => absurd h List.not_mem_nil⟩
    hrun).2

/-- **Claims keep their pace, and each is launched at most once.** In every journal that a coordinator
wrote, whatever clocks it read, the claims of a schedule are numbered 1, 2, ... as it counts them; each
is made within an interval of its due time, before the policy ends, and is due an interval or more
after the one before it was made, so none is made up for. A launch that is allowed is not allowed again
after any run. -/
theorem claims_paced (hs : s.Written) :
    (∀ row ∈ s.schedules,
      (s.ownTriggers row.record.id).map (·.ordinal) = List.range' 1 row.record.claimedRuns ∧
      ((s.ownTriggers row.record.id).IsChain fun a b =>
        a.claimedAtMs + row.record.everyMs ≤ b.dueAtMs) ∧
      ∀ tr ∈ s.ownTriggers row.record.id,
        min (row.record.armedAtMs + row.record.everyMs) u64Max ≤ tr.dueAtMs ∧
        tr.dueAtMs ≤ tr.claimedAtMs ∧ tr.claimedAtMs < tr.dueAtMs + row.record.everyMs ∧
        tr.claimedAtMs < row.record.expiresAtMs) ∧
    ∀ id runtime now commit t, s.triggerBeginLaunch id runtime now commit = .ok (t, true) →
      ∀ u, Run Turn t u → ∀ runtime' now' commit' v,
        u.triggerBeginLaunch id runtime' now' commit' ≠ .ok (v, true) := by
  have hintact := hs.sound.intact
  refine ⟨fun row hrow => ⟨(hintact.numbered hrow).1, (hs.paced row hrow).apart,
    fun tr htr => hintact.in_time hrow htr⟩, ?_⟩
  intro id runtime now commit t hlaunch u hrun runtime' now' commit' v
  exact hintact.launches_once hlaunch hrun

end Store

end

section
attribute [local instance] F64.bits PeerAdmission.never scheduleSha schedulePlanner Pairing.never
  ScopeCompiler.always

/-- The identities that are drawn for a claim. -/
def scheduleDrawn : Store.Drawn :=
  ⟨"88888888-8888-4888-8888-888888888888", "77777777-7777-4777-8777-777777777777",
    "99999999-9999-4999-8999-999999999999", "66666666-6666-4666-8666-666666666666"⟩

/-- The claim of the schedule, when it is due. -/
def scheduleTrigger : Trigger :=
  Store.claimed scheduleArmed schedulePolicy scheduleDrawn 3000 3000

/-- The schedule with its claim in flight, launched or not. -/
def scheduleInFlight (revision : Nat) (launch : Option Nat) : Schedule :=
  { scheduleArmed with
    revision
    observedAtMs := 3000
    claimedRuns := 1
    state := .inFlight
    nextDueMs := none
    activeTrigger := some scheduleTrigger.id
    launchStartedAtMs := launch }.sealed

/-- Its row. -/
def inFlightRow (revision : Nat) (launch : Option Nat) : ScheduleRow :=
  ⟨scheduleInFlight revision launch, scheduleCost - (scheduleInFlight revision launch).toJson.size⟩

/-- The journal with the claim. -/
def claimedStore : Store :=
  { armedStore with
    schedules := [inFlightRow 2 none]
    triggers := [scheduleTrigger] }

/-- The journal with its launch. -/
def launchedStore : Store := { claimedStore with schedules := [inFlightRow 3 (some 3000)] }

/-- What is checked of the claim. -/
theorem claimed_documents :
    scheduleTrigger.validateData (scheduleInFlight 2 none) schedulePolicy = .ok () ∧
    scheduleTrigger.identities.Nodup := by
  decide +kernel

theorem scheduleTrigger_size : scheduleTrigger.toJson.size ≤ maxRecordBytes := by
  obtain ⟨hclaim, -⟩ := claimed_documents
  simp only [Trigger.validateData, bind_ok, ensure_ok] at hclaim
  obtain ⟨_, -, _, -, hbounded⟩ := hclaim
  simp only [Trigger.bounded] at hbounded
  exact hbounded.2.2.2.2.2.2.2.2.2.2.2.2.trans (by decide)

/-- The schedule stays valid while the claim is in flight. -/
theorem scheduleInFlight_valid {revision : Nat} (hfrom : 2 ≤ revision) (hto : revision ≤ u64Max)
    {launch : Option Nat} (hlaunch : ∀ at' ∈ launch, at' = 3000) :
    (scheduleInFlight revision launch).validateData schedulePolicy scheduleDefinition = .ok () := by
  obtain ⟨-, -, -, -, hvalid, -⟩ := schedule_documents
  obtain ⟨hids, hbounded, -⟩ := Schedule.validateData_ok.1 hvalid
  obtain ⟨hclaim, -⟩ := claimed_documents
  simp only [Trigger.validateData, bind_ok, each_ok, validateUuid_ok] at hclaim
  obtain ⟨_, huuids, -⟩ := hclaim
  have htrigger : uuid scheduleTrigger.id = true := huuids _ (List.mem_cons_self ..)
  obtain ⟨hissuer, -⟩ := Store.policyOf_ok (schedule_policyOf (s := scheduleStore) rfl rfl)
  simp only [List.forall_mem_cons] at hids
  obtain ⟨hid, hdefinition, hruntime, hpolicy, -⟩ := hids
  have hsize : (scheduleInFlight revision launch).toJson.size ≤ scheduleCost := by
    refine Schedule.Bounds.size_le ⟨rfl, hid, rfl, hpolicy, sampleGrant_planSha256, hdefinition,
      hruntime, hissuer, ?_, fun _ h => (by cases h), ?_, ?_, fun _ h => (by cases h), rfl,
      fun _ h => (by cases h), fun _ h => (by cases h), sampleGrant_planSha256⟩
    · have hnumbers : ∀ n ∈ [scheduleArmed.generation, scheduleArmed.armedAtMs,
          scheduleArmed.expiresAtMs, scheduleArmed.everyMs, 3000, 1], n ≤ u64Max := by decide
      simp only [List.forall_mem_cons] at hnumbers ⊢
      obtain ⟨h1, h2, h3, h4, h5, h6, -⟩ := hnumbers
      exact ⟨h1, h2, h3, h4, hto, h5, h6, by simp⟩
    · intro t ht
      rw [← Option.some.inj ht]
      exact htrigger
    · intro n hn
      rw [hlaunch n hn]
      decide
  refine Schedule.validateData_ok.2 ⟨?_, ?_, ?_, rfl, rfl, rfl, ?_⟩
  · simp only [List.forall_mem_cons]
    exact ⟨hid, hdefinition, hruntime, hpolicy, by simp⟩
  · simp only [Schedule.bounded] at hbounded ⊢
    obtain ⟨h1, h2, h3, h4, h5, h6, h7, h8, h9, h10, h11, h12, h13, h14, -⟩ := hbounded
    refine ⟨h1, h2, h3, h4, h5, h6, h7, h8, h9, h10, h11, h12, h13, h14, ?_, hfrom,
      (by decide : 1 ≤ schedulePolicy.creation.maxRuns), (by decide : 3000 ≠ 0), rfl, hsize⟩
    exact Nat.ne_of_gt (Nat.lt_of_lt_of_le (by decide) hfrom)
  · intro t ht
    rw [← Option.some.inj ht]
    exact htrigger
  · exact ⟨rfl, rfl, rfl, rfl, (by decide : scheduleArmed.armedAtMs ≤ 3000), Nat.zero_lt_one⟩

theorem inFlightRow_full {revision : Nat} (hfrom : 2 ≤ revision) (hto : revision ≤ u64Max)
    {launch : Option Nat} (hlaunch : ∀ at' ∈ launch, at' = 3000) :
    (inFlightRow revision launch).Full := by
  obtain ⟨-, hbounded, -⟩ := Schedule.validateData_ok.1 (scheduleInFlight_valid hfrom hto hlaunch)
  simp only [Schedule.bounded] at hbounded
  exact ⟨hbounded.2.2.2.2.2.2.2.2.2.2.2.2.2.2.2.2.2.2.2, rfl⟩

/-- The journal with the claim reads back. -/
theorem claimedStore_validatedHistory : claimedStore.validatedHistory = .ok () := by
  have hnone : ∀ at' ∈ (none : Option Nat), at' = 3000 := fun _ h => absurd h (Option.not_mem_none _)
  have hcheck : claimedStore.checkSchedule (inFlightRow 2 none) = .ok () :=
    schedule_checkSchedule rfl rfl rfl (scheduleInFlight_valid (Nat.le_refl 2) (by decide) hnone)
      (inFlightRow_full (Nat.le_refl 2) (by decide) hnone)
  have hfind : Table.find (fun e => e.record.id) scheduleTrigger.scheduleId claimedStore.schedules =
      some (inFlightRow 2 none) := by
    simp [Table.find, claimedStore, inFlightRow, scheduleTrigger, Store.claimed, scheduleInFlight,
      Schedule.sealed]
  have hown : claimedStore.ownTriggers (scheduleInFlight 2 none).id = [scheduleTrigger] := by
    simp [Store.ownTriggers, claimedStore, scheduleTrigger, Store.claimed, scheduleInFlight,
      Schedule.sealed]
  refine bind_ok.mpr ⟨_, schedule_policies rfl rfl, bind_ok.mpr ⟨(), each_ok.mpr fun row hrow => ?_, ?_⟩⟩
  · rw [List.mem_singleton.mp hrow]
    exact hcheck
  refine bind_ok.mpr ⟨(), each_ok.mpr fun t ht => ?_, ?_⟩
  · rw [List.mem_singleton.mp ht]
    refine bind_ok.mpr ⟨scheduleInFlight 2 none, ?_, bind_ok.mpr
      ⟨_, schedule_policyOf rfl rfl, claimed_documents.1⟩⟩
    unfold Store.scheduleOf Store.readSchedule
    simp only [hfind, hcheck, ok_bind]
    rfl
  refine bind_ok.mpr ⟨(), ensure_ok.mpr ?_, bind_ok.mpr ⟨(), ensure_ok.mpr (List.nodup_singleton _), ?_⟩⟩
  · have hidentities : claimedStore.triggers.flatMap Trigger.identities = scheduleTrigger.identities :=
      List.append_nil _
    rw [hidentities]
    exact claimed_documents.2
  · refine each_ok.mpr fun row hrow => ?_
    rw [List.mem_singleton.mp hrow]
    unfold Store.checkClaims inFlightRow
    rw [hown]
    refine bind_ok.mpr ⟨(), ensure_ok.mpr ⟨rfl, rfl, fun id hid => ?_⟩, bind_ok.mpr
      ⟨(), ensure_ok.mpr fun _ => ?_, rfl⟩⟩
    · rw [← Option.some.inj hid]
      exact beq_self_eq_true _
    · have hclock : Store.inFlightAt (scheduleInFlight 2 none) scheduleTrigger :=
        ⟨rfl, fun _ h => absurd h (Option.not_mem_none _)⟩
      exact decide_eq_true hclock

/-- The schedule is saved with its claim. -/
theorem scheduleInFlight_saved {s : Store} (hd : s.definitions = [scheduleDefinition])
    (hp : s.authorizations = [⟨schedulePolicy, 1024⟩]) {row : ScheduleRow} (hrows : s.schedules = [row])
    (hfull : row.Full) {sch : Schedule} (hid : sch.id = row.record.id)
    (hpolicy : sch.creation.policy = schedulePolicy.id) {revision : Nat} (hfrom : 2 ≤ revision)
    (hto : revision ≤ u64Max) {launch : Option Nat} (hlaunch : ∀ at' ∈ launch, at' = 3000)
    (hsealed : sch.sealed = scheduleInFlight revision launch) :
    s.saveSchedule sch false = .ok ({ s with schedules := [inFlightRow revision launch] },
      scheduleInFlight revision launch) := by
  have hread : s.policyOf sch.creation.policy = .ok schedulePolicy := by
    rw [hpolicy]
    exact schedule_policyOf hd hp
  have hfind : Table.find (fun e => e.record.id) sch.id s.schedules = some row := by
    simp [Table.find, hrows, hid]
  have hvalid : sch.sealed.validateData schedulePolicy scheduleDefinition = .ok () := by
    rw [hsealed]
    exact scheduleInFlight_valid hfrom hto hlaunch
  rw [Store.saveSchedule_full hread (schedule_readDefinition hd) hvalid hfind hfull,
    Store.rewritten_single hrows (show sch.sealed.id = row.record.id from hid), hsealed]
  rfl

/-- The claim goes through. -/
theorem schedule_claimed : armedStore.scheduleClaimDue scheduleArmed.id schedulePolicy.runtimeId
    schedulePolicy.issuerId scheduleDrawn 3000 3000 = .ok (claimedStore, some scheduleTrigger) := by
  obtain ⟨-, -, -, -, -, -, -, -, -, hallowance, -⟩ := schedule_documents
  have hhistory := armedStore_validatedHistory
  have hrow : ⟨scheduleArmed, scheduleCost - scheduleArmed.toJson.size⟩ ∈ armedStore.schedules :=
    List.mem_singleton.mpr rfl
  have hread := Store.scheduleOf_row armedStore_reachable.scheduled hhistory hrow "Schedule missing"
  have hsave : ∀ sch : Schedule, sch.id = scheduleArmed.id →
      sch.creation.policy = schedulePolicy.id → sch.sealed = scheduleInFlight 2 none →
      armedStore.saveSchedule sch false =
        .ok ({ armedStore with schedules := [inFlightRow 2 none] }, scheduleInFlight 2 none) := by
    intro sch hid hpolicy hsealed
    exact scheduleInFlight_saved rfl rfl rfl (armedStore_reachable.scheduled.full _ hrow) hid hpolicy
      (Nat.le_refl 2) (by decide) (fun _ h => absurd h (Option.not_mem_none _)) hsealed
  have hinsert : Store.insertTrigger { armedStore with schedules := [inFlightRow 2 none] } scheduleTrigger
      = .ok claimedStore := by
    have hroomy : Store.Roomy { armedStore with schedules := [inFlightRow 2 none] } :=
      scheduleStore_roomy.withSchedules (List.forall_mem_singleton.mpr
        (inFlightRow_full (Nat.le_refl 2) (by decide) fun _ h => absurd h (Option.not_mem_none _)))
    exact hroomy.insertTrigger (by decide) scheduleTrigger_size rfl
  have hclaim : armedStore.commitClaim scheduleArmed schedulePolicy schedulePolicy.runtimeId
      schedulePolicy.issuerId scheduleDrawn 5000 3000 3000 3000 = .ok (claimedStore, scheduleTrigger) := by
    refine bind_ok.mpr ⟨_, Schedule.advance_ok.mpr ⟨by decide, rfl⟩, bind_ok.mpr
      ⟨_, hsave _ rfl rfl rfl, bind_ok.mpr ⟨_, hinsert, ?_⟩⟩⟩
    refine bind_ok.mpr ⟨(), claimedStore_validatedHistory, bind_ok.mpr ⟨(), ?_, rfl⟩⟩
    refine bind_ok.mpr ⟨(), rfl, bind_ok.mpr ⟨(), rfl, ?_⟩⟩
    refine bind_ok.mpr ⟨true, schedule_current rfl rfl rfl rfl rfl rfl (by decide) (by decide), ?_⟩
    exact bind_ok.mpr ⟨(), rfl, ensure_ok.mpr (by decide)⟩
  unfold Store.scheduleClaimDue
  refine bind_ok.mpr ⟨(), hhistory, bind_ok.mpr ⟨_, hread, ?_⟩⟩
  rw [if_neg (by decide)]
  refine bind_ok.mpr ⟨true, schedule_current rfl rfl rfl rfl rfl rfl (by decide) (by decide), ?_⟩
  have hrefused : Store.claimRefused scheduleArmed true (scheduleArmed.nextDueMs.getD 0) 3000 = none := by
    decide
  have hresolved : armedStore.definitionResolved scheduleArmed.definitionId = .ok true :=
    bind_ok.mpr ⟨(), bind_ok.mpr ⟨(), hhistory, rfl⟩, rfl⟩
  simp only [hrefused]
  rw [if_neg (by decide)]
  refine bind_ok.mpr ⟨_, schedule_policyOf rfl rfl, bind_ok.mpr ⟨(true, true), ?_, ?_⟩⟩
  · refine bind_ok.mpr ⟨true, hresolved, ?_⟩
    exact bind_ok.mpr ⟨true, schedule_allowanceLeft rfl, rfl⟩
  refine bind_ok.mpr ⟨(), rfl, bind_ok.mpr ⟨_, hallowance, ?_⟩⟩
  rw [if_neg (by decide)]
  exact bind_ok.mpr ⟨_, hclaim, rfl⟩

theorem scheduleDrawn_fresh : armedStore.FreshRequest scheduleDrawn.request := by
  intro p hp c hc
  have hplans : armedStore.plans = [scheduleSource] := rfl
  rw [hplans, List.mem_singleton] at hp
  rw [hp] at hc
  rw [← Option.some.inj hc]
  decide

theorem claimed_turn : Store.Turn armedStore claimedStore :=
  ⟨.claim _ _ _ _ _ _ scheduleDrawn_fresh schedule_claimed, by decide⟩

/-- And so does the launch of it. -/
theorem schedule_launched (hs : claimedStore.Sound) : claimedStore.triggerBeginLaunch scheduleTrigger.id
    schedulePolicy.runtimeId 3000 3000 = .ok (launchedStore, true) := by
  have hhistory := claimedStore_validatedHistory
  have hrow : inFlightRow 2 none ∈ claimedStore.schedules := List.mem_singleton.mpr rfl
  have hread := Store.scheduleOf_row hs.scheduled hhistory hrow "Schedule missing"
  have htrigger : claimedStore.triggerOf scheduleTrigger.id = .ok scheduleTrigger := by
    have hmem : scheduleTrigger ∈ claimedStore.triggers := List.mem_singleton.mpr rfl
    have hkeyed := hs.intact.history.keyed (f := Trigger.id) fun tr => by simp [Trigger.identities]
    exact bind_ok.mpr ⟨_, context_ok.mpr (Table.find_of_mem hkeyed hmem), bind_ok.mpr
      ⟨(), hs.intact.history.triggers _ hmem, rfl⟩⟩
  have hsource : claimedStore.sourceJob scheduleTrigger = .ok none := by
    refine bind_ok.mpr ⟨none, rfl, ?_⟩
    have hnone : claimedStore.jobs.filter (fun row => row.plan.goal.requestContext.any fun c =>
        c.requestId == scheduleTrigger.requestContext.requestId) = [] := by
      refine List.filter_eq_nil_iff.mpr fun row hrow => ?_
      rw [List.mem_singleton.mp hrow]
      decide
    rw [hnone]
    rfl
  have hsave : ∀ sch : Schedule, sch.id = scheduleArmed.id →
      sch.creation.policy = schedulePolicy.id → sch.sealed = scheduleInFlight 3 (some 3000) →
      claimedStore.saveSchedule sch false = .ok (launchedStore, scheduleInFlight 3 (some 3000)) := by
    intro sch hid hpolicy hsealed
    exact scheduleInFlight_saved rfl rfl rfl (hs.scheduled.full _ hrow) hid hpolicy (by decide)
      (by decide) (fun _ h => (Option.some.inj h).symm) hsealed
  unfold Store.triggerBeginLaunch
  refine bind_ok.mpr ⟨(), hhistory, bind_ok.mpr ⟨_, htrigger, bind_ok.mpr ⟨_, hread, ?_⟩⟩⟩
  refine bind_ok.mpr ⟨(), ensure_ok.mpr ⟨rfl, rfl, rfl⟩, ?_⟩
  rw [if_neg (by decide)]
  refine bind_ok.mpr ⟨none, hsource, bind_ok.mpr ⟨(), rfl, ?_⟩⟩
  refine bind_ok.mpr ⟨true, schedule_current rfl rfl rfl rfl rfl rfl (by decide) (by decide), ?_⟩
  refine bind_ok.mpr ⟨(), ensure_ok.mpr ⟨Nat.le_refl 3000, rfl⟩, ?_⟩
  refine bind_ok.mpr ⟨_, Schedule.advance_ok.mpr ⟨by decide, rfl⟩, bind_ok.mpr
    ⟨_, hsave _ rfl rfl rfl, ?_⟩⟩
  refine bind_ok.mpr ⟨true, schedule_current rfl rfl rfl rfl rfl rfl (by decide) (by decide), ?_⟩
  exact bind_ok.mpr ⟨(), ensure_ok.mpr ⟨Nat.le_refl 3000, rfl⟩, rfl⟩

theorem claimedStore_written : claimedStore.Written :=
  (Store.scheduleStore_written.turn Store.armed_turn).turn claimed_turn

/-- The claim of the schedule is its first; it is launched, and after that never again. -/
theorem claims_paced_launched :
    (claimedStore.ownTriggers scheduleArmed.id).map (·.ordinal) = [1] ∧
    claimedStore.triggerBeginLaunch scheduleTrigger.id schedulePolicy.runtimeId 3000 3000 =
      .ok (launchedStore, true) ∧
    ∀ u, Run Store.Turn launchedStore u → ∀ now commit v,
      u.triggerBeginLaunch scheduleTrigger.id schedulePolicy.runtimeId now commit ≠ .ok (v, true) := by
  obtain ⟨hpaced, hlaunch⟩ := Store.claims_paced claimedStore_written
  obtain ⟨hordinals, -⟩ := hpaced _ (List.mem_singleton.mpr rfl)
  have hlaunched := schedule_launched claimedStore_written.sound
  exact ⟨hordinals, hlaunched, fun u hrun now commit v => hlaunch _ _ _ _ _ hlaunched u hrun _ now commit v⟩

end

end Eef.Coordinator
