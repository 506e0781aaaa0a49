import Eef.Coordinator.JournalPacing

/-!
# Authority that was withdrawn

A policy is current for one runtime while it is not revoked, not superseded, and its definition not
removed. Each command that acts under a policy derives this again from the rows that others change: a
reservation, the arming of a schedule, its claims, their launch and settlement, and the fence of an
issuance. Since none of what withdrew a policy is ever taken back (`Withdrawn.grows`), none of them
goes through afterwards (`withdrawn_never_acts`).
-/

namespace Eef.Coordinator

open Eef.Lib Eef.Node

section
variable [F64] [PeerAdmission] [Sha256] [Planner] [Pairing] [ScopeCompiler]

namespace Store

variable {s t : Store}

/-- A policy is no authority for a runtime: it was approved for another one, or was revoked or
superseded, or its definition was removed. -/
structure Withdrawn (s : Store) (policy runtime : String) : Prop where
  intro ::
  row : ∃ row ∈ s.authorizations, row.record.id = policy ∧
    (row.record.runtimeId ≠ runtime ∨ row.record.revocation.isSome = true ∨
      (∃ newer ∈ s.authorizations,
        newer.record.creation.definition = row.record.creation.definition ∧
        row.record.generation < newer.record.generation) ∨
      ∃ d ∈ s.definitions, d.id = row.record.creation.definition ∧ d.source = none)

omit [F64] [PeerAdmission] [Sha256] [Planner] [Pairing] [ScopeCompiler] in
/-- What withdrew a policy stays. -/
theorem Withdrawn.grows {policy runtime : String} (hs : s.Withdrawn policy runtime) (h : s.Grows t) :
    t.Withdrawn policy runtime := by
  obtain ⟨row, hrow, rfl, hwhy⟩ := hs.row
  obtain ⟨row', hrow', hkept⟩ := h.policies row hrow
  refine ⟨row', hrow', by rw [hkept.same], ?_⟩
  have hcreation : row'.record.creation = row.record.creation := by rw [hkept.same]
  rcases hwhy with hother | hrevoked | ⟨newer, hnewer, hsame, hlt⟩ | ⟨d, hd, hid, hnone⟩
  · refine .inl ?_
    rw [hkept.same]
    exact hother
  · exact .inr (.inl (hkept.revoked hrevoked))
  · obtain ⟨newer', hnewer', hkept'⟩ := h.policies newer hnewer
    refine .inr (.inr (.inl ⟨newer', hnewer', ?_, ?_⟩))
    · rw [hkept'.same, hcreation]
      exact hsame
    · rw [hkept'.same, hkept.same]
      exact hlt
  · obtain ⟨d', hd', hkept'⟩ := h.definitions d hd
    refine .inr (.inr (.inr ⟨d', hd', ?_, ?_⟩))
    · rw [hkept'.same, hcreation]
      exact hid
    · rcases hkept'.source with hsame | hremoved
      · rw [hsame]
        exact hnone
      · exact hremoved

omit [F64] [PeerAdmission] [Sha256] [Planner] [Pairing] [ScopeCompiler] in
theorem le_latestGeneration {row : PolicyRow} (hrow : row ∈ s.authorizations) :
    row.record.generation ≤ s.latestGeneration row.record.creation.definition := by
  refine Lists.le_largest (List.mem_map.mpr ⟨row.record, List.mem_filter.mpr ⟨List.mem_map_of_mem hrow, ?_⟩, rfl⟩)
  exact decide_eq_true rfl

/-- A withdrawn policy is not current. -/
theorem Withdrawn.lapsed {policy runtime : String} (hw : s.Withdrawn policy runtime) (hs : s.Intact)
    {a : Authorization} (ha : s.policyOf policy = .ok a) {id : String} {d : Definition}
    (hd : s.readDefinition id = .ok d) (issuer : String) (now : Nat) :
    a.currentAt runtime issuer (s.latestGeneration id) d now = false := by
  obtain ⟨row, hrow, rfl, hwhy⟩ := hw.row
  obtain ⟨row', hfind, -, rfl⟩ := policyOf_iff.mp ha
  rw [Table.find_of_mem hs.policies hrow] at hfind
  cases hfind
  obtain ⟨hmem, rfl⟩ := Table.find_some (readDefinition_iff.mp hd).1
  refine Bool.eq_false_iff.mpr fun hcurrent => ?_
  simp only [Authorization.currentAt, Bool.and_eq_true, beq_iff_eq, decide_eq_true_eq,
    and_assoc] at hcurrent
  obtain ⟨-, -, hrevocation, -, hsource, hid, -, hruntime, -, hgeneration, -⟩ := hcurrent
  rcases hwhy with hother | hrevoked | ⟨newer, hnewer, hsame, hlt⟩ | ⟨e, he, heq, hnone⟩
  · exact hother hruntime
  · rw [Option.isNone_iff_eq_none] at hrevocation
    rw [hrevocation] at hrevoked
    cases hrevoked
  · have hle := le_latestGeneration hnewer
    rw [hsame, ← hid, ← hgeneration] at hle
    omega
  · have hsame : e = d := hs.definitions.eq he hmem (heq.trans hid.symm)
    rw [← hsame, hnone] at hsource
    cases hsource

/-- A schedule of a withdrawn policy is not current. -/
theorem Withdrawn.current {policy runtime : String} (hw : s.Withdrawn policy runtime) (hs : s.Intact)
    {sch : Schedule} (hpolicy : sch.creation.policy = policy) {issuer : String} {now : Nat} {b : Bool}
    (h : s.current sch runtime issuer now = .ok b) : b = false := by
  simp only [Store.current, bind_ok, pure_ok] at h
  obtain ⟨a, ha, d, hd, _, -, rfl⟩ := h
  rw [hpolicy] at ha
  rw [hw.lapsed hs ha hd, Bool.and_false]

/-! ## The commands -/

/-- A reservation under a withdrawn policy is one that was made before. -/
theorem Withdrawn.reserve {policy runtime : String} (hw : s.Withdrawn policy runtime) (hs : s.Intact)
    {c : Reserve} (hpolicy : c.policy = policy) {issuer : Option String} {now saved commit : Nat}
    {r : Reservation × Bool} (h : s.reserve c runtime issuer now saved commit = .ok (t, r)) :
    t = s ∧ r.2 = true := by
  simp only [Store.reserve, bind_ok] at h
  obtain ⟨_, -, _, -, _, -, h⟩ := h
  cases hretained : s.occurrences.find? fun r => r.id = c.operationId with
  | some old =>
    simp only [hretained, bind_ok, pure_ok] at h
    obtain ⟨_, -, h⟩ := h
    cases h
    exact ⟨rfl, rfl⟩
  | none =>
    simp only [hretained, bind_ok, context_ok, ensure_ok] at h
    obtain ⟨issuer, -, _, ha, a, rfl, d, hd, _, -, _, ⟨-, hcurrent⟩, -⟩ := h
    rw [hw.lapsed hs (readPolicy_iff.mp (hpolicy ▸ ha)) hd] at hcurrent
    cases hcurrent

theorem Withdrawn.scheduleArm {policy runtime : String} (hw : s.Withdrawn policy runtime)
    (hs : s.Intact) {c : Arm} (hpolicy : c.policy = policy) {issuer : String} {now commit : Nat}
    {r : Schedule × Bool} (h : s.scheduleArm c runtime issuer now commit = .ok (t, r)) :
    t = s ∧ r.2 = true := by
  simp only [Store.scheduleArm, bind_ok] at h
  obtain ⟨_, -, _, -, _, -, _, -, _, -, found, -, h⟩ := h
  cases found with
  | some sch =>
    simp only [bind_ok, pure_ok] at h
    obtain ⟨_, -, h⟩ := h
    cases h
    exact ⟨rfl, rfl⟩
  | none =>
    simp only [bind_ok, context_ok, ensure_ok] at h
    obtain ⟨_, -, a, rfl, d, -, _, -, current, hcurrent, ⟨duration, _⟩, -, _, ⟨-, htrue, -⟩, -⟩ := h
    rw [hw.current hs hpolicy hcurrent] at htrue
    cases htrue

/-- A schedule that is due is interrupted instead of claimed. -/
theorem Withdrawn.scheduleClaimDue {policy runtime : String} (hw : s.Withdrawn policy runtime)
    (hs : s.Intact) {row : ScheduleRow} (hrow : row ∈ s.schedules)
    (hpolicy : row.record.creation.policy = policy) {issuer : String} {drawn : Drawn}
    {now commit : Nat} {r : Option Trigger}
    (h : s.scheduleClaimDue row.record.id runtime issuer drawn now commit = .ok (t, r)) : r = none := by
  simp only [Store.scheduleClaimDue, bind_ok] at h
  obtain ⟨_, -, sch, hread, h⟩ := h
  obtain ⟨e, hfind, -, rfl⟩ := scheduleOf_iff.mp hread
  rw [Table.find_of_mem hs.schedules hrow] at hfind
  cases hfind
  by_cases hwaiting : row.record.state ≠ .waiting
  · rw [if_pos hwaiting, pure_ok] at h
    cases h
    rfl
  rw [if_neg hwaiting] at h
  simp only [bind_ok] at h
  obtain ⟨current, hcurrent, h⟩ := h
  rw [hw.current hs hpolicy hcurrent] at h
  obtain ⟨reason, hrefused⟩ :
      ∃ reason, claimRefused row.record false (row.record.nextDueMs.getD 0) now = some reason := by
    by_cases hback : now < row.record.observedAtMs
    · exact ⟨_, if_pos hback⟩
    · exact ⟨_, (if_neg hback).trans (if_pos rfl)⟩
  simp only [hrefused, bind_ok, pure_ok] at h
  obtain ⟨next, -, ⟨u, saved⟩, -, h⟩ := h
  cases h
  rfl

/-- A claim that was made before is not launched. -/
theorem Withdrawn.triggerBeginLaunch {policy runtime : String} (hw : s.Withdrawn policy runtime)
    (hs : s.Intact) {tr : Trigger} (htr : tr ∈ s.triggers) {row : ScheduleRow}
    (hrow : row ∈ s.schedules) (hown : tr.scheduleId = row.record.id)
    (hpolicy : row.record.creation.policy = policy) {now commit : Nat} {b : Bool}
    (h : s.triggerBeginLaunch tr.id runtime now commit = .ok (t, b)) : t = s ∧ b = false := by
  simp only [Store.triggerBeginLaunch, bind_ok, ensure_ok] at h
  obtain ⟨_, -, tr', htrigger, sch, hread, _, -, h⟩ := h
  simp only [triggerOf, bind_ok, context_ok, pure_ok] at htrigger
  obtain ⟨tr'', hfind, _, -, rfl⟩ := htrigger
  have hkeyed := hs.history.keyed (f := Trigger.id) fun tr => by simp [Trigger.identities]
  rw [Table.find_of_mem hkeyed htr] at hfind
  cases hfind
  obtain ⟨e, hfind, -, rfl⟩ := scheduleOf_iff.mp hread
  rw [hown, Table.find_of_mem hs.schedules hrow] at hfind
  cases hfind
  split_ifs at h with hstarted
  · rw [pure_ok] at h
    cases h
    exact ⟨rfl, rfl⟩
  · simp only [bind_ok, ensure_ok] at h
    obtain ⟨source, -, _, -, current, hcurrent, _, ⟨-, htrue⟩, -⟩ := h
    rw [hw.current hs hpolicy hcurrent] at htrue
    cases htrue

/-- A claim that settles does not leave its schedule waiting. -/
theorem Withdrawn.scheduleSettle {policy runtime : String} (hw : s.Withdrawn policy runtime)
    (hs : s.Intact) {row : ScheduleRow} (hrow : row ∈ s.schedules)
    (hpolicy : row.record.creation.policy = policy) {issuer : String} {now : Nat} {r : Schedule}
    (h : s.scheduleSettle row.record.id runtime issuer now = .ok (t, r)) : r.state = .interrupted := by
  have hinterrupted : ∀ {sch next : Schedule} {reason : String},
      sch.interrupted reason now = .ok next → s.saveSchedule next false = .ok (t, r) →
      r.state = .interrupted := by
    intro sch next reason hnext hsave
    obtain ⟨-, rfl⟩ := Schedule.interrupted_ok.mp hnext
    obtain ⟨rfl, -⟩ := saveSchedule_ok hsave
    rfl
  simp only [Store.scheduleSettle, bind_ok] at h
  obtain ⟨_, -, sch, hread, _, -, trigger, -, resolved, -, _, -, h⟩ := h
  obtain ⟨e, hfind, -, rfl⟩ := scheduleOf_iff.mp hread
  rw [Table.find_of_mem hs.schedules hrow] at hfind
  cases hfind
  split_ifs at h with hclock
  · simp only [bind_ok] at h
    obtain ⟨next, hnext, hsave⟩ := h
    exact hinterrupted hnext hsave
  · simp only [bind_ok] at h
    obtain ⟨current, hcurrent, h⟩ := h
    rw [if_pos (hw.current hs hpolicy hcurrent), bind_ok] at h
    obtain ⟨next, hnext, hsave⟩ := h
    exact hinterrupted hnext hsave

/-- The fence of an issuance does not let a job of it through. -/
theorem Withdrawn.fence {policy runtime : String} (hw : s.Withdrawn policy runtime) (hs : s.Intact)
    {p : Plan} {d : Delegation} (hdelegation : delegationOf p = some d) (hpolicy : d.policyId = policy)
    (issuer : String) (now : Nat) : s.fence p runtime issuer now ≠ .ok () := by
  intro h
  simp only [Store.fence, hdelegation, bind_ok, context_ok, ensure_ok] at h
  obtain ⟨_, -, r, -, _, -, _, ha, a, rfl, definition, hd, _, -, _, hcurrent, -⟩ := h
  rw [hw.lapsed hs (readPolicy_iff.mp (hpolicy ▸ ha)) hd] at hcurrent
  cases hcurrent

/-- **Withdrawn authority never acts.** Once a policy was revoked or superseded, its definition removed,
or the coordinator restarted under another runtime, then after every run no new reservation is made
under it, none of its schedules is armed or claims a trigger or waits for another one, no claim of it is
launched, and no grant is issued for its jobs. -/
theorem withdrawn_never_acts {policy runtime : String} (hs : s.Sound)
    (hw : s.Withdrawn policy runtime) (h : Run Turn s t) :
    t.Withdrawn policy runtime ∧
    (∀ c : Reserve, c.policy = policy → ∀ issuer now saved commit u r,
      t.reserve c runtime issuer now saved commit = .ok (u, r) → u = t ∧ r.2 = true) ∧
    (∀ c : Arm, c.policy = policy → ∀ issuer now commit u r,
      t.scheduleArm c runtime issuer now commit = .ok (u, r) → u = t ∧ r.2 = true) ∧
    (∀ row ∈ t.schedules, row.record.creation.policy = policy →
      (∀ issuer drawn now commit u r,
        t.scheduleClaimDue row.record.id runtime issuer drawn now commit = .ok (u, r) → r = none) ∧
      (∀ issuer now u r, t.scheduleSettle row.record.id runtime issuer now = .ok (u, r) →
        r.state = .interrupted) ∧
      ∀ tr ∈ t.triggers, tr.scheduleId = row.record.id → ∀ now commit u b,
        t.triggerBeginLaunch tr.id runtime now commit = .ok (u, b) → u = t ∧ b = false) ∧
    ∀ p d, delegationOf p = some d → d.policyId = policy → ∀ issuer now,
      t.fence p runtime issuer now ≠ .ok () := by
  have ht := (hs.run h).intact
  have hwt := hw.grows (hs.grows h)
  refine ⟨hwt, ?_, ?_, ?_, ?_⟩
  · intro c hpolicy issuer now saved commit u r hreserve
    exact hwt.reserve ht hpolicy hreserve
  · intro c hpolicy issuer now commit u r harm
    exact hwt.scheduleArm ht hpolicy harm
  · intro row hrow hpolicy
    refine ⟨?_, ?_, ?_⟩
    · intro issuer drawn now commit u r hclaim
      exact hwt.scheduleClaimDue ht hrow hpolicy hclaim
    · intro issuer now u r hsettle
      exact hwt.scheduleSettle ht hrow hpolicy hsettle
    · intro tr htr hown now commit u b hlaunch
      exact hwt.triggerBeginLaunch ht htr hrow hown hpolicy hlaunch
  · intro p d hdelegation hpolicy issuer now
    exact hwt.fence ht hdelegation hpolicy issuer now

end Store

end

section
attribute [local instance] F64.bits PeerAdmission.never scheduleSha schedulePlanner Pairing.never
  ScopeCompiler.always

/-- The runtime of a coordinator that was started again. -/
def restartedRuntime : String := "eeeeeeee-eeee-4eee-8eee-eeeeeeeeeeee"

/-- The schedule that is due, and is claimed and launched by the runtime it was armed by, is neither
claimed nor launched by another one, nor does that one reserve anything under its policy. -/
theorem withdrawn_never_acts_armed :
    armedStore.Withdrawn schedulePolicy.id restartedRuntime ∧
    (∀ now commit u r, armedStore.scheduleClaimDue scheduleArmed.id restartedRuntime
      schedulePolicy.issuerId scheduleDrawn now commit = .ok (u, r) → r = none) ∧
    (∀ now commit u, claimedStore.triggerBeginLaunch scheduleTrigger.id restartedRuntime now commit ≠
      .ok (u, true)) ∧
    ∀ c : Reserve, c.policy = schedulePolicy.id → ∀ issuer now saved commit u r,
      claimedStore.reserve c restartedRuntime issuer now saved commit ≠ .ok (u, r, false) := by
  have hsound := Store.scheduleStore_written.sound
  have hw : scheduleStore.Withdrawn schedulePolicy.id restartedRuntime :=
    ⟨_, List.mem_singleton.mpr rfl, rfl, .inl (by decide)⟩
  obtain ⟨harmed, -, -, hschedules, -⟩ :=
    Store.withdrawn_never_acts hsound hw (.single Store.armed_turn)
  obtain ⟨hclaim, -⟩ := hschedules _ (List.mem_singleton.mpr rfl) rfl
  obtain ⟨-, hreserve, -, hschedules', -⟩ :=
    Store.withdrawn_never_acts hsound hw (.head Store.armed_turn (.single claimed_turn))
  obtain ⟨-, -, hlaunch⟩ := hschedules' _ (List.mem_singleton.mpr rfl) rfl
  refine ⟨harmed, fun now commit u r h => hclaim _ _ _ _ _ _ h, fun now commit u h => ?_,
    fun c hpolicy issuer now saved commit u r h => ?_⟩
  · exact absurd (hlaunch _ (List.mem_singleton.mpr rfl) rfl _ _ _ _ h).2 (by decide)
  · exact absurd (hreserve c hpolicy _ _ _ _ _ _ h).2 Bool.false_ne_true

end

end Eef.Coordinator
