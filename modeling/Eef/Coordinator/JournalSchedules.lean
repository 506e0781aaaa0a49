import Eef.Coordinator.JournalAudit

/-!
# Schedules in an intact journal

A command on schedules writes one of them: it goes on (`Schedule.Continues`), claims a trigger
(`Schedule.Claims`), or is armed; `Arranges` is what a write can be. Only a claim and the two refusal
commands check the whole history again before they commit. For the others what one write does to the
rest of the history is worked out here: a schedule that goes on keeps its claims and never becomes
active, so no claim is left without its schedule and no definition gets a second active one
(`Arranges.intact`).
-/

namespace Eef.Coordinator

open Eef.Lib Eef.Node

/-- How a schedule goes on in a write that does not claim. -/
structure Schedule.Continues (sch next : Schedule) : Prop where
  kept : sch.Kept next
  claimed : next.claimedRuns = sch.claimedRuns
  active : next.state.active = true → sch.state.active = true
  trigger : ∀ id ∈ next.activeTrigger, sch.activeTrigger = some id
  launch : ∀ id ∈ next.activeTrigger, sch.launchStartedAtMs.isSome = true →
    next.launchStartedAtMs.isSome = true
  clock : next.state = .inFlight → sch.state = .inFlight ∧
    ∀ t, Store.inFlightAt sch t → Store.inFlightAt next t
  -- a schedule that waits again was settled at its own clock or later
  waits : next.state = .waiting → (sch.state = .waiting ∧ next.nextDueMs = sch.nextDueMs) ∨
    (sch.state = .inFlight ∧ ∃ due ∈ next.nextDueMs, sch.observedAtMs + sch.everyMs ≤ due)

/-- How a schedule goes on in a claim. -/
structure Schedule.Claims (sch next : Schedule) (tr : Trigger) : Prop where
  kept : sch.Kept next
  waiting : sch.state = .waiting
  due : tr.dueAtMs = sch.nextDueMs.getD 0
  flying : next.state = .inFlight
  trigger : next.activeTrigger = some tr.id
  own : tr.scheduleId = sch.id
  ordinal : tr.ordinal = sch.claimedRuns + 1

/-- A schedule without claims, as it is armed. -/
structure Schedule.Unclaimed (sch : Schedule) : Prop where
  claimed : sch.claimedRuns = 0
  trigger : sch.activeTrigger = none
  state : sch.state = .waiting
  refusal : sch.refusal = none

section
variable [Sha256]

theorem Schedule.Kept.sealed {sch next : Schedule} (h : sch.Kept next) : sch.Kept next.sealed := by
  refine ⟨?_, h.claimed⟩
  rw [Schedule.sealed, h.same]

theorem Schedule.Continues.sealed {sch next : Schedule} (h : sch.Continues next) :
    sch.Continues next.sealed :=
  ⟨h.kept.sealed, h.claimed, h.active, h.trigger, h.launch, h.clock, h.waits⟩

variable [F64] [PeerAdmission] [Planner] [Pairing] [ScopeCompiler]

namespace Store

variable {s t : Store}

/-! ## A schedule goes on -/

/-- What `save_schedule` wrote reads back. -/
theorem saveSchedule_checks {sch r : Schedule} {new : Bool}
    (h : s.saveSchedule sch new = .ok (t, r)) :
    s.checkSchedule ⟨r, scheduleCost - r.toJson.size⟩ = .ok () := by
  obtain ⟨rfl, hfull, -⟩ := saveSchedule_ok h
  unfold saveSchedule at h
  simp only [bind_ok] at h
  obtain ⟨a, ha, d, hd, _, hvalid, -⟩ := h
  simp only [checkSchedule, bind_ok, ensure_ok]
  exact ⟨a, ha, d, hd, (), hvalid, hfull.1, trivial⟩

/-- A write of a schedule that was read, as a replacement of its row; a claim also adds its
trigger. -/
structure Replaces (s t : Store) (old row : ScheduleRow) : Prop where
  found : Table.find (fun e => e.record.id) old.record.id s.schedules = some old
  id : row.record.id = old.record.id
  checked : s.checkSchedule row = .ok ()
  rest : t = { s with schedules := t.schedules, triggers := t.triggers }
  schedules : t.schedules =
    Table.update (fun e => e.record.id == row.record.id) (fun _ => row) s.schedules

theorem saveSchedule_replaces {id msg : String} {sch next r : Schedule}
    (hread : s.scheduleOf id msg = .ok sch) (hsave : s.saveSchedule next false = .ok (t, r))
    (hid : next.id = sch.id) :
    t.triggers = s.triggers ∧
      ∃ old row, s.Replaces t old row ∧ old.record = sch ∧ row.record = next.sealed := by
  obtain ⟨old, hfind, -, rfl⟩ := scheduleOf_iff.mp hread
  have hold : old.record.id = id := (Table.find_some hfind).2
  have hchecked := saveSchedule_checks hsave
  obtain ⟨rfl, -, -, ht, hrows⟩ := saveSchedule_ok hsave
  have htriggers : t.triggers = s.triggers := by rw [ht]
  refine ⟨htriggers, old, _, ⟨hold ▸ hfind, hid, hchecked, ?_, hrows⟩, rfl, rfl⟩
  rw [htriggers]
  exact ht

theorem Replaces.mem {old row : ScheduleRow} (h : s.Replaces t old row) {e : ScheduleRow}
    (he : e ∈ t.schedules) : e = row ∨ e ∈ s.schedules := by
  rw [h.schedules, Table.mem_update] at he
  obtain ⟨e', he', rfl⟩ := he
  split
  · exact .inl rfl
  · exact .inr he'

theorem Replaces.keepsPolicies {old row : ScheduleRow} (h : s.Replaces t old row) :
    s.KeepsPolicies t :=
  KeepsPolicies.of_eq (by rw [h.rest]) (by rw [h.rest])

theorem Replaces.keeps {old row : ScheduleRow} (h : s.Replaces t old row)
    (hkept : old.record.Kept row.record) : s.Keeps t := by
  refine ⟨h.keepsPolicies, ?_⟩
  intro id msg sch hsch
  obtain ⟨e, hfind, hcheck, rfl⟩ := scheduleOf_iff.mp hsch
  have hreplaced := @Table.find_replace _ _ _ (fun e : ScheduleRow => e.record.id) row id
    s.schedules
  rw [← h.schedules] at hreplaced
  by_cases hid : id = row.record.id
  · rw [if_pos hid, hfind] at hreplaced
    have hsame : e = old := by
      rw [hid, h.id, h.found] at hfind
      exact (Option.some.inj hfind).symm
    subst hsame
    exact ⟨row.record, scheduleOf_iff.mpr ⟨row, hreplaced, checkSchedule_kept h.keepsPolicies h.checked,
      rfl⟩, hkept⟩
  · rw [if_neg hid, hfind] at hreplaced
    exact ⟨_, scheduleOf_iff.mpr ⟨e, hreplaced, checkSchedule_kept h.keepsPolicies hcheck, rfl⟩, .refl _⟩

/-- The plans that are retained. -/
def plans (s : Store) : List Plan := s.jobs.map (·.plan) ++ s.occurrences.map (·.approvedJob)

theorem Replaces.sameWork {old row : ScheduleRow} (h : s.Replaces t old row)
    (htriggers : ∀ p ∈ s.plans, s.SameTrigger t p) : s.SameWork t := by
  refine ⟨by rw [h.rest], by rw [h.rest], by rw [h.rest], fun e he => ?_, fun r hr => ?_⟩
  · exact htriggers _ (List.mem_append_left _ (List.mem_map_of_mem he))
  · exact htriggers _ (List.mem_append_right _ (List.mem_map_of_mem hr))

theorem Replaces.unique {old row : ScheduleRow} (h : s.Replaces t old row) (hs : s.Unique) :
    t.Unique := by
  refine ⟨?_, ?_, ?_, ?_, ?_, ?_⟩
  · rw [h.rest]
    exact hs.definitions
  · rw [h.rest]
    exact hs.policies
  · rw [h.schedules]
    exact hs.schedules.replace row
  · rw [h.rest]
    exact hs.jobs
  · rw [h.rest]
    exact hs.reservations
  · rw [h.rest]
    exact hs.reserved

/-- The active schedules after a write are those before it, or fewer. -/
theorem Replaces.active {old row : ScheduleRow} (h : s.Replaces t old row) (hs : s.Unique)
    (hcontinues : row.record.state.active = true → old.record.state.active = true)
    (hdefinition : row.record.definitionId = old.record.definitionId)
    (hactive : (s.activeSchedules.map (·.definitionId)).Nodup) :
    (t.activeSchedules.map (·.definitionId)).Nodup := by
  refine List.Nodup.sublist ?_ hactive
  unfold activeSchedules
  rw [h.schedules, Table.update, List.map_map]
  refine Lists.filter_map_sublist fun e he hstate => ?_
  simp only [Function.comp] at hstate ⊢
  by_cases hid : e.record.id = row.record.id
  · have hsame : e = old :=
      hs.schedules.eq he (Table.find_some h.found).1 (hid.trans h.id)
    subst hsame
    rw [if_pos (beq_iff_eq.mpr hid)] at hstate ⊢
    exact ⟨hcontinues hstate, hdefinition⟩
  · rw [if_neg fun heq => hid (beq_iff_eq.mp heq)] at hstate ⊢
    exact ⟨hstate, rfl⟩

omit [F64] [PeerAdmission] [Sha256] [Planner] [Pairing] [ScopeCompiler] in
/-- The claims of a schedule that goes on. -/
theorem checkClaims_continues {sch next : Schedule} (hids : next.id = sch.id)
    (h : sch.Continues next) (hsame : next.refusal = sch.refusal)
    (hclaims : s.checkClaims sch = .ok ()) : s.checkClaims next = .ok () := by
  simp only [checkClaims, bind_ok, ensure_ok] at hclaims ⊢
  obtain ⟨_, ⟨hlength, hordinals, hlast⟩, _, hclock, hrefusal⟩ := hclaims
  refine ⟨(), ⟨?_, ?_, ?_⟩, (), ?_, ?_⟩
  · rw [hids, h.claimed]
    exact hlength
  · rw [hids]
    exact hordinals
  · intro id hid
    rw [hids]
    exact hlast id (h.trigger id hid)
  · intro hstate
    obtain ⟨hold, hat⟩ := h.clock hstate
    have hlastClock := hclock hold
    rw [hids]
    cases hown : (s.ownTriggers sch.id).getLast? with
    | none =>
      rw [hown] at hlastClock
      cases hlastClock
    | some tr =>
      rw [hown] at hlastClock
      exact decide_eq_true (hat tr (of_decide_eq_true hlastClock))
  · unfold checkRefusal at hrefusal ⊢
    rw [hsame, hids]
    exact hrefusal

omit [F64] [PeerAdmission] [Sha256] [Planner] [Pairing] [ScopeCompiler] in
/-- The claims of a schedule read the rest of the journal through its triggers, jobs and
reservations. -/
theorem checkClaims_of_eq (h : s.SameWork t) (htriggers : t.triggers = s.triggers) {sch : Schedule}
    (hclaims : s.checkClaims sch = .ok ()) : t.checkClaims sch = .ok () := by
  have hown : t.ownTriggers sch.id = s.ownTriggers sch.id := by
    unfold ownTriggers
    rw [htriggers]
  simp only [checkClaims, bind_ok, ensure_ok, hown] at hclaims ⊢
  obtain ⟨_, hordinals, _, hclock, hrefusal⟩ := hclaims
  exact ⟨(), hordinals, (), hclock, h.refusal htriggers hrefusal⟩

theorem Replaces.history {old row : ScheduleRow} (h : s.Replaces t old row) (hs : s.Unique)
    (htriggers : t.triggers = s.triggers) (hcontinues : old.record.Continues row.record)
    (hsame : row.record.refusal = old.record.refusal) (hhistory : s.History) : t.History := by
  have hwork : s.SameWork t := h.sameWork fun p _ => .of_eq htriggers p
  refine ⟨policies_kept h.keepsPolicies (by rw [h.rest]) hhistory.policies, fun e he => ?_,
    fun tr htr => ?_, ?_, ?_, fun e he => ?_⟩
  · rcases h.mem he with rfl | he
    · exact checkSchedule_kept h.keepsPolicies h.checked
    · exact checkSchedule_kept h.keepsPolicies (hhistory.schedules e he)
  · exact checkTrigger_kept (h.keeps hcontinues.kept) (hhistory.triggers tr (htriggers ▸ htr))
  · rw [htriggers]
    exact hhistory.identities
  · refine h.active hs hcontinues.active ?_ hhistory.active
    rw [hcontinues.kept.same]
  · rcases h.mem he with rfl | he
    · have hold := hhistory.claims old (Table.find_some h.found).1
      exact checkClaims_of_eq hwork htriggers (checkClaims_continues h.id hcontinues hsame hold)
    · exact checkClaims_of_eq hwork htriggers (hhistory.claims e he)

/-- A write of a schedule leaves the journal intact if its history is checked again. -/
theorem Intact.replace (hs : s.Intact) {old row : ScheduleRow} (h : s.Replaces t old row)
    (hkept : old.record.Kept row.record) (htriggers : ∀ p ∈ s.plans, s.SameTrigger t p)
    (hhistory : t.History) : t.Intact := by
  refine hs.sameWork (h.keeps hkept) (h.sameWork htriggers) (h.unique hs.toUnique) ?_ hhistory
  rw [h.rest]
  exact hs.stored

/-- No retained job was made for a request. -/
def FreshRequest (s : Store) (request : String) : Prop :=
  ∀ p ∈ s.plans, ∀ c ∈ p.goal.requestContext, c.requestId ≠ request

/-- The claim that a schedule had in flight is there still, was found resolved, or the schedule ended. -/
def Rests (s : Store) (sch next : Schedule) : Prop :=
  ∀ id, sch.activeTrigger = some id → next.activeTrigger = some id ∨ next.state.active = false ∨
    ∃ tr ∈ s.triggers, tr.id = id ∧ s.resolvedClaim tr = .ok true

/-- What a write of the schedules can be. -/
inductive Arranges (s t : Store) : Prop where
  | keeps (h : t = s)
  | goes {old row : ScheduleRow} (h : s.Replaces t old row) (htriggers : t.triggers = s.triggers)
      (hgoes : old.record.Continues row.record)
      (hrefusal : row.record.refusal = old.record.refusal ∨ t.validatedHistory = .ok ())
      (hrests : s.Rests old.record row.record)
  | claims {old row : ScheduleRow} {tr : Trigger} (h : s.Replaces t old row)
      (htriggers : t.triggers = s.triggers ++ [tr]) (hclaims : old.record.Claims row.record tr)
      (hfresh : ∀ u ∈ s.triggers, u.id ≠ tr.id)
      (hrequest : s.FreshRequest tr.requestContext.requestId) (hhistory : t.validatedHistory = .ok ())
      (hresolved : s.definitionResolved old.record.definitionId = .ok true)
  | arms {row : ScheduleRow} (hunclaimed : row.record.Unclaimed) (hchecked : s.checkSchedule row = .ok ())
      (hfresh : Table.find (fun e => e.record.id) row.record.id s.schedules = none)
      (halone : ∀ e ∈ s.schedules, e.record.definitionId = row.record.definitionId →
        e.record.state.active = false)
      (hresolved : ∀ e ∈ s.schedules, e.record.definitionId = row.record.definitionId →
        s.claimsResolved e.record.id = true)
      (h : t = { s with schedules := s.schedules ++ [row] })

/-- A schedule that was read is saved as it goes on. -/
theorem Arranges.save {id msg : String} {sch next r : Schedule}
    (hread : s.scheduleOf id msg = .ok sch) (hsave : s.saveSchedule next false = .ok (t, r))
    (h : sch.Continues next) (hrefusal : next.refusal = sch.refusal ∨ t.validatedHistory = .ok ())
    (hrests : s.Rests sch next) : s.Arranges t := by
  obtain ⟨htriggers, old, row, hreplaces, rfl, hrow⟩ :=
    saveSchedule_replaces hread hsave (by rw [h.kept.same])
  refine .goes hreplaces htriggers (hrow ▸ h.sealed) (hrefusal.imp_left fun hsame => ?_) ?_
  · rw [hrow]
    exact hsame
  · rw [hrow]
    exact hrests

/-- A schedule ends, with the claim it had. -/
theorem Rests.ended {sch next : Schedule} (h : next.state.active = false) : s.Rests sch next := fun _ _ => .inr (.inl h)

omit [F64] [Sha256] [PeerAdmission] [Planner] [Pairing] [ScopeCompiler] in
theorem FreshRequest.sameTrigger {tr : Trigger} (htriggers : t.triggers = s.triggers ++ [tr])
    (hfresh : s.FreshRequest tr.requestContext.requestId) {p : Plan} (hp : p ∈ s.plans) :
    s.SameTrigger t p := by
  intro c hc
  unfold requested
  rw [htriggers]
  exact Table.find_insert_of_ne (hfresh p hp c hc).symm

/-- No trigger is a claim of a schedule that is not there. -/
theorem ownTriggers_fresh (hhistory : s.History) {id : String}
    (hfresh : Table.find (fun e => e.record.id) id s.schedules = none) : s.ownTriggers id = [] := by
  have hnone : s.triggers.filter (fun tr => tr.scheduleId = id) = [] := by
    refine List.filter_eq_nil_iff.mpr fun tr htr heq => ?_
    have hcheck := hhistory.triggers tr htr
    simp only [checkTrigger, bind_ok] at hcheck
    obtain ⟨sch, hsch, -⟩ := hcheck
    obtain ⟨row, hfind, -⟩ := scheduleOf_iff.mp hsch
    rw [of_decide_eq_true heq, hfresh] at hfind
    cases hfind
  unfold ownTriggers
  rw [hnone]
  rfl

theorem Intact.arm (hs : s.Intact) {row : ScheduleRow} (harmed : row.record.Unclaimed)
    (hchecked : s.checkSchedule row = .ok ())
    (hfresh : Table.find (fun e => e.record.id) row.record.id s.schedules = none)
    (halone : ∀ e ∈ s.schedules, e.record.definitionId = row.record.definitionId →
      e.record.state.active = false) : Store.Intact { s with schedules := s.schedules ++ [row] } := by
  have hpolicies : s.KeepsPolicies { s with schedules := s.schedules ++ [row] } := .of_eq rfl rfl
  have hkeeps : s.Keeps { s with schedules := s.schedules ++ [row] } := by
    refine ⟨hpolicies, ?_⟩
    intro id msg sch hsch
    obtain ⟨e, hfind, hcheck, rfl⟩ := scheduleOf_iff.mp hsch
    refine ⟨_, scheduleOf_iff.mpr ⟨e, ?_, checkSchedule_kept hpolicies hcheck, rfl⟩, .refl _⟩
    show Table.find (fun e => e.record.id) id (s.schedules ++ [row]) = some e
    rw [Table.find_insert, hfind, Option.some_or]
  have hwork : s.SameWork { s with schedules := s.schedules ++ [row] } :=
    ⟨rfl, rfl, rfl, fun _ _ => .of_eq rfl _, fun _ _ => .of_eq rfl _⟩
  have hhistory := hs.history
  refine hs.sameWork hkeeps hwork
    ⟨hs.definitions, hs.policies, hs.schedules.insert hfresh, hs.jobs, hs.reservations, hs.reserved⟩ hs.stored
    ⟨policies_kept hpolicies rfl hhistory.policies, fun e he => ?_, fun tr htr => ?_,
      hhistory.identities, ?_, fun e he => ?_⟩
  · rcases List.mem_append.mp he with he | he
    · exact checkSchedule_kept hpolicies (hhistory.schedules e he)
    · rw [List.mem_singleton.mp he]
      exact checkSchedule_kept hpolicies hchecked
  · exact checkTrigger_kept hkeeps (hhistory.triggers tr htr)
  · show ((((s.schedules ++ [row]).map (·.record)).filter fun sch => sch.state.active).map
      (·.definitionId)).Nodup
    rw [List.map_append, List.filter_append, List.map_append, List.nodup_append]
    refine ⟨hhistory.active, ?_, ?_⟩
    · have hsublist := (List.filter_sublist (p := fun sch : Schedule => sch.state.active)
        (l := [row.record])).map Schedule.definitionId
      exact (List.nodup_singleton row.record.definitionId).sublist hsublist
    · intro a ha b hb heq
      obtain ⟨q, hq, rfl⟩ := List.mem_map.mp ha
      obtain ⟨hq, hactive⟩ := List.mem_filter.mp hq
      obtain ⟨e, he, rfl⟩ := List.mem_map.mp hq
      obtain ⟨q', hq', rfl⟩ := List.mem_map.mp hb
      have hq' : q' = row.record := List.mem_singleton.mp (List.mem_filter.mp hq').1
      rw [hq'] at heq
      exact Bool.false_ne_true ((halone e he heq).symm.trans hactive)
  · rcases List.mem_append.mp he with he | he
    · exact checkClaims_of_eq hwork rfl (hhistory.claims e he)
    · rw [List.mem_singleton.mp he]
      refine checkClaims_of_eq hwork rfl ?_
      have hown := ownTriggers_fresh hhistory hfresh
      simp only [checkClaims, bind_ok, ensure_ok, hown]
      refine ⟨(), ⟨harmed.claimed.symm, rfl, fun id hid => ?_⟩, (), fun hstate => ?_, ?_⟩
      · rw [harmed.trigger] at hid
        cases hid
      · rw [harmed.state] at hstate
        cases hstate
      · unfold checkRefusal
        rw [harmed.refusal]

/-- Every write of the schedules leaves the journal intact. -/
theorem Arranges.intact (h : s.Arranges t) (hs : s.Intact) : t.Intact := by
  cases h with
  | keeps h => exact h ▸ hs
  | goes h htriggers hgoes hrefusal hrests =>
    refine hs.replace h hgoes.kept (fun p _ => .of_eq htriggers p) ?_
    rcases hrefusal with hsame | hhistory
    · exact h.history hs.toUnique htriggers hgoes hsame hs.history
    · exact validatedHistory_iff.mp hhistory
  | claims h htriggers hclaims hfresh hrequest hhistory hresolved =>
    exact hs.replace h hclaims.kept (fun p hp => FreshRequest.sameTrigger htriggers hrequest hp)
      (validatedHistory_iff.mp hhistory)
  | arms hunclaimed hchecked hfresh halone hresolved h =>
    exact h ▸ hs.arm hunclaimed hchecked hfresh halone

end Store

/-! ## The commands that do not claim -/

omit [F64] [Sha256] [PeerAdmission] [Planner] [Pairing] [ScopeCompiler] in
/-- A schedule ends, with the claim it had. -/
theorem Schedule.Continues.of_inactive {sch next : Schedule} (hkept : sch.Kept next)
    (hstate : next.state.active = false) (hclaimed : next.claimedRuns = sch.claimedRuns)
    (htrigger : next.activeTrigger = sch.activeTrigger)
    (hlaunch : next.launchStartedAtMs = sch.launchStartedAtMs) : sch.Continues next := by
  refine ⟨hkept, hclaimed, fun hactive => ?_, fun id hid => htrigger ▸ hid, fun _ _ h => hlaunch ▸ h,
    fun hflying => ?_, fun hwaiting => ?_⟩
  · rw [hstate] at hactive
    cases hactive
  · rw [hflying] at hstate
    cases hstate
  · rw [hwaiting] at hstate
    cases hstate

omit [F64] [Sha256] [PeerAdmission] [Planner] [Pairing] [ScopeCompiler] in
theorem Schedule.interrupted_continues {sch next : Schedule} {reason : String} {now : Nat}
    (h : sch.interrupted reason now = .ok next) :
    sch.Continues next ∧ next.refusal = sch.refusal ∧ next.state.active = false := by
  obtain ⟨-, rfl⟩ := Schedule.interrupted_ok.mp h
  exact ⟨.of_inactive ⟨rfl, Nat.le_refl _⟩ rfl rfl rfl rfl, rfl, rfl⟩

omit [F64] [Sha256] [PeerAdmission] [Planner] [Pairing] [ScopeCompiler] in
theorem Schedule.settled_continues {sch : Schedule} (hstate : sch.state = .inFlight)
    (a : Authorization) (available : Bool) (duration revision : Nat) {now : Nat}
    (hnow : sch.observedAtMs ≤ now) :
    sch.Continues (Store.settled { sch with revision, observedAtMs := now } a available duration
      (now + sch.everyMs)) := by
  have hactive : sch.state.active = true := by rw [hstate]; rfl
  unfold Store.settled
  split_ifs
  · refine ⟨⟨rfl, Nat.le_refl _⟩, rfl, fun _ => hactive, fun id hid => ?_, fun id hid => ?_,
      fun hflying => ?_, fun hwaiting => ?_⟩
    · cases hid
    · cases hid
    · cases hflying
    · cases hwaiting
  · refine ⟨⟨rfl, Nat.le_refl _⟩, rfl, fun _ => hactive, fun id hid => ?_, fun id hid => ?_,
      fun hflying => ?_, fun _ => .inr ⟨hstate, _, rfl, ?_⟩⟩
    · cases hid
    · cases hid
    · cases hflying
    · exact Nat.add_le_add_right hnow _

namespace Store

variable {s t : Store}

theorem scheduleStop_arranges {id operation : String} {revision now : Nat}
    {r : Schedule × Bool} (h : s.scheduleStop id revision operation now = .ok (t, r)) : s.Arranges t := by
  simp only [scheduleStop, bind_ok] at h
  obtain ⟨_, -, _, -, sch, hread, h⟩ := h
  cases hstop : sch.stop with
  | some old =>
    simp only [hstop, bind_ok, pure_ok] at h
    obtain ⟨_, -, h⟩ := h
    cases h
    exact .keeps rfl
  | none =>
    simp only [hstop, bind_ok, pure_ok, Schedule.advance_ok] at h
    obtain ⟨_, -, _, -, next, ⟨-, rfl⟩, ⟨u, saved⟩, hsave, h⟩ := h
    cases h
    exact .save hread hsave (.of_inactive ⟨rfl, Nat.le_refl _⟩ rfl rfl rfl rfl) (.inl rfl) (.ended rfl)

omit [F64] [Sha256] [PeerAdmission] [Planner] [Pairing] [ScopeCompiler] in
theorem settled_refusal (sch : Schedule) (a : Authorization) (available : Bool) (duration next : Nat) :
    (settled sch a available duration next).refusal = sch.refusal := by
  unfold settled
  split_ifs
  · rfl
  · rfl

theorem triggerOf_ok {id : String} {tr : Trigger} (h : s.triggerOf id = .ok tr) :
    tr ∈ s.triggers ∧ tr.id = id := by
  simp only [triggerOf, bind_ok, context_ok, pure_ok] at h
  obtain ⟨tr', hfind, _, -, rfl⟩ := h
  exact Table.find_some hfind

theorem scheduleSettle_arranges {id runtime issuer : String} {now : Nat} {r : Schedule}
    (h : s.scheduleSettle id runtime issuer now = .ok (t, r)) : s.Arranges t := by
  simp only [scheduleSettle, bind_ok] at h
  obtain ⟨_, -, sch, hread, _, hstate, trigger, htrigger, resolved, hresolved, _, hyes, h⟩ := h
  rw [ensure_ok] at hstate hyes
  rw [hyes] at hresolved
  split_ifs at h with hclock
  · simp only [bind_ok] at h
    obtain ⟨next, hnext, hsave⟩ := h
    obtain ⟨hgoes, hsame, hended⟩ := Schedule.interrupted_continues hnext
    exact .save hread hsave hgoes (.inl hsame) (.ended hended)
  · simp only [bind_ok] at h
    obtain ⟨current, -, h⟩ := h
    split_ifs at h with hcurrent
    · simp only [bind_ok] at h
      obtain ⟨next, hnext, hsave⟩ := h
      obtain ⟨hgoes, hsame, hended⟩ := Schedule.interrupted_continues hnext
      exact .save hread hsave hgoes (.inl hsame) (.ended hended)
    · simp only [bind_ok, Schedule.advance_ok] at h
      obtain ⟨a, -, _, -, next, ⟨-, rfl⟩, available, -, ⟨duration, _⟩, -, hsave⟩ := h
      refine .save hread hsave (Schedule.settled_continues hstate a available duration _ (Nat.le_of_not_lt hclock))
        (.inl (settled_refusal ..)) fun id hid => ?_
      obtain ⟨htr, hown⟩ := triggerOf_ok htrigger
      rw [hid, Option.getD_some] at hown
      exact .inr (.inr ⟨trigger, htr, hown, hresolved⟩)

/-- A schedule is current only before its policy ends. -/
theorem current_expires {sch : Schedule} {id msg runtime issuer : String} {now : Nat}
    (hread : s.scheduleOf id msg = .ok sch) (h : s.current sch runtime issuer now = .ok true) :
    now < sch.expiresAtMs := by
  obtain ⟨row, -, hcheck, rfl⟩ := scheduleOf_iff.mp hread
  obtain ⟨a, d, ha, -, hvalid, -⟩ := checkSchedule_ok hcheck
  obtain ⟨-, hbounded, -⟩ := Schedule.validateData_ok.mp hvalid
  simp only [Schedule.bounded] at hbounded
  simp only [current, bind_ok, pure_ok] at h
  obtain ⟨a', ha', d', -, _, -, hcurrent⟩ := h
  rw [ha] at ha'
  cases ha'
  simp only [Authorization.currentAt, Bool.and_eq_true, decide_eq_true_eq] at hcurrent
  rw [hbounded.2.2.2.2.2.2.2.2.2.2.1]
  exact hcurrent.2.2

theorem triggerBeginLaunch_arranges {id runtime : String} {now commit : Nat} {b : Bool}
    (h : s.triggerBeginLaunch id runtime now commit = .ok (t, b)) : s.Arranges t := by
  simp only [triggerBeginLaunch, bind_ok] at h
  obtain ⟨_, -, trigger, -, sch, hread, _, hown, h⟩ := h
  rw [ensure_ok] at hown
  split_ifs at h with hstarted
  · rw [pure_ok] at h
    cases h
    exact .keeps rfl
  · simp only [bind_ok, Schedule.advance_ok, pure_ok, ensure_ok] at h
    obtain ⟨source, -, _, -, current, hcurrent, _, ⟨hclock, rfl⟩, next, ⟨-, rfl⟩, ⟨u, saved⟩, hsave, _,
      -, _, -, h⟩ := h
    cases h
    have hexpires := current_expires hread hcurrent
    refine .save hread hsave ⟨⟨rfl, Nat.le_refl _⟩, rfl, fun hactive => hactive, fun id hid => hid,
      fun _ _ _ => rfl, fun hstate => ⟨hstate, fun tr hin => ?_⟩, fun hwaiting => ?_⟩ (.inl rfl)
      fun id hid => .inl hid
    · -- the launch is the new clock of the claim, and not before it
      have hnone : sch.launchStartedAtMs = none := by
        cases hlaunch : sch.launchStartedAtMs with
        | none => rfl
        | some at' =>
          rw [hlaunch] at hstarted
          exact absurd rfl hstarted
      have hclaimed := hin.1
      rw [hnone, Option.getD_none] at hclaimed
      refine ⟨rfl, ?_⟩
      intro at' hat
      cases hat
      exact ⟨hclaimed ▸ hclock, hexpires⟩
    · exact .inl ⟨hwaiting, rfl⟩

theorem scheduleInterruptNow_arranges {id reason : String} {now : Nat} {r : Schedule}
    (h : s.scheduleInterruptNow id reason now = .ok (t, r)) : s.Arranges t := by
  simp only [scheduleInterruptNow, bind_ok] at h
  obtain ⟨_, -, sch, hread, h⟩ := h
  split_ifs at h with hactive
  · simp only [bind_ok] at h
    obtain ⟨next, hnext, hsave⟩ := h
    obtain ⟨hgoes, hsame, hended⟩ := Schedule.interrupted_continues hnext
    exact .save hread hsave hgoes (.inl hsame) (.ended hended)
  · rw [pure_ok] at h
    cases h
    exact .keeps rfl

theorem triggerInterruptNow_arranges {id reason : String} {now : Nat} {r : Schedule}
    (h : s.triggerInterruptNow id reason now = .ok (t, r)) : s.Arranges t := by
  simp only [triggerInterruptNow, bind_ok] at h
  obtain ⟨_, -, trigger, -, sch, hread, h⟩ := h
  split_ifs at h with howns
  · simp only [bind_ok] at h
    obtain ⟨next, hnext, hsave⟩ := h
    obtain ⟨hgoes, hsame, hended⟩ := Schedule.interrupted_continues hnext
    exact .save hread hsave hgoes (.inl hsame) (.ended hended)
  · rw [pure_ok] at h
    cases h
    exact .keeps rfl

/-! ## Refusals -/

theorem triggerRecordRefusal_arranges {id runtime : String} {now : Nat} {b : Bool}
    (h : s.triggerRecordRefusal id runtime now = .ok (t, b)) : s.Arranges t := by
  simp only [triggerRecordRefusal, bind_ok] at h
  obtain ⟨_, -, trigger, -, sch, hread, h⟩ := h
  split_ifs at h with hrefusal hother
  · rw [pure_ok] at h
    cases h
    exact .keeps rfl
  · rw [pure_ok] at h
    cases h
    exact .keeps rfl
  · simp only [bind_ok] at h
    obtain ⟨source, -, h⟩ := h
    split_ifs at h with hsource
    · rw [pure_ok] at h
      cases h
      exact .keeps rfl
    · simp only [bind_ok, Schedule.interrupted_ok, pure_ok] at h
      obtain ⟨next, ⟨-, rfl⟩, ⟨u, saved⟩, hsave, _, hhistory, h⟩ := h
      cases h
      exact .save hread hsave ((Schedule.Continues.of_inactive ⟨rfl, Nat.le_refl _⟩ rfl rfl rfl rfl))
        (.inr hhistory) (.ended rfl)

theorem resolveTriggerRefusal_arranges {id trigger hash operation : String}
    {revision now : Nat} {r : Schedule × Bool}
    (h : s.resolveTriggerRefusal id revision trigger hash operation now = .ok (t, r)) : s.Arranges t := by
  simp only [resolveTriggerRefusal, bind_ok] at h
  obtain ⟨_, -, _, -, _, -, sch, hread, h⟩ := h
  cases hresolution : sch.refusalResolution with
  | some old =>
    simp only [hresolution, bind_ok, pure_ok] at h
    obtain ⟨_, -, h⟩ := h
    cases h
    exact .keeps rfl
  | none =>
    simp only [hresolution, bind_ok, pure_ok, Schedule.advance_ok] at h
    obtain ⟨refusal, -, _, -, next, ⟨-, rfl⟩, ⟨u, saved⟩, hsave, _, hhistory, h⟩ := h
    cases h
    exact .save hread hsave (.of_inactive ⟨rfl, Nat.le_refl _⟩ rfl rfl rfl rfl) (.inr hhistory)
      (.ended rfl)

/-! ## Claims -/

omit [Sha256] [PeerAdmission] [Planner] [Pairing] [ScopeCompiler] in
theorem insertTrigger_unique {tr : Trigger} (h : s.insertTrigger tr = .ok t) :
    ∀ u ∈ s.triggers, u.id ≠ tr.id := by
  simp only [insertTrigger, bind_ok, ensure_ok] at h
  obtain ⟨_, -, _, hunique, -⟩ := h
  exact fun u hu => (hunique u hu).1

/-- A claim goes through: one trigger is added, and the history is checked again. -/
theorem commitClaim_arranges {id msg runtime issuer : String} {sch : Schedule} {a : Authorization}
    {drawn : Drawn} {duration now commit : Nat} {tr : Trigger}
    (hread : s.scheduleOf id msg = .ok sch) (hwaiting : sch.state = .waiting)
    (hfresh : s.FreshRequest drawn.request) (hresolved : s.definitionResolved sch.definitionId = .ok true)
    (h : s.commitClaim sch a runtime issuer drawn duration (sch.nextDueMs.getD 0) now commit =
      .ok (t, tr)) :
    s.Arranges t := by
  simp only [commitClaim, bind_ok, pure_ok, Schedule.advance_ok] at h
  obtain ⟨next, ⟨-, rfl⟩, ⟨u, r⟩, hsave, v, hinsert, _, hhistory, _, -, h⟩ := h
  cases h
  obtain ⟨htriggers, old, row, hreplaces, rfl, hrow⟩ := saveSchedule_replaces hread hsave rfl
  have ht := insertTrigger_schedules hinsert
  have hunique := insertTrigger_unique hinsert
  have hclaims : old.record.Claims row.record
      (claimed old.record a drawn (old.record.nextDueMs.getD 0) now) := by
    rw [hrow]
    exact ⟨Schedule.Kept.sealed ⟨rfl, Nat.le_succ _⟩, hwaiting, rfl, rfl, rfl, rfl, rfl⟩
  refine .claims ⟨hreplaces.found, hreplaces.id, hreplaces.checked, ?_, ?_⟩ ?_ hclaims
    (htriggers ▸ hunique) hfresh hhistory hresolved
  · rw [ht, hreplaces.rest]
  · rw [ht]
    exact hreplaces.schedules
  · rw [ht, htriggers]

theorem admissionState_resolved {definition : String} {a : Authorization} {available : Bool}
    (h : s.triggerAdmissionState definition a = .ok (true, available)) :
    s.definitionResolved definition = .ok true := by
  obtain ⟨resolved, hresolved, h⟩ := bind_ok.mp h
  cases resolved with
  | true => exact hresolved
  | false => cases h

theorem scheduleClaimDue_arranges {id runtime issuer : String} {drawn : Drawn}
    {now commit : Nat} {trigger : Option Trigger} (hfresh : s.FreshRequest drawn.request)
    (h : s.scheduleClaimDue id runtime issuer drawn now commit = .ok (t, trigger)) : s.Arranges t := by
  simp only [scheduleClaimDue, bind_ok] at h
  obtain ⟨_, -, sch, hread, h⟩ := h
  by_cases hwaiting : sch.state ≠ .waiting
  · rw [if_pos hwaiting, pure_ok] at h
    cases h
    exact .keeps rfl
  rw [if_neg hwaiting] at h
  simp only [bind_ok] at h
  obtain ⟨current, -, h⟩ := h
  cases hrefused : claimRefused sch current (sch.nextDueMs.getD 0) now with
  | some reason =>
    simp only [hrefused, bind_ok, pure_ok] at h
    obtain ⟨next, hnext, ⟨u, r⟩, hsave, h⟩ := h
    cases h
    obtain ⟨hgoes, hsame, hended⟩ := Schedule.interrupted_continues hnext
    exact .save hread hsave hgoes (.inl hsame) (.ended hended)
  | none =>
    simp only [hrefused] at h
    split_ifs at h with hdue
    · rw [pure_ok] at h
      cases h
      exact .keeps rfl
    · simp only [bind_ok] at h
      obtain ⟨a, -, ⟨resolved, available⟩, hadmission, _, hyes, ⟨duration, _⟩, -, h⟩ := h
      split_ifs at h with hspent
      · simp only [bind_ok, pure_ok, Schedule.advance_ok] at h
        obtain ⟨next, ⟨-, rfl⟩, ⟨u, r⟩, hsave, h⟩ := h
        cases h
        exact .save hread hsave (.of_inactive ⟨rfl, Nat.le_refl _⟩ rfl rfl rfl rfl) (.inl rfl)
          (.ended rfl)
      · simp only [bind_ok, pure_ok] at h
        obtain ⟨⟨u, claim⟩, hclaim, h⟩ := h
        cases h
        obtain rfl : resolved = true := ensure_ok.mp hyes
        exact commitClaim_arranges hread (not_not.mp hwaiting) hfresh (admissionState_resolved hadmission)
          hclaim

/-! ## Arming -/

theorem saveSchedule_adds {sch r : Schedule} (h : s.saveSchedule sch true = .ok (t, r)) :
    ∃ row, row.record = sch.sealed ∧ s.checkSchedule row = .ok () ∧
      Table.find (fun e => e.record.id) row.record.id s.schedules = none ∧
      t = { s with schedules := s.schedules ++ [row] } := by
  have hchecked := saveSchedule_checks h
  obtain ⟨rfl, -, hfind, ht, hrows⟩ := saveSchedule_ok h
  rw [if_pos rfl] at hrows
  refine ⟨_, rfl, hchecked, hfind rfl, ?_⟩
  rw [← hrows]
  exact ht

theorem scheduleArm_arranges {c : Arm} {runtime issuer : String} {now commit : Nat}
    {r : Schedule × Bool} (h : s.scheduleArm c runtime issuer now commit = .ok (t, r)) :
    s.Arranges t := by
  simp only [scheduleArm, bind_ok] at h
  obtain ⟨_, -, _, -, _, -, _, -, _, -, found, -, h⟩ := h
  cases found with
  | some sch =>
    simp only [bind_ok, pure_ok, Prod.mk.injEq] at h
    obtain ⟨_, -, rfl, -⟩ := h
    exact .keeps rfl
  | none =>
    simp only [bind_ok, context_ok] at h
    obtain ⟨_, -, a, rfl, d, -, _, -, current, -, ⟨duration, _⟩, -, _, -, _, -, _, hbail,
      resolved, -, _, -, available, -, _, -, ⟨u, saved⟩, hsave, _, -, _, -, h⟩ := h
    rw [pure_ok] at h
    cases h
    obtain ⟨row, hrow, hchecked, hfresh, ht⟩ := saveSchedule_adds hsave
    have hunclaimed : row.record.Unclaimed := by
      rw [hrow]
      exact ⟨rfl, rfl, rfl, rfl⟩
    have hquiet : ∀ e ∈ s.schedules, e.record.definitionId = row.record.definitionId →
        (e.record.state.active || !s.claimsResolved e.record.id) = false := by
      intro e he hdefinition
      rw [bailIf_ok] at hbail
      rw [hrow] at hdefinition
      refine Bool.eq_false_iff.mpr fun hbusy => hbail (List.any_eq_true.mpr ⟨e, he, ?_⟩)
      rw [hbusy, Bool.and_true]
      exact beq_iff_eq.mpr hdefinition
    refine .arms hunclaimed hchecked hfresh (fun e he hdefinition => ?_) (fun e he hdefinition => ?_) ht
    · exact (Bool.or_eq_false_iff.mp (hquiet e he hdefinition)).1
    · exact Bool.not_eq_eq_eq_not.mp (Bool.or_eq_false_iff.mp (hquiet e he hdefinition)).2

/-! ## Opening -/

/-- A write that ends a schedule. -/
structure Interrupts (s t : Store) : Prop where
  arranges : s.Arranges t
  triggers : t.triggers = s.triggers
  ends : ∃ old row, s.Replaces t old row ∧ old.record.Kept row.record ∧ row.record.state.active = false

/-- The start writes one schedule after the other. -/
theorem interruptAll_interrupts {clock : Nat → Nat} {rest : List Schedule} : ∀ {s t : Store} {i : Nat},
    s.Intact → (∀ sch ∈ rest, ∃ row ∈ s.schedules, row.record = sch) →
    (rest.map Schedule.id).Nodup → s.interruptAll clock i rest = .ok t → Run Interrupts s t := by
  induction rest with
  | nil =>
    intro s t i hs _ _ h
    cases h
    exact .refl
  | cons sch rest ih =>
    intro s t i hs hrows hids h
    rw [List.map_cons, List.nodup_cons] at hids
    rw [interruptAll] at h
    by_cases hactive : sch.state.active = true
    · rw [if_pos hactive] at h
      simp only [bind_ok] at h
      obtain ⟨next, hnext, ⟨u, r⟩, hsave, h⟩ := h
      obtain ⟨row, hrow, rfl⟩ := hrows sch (List.mem_cons_self ..)
      obtain ⟨hgoes, hsame, hended⟩ := Schedule.interrupted_continues hnext
      have hid : next.id = row.record.id := by rw [hgoes.kept.same]
      have hread : s.scheduleOf row.record.id "" = .ok row.record :=
        scheduleOf_iff.mpr ⟨row, Table.find_of_mem hs.schedules hrow, hs.history.schedules row hrow, rfl⟩
      have hstep : s.Interrupts u := by
        obtain ⟨htriggers, old, row', hreplaces, hold, hrow'⟩ := saveSchedule_replaces hread hsave hid
        refine ⟨.save hread hsave hgoes (.inl hsame) (.ended hended), htriggers, old, row', hreplaces, ?_,
          ?_⟩
        · rw [hold, hrow']
          exact hgoes.kept.sealed
        · rw [hrow']
          exact hended
      refine .head hstep (ih (hstep.arranges.intact hs) (fun q hq => ?_) hids.2 h)
      -- the rows of the others are as they were
      obtain ⟨rfl, -, -, -, hrows'⟩ := saveSchedule_ok hsave
      obtain ⟨e, he, rfl⟩ := hrows q (List.mem_cons_of_mem _ hq)
      refine ⟨e, ?_, rfl⟩
      rw [hrows', if_neg Bool.false_ne_true, Table.mem_update]
      refine ⟨e, he, (if_neg ?_).symm⟩
      rw [beq_iff_eq, hid]
      intro heq
      exact hids.1 (heq ▸ List.mem_map_of_mem hq)
    · rw [if_neg hactive] at h
      exact ih hs (fun q hq => hrows q (List.mem_cons_of_mem _ hq)) hids.2 h

theorem interruptOnOpen_interrupts (hs : s.Intact) {clock : Nat → Nat}
    (h : s.interruptOnOpen clock = .ok t) : Run Interrupts s t := by
  simp only [interruptOnOpen, bind_ok, pure_ok] at h
  obtain ⟨_, -, u, hall, _, -, rfl⟩ := h
  refine interruptAll_interrupts hs (fun sch hsch => List.mem_map.mp hsch) ?_ hall
  rw [List.map_map]
  exact hs.schedules

theorem Interrupts.run (h : Run Interrupts s t) : Run Arranges s t :=
  Relation.ReflTransGen.mono (fun _ _ h => Interrupts.arranges h) s t h

theorem interruptOnOpen_arranges (hs : s.Intact) {clock : Nat → Nat}
    (h : s.interruptOnOpen clock = .ok t) : Run Arranges s t :=
  Interrupts.run (interruptOnOpen_interrupts hs h)

end Store

end

end Eef.Coordinator
