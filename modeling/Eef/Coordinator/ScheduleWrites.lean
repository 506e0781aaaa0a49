import Eef.Lib.Run
import Eef.Coordinator.Commands

/-!
# What the journal does to its schedules

Every writer of `automation_schedules.rs` ends in `saveSchedule`, so what it does to the table is
said once: a schedule goes on (`Schedule.Follows`), or a new one is armed. `Puts` is the change of
one write, and each command has one lemma for it. A schedule that has ended never waits or claims
again, and its row is as long as the others, record and reserve together.
-/

namespace Eef.Coordinator

open Eef.Lib Eef.Node

/-- The numbers of a schedule that no reader bounds are those of their Rust type. -/
structure Schedule.Typed (s : Schedule) : Prop where
  generation : s.generation ≤ u64Max
  launch : ∀ at' ∈ s.launchStartedAtMs, at' ≤ u64Max
  refusal : ∀ r ∈ s.refusal, r.observedAtMs ≤ u64Max

/-- How a schedule goes on in one write. -/
structure Schedule.Follows (s s' : Schedule) : Prop where
  id : s'.id = s.id
  ended : s.state.active = false → s'.state.active = false
  typed : s.Typed → s'.Typed

section
variable [F64]

/-- The record and the reserve of a row take what every schedule is charged. -/
def ScheduleRow.Full (row : ScheduleRow) : Prop :=
  row.record.toJson.size ≤ scheduleCost ∧ row.reserved = scheduleCost - row.record.toJson.size

variable [PeerAdmission] [Sha256] [Planner] [Pairing] [ScopeCompiler]

omit [F64] [PeerAdmission] [Planner] [Pairing] [ScopeCompiler] in
/-- The seal of a record is not part of how it goes on. -/
theorem Schedule.Follows.sealed {s s' : Schedule} [F64] (h : s.Follows s') : s.Follows s'.sealed :=
  ⟨h.id, h.ended, fun ht => ⟨(h.typed ht).generation, (h.typed ht).launch, (h.typed ht).refusal⟩⟩

namespace Store

/-- What one write does to the table of schedules. -/
inductive Puts (s t : Store) : Prop where
  | same (hpolicies : t.authorizations = s.authorizations) (h : t.schedules = s.schedules)
  | update (old row : ScheduleRow) (hold : old ∈ s.schedules) (hfollows : old.record.Follows row.record)
      (hfull : row.Full) (hpolicies : t.authorizations = s.authorizations)
      (h : t.schedules =
        Table.update (fun e => e.record.id == row.record.id) (fun _ => row) s.schedules)
  | insert (row : ScheduleRow) (policy : PolicyRow)
      (hfresh : Table.find (fun e => e.record.id) row.record.id s.schedules = none)
      (hpolicy : policy ∈ s.authorizations) (hgeneration : row.record.generation = policy.record.generation)
      (hlaunch : row.record.launchStartedAtMs = none) (hrefusal : row.record.refusal = none)
      (hfull : row.Full) (hpolicies : t.authorizations = s.authorizations)
      (h : t.schedules = s.schedules ++ [row])

/-- What `save_schedule` writes. -/
theorem saveSchedule_ok {s t : Store} {sch r : Schedule} {new : Bool}
    (h : s.saveSchedule sch new = .ok (t, r)) : r = sch.sealed ∧
    (ScheduleRow.mk r (scheduleCost - r.toJson.size)).Full ∧
    (new = true → Table.find (fun e => e.record.id) sch.id s.schedules = none) ∧
    t = { s with schedules := t.schedules } ∧
    t.schedules = if new then s.schedules ++ [⟨r, scheduleCost - r.toJson.size⟩]
      else Table.update (fun e => e.record.id == sch.id)
        (fun _ => ⟨r, scheduleCost - r.toJson.size⟩) s.schedules := by
  unfold saveSchedule at h
  simp only [bind_ok] at h
  obtain ⟨p, -, d, -, _, hvalid, _, -, h⟩ := h
  have hsize : sch.sealed.toJson.size ≤ scheduleCost := by
    simp only [Schedule.validateData, bind_ok, ensure_ok] at hvalid
    obtain ⟨_, -, _, hbounded, -⟩ := hvalid
    simp only [Schedule.bounded] at hbounded
    exact hbounded.2.2.2.2.2.2.2.2.2.2.2.2.2.2.2.2.2.2.2
  cases new with
  | true =>
    simp only [if_true, bind_ok, ensure_ok, pure_ok, Prod.mk.injEq] at h
    obtain ⟨_, hfind, rfl, rfl⟩ := h
    exact ⟨rfl, ⟨hsize, rfl⟩, fun _ => hfind, rfl, rfl⟩
  | false =>
    simp only [Bool.false_eq_true, if_false, pure_ok, Prod.mk.injEq] at h
    obtain ⟨rfl, rfl⟩ := h
    exact ⟨rfl, ⟨hsize, rfl⟩, fun hnew => absurd hnew Bool.false_ne_true, rfl, rfl⟩

/-- A schedule is read from its row. -/
theorem readSchedule_ok {s : Store} {id : String} {sch : Schedule}
    (h : s.readSchedule id = .ok (some sch)) :
    ∃ row ∈ s.schedules, row.record = sch ∧ sch.id = id ∧ s.checkSchedule row = .ok () := by
  unfold readSchedule at h
  cases hfind : Table.find (fun row => row.record.id) id s.schedules with
  | none =>
    rw [hfind] at h
    cases h
  | some row =>
    simp only [hfind, bind_ok, pure_ok, Option.some.injEq] at h
    obtain ⟨_, hcheck, rfl⟩ := h
    obtain ⟨hrow, hid⟩ := Table.find_some hfind
    exact ⟨row, hrow, rfl, hid, hcheck⟩

theorem scheduleOf_ok {s : Store} {id msg : String} {sch : Schedule}
    (h : s.scheduleOf id msg = .ok sch) :
    ∃ row ∈ s.schedules, row.record = sch ∧ sch.id = id ∧ s.checkSchedule row = .ok () := by
  simp only [scheduleOf, bind_ok, context_ok] at h
  obtain ⟨found, hread, rfl⟩ := h
  exact readSchedule_ok hread

/-- A schedule that was read goes on. -/
theorem puts_save {s t : Store} {id msg : String} {sch next r : Schedule}
    (hread : s.scheduleOf id msg = .ok sch) (hsave : s.saveSchedule next false = .ok (t, r))
    (hfollows : sch.Follows next) : s.Puts t := by
  obtain ⟨row, hrow, rfl, -, -⟩ := scheduleOf_ok hread
  obtain ⟨rfl, hfull, -, ht, hrows⟩ := saveSchedule_ok hsave
  exact .update row _ hrow hfollows.sealed hfull (by rw [ht]) hrows

theorem readPolicy_ok {s : Store} {id : String} {a : Authorization}
    (h : s.readPolicy id = .ok (some a)) : ∃ row ∈ s.authorizations, row.record = a := by
  unfold readPolicy at h
  cases hfind : Table.find (fun row => row.record.id) id s.authorizations with
  | none =>
    rw [hfind] at h
    cases h
  | some row =>
    simp only [hfind, bind_ok, pure_ok, Option.some.injEq] at h
    obtain ⟨_, -, rfl⟩ := h
    exact ⟨row, (Table.find_some hfind).1, rfl⟩

/-! ## The commands -/

theorem scheduleArm_puts {s t : Store} {c : Arm} {runtime issuer : String} {now commit : Nat}
    {r : Schedule × Bool} (h : s.scheduleArm c runtime issuer now commit = .ok (t, r)) :
    s.Puts t := by
  simp only [scheduleArm, bind_ok] at h
  obtain ⟨_, -, _, -, _, -, _, -, _, -, found, -, h⟩ := h
  cases found with
  | some sch =>
    simp only [bind_ok, pure_ok, Prod.mk.injEq] at h
    obtain ⟨_, -, rfl, -⟩ := h
    exact .same rfl rfl
  | none =>
    simp only [bind_ok, context_ok] at h
    obtain ⟨_, hpolicy, a, rfl, d, -, _, -, current, -, ⟨duration, _⟩, -, _, -, _, -, _, -,
      resolved, -, _, -, available, -, _, -, ⟨u, saved⟩, hsave, _, -, _, -, h⟩ := h
    rw [pure_ok] at h
    cases h
    obtain ⟨rfl, hfull, hfind, ht, hrows⟩ := saveSchedule_ok hsave
    obtain ⟨row, hrow, hrecord⟩ := readPolicy_ok hpolicy
    exact .insert _ row (hfind rfl) hrow (by rw [hrecord]; rfl) rfl rfl hfull (by rw [ht]) hrows

end Store

omit [F64] [PeerAdmission] [Sha256] [Planner] [Pairing] [ScopeCompiler] in
/-- A revision further, at the clock that was read. -/
theorem Schedule.advance_ok {s s' : Schedule} {now : Nat} : s.advance now = .ok s' ↔
    s.revision < u64Max ∧ { s with revision := s.revision + 1, observedAtMs := now } = s' := by
  simp only [Schedule.advance, bind_ok, ensure_ok, pure_ok, exists_const]

omit [F64] [PeerAdmission] [Sha256] [Planner] [Pairing] [ScopeCompiler] in
theorem Schedule.interrupted_ok {s s' : Schedule} {reason : String} {now : Nat} :
    s.interrupted reason now = .ok s' ↔ s.revision < u64Max ∧
      { s with
        revision := s.revision + 1
        observedAtMs := now
        state := .interrupted
        reason := some reason
        nextDueMs := none } = s' := by
  simp only [Schedule.interrupted, bind_ok, advance_ok, pure_ok]
  constructor
  · rintro ⟨_, ⟨h, rfl⟩, h'⟩
    exact ⟨h, h'⟩
  · rintro ⟨h, h'⟩
    exact ⟨_, ⟨h, rfl⟩, h'⟩

omit [F64] [PeerAdmission] [Sha256] [Planner] [Pairing] [ScopeCompiler] in
theorem Schedule.interrupted_follows {s s' : Schedule} {reason : String} {now : Nat}
    (h : s.interrupted reason now = .ok s') : s.Follows s' := by
  obtain ⟨-, rfl⟩ := interrupted_ok.1 h
  exact ⟨rfl, fun _ => rfl, fun ht => ⟨ht.generation, ht.launch, ht.refusal⟩⟩

namespace Store

omit [PeerAdmission] [Sha256] [Planner] [Pairing] [ScopeCompiler] in
theorem insertTrigger_schedules {s t : Store} {trigger : Trigger}
    (h : s.insertTrigger trigger = .ok t) : t = { s with triggers := s.triggers ++ [trigger] } := by
  simp only [insertTrigger, bind_ok, pure_ok] at h
  obtain ⟨_, -, _, -, rfl⟩ := h
  rfl

theorem scheduleClaimDue_puts {s t : Store} {id runtime issuer : String} {drawn : Drawn}
    {now commit : Nat} {trigger : Option Trigger}
    (h : s.scheduleClaimDue id runtime issuer drawn now commit = .ok (t, trigger)) : s.Puts t := by
  simp only [scheduleClaimDue, bind_ok] at h
  obtain ⟨_, -, sch, hread, h⟩ := h
  by_cases hwaiting : sch.state ≠ .waiting
  · rw [if_pos hwaiting, pure_ok] at h
    cases h
    exact .same rfl rfl
  rw [if_neg hwaiting] at h
  rw [not_not] at hwaiting
  simp only [bind_ok] at h
  obtain ⟨current, -, h⟩ := h
  cases hrefused : claimRefused sch current (sch.nextDueMs.getD 0) now with
  | some reason =>
    simp only [hrefused, bind_ok, pure_ok] at h
    obtain ⟨next, hnext, ⟨u, r⟩, hsave, h⟩ := h
    cases h
    exact puts_save hread hsave (Schedule.interrupted_follows hnext)
  | none =>
    simp only [hrefused] at h
    split_ifs at h with hdue
    · rw [pure_ok] at h
      cases h
      exact .same rfl rfl
    · simp only [bind_ok] at h
      obtain ⟨a, -, ⟨resolved, available⟩, -, _, -, ⟨duration, _⟩, -, h⟩ := h
      split_ifs at h with hspent
      · simp only [bind_ok, pure_ok, Schedule.advance_ok] at h
        obtain ⟨next, ⟨-, rfl⟩, ⟨u, r⟩, hsave, h⟩ := h
        cases h
        refine puts_save hread hsave ⟨rfl, fun _ => rfl, fun ht => ?_⟩
        exact ⟨ht.generation, ht.launch, ht.refusal⟩
      · simp only [bind_ok, pure_ok] at h
        obtain ⟨⟨u, claim⟩, hclaim, h⟩ := h
        cases h
        simp only [commitClaim, bind_ok, pure_ok, Schedule.advance_ok] at hclaim
        obtain ⟨next, ⟨-, rfl⟩, ⟨u, r⟩, hsave, v, hinsert, _, -, _, -, hclaim⟩ := hclaim
        cases hclaim
        have hputs : s.Puts u := by
          refine puts_save hread hsave ⟨rfl, fun hended => ?_, fun ht => ?_⟩
          · rw [hwaiting] at hended
            cases hended
          · exact ⟨ht.generation, fun _ hn => absurd hn (Option.not_mem_none _), ht.refusal⟩
        rw [insertTrigger_schedules hinsert]
        cases hputs with
        | same hpolicies h => exact .same hpolicies h
        | update old row hold hfollows hfull hpolicies h =>
          exact .update old row hold hfollows hfull hpolicies h
        | insert row policy hfresh hpolicy hgeneration hlaunch hrefusal hfull hpolicies h =>
          exact .insert row policy hfresh hpolicy hgeneration hlaunch hrefusal hfull hpolicies h

theorem scheduleStop_puts {s t : Store} {id operation : String} {revision now : Nat}
    {r : Schedule × Bool} (h : s.scheduleStop id revision operation now = .ok (t, r)) :
    s.Puts t := by
  simp only [scheduleStop, bind_ok] at h
  obtain ⟨_, -, _, -, sch, hread, h⟩ := h
  cases hstop : sch.stop with
  | some old =>
    simp only [hstop, bind_ok, pure_ok] at h
    obtain ⟨_, -, h⟩ := h
    cases h
    exact .same rfl rfl
  | none =>
    simp only [hstop, bind_ok, pure_ok, Schedule.advance_ok] at h
    obtain ⟨_, -, _, -, next, ⟨-, rfl⟩, ⟨u, saved⟩, hsave, h⟩ := h
    cases h
    exact puts_save hread hsave
      ⟨rfl, fun _ => rfl, fun ht => ⟨ht.generation, ht.launch, ht.refusal⟩⟩

omit [F64] [PeerAdmission] [Sha256] [Planner] [Pairing] [ScopeCompiler] in
theorem settled_follows {sch : Schedule} (hstate : sch.state = .inFlight) (a : Authorization)
    (available : Bool) (duration next revision now : Nat) :
    sch.Follows (settled { sch with revision, observedAtMs := now } a available duration next) := by
  unfold settled
  split_ifs
  · exact ⟨rfl, fun _ => rfl,
      fun ht => ⟨ht.generation, fun _ hn => absurd hn (Option.not_mem_none _), ht.refusal⟩⟩
  · refine ⟨rfl, fun hended => ?_,
      fun ht => ⟨ht.generation, fun _ hn => absurd hn (Option.not_mem_none _), ht.refusal⟩⟩
    rw [hstate] at hended
    cases hended

theorem scheduleSettle_puts {s t : Store} {id runtime issuer : String} {now : Nat} {r : Schedule}
    (h : s.scheduleSettle id runtime issuer now = .ok (t, r)) : s.Puts t := by
  simp only [scheduleSettle, bind_ok] at h
  obtain ⟨_, -, sch, hread, _, hstate, trigger, -, resolved, -, _, -, h⟩ := h
  rw [ensure_ok] at hstate
  split_ifs at h with hclock
  · simp only [bind_ok] at h
    obtain ⟨next, hnext, hsave⟩ := h
    exact puts_save hread hsave (Schedule.interrupted_follows hnext)
  · simp only [bind_ok] at h
    obtain ⟨current, -, h⟩ := h
    split_ifs at h with hcurrent
    · simp only [bind_ok] at h
      obtain ⟨next, hnext, hsave⟩ := h
      exact puts_save hread hsave (Schedule.interrupted_follows hnext)
    · simp only [bind_ok, Schedule.advance_ok] at h
      obtain ⟨a, -, _, -, next, ⟨-, rfl⟩, available, -, ⟨duration, _⟩, -, hsave⟩ := h
      exact puts_save hread hsave (settled_follows hstate a available duration _ _ now)

theorem triggerBeginLaunch_puts {s t : Store} {id runtime : String} {now commit : Nat} {b : Bool}
    (hnow : now ≤ u64Max) (h : s.triggerBeginLaunch id runtime now commit = .ok (t, b)) :
    s.Puts t := by
  simp only [triggerBeginLaunch, bind_ok] at h
  obtain ⟨_, -, trigger, -, sch, hread, _, hown, h⟩ := h
  rw [ensure_ok] at hown
  split_ifs at h with hstarted
  · rw [pure_ok] at h
    cases h
    exact .same rfl rfl
  · simp only [bind_ok, Schedule.advance_ok, pure_ok] at h
    obtain ⟨source, -, _, -, current, -, _, -, next, ⟨-, rfl⟩, ⟨u, saved⟩, hsave, _, -, _, -, h⟩ := h
    cases h
    refine puts_save hread hsave
      ⟨rfl, fun hended => hended, fun ht => ⟨ht.generation, ?_, ht.refusal⟩⟩
    intro at' hat
    cases hat
    exact hnow

theorem triggerRecordRefusal_puts {s t : Store} {id runtime : String} {now : Nat} {b : Bool}
    (hnow : now ≤ u64Max) (h : s.triggerRecordRefusal id runtime now = .ok (t, b)) : s.Puts t := by
  simp only [triggerRecordRefusal, bind_ok] at h
  obtain ⟨_, -, trigger, -, sch, hread, h⟩ := h
  split_ifs at h with hrefusal hother
  · rw [pure_ok] at h
    cases h
    exact .same rfl rfl
  · rw [pure_ok] at h
    cases h
    exact .same rfl rfl
  · simp only [bind_ok] at h
    obtain ⟨source, -, h⟩ := h
    split_ifs at h with hsource
    · rw [pure_ok] at h
      cases h
      exact .same rfl rfl
    · simp only [bind_ok, Schedule.interrupted_ok, pure_ok] at h
      obtain ⟨next, ⟨-, rfl⟩, ⟨u, saved⟩, hsave, _, -, h⟩ := h
      cases h
      refine puts_save hread hsave
        ⟨rfl, fun _ => rfl, fun ht => ⟨ht.generation, ht.launch, ?_⟩⟩
      intro r hr
      cases hr
      exact hnow

theorem resolveTriggerRefusal_puts {s t : Store} {id trigger hash operation : String}
    {revision now : Nat} {r : Schedule × Bool}
    (h : s.resolveTriggerRefusal id revision trigger hash operation now = .ok (t, r)) :
    s.Puts t := by
  simp only [resolveTriggerRefusal, bind_ok] at h
  obtain ⟨_, -, _, -, _, -, sch, hread, h⟩ := h
  cases hresolution : sch.refusalResolution with
  | some old =>
    simp only [hresolution, bind_ok, pure_ok] at h
    obtain ⟨_, -, h⟩ := h
    cases h
    exact .same rfl rfl
  | none =>
    simp only [hresolution, bind_ok, pure_ok, Schedule.advance_ok] at h
    obtain ⟨refusal, -, _, -, next, ⟨-, rfl⟩, ⟨u, saved⟩, hsave, _, -, h⟩ := h
    cases h
    exact puts_save hread hsave
      ⟨rfl, fun _ => rfl, fun ht => ⟨ht.generation, ht.launch, ht.refusal⟩⟩

theorem scheduleInterruptNow_puts {s t : Store} {id reason : String} {now : Nat} {r : Schedule}
    (h : s.scheduleInterruptNow id reason now = .ok (t, r)) : s.Puts t := by
  simp only [scheduleInterruptNow, bind_ok] at h
  obtain ⟨_, -, sch, hread, h⟩ := h
  split_ifs at h with hactive
  · simp only [bind_ok] at h
    obtain ⟨next, hnext, hsave⟩ := h
    exact puts_save hread hsave (Schedule.interrupted_follows hnext)
  · rw [pure_ok] at h
    cases h
    exact .same rfl rfl

theorem triggerInterruptNow_puts {s t : Store} {id reason : String} {now : Nat} {r : Schedule}
    (h : s.triggerInterruptNow id reason now = .ok (t, r)) : s.Puts t := by
  simp only [triggerInterruptNow, bind_ok] at h
  obtain ⟨_, -, trigger, -, sch, hread, h⟩ := h
  split_ifs at h with howns
  · simp only [bind_ok] at h
    obtain ⟨next, hnext, hsave⟩ := h
    exact puts_save hread hsave (Schedule.interrupted_follows hnext)
  · rw [pure_ok] at h
    cases h
    exact .same rfl rfl

/-! ## The table over a run -/

/-- What every reachable table of schedules is. -/
structure Scheduled (s : Store) : Prop where
  keyed : Table.Keyed (fun e => e.record.id) s.schedules
  full : ∀ row ∈ s.schedules, row.Full
  typed : ∀ row ∈ s.schedules, row.record.Typed
  policies : ∀ row ∈ s.authorizations, row.record.generation ≤ u64Max

omit [PeerAdmission] [Sha256] [Planner] [Pairing] [ScopeCompiler] in
/-- One write keeps the table. -/
theorem Puts.scheduled {s t : Store} (h : s.Puts t) (hs : s.Scheduled) : t.Scheduled := by
  cases h with
  | same hpolicies h =>
    exact ⟨h ▸ hs.keyed, h ▸ hs.full, h ▸ hs.typed, hpolicies ▸ hs.policies⟩
  | update old row hold hfollows hfull hpolicies h =>
    have hrow : ∀ e ∈ t.schedules, e = row ∨ e ∈ s.schedules := by
      intro e he
      rw [h, Table.mem_update] at he
      obtain ⟨r, hr, rfl⟩ := he
      split
      · exact Or.inl rfl
      · exact Or.inr hr
    refine ⟨?_, fun e he => ?_, fun e he => ?_, hpolicies ▸ hs.policies⟩
    · have hkeys : t.schedules.map (fun e => e.record.id) = s.schedules.map (fun e => e.record.id) := by
        rw [h, Table.update, List.map_map]
        refine List.map_congr_left fun e _ => ?_
        simp only [Function.comp]
        split
        · next hid => exact (beq_iff_eq.mp hid).symm
        · rfl
      unfold Table.Keyed
      rw [hkeys]
      exact hs.keyed
    · rcases hrow e he with rfl | he
      · exact hfull
      · exact hs.full e he
    · rcases hrow e he with rfl | he
      · exact hfollows.typed (hs.typed old hold)
      · exact hs.typed e he
  | insert row policy hfresh hpolicy hgeneration hlaunch hrefusal hfull hpolicies h =>
    have hrow : ∀ e ∈ t.schedules, e = row ∨ e ∈ s.schedules := by
      intro e he
      rw [h, List.mem_append, List.mem_singleton] at he
      exact he.symm
    refine ⟨?_, fun e he => ?_, fun e he => ?_, hpolicies ▸ hs.policies⟩
    · rw [h]
      exact hs.keyed.insert hfresh
    · rcases hrow e he with rfl | he
      · exact hfull
      · exact hs.full e he
    · rcases hrow e he with rfl | he
      · refine ⟨hgeneration ▸ hs.policies policy hpolicy, ?_, ?_⟩
        · rw [hlaunch]
          exact fun _ hn => absurd hn (Option.not_mem_none _)
        · rw [hrefusal]
          exact fun _ hn => absurd hn (Option.not_mem_none _)
      · exact hs.typed e he

/-- The schedules that were active when the journal was opened are interrupted one by one. -/
theorem interruptAll_puts {clock : Nat → Nat} {rest : List Schedule} : ∀ {s t : Store} {i : Nat},
    s.Scheduled → (∀ sch ∈ rest, ∃ row ∈ s.schedules, row.record = sch) →
    (rest.map Schedule.id).Nodup → s.interruptAll clock i rest = .ok t →
    t.Scheduled ∧ Relation.ReflTransGen Puts s t ∧
      t = { s with schedules := t.schedules } := by
  induction rest with
  | nil =>
    intro s t i hs _ _ h
    cases h
    exact ⟨hs, .refl, rfl⟩
  | cons sch rest ih =>
    intro s t i hs hrows hids h
    rw [List.map_cons, List.nodup_cons] at hids
    rw [interruptAll] at h
    by_cases hactive : sch.state.active = true
    · rw [if_pos hactive] at h
      simp only [bind_ok] at h
      obtain ⟨next, hnext, ⟨u, r⟩, hsave, h⟩ := h
      obtain ⟨row, hrow, rfl⟩ := hrows sch (List.mem_cons_self ..)
      have hfollows := Schedule.interrupted_follows hnext
      obtain ⟨rfl, hfull, -, hu, hrows'⟩ := saveSchedule_ok hsave
      have hputs : s.Puts u := .update row _ hrow hfollows.sealed hfull (by rw [hu]) hrows'
      have hrest : ∀ q ∈ rest, ∃ e ∈ u.schedules, e.record = q := by
        intro q hq
        obtain ⟨e, he, rfl⟩ := hrows q (List.mem_cons_of_mem _ hq)
        refine ⟨e, ?_, rfl⟩
        rw [hrows', if_neg Bool.false_ne_true, Table.mem_update]
        refine ⟨e, he, (if_neg ?_).symm⟩
        rw [beq_iff_eq, hfollows.id]
        intro heq
        exact hids.1 (heq ▸ List.mem_map_of_mem hq)
      obtain ⟨ht, hrun, hsame⟩ := ih (hputs.scheduled hs) hrest hids.2 h
      exact ⟨ht, .head hputs hrun, by rw [hsame, hu]⟩
    · rw [if_neg hactive] at h
      exact ih hs (fun q hq => hrows q (List.mem_cons_of_mem _ hq)) hids.2 h

theorem interruptOnOpen_puts {s t : Store} {clock : Nat → Nat} (hs : s.Scheduled)
    (h : s.interruptOnOpen clock = .ok t) :
    t.Scheduled ∧ Relation.ReflTransGen Puts s t := by
  simp only [interruptOnOpen, bind_ok, pure_ok] at h
  obtain ⟨_, -, u, hall, _, -, rfl⟩ := h
  have hrows : ∀ sch ∈ s.schedules.map (·.record), ∃ row ∈ s.schedules, row.record = sch :=
    fun sch hsch => List.mem_map.mp hsch
  have hids : ((s.schedules.map (·.record)).map Schedule.id).Nodup := by
    rw [List.map_map]
    exact hs.keyed
  obtain ⟨hscheduled, hrun, -⟩ := interruptAll_puts hs hrows hids hall
  exact ⟨hscheduled, hrun⟩

/-- A step of the journal: a command on schedules, or anything else that leaves them alone. The
clock and the numbers of a policy are 64 bits wide. -/
inductive Step : Store → Store → Prop where
  | arm {s t : Store} {r : Schedule × Bool} (c : Arm) (runtime issuer : String) (now commit : Nat)
      (h : s.scheduleArm c runtime issuer now commit = .ok (t, r)) : Step s t
  | claim {s t : Store} {r : Option Trigger} (id runtime issuer : String) (drawn : Drawn)
      (now commit : Nat) (h : s.scheduleClaimDue id runtime issuer drawn now commit = .ok (t, r)) :
      Step s t
  | stop {s t : Store} {r : Schedule × Bool} (id operation : String) (revision now : Nat)
      (h : s.scheduleStop id revision operation now = .ok (t, r)) : Step s t
  | settle {s t : Store} {r : Schedule} (id runtime issuer : String) (now : Nat)
      (h : s.scheduleSettle id runtime issuer now = .ok (t, r)) : Step s t
  | beginLaunch {s t : Store} {r : Bool} (id runtime : String) (now commit : Nat)
      (hnow : now ≤ u64Max) (h : s.triggerBeginLaunch id runtime now commit = .ok (t, r)) : Step s t
  | recordRefusal {s t : Store} {r : Bool} (id runtime : String) (now : Nat) (hnow : now ≤ u64Max)
      (h : s.triggerRecordRefusal id runtime now = .ok (t, r)) : Step s t
  | resolveRefusal {s t : Store} {r : Schedule × Bool} (id trigger hash operation : String)
      (revision now : Nat)
      (h : s.resolveTriggerRefusal id revision trigger hash operation now = .ok (t, r)) : Step s t
  | interrupt {s t : Store} {r : Schedule} (id reason : String) (now : Nat)
      (h : s.scheduleInterruptNow id reason now = .ok (t, r)) : Step s t
  | interruptTrigger {s t : Store} {r : Schedule} (id reason : String) (now : Nat)
      (h : s.triggerInterruptNow id reason now = .ok (t, r)) : Step s t
  | reopen {s t : Store} (clock : Nat → Nat) (h : s.interruptOnOpen clock = .ok t) : Step s t
  | other {s t : Store} (hschedules : t.schedules = s.schedules)
      (hpolicies : ∀ row ∈ t.authorizations, row.record.generation ≤ u64Max) : Step s t

/-- Every step writes schedules one at a time, or leaves them alone. -/
theorem Step.puts {s t : Store} (h : Step s t) (hs : s.Scheduled) :
    t.Scheduled ∧ (Relation.ReflTransGen Puts s t ∨ t.schedules = s.schedules) := by
  have hone : s.Puts t → t.Scheduled ∧ (Relation.ReflTransGen Puts s t ∨ t.schedules = s.schedules) :=
    fun hputs => ⟨hputs.scheduled hs, Or.inl (.single hputs)⟩
  cases h with
  | arm c runtime issuer now commit h => exact hone (scheduleArm_puts h)
  | claim id runtime issuer drawn now commit h => exact hone (scheduleClaimDue_puts h)
  | stop id operation revision now h => exact hone (scheduleStop_puts h)
  | settle id runtime issuer now h => exact hone (scheduleSettle_puts h)
  | beginLaunch id runtime now commit hnow h => exact hone (triggerBeginLaunch_puts hnow h)
  | recordRefusal id runtime now hnow h => exact hone (triggerRecordRefusal_puts hnow h)
  | resolveRefusal id trigger hash operation revision now h =>
    exact hone (resolveTriggerRefusal_puts h)
  | interrupt id reason now h => exact hone (scheduleInterruptNow_puts h)
  | interruptTrigger id reason now h => exact hone (triggerInterruptNow_puts h)
  | reopen clock h =>
    obtain ⟨ht, hrun⟩ := interruptOnOpen_puts hs h
    exact ⟨ht, Or.inl hrun⟩
  | other hschedules hpolicies =>
    exact ⟨⟨hschedules ▸ hs.keyed, hschedules ▸ hs.full, hschedules ▸ hs.typed, hpolicies⟩,
      Or.inr hschedules⟩

omit [PeerAdmission] [Sha256] [Planner] [Pairing] [ScopeCompiler] in
theorem fresh_scheduled (maxCount maxBytes : Nat) : (fresh maxCount maxBytes).Scheduled :=
  ⟨List.nodup_nil, fun _ h => absurd h List.not_mem_nil, fun _ h => absurd h List.not_mem_nil,
    fun _ h => absurd h List.not_mem_nil⟩

/-- A journal that steps lead to from one without rows. -/
def Reachable (s : Store) : Prop := ∃ maxCount maxBytes, Run Step (fresh maxCount maxBytes) s

theorem Reachable.scheduled {s : Store} (h : s.Reachable) : s.Scheduled := by
  obtain ⟨maxCount, maxBytes, hrun⟩ := h
  exact Run.invariant (fun _ _ hs hstep => (hstep.puts hs).1) (fresh_scheduled maxCount maxBytes) hrun

/-! ## Ended schedules -/

/-- The schedule is there, and neither waits nor has a claim in flight. -/
def Ended (s : Store) (id : String) : Prop :=
  ∃ row ∈ s.schedules, row.record.id = id ∧ row.record.state.active = false

omit [PeerAdmission] [Sha256] [Planner] [Pairing] [ScopeCompiler] in
theorem Puts.ended {s t : Store} (h : s.Puts t) (hs : s.Scheduled) {id : String}
    (hended : s.Ended id) : t.Ended id := by
  obtain ⟨e, he, rfl, hstate⟩ := hended
  cases h with
  | same hpolicies h => exact ⟨e, h ▸ he, rfl, hstate⟩
  | update old row hold hfollows hfull hpolicies h =>
    by_cases hid : e.record.id = row.record.id
    · have hsame : e = old := hs.keyed.eq he hold (hid.trans hfollows.id)
      subst hsame
      refine ⟨row, ?_, hid.symm, hfollows.ended hstate⟩
      rw [h, Table.mem_update]
      exact ⟨e, he, (if_pos (beq_iff_eq.mpr hid)).symm⟩
    · refine ⟨e, ?_, rfl, hstate⟩
      rw [h, Table.mem_update]
      exact ⟨e, he, (if_neg fun heq => hid (beq_iff_eq.mp heq)).symm⟩
  | insert row policy hfresh hpolicy hgeneration hlaunch hrefusal hfull hpolicies h =>
    exact ⟨e, h ▸ List.mem_append_left _ he, rfl, hstate⟩

/-- A schedule that has ended stays so. -/
theorem Step.ended {s t : Store} (h : Step s t) (hs : s.Scheduled) {id : String}
    (hended : s.Ended id) : t.Ended id := by
  rcases (h.puts hs).2 with hrun | hsame
  · have hkept : ∀ u, Relation.ReflTransGen Puts s u → u.Scheduled ∧ u.Ended id := by
      intro u hrun
      induction hrun with
      | refl => exact ⟨hs, hended⟩
      | tail _ hputs ih => exact ⟨hputs.scheduled ih.1, hputs.ended ih.1 ih.2⟩
    exact (hkept t hrun).2
  · obtain ⟨e, he, hid, hstate⟩ := hended
    exact ⟨e, hsame ▸ he, hid, hstate⟩

end Store

end

end Eef.Coordinator
