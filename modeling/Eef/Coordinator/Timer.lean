import Eef.Coordinator.ScheduleWrites
import Mathlib.Data.Finset.Sort

/-!
# The automation timer

`automation_timer.rs`: the loop that polls the active schedules, claims what is due and launches it.
A launch runs as a task of its own in `pending`; `launching` is the loop's own record of which
schedules have one, and the limit is checked against that record. A step here is what happens
between two points where another task, the journal or the command of an owner may come in between.

The loop sees of the journal what state a schedule is in (`Journal`). Whatever else happens to the
journal keeps a schedule ended that has ended (`Journal.Moves`); `Store.states` reads this off the
tables, and the commands of `Commands.lean` do to it what the steps here say.
-/

namespace Eef.Coordinator

open Eef.Lib Eef.Node

namespace Timer

/-- The schedules of the journal, as far as the loop reads them. -/
abbrev Journal := String → Option ScheduleState

/-- `schedule_interrupt_now`, when it is carried out. -/
def Journal.interrupt (j : Journal) (id : String) : Option Journal :=
  (j id).map fun state => if state.active then Function.update j id (some .interrupted) else j

/-- `schedule_claim_due`, when it returns a trigger. -/
def Journal.claim (j : Journal) (id : String) : Option Journal :=
  if j id = some .waiting then some (Function.update j id (some .inFlight)) else none

/-- A schedule that has ended stays ended. -/
def Journal.Moves (j j' : Journal) : Prop :=
  ∀ id state, j id = some state → state.active = false → ∃ state', j' id = some state' ∧
    state'.active = false

/-- Where a launch task stands. -/
inductive LaunchPhase where
  | running
  | done
  | lost
  deriving DecidableEq, Repr

/-- A task of `pending`. -/
structure Launch where
  schedule : String
  phase : LaunchPhase
  deriving DecidableEq, Repr

/-- The arguments of `poll_schedule`. -/
structure Poll where
  id : String
  discontinuity : Bool
  mayLaunch : Bool
  launching : Bool
  deriving DecidableEq, Repr

/-- What `poll_schedule` returns. -/
inductive Answer where
  | trigger
  | nothing
  | failed
  deriving DecidableEq, Repr

/-- Where the loop stands. -/
inductive Loop where
  | asleep
  /-- Before `try_join_next`. -/
  | draining
  /-- A lost task: the schedules that remain to be interrupted. -/
  | losing (ids : List String)
  | scanning (discontinuity : Bool) (ids : List String)
  /-- The callback is queued. -/
  | polling (p : Poll) (ids : List String)
  /-- `checkpoint`, before its snapshot. -/
  | fenced (p : Poll) (ids : List String)
  /-- `checkpoint`, with its snapshot. -/
  | read (p : Poll) (ids : List String) (state : ScheduleState)
  | polled (p : Poll) (ids : List String) (answer : Answer)
  | ended
  deriving DecidableEq, Repr

/-- `TimerManager`, with the local state of its loop and the journal. -/
structure Manager where
  maxLaunches : Nat
  maxActive : Nat
  active : Finset String
  closing : Bool
  clockEpoch : Nat
  observed : Nat
  launching : Finset String
  pending : List Launch
  loop : Loop
  journal : Journal

/-- A callback that fails: its schedule is interrupted, if the journal does, and no longer active. -/
def Manager.fail (s : Manager) (p : Poll) (ids : List String) (journal : Journal) : Manager :=
  { s with journal, active := s.active.erase p.id, loop := .polled p ids .failed }

/-- Whatever is pending. -/
def always (_ : List Launch) : Prop := True

/-- A lost task is the only one there was. -/
def alone (others : List Launch) : Prop := others = []

/-- One step; `allow` says which tasks may be pending when a lost one is reported. -/
inductive Step (allow : List Launch → Prop) : Manager → Manager → Prop where
  /-- The loop wakes up after `poll`. -/
  | wake {s : Manager} (hloop : s.loop = .asleep) (hopen : s.closing = false) :
      Step allow s { s with loop := .draining }
  /-- `pending.shutdown()`. -/
  | shutdown {s : Manager} (hloop : s.loop = .asleep) (hclosing : s.closing = true) :
      Step allow s { s with loop := .ended, pending := [] }
  | join {s : Manager} {pre post : List Launch} {id : String} (hloop : s.loop = .draining)
      (hpending : s.pending = pre ++ ⟨id, .done⟩ :: post) :
      Step allow s { s with launching := s.launching.erase id, pending := pre ++ post }
  /-- The outcome of a lost task has no schedule. -/
  | lost {s : Manager} {pre post : List Launch} {id : String} (hloop : s.loop = .draining)
      (hpending : s.pending = pre ++ ⟨id, .lost⟩ :: post) (hallow : allow (pre ++ post)) :
      Step allow s { s with
        pending := pre ++ post
        loop := .losing (s.launching.sort (· ≤ ·)) }
  | interruptLost {s : Manager} {id : String} {ids : List String} {journal : Journal}
      (hloop : s.loop = .losing (id :: ids))
      (h : journal = s.journal ∨ s.journal.interrupt id = some journal) :
      Step allow s { s with journal, loop := .losing ids }
  | clear {s : Manager} (hloop : s.loop = .losing []) :
      Step allow s { s with launching := ∅, loop := .draining }
  /-- No task has finished, or none that is noticed yet. -/
  | drained {s : Manager} (hloop : s.loop = .draining) :
      Step allow s { s with
        observed := s.clockEpoch
        loop := .scanning (s.clockEpoch != s.observed) (s.active.sort (· ≤ ·)) }
  | scanned {s : Manager} {discontinuity : Bool} (hloop : s.loop = .scanning discontinuity []) :
      Step allow s { s with loop := .asleep }
  | poll {s : Manager} {discontinuity : Bool} {id : String} {ids : List String}
      (hloop : s.loop = .scanning discontinuity (id :: ids)) :
      Step allow s { s with
        loop := .polling ⟨id, discontinuity, s.launching.card < s.maxLaunches, id ∈ s.launching⟩ ids }
  /-- The node is closing, or the schedule is not active any more. -/
  | skip {s : Manager} {p : Poll} {ids : List String} (hloop : s.loop = .polling p ids)
      (h : s.closing = true ∨ p.id ∉ s.active) :
      Step allow s { s with loop := .polled p ids .nothing }
  /-- A launch is pending, and the clock went on. -/
  | yield {s : Manager} {p : Poll} {ids : List String} (hloop : s.loop = .polling p ids)
      (hclock : p.discontinuity = false) (hlaunching : p.launching = true) :
      Step allow s { s with loop := .polled p ids .nothing }
  | go {s : Manager} {p : Poll} {ids : List String} (hloop : s.loop = .polling p ids)
      (hclock : p.discontinuity = false) (hlaunching : p.launching = false) :
      Step allow s { s with loop := .fenced p ids }
  | fence {s : Manager} {p : Poll} {ids : List String} {journal : Journal}
      (hloop : s.loop = .polling p ids) (hclock : p.discontinuity = true)
      (h : s.journal.interrupt p.id = some journal) :
      Step allow s { s with journal, loop := .fenced p ids }
  | snapshot {s : Manager} {p : Poll} {ids : List String} {state : ScheduleState}
      (hloop : s.loop = .fenced p ids) (h : s.journal p.id = some state) :
      Step allow s { s with loop := .read p ids state }
  /-- `claim_schedule_due` returns a trigger. -/
  | claim {s : Manager} {p : Poll} {ids : List String} {journal : Journal}
      (hloop : s.loop = .read p ids .waiting) (hmay : p.mayLaunch = true)
      (h : s.journal.claim p.id = some journal) :
      Step allow s { s with journal, loop := .polled p ids .trigger }
  /-- The schedule is not due, or ends; a claim in flight settles, is left alone or interrupted. -/
  | pass {s : Manager} {p : Poll} {ids : List String} {state : ScheduleState} {journal : Journal}
      (hloop : s.loop = .read p ids state) (hactive : state.active = true)
      (h : s.journal.Moves journal) : Step allow s { s with journal, loop := .polled p ids .nothing }
  /-- The schedule has ended. -/
  | retire {s : Manager} {p : Poll} {ids : List String} {state : ScheduleState}
      (hloop : s.loop = .read p ids state) (hended : state.active = false) :
      Step allow s { s with active := s.active.erase p.id, loop := .polled p ids .nothing }
  /-- The worker is busy or lost. -/
  | refuse {s : Manager} {p : Poll} {ids : List String}
      (hloop : s.loop = .polling p ids ∨ s.loop = .fenced p ids ∨ ∃ state, s.loop = .read p ids state) :
      Step allow s { s with loop := .polled p ids .failed }
  /-- The journal refuses. -/
  | fail {s : Manager} {p : Poll} {ids : List String} {journal : Journal}
      (hloop : s.loop = .polling p ids ∨ s.loop = .fenced p ids ∨ ∃ state, s.loop = .read p ids state)
      (h : journal = s.journal ∨ s.journal.interrupt p.id = some journal) :
      Step allow s (s.fail p ids journal)
  | stopScan {s : Manager} {p : Poll} {ids : List String} {answer : Answer}
      (hloop : s.loop = .polled p ids answer) (hclosing : s.closing = true) :
      Step allow s { s with loop := .asleep }
  | launch {s : Manager} {p : Poll} {ids : List String} (hloop : s.loop = .polled p ids .trigger)
      (hopen : s.closing = false) (hactive : p.id ∈ s.active) :
      Step allow s { s with
        launching := insert p.id s.launching
        pending := s.pending ++ [⟨p.id, .running⟩]
        loop := .scanning p.discontinuity ids }
  | next {s : Manager} {p : Poll} {ids : List String} {answer : Answer}
      (hloop : s.loop = .polled p ids answer) (hopen : s.closing = false)
      (h : answer ≠ .failed) (hnot : answer = .trigger → p.id ∉ s.active) :
      Step allow s { s with loop := .scanning p.discontinuity ids }
  | nextFailed {s : Manager} {p : Poll} {ids : List String}
      (hloop : s.loop = .polled p ids .failed) (hopen : s.closing = false) :
      Step allow s { s with active := s.active.erase p.id, loop := .scanning p.discontinuity ids }
  /-- A launch returns, times out or is lost. -/
  | outcome {s : Manager} {pre post : List Launch} {id : String} {phase : LaunchPhase}
      (hpending : s.pending = pre ++ ⟨id, .running⟩ :: post) (hphase : phase ≠ .running) :
      Step allow s { s with pending := pre ++ ⟨id, phase⟩ :: post }
  /-- Launches, owners and the driver of jobs write to the journal. -/
  | journal {s : Manager} {journal : Journal} (h : s.journal.Moves journal) :
      Step allow s { s with journal }
  | clock {s : Manager} : Step allow s { s with clockEpoch := min (s.clockEpoch + 1) u64Max }
  /-- A schedule is enabled. -/
  | enable {s : Manager} (id : String) (hopen : s.closing = false)
      (hlimit : s.active.card < s.maxActive) : Step allow s { s with active := insert id s.active }
  /-- A schedule is stopped, or its refusal is resolved. -/
  | disable {s : Manager} (id : String) : Step allow s { s with active := s.active.erase id }
  | close {s : Manager} : Step allow s { s with closing := true }
  | closed {s : Manager} (hclosing : s.closing = true) : Step allow s { s with active := ∅ }

/-- A manager that has just been started. -/
def Manager.started (maxLaunches maxActive epoch : Nat) (active : Finset String) (journal : Journal) :
    Manager where
  maxLaunches := maxLaunches
  maxActive := maxActive
  active := active
  closing := false
  clockEpoch := epoch
  observed := epoch
  launching := ∅
  pending := []
  loop := .asleep
  journal := journal

/-! ## The record of launches -/

/-- The schedule is there, and has ended. -/
def Journal.Ended (j : Journal) (id : String) : Prop := ∃ state, j id = some state ∧ state.active = false

/-- The arguments of a poll are still true. -/
def Poll.Exact (p : Poll) (s : Manager) : Prop :=
  p.mayLaunch = decide (s.launching.card < s.maxLaunches) ∧ p.launching = decide (p.id ∈ s.launching)

/-- What the loop knows at its place. -/
def Sound (s : Manager) : Loop → Prop
  | .losing _ => s.pending = []
  | .polling p _ => p.Exact s
  | .fenced p _ | .read p _ _ => p.Exact s ∧ (p.launching = true → s.journal.Ended p.id)
  | .polled p _ .trigger => s.launching.card < s.maxLaunches ∧ p.id ∉ s.launching
  | _ => True

/-- The loop neither clears its record nor has ended. -/
def Loop.recorded : Loop → Prop
  | .losing _ | .ended => False
  | _ => True

/-- The record of the loop is that of its tasks, unless it is about to be cleared. -/
structure Inv (s : Manager) : Prop where
  nodup : (s.pending.map Launch.schedule).Nodup
  mirror : s.loop.recorded → s.launching = (s.pending.map Launch.schedule).toFinset
  bound : s.pending.length ≤ s.maxLaunches
  sound : Sound s s.loop

theorem Journal.Ended.moves {j j' : Journal} {id : String} (h : j.Ended id) (hmoves : j.Moves j') :
    j'.Ended id := by
  obtain ⟨state, hid, hstate⟩ := h
  exact hmoves id state hid hstate

theorem Journal.interrupt_ended {j j' : Journal} {id : String} (h : j.interrupt id = some j') :
    j'.Ended id := by
  obtain ⟨state, hid, rfl⟩ := Option.map_eq_some_iff.mp h
  by_cases hactive : state.active = true
  · rw [if_pos hactive]
    exact ⟨.interrupted, Function.update_self .., rfl⟩
  · rw [if_neg hactive]
    exact ⟨state, hid, by simpa using hactive⟩

/-- A step that leaves the launches alone. -/
theorem Inv.keep {s t : Manager} (h : Inv s) (hlaunching : t.launching = s.launching)
    (hpending : t.pending = s.pending) (hmax : t.maxLaunches = s.maxLaunches)
    (hrecorded : t.loop.recorded → s.loop.recorded) (hsound : Sound t t.loop) : Inv t := by
  refine ⟨hpending ▸ h.nodup, fun ht => ?_, hpending ▸ hmax ▸ h.bound, hsound⟩
  rw [hlaunching, hpending]
  exact h.mirror (hrecorded ht)

/-- What the loop knows does not depend on the active schedules, the clock or how the journal goes
on. -/
theorem Sound.moves {s t : Manager} (hlaunching : t.launching = s.launching)
    (hpending : t.pending = s.pending) (hmax : t.maxLaunches = s.maxLaunches)
    (hmoves : s.journal.Moves t.journal) {loop : Loop} (h : Sound s loop) : Sound t loop := by
  cases loop with
  | losing ids =>
    show t.pending = []
    rw [hpending]
    exact h
  | polling p ids =>
    show p.Exact t
    unfold Poll.Exact
    rw [hlaunching, hmax]
    exact h
  | fenced p ids =>
    refine ⟨?_, fun hp => (h.2 hp).moves hmoves⟩
    unfold Poll.Exact
    rw [hlaunching, hmax]
    exact h.1
  | read p ids state =>
    refine ⟨?_, fun hp => (h.2 hp).moves hmoves⟩
    unfold Poll.Exact
    rw [hlaunching, hmax]
    exact h.1
  | polled p ids answer =>
    cases answer with
    | trigger =>
      show t.launching.card < t.maxLaunches ∧ p.id ∉ t.launching
      rw [hlaunching, hmax]
      exact h
    | _ => trivial
  | _ => trivial

theorem Journal.Moves.refl (j : Journal) : j.Moves j := fun _ state h hstate => ⟨state, h, hstate⟩

/-- A task has left `pending`. -/
theorem pending_erase {pre post : List Launch} {l : Launch}
    (h : ((pre ++ l :: post).map Launch.schedule).Nodup) :
    ((pre ++ post).map Launch.schedule).Nodup ∧
      ((pre ++ l :: post).map Launch.schedule).toFinset.erase l.schedule =
        ((pre ++ post).map Launch.schedule).toFinset := by
  rw [List.map_append, List.map_cons] at h
  have hperm : (pre.map Launch.schedule ++ l.schedule :: post.map Launch.schedule).Perm
      (l.schedule :: (pre ++ post).map Launch.schedule) := by
    rw [List.map_append]
    exact List.perm_middle
  obtain ⟨hnot, hnodup⟩ := List.nodup_cons.mp (hperm.nodup_iff.mp h)
  refine ⟨hnodup, ?_⟩
  ext id
  rw [List.map_append, List.map_cons, Finset.mem_erase, List.mem_toFinset, hperm.mem_iff,
    List.mem_cons, List.mem_toFinset]
  constructor
  · intro hmem
    exact hmem.2.resolve_left hmem.1
  · intro hmem
    exact ⟨fun heq => hnot (heq ▸ hmem), Or.inr hmem⟩

/-- The record is as large as what is pending. -/
theorem Inv.card {s : Manager} (h : Inv s) (hrecorded : s.loop.recorded) :
    s.launching.card = s.pending.length := by
  rw [h.mirror hrecorded, List.toFinset_card_of_nodup h.nodup, List.length_map]

/-- A step of the journal, of the clock, or on the active schedules. -/
theorem Inv.moves {s t : Manager} (h : Inv s) (hlaunching : t.launching = s.launching)
    (hpending : t.pending = s.pending) (hmax : t.maxLaunches = s.maxLaunches)
    (hloop : t.loop = s.loop) (hmoves : s.journal.Moves t.journal) : Inv t := by
  refine h.keep hlaunching hpending hmax (fun ht => hloop ▸ ht) ?_
  rw [hloop]
  exact h.sound.moves hlaunching hpending hmax hmoves

/-- What the loop has asked is answered. -/
theorem Loop.answered {s : Manager} {p : Poll} {ids : List String}
    (hloop : s.loop = .polling p ids ∨ s.loop = .fenced p ids ∨ ∃ state, s.loop = .read p ids state) :
    s.loop.recorded := by
  rcases hloop with hloop | hloop | ⟨state, hloop⟩ <;> rw [hloop] <;> trivial

/-- Every step keeps the record, as long as a lost task was the only one. -/
theorem Inv.step {s t : Manager} (h : Inv s) (hstep : Step alone s t) : Inv t := by
  have hsound := h.sound
  cases hstep with
  | wake hloop => exact h.keep rfl rfl rfl (fun _ => by rw [hloop]; trivial) trivial
  | shutdown hloop => exact ⟨List.nodup_nil, fun hrecorded => hrecorded.elim, Nat.zero_le _, trivial⟩
  | @join pre post id hloop hpending =>
    have hmirror := h.mirror (by rw [hloop]; trivial)
    have hnodup := h.nodup
    have hbound := h.bound
    rw [hpending] at hnodup hmirror hbound
    obtain ⟨hrest, herase⟩ := pending_erase hnodup
    refine ⟨hrest, fun _ => ?_, ?_, by rw [hloop]; trivial⟩
    · show s.launching.erase id = _
      rw [hmirror]
      exact herase
    · simp only [List.length_append, List.length_cons] at hbound ⊢
      omega
  | @lost pre post id hloop hpending hallow =>
    have hnone : pre ++ post = [] := hallow
    refine ⟨?_, fun hrecorded => hrecorded.elim, ?_, hnone⟩
    · rw [hnone]
      exact List.nodup_nil
    · rw [hnone]
      exact Nat.zero_le _
  | interruptLost hloop h' =>
    rw [hloop] at hsound
    exact h.keep rfl rfl rfl (fun hrecorded => hrecorded.elim) hsound
  | clear hloop =>
    rw [hloop] at hsound
    have hnone : s.pending = [] := hsound
    refine ⟨h.nodup, fun _ => ?_, h.bound, trivial⟩
    rw [hnone]
    rfl
  | drained hloop => exact h.keep rfl rfl rfl (fun _ => by rw [hloop]; trivial) trivial
  | scanned hloop => exact h.keep rfl rfl rfl (fun _ => by rw [hloop]; trivial) trivial
  | poll hloop => exact h.keep rfl rfl rfl (fun _ => by rw [hloop]; trivial) ⟨rfl, rfl⟩
  | skip hloop => exact h.keep rfl rfl rfl (fun _ => by rw [hloop]; trivial) trivial
  | yield hloop => exact h.keep rfl rfl rfl (fun _ => by rw [hloop]; trivial) trivial
  | go hloop hclock hlaunching =>
    rw [hloop] at hsound
    refine h.keep rfl rfl rfl (fun _ => by rw [hloop]; trivial) ⟨hsound, fun hp => ?_⟩
    rw [hlaunching] at hp
    cases hp
  | fence hloop hclock h' =>
    rw [hloop] at hsound
    exact h.keep rfl rfl rfl (fun _ => by rw [hloop]; trivial)
      ⟨hsound, fun _ => Journal.interrupt_ended h'⟩
  | snapshot hloop h' =>
    rw [hloop] at hsound
    exact h.keep rfl rfl rfl (fun _ => by rw [hloop]; trivial) hsound
  | @claim p ids journal hloop hmay h' =>
    rw [hloop] at hsound
    obtain ⟨⟨hcard, hmember⟩, hended⟩ := hsound
    refine h.keep rfl rfl rfl (fun _ => by rw [hloop]; trivial) ⟨?_, fun hmem => ?_⟩
    · rw [hmay] at hcard
      exact of_decide_eq_true hcard.symm
    · -- a schedule with a launch was interrupted before, and is not claimed
      obtain ⟨state, hid, hstate⟩ := hended (hmember.trans (decide_eq_true hmem))
      unfold Journal.claim at h'
      by_cases hwaiting : s.journal p.id = some .waiting
      · rw [hid] at hwaiting
        cases hwaiting
        cases hstate
      · rw [if_neg hwaiting] at h'
        cases h'
  | pass hloop => exact h.keep rfl rfl rfl (fun _ => by rw [hloop]; trivial) trivial
  | retire hloop => exact h.keep rfl rfl rfl (fun _ => by rw [hloop]; trivial) trivial
  | refuse hloop => exact h.keep rfl rfl rfl (fun _ => Loop.answered hloop) trivial
  | fail hloop => exact h.keep rfl rfl rfl (fun _ => Loop.answered hloop) trivial
  | stopScan hloop => exact h.keep rfl rfl rfl (fun _ => by rw [hloop]; trivial) trivial
  | @launch p ids hloop hopen hactive =>
    have hrecorded : s.loop.recorded := by
      rw [hloop]
      trivial
    rw [hloop] at hsound
    obtain ⟨hcard, hmember⟩ := hsound
    have hmirror := h.mirror hrecorded
    rw [h.card hrecorded] at hcard
    refine ⟨?_, fun _ => ?_, ?_, trivial⟩
    · rw [List.map_append, List.map_singleton, List.nodup_append]
      refine ⟨h.nodup, List.nodup_singleton _, ?_⟩
      intro a ha b hb heq
      have hb : b = p.id := List.mem_singleton.mp hb
      rw [hmirror, List.mem_toFinset, ← hb, ← heq] at hmember
      exact hmember ha
    · show insert p.id s.launching = _
      rw [hmirror, List.map_append, List.map_singleton, List.toFinset_append, List.toFinset_cons,
        List.toFinset_nil, Finset.union_comm]
      rfl
    · show (s.pending ++ [(⟨p.id, .running⟩ : Launch)]).length ≤ s.maxLaunches
      rw [List.length_append, List.length_singleton]
      exact hcard
  | next hloop => exact h.keep rfl rfl rfl (fun _ => by rw [hloop]; trivial) trivial
  | nextFailed hloop => exact h.keep rfl rfl rfl (fun _ => by rw [hloop]; trivial) trivial
  | @outcome pre post id phase hpending hphase =>
    have hmap : (pre ++ (⟨id, phase⟩ : Launch) :: post).map Launch.schedule =
        s.pending.map Launch.schedule := by
      rw [hpending, List.map_append, List.map_append, List.map_cons, List.map_cons]
    have hlength : (pre ++ (⟨id, phase⟩ : Launch) :: post).length = s.pending.length := by
      rw [hpending, List.length_append, List.length_append, List.length_cons, List.length_cons]
    refine ⟨hmap ▸ h.nodup, fun hrecorded => ?_, hlength ▸ h.bound, ?_⟩
    · show s.launching = ((pre ++ (⟨id, phase⟩ : Launch) :: post).map Launch.schedule).toFinset
      rw [hmap]
      exact h.mirror hrecorded
    · show Sound _ s.loop
      cases hloop : s.loop with
      | losing ids =>
        rw [hloop] at hsound
        have hnone : s.pending = [] := hsound
        rw [hpending] at hnone
        exact absurd hnone (List.append_ne_nil_of_right_ne_nil _ (List.cons_ne_nil _ _))
      | polled p ids answer =>
        rw [hloop] at hsound
        cases answer <;> exact hsound
      | _ =>
        rw [hloop] at hsound
        exact hsound
  | journal h' => exact h.moves rfl rfl rfl rfl h'
  | clock => exact h.moves rfl rfl rfl rfl (Journal.Moves.refl _)
  | enable => exact h.moves rfl rfl rfl rfl (Journal.Moves.refl _)
  | disable => exact h.moves rfl rfl rfl rfl (Journal.Moves.refl _)
  | close => exact h.moves rfl rfl rfl rfl (Journal.Moves.refl _)
  | closed => exact h.moves rfl rfl rfl rfl (Journal.Moves.refl _)

theorem Inv.started (maxLaunches maxActive epoch : Nat) (active : Finset String)
    (journal : Journal) : Inv (.started maxLaunches maxActive epoch active journal) :=
  ⟨List.nodup_nil, fun _ => rfl, Nat.zero_le _, trivial⟩

theorem Step.maxLaunches {allow : List Launch → Prop} {s t : Manager} (h : Step allow s t) :
    t.maxLaunches = s.maxLaunches := by
  cases h <;> rfl

/-- **Launches are bounded**: in every run in which a lost task is reported only while no other
launch is pending, at most `maxLaunches` are pending, each of another schedule. -/
theorem launches_bounded {maxLaunches maxActive epoch : Nat} {active : Finset String}
    {journal : Journal} {s : Manager}
    (h : Run (Step alone) (.started maxLaunches maxActive epoch active journal) s) :
    s.pending.length ≤ maxLaunches ∧ (s.pending.map Launch.schedule).Nodup := by
  have hinv : Inv s := Run.invariant (fun _ _ hs hstep => hs.step hstep)
    (Inv.started maxLaunches maxActive epoch active journal) h
  have hlimit : s.maxLaunches = maxLaunches :=
    @Run.invariant _ _ (fun s => s.maxLaunches = maxLaunches)
      (fun _ _ hs hstep => hstep.maxLaunches.trans hs) _ _ rfl h
  exact ⟨hlimit ▸ hinv.bound, hinv.nodup⟩

/-! ## A lost task -/

/-- Four schedules that are due. -/
def dueSchedules : List String := ["a", "b", "c", "d"]

/-- Their manager with the limit of two launches, at one place of its loop. -/
def sampleManager (loop : Loop) (active launching : Finset String) (pending : List Launch)
    (journal : Journal) : Manager := ⟨2, 8, active, false, 0, 0, launching, pending, loop, journal⟩

section
variable {allow : List Launch → Prop} {id : String} {ids : List String}
  {active launching : Finset String} {pending : List Launch} {journal : Journal}

/-- The loop wakes up and begins to scan what is active. -/
theorem begin_scan (hids : active.sort (· ≤ ·) = ids) :
    Run (Step allow) (sampleManager .draining active launching pending journal)
      (sampleManager (.scanning false ids) active launching pending journal) := by
  subst hids
  exact .single (.drained rfl)

/-- A schedule that is due is launched while the record has room for it. -/
theorem scan_launch (hcard : launching.card < 2) (hnot : id ∉ launching) (hactive : id ∈ active)
    (hwaiting : journal id = some .waiting) :
    Run (Step allow) (sampleManager (.scanning false (id :: ids)) active launching pending journal)
      (sampleManager (.scanning false ids) active (insert id launching)
        (pending ++ [⟨id, .running⟩]) (Function.update journal id (some .inFlight))) := by
  refine .head (.poll rfl) (.head (.go rfl rfl (decide_eq_false hnot)) (.head (.snapshot rfl hwaiting)
    (.head (.claim rfl (decide_eq_true hcard) (if_pos hwaiting)) ?_)))
  exact .head (.launch rfl rfl hactive) .refl

/-- A schedule whose launch is not recorded is left as it is. -/
theorem scan_pass {state : ScheduleState} (hnot : id ∉ launching) (hid : journal id = some state)
    (hstate : state.active = true) :
    Run (Step allow) (sampleManager (.scanning false (id :: ids)) active launching pending journal)
      (sampleManager (.scanning false ids) active launching pending journal) := by
  refine .head (.poll rfl) (.head (.go rfl rfl (decide_eq_false hnot)) (.head (.snapshot rfl hid)
    (.head (.pass rfl hstate (Journal.Moves.refl journal)) ?_)))
  exact .head (.next rfl rfl nofun nofun) .refl

/-- A schedule that has ended is no longer active. -/
theorem scan_retire {state : ScheduleState} (hnot : id ∉ launching) (hid : journal id = some state)
    (hstate : state.active = false) :
    Run (Step allow) (sampleManager (.scanning false (id :: ids)) active launching pending journal)
      (sampleManager (.scanning false ids) (active.erase id) launching pending journal) := by
  refine .head (.poll rfl) (.head (.go rfl rfl (decide_eq_false hnot)) (.head (.snapshot rfl hid)
    (.head (.retire rfl hstate) ?_)))
  exact .head (.next rfl rfl nofun nofun) .refl

/-- A lost launch interrupts the next schedule of the record. -/
theorem interrupt_next {state : ScheduleState} (hid : journal id = some state)
    (hstate : state.active = true) :
    Step allow (sampleManager (.losing (id :: ids)) active launching pending journal)
      (sampleManager (.losing ids) active launching pending
        (Function.update journal id (some .interrupted))) := by
  refine .interruptLost rfl (Or.inr ?_)
  show (journal id).map _ = _
  rw [hid]
  exact congrArg some (if_pos hstate)

end

theorem dueSchedules_sort : dueSchedules.toFinset.sort (· ≤ ·) = dueSchedules :=
  (List.toFinset_sort (· ≤ ·) (by decide)).mpr (by decide)

/-- The journal while the first two are in flight. -/
def launchedJournal : Journal :=
  Function.update (Function.update (fun _ => some .waiting) "a" (some .inFlight)) "b" (some .inFlight)

/-- The four schedules with the launches of the first two. -/
def launchedManager : Manager :=
  sampleManager .asleep dueSchedules.toFinset {"b", "a"} [⟨"a", .running⟩, ⟨"b", .running⟩]
    launchedJournal

/-- The first two are launched, and the others wait for the limit. -/
theorem launched_run {allow : List Launch → Prop} :
    Run (Step allow) (.started 2 8 0 dueSchedules.toFinset fun _ => some .waiting)
      launchedManager := by
  refine .head (.wake rfl rfl) ((begin_scan dueSchedules_sort).trans ?_)
  refine (scan_launch (by decide) (by decide) (by decide) rfl).trans ?_
  refine (scan_launch (by decide) (by decide) (by decide) rfl).trans ?_
  refine (@scan_pass _ _ _ _ _ _ _ .waiting (by decide) rfl rfl).trans ?_
  refine (@scan_pass _ _ _ _ _ _ _ .waiting (by decide) rfl rfl).trans ?_
  exact .single (.scanned rfl)

/-- The launch of the second is lost while the first one runs; with the record cleared, the other two
are launched as well. -/
theorem launches_unbounded : ¬∀ (maxLaunches maxActive epoch : Nat) (active : Finset String)
    (journal : Journal) (s : Manager),
    Run (Step always) (.started maxLaunches maxActive epoch active journal) s →
      s.pending.length ≤ maxLaunches := by
  intro hall
  have hsort : ({"b", "a"} : Finset String).sort (· ≤ ·) = ["a", "b"] := by
    have hset : ({"b", "a"} : Finset String) = ["a", "b"].toFinset := by decide
    rw [hset]
    exact (List.toFinset_sort (· ≤ ·) (by decide)).mpr (by decide)
  have hlost : Run (Step always) launchedManager (sampleManager (.losing ["a", "b"])
      dueSchedules.toFinset {"b", "a"} [⟨"a", .running⟩] launchedJournal) := by
    refine .head (@Step.outcome _ _ [⟨"a", .running⟩] [] "b" .lost rfl nofun) ?_
    refine .head (.wake rfl rfl) ?_
    rw [← hsort]
    exact .single (@Step.lost _ _ [⟨"a", .running⟩] [] "b" rfl rfl trivial)
  -- both are interrupted, and the record is empty while the first one still runs
  let cleared := Function.update (Function.update launchedJournal "a" (some .interrupted)) "b"
    (some .interrupted)
  have hcleared : Run (Step always) (sampleManager (.losing ["a", "b"]) dueSchedules.toFinset
      {"b", "a"} [⟨"a", .running⟩] launchedJournal) (sampleManager (.scanning false dueSchedules)
      dueSchedules.toFinset ∅ [⟨"a", .running⟩] cleared) := by
    refine .head (@interrupt_next _ _ _ _ _ _ _ .inFlight rfl rfl) ?_
    refine .head (@interrupt_next _ _ _ _ _ _ _ .inFlight rfl rfl) ?_
    exact .head (.clear rfl) (begin_scan dueSchedules_sort)
  have hmore : Run (Step always) (sampleManager (.scanning false dueSchedules)
      dueSchedules.toFinset ∅ [⟨"a", .running⟩] cleared) (sampleManager (.scanning false [])
      ((dueSchedules.toFinset.erase "a").erase "b") {"d", "c"}
      [⟨"a", .running⟩, ⟨"c", .running⟩, ⟨"d", .running⟩]
      (Function.update (Function.update cleared "c" (some .inFlight)) "d" (some .inFlight))) := by
    refine (@scan_retire _ _ _ _ _ _ _ .interrupted (by decide) rfl rfl).trans ?_
    refine (@scan_retire _ _ _ _ _ _ _ .interrupted (by decide) rfl rfl).trans ?_
    refine (scan_launch (by decide) (by decide) (by decide) rfl).trans ?_
    exact scan_launch (by decide) (by decide) (by decide) rfl
  have hlength : 3 ≤ 2 := hall 2 8 0 _ _ _ (((launched_run.trans hlost).trans hcleared).trans hmore)
  exact absurd hlength (by decide)

/-- Two launches at the limit. -/
theorem launches_bounded_two :
    launchedManager.pending.length ≤ 2 ∧ (launchedManager.pending.map Launch.schedule).Nodup :=
  launches_bounded launched_run

/-! ## The journal that the loop sees -/

end Timer

section
variable [F64] [PeerAdmission] [Sha256] [Planner] [Pairing] [ScopeCompiler]

namespace Store

/-- The states of the schedules. -/
def states (s : Store) : Timer.Journal := fun id =>
  (Table.find (fun e => e.record.id) id s.schedules).map fun e => e.record.state

omit [F64] [PeerAdmission] [Sha256] [Planner] [Pairing] [ScopeCompiler] in
theorem ended_states {s : Store} (hkeyed : Table.Keyed (fun e => e.record.id) s.schedules)
    {id : String} : s.Ended id ↔ s.states.Ended id := by
  constructor
  · rintro ⟨row, hrow, rfl, hstate⟩
    refine ⟨_, ?_, hstate⟩
    have hfind : Table.find (fun e => e.record.id) row.record.id s.schedules = some row :=
      Table.find_of_mem hkeyed hrow
    unfold states
    rw [hfind]
    rfl
  · rintro ⟨state, hfind, hstate⟩
    obtain ⟨row, hrow, rfl⟩ := Option.map_eq_some_iff.mp hfind
    obtain ⟨hmem, hid⟩ := Table.find_some hrow
    exact ⟨row, hmem, hid, hstate⟩

/-- Every step of the journal is one that the loop allows for. -/
theorem Step.states {s t : Store} (h : Step s t) (hs : s.Scheduled) : s.states.Moves t.states := by
  intro id state hid hstate
  have hended := h.ended hs ((ended_states hs.keyed).mpr ⟨state, hid, hstate⟩)
  exact (ended_states (h.puts hs).1.keyed).mp hended

theorem scheduleOf_find {s : Store} {id msg : String} {sch : Schedule}
    (h : s.scheduleOf id msg = .ok sch) :
    ∃ row, Table.find (fun e => e.record.id) id s.schedules = some row ∧ row.record = sch ∧
      sch.id = id := by
  simp only [scheduleOf, bind_ok, context_ok] at h
  obtain ⟨found, hread, rfl⟩ := h
  unfold readSchedule at hread
  cases hfind : Table.find (fun row => row.record.id) id s.schedules with
  | none =>
    rw [hfind] at hread
    cases hread
  | some row =>
    simp only [hfind, bind_ok, pure_ok, Option.some.injEq] at hread
    obtain ⟨_, -, rfl⟩ := hread
    exact ⟨row, rfl, rfl, (Table.find_some hfind).2⟩

theorem scheduleOf_states {s : Store} {id msg : String} {sch : Schedule}
    (h : s.scheduleOf id msg = .ok sch) : s.states id = some sch.state := by
  obtain ⟨row, hfind, rfl, -⟩ := scheduleOf_find h
  unfold Store.states
  rw [hfind]
  rfl

/-- The write of one schedule changes its own state. -/
theorem saveSchedule_states {s t : Store} {id msg : String} {sch next r : Schedule}
    (hread : s.scheduleOf id msg = .ok sch) (hsave : s.saveSchedule next false = .ok (t, r))
    (hid : next.id = sch.id) :
    t.states = Function.update s.states id (some next.state) := by
  obtain ⟨row, hfind, rfl, rfl⟩ := scheduleOf_find hread
  obtain ⟨rfl, -, -, -, hrows⟩ := saveSchedule_ok hsave
  funext x
  have hx := @Table.find_replace _ _ _ (fun e : ScheduleRow => e.record.id)
    ⟨next.sealed, scheduleCost - next.sealed.toJson.size⟩ x s.schedules
  have hkey : next.sealed.id = row.record.id := hid
  have hupdate : t.schedules = Table.update (fun e => e.record.id == next.sealed.id)
      (fun _ => ⟨next.sealed, scheduleCost - next.sealed.toJson.size⟩) s.schedules := by
    rw [hrows, if_neg Bool.false_ne_true]
    rfl
  unfold Store.states
  rw [hupdate, hx]
  by_cases h : x = row.record.id
  · rw [if_pos (h.trans hkey.symm), h, hfind, Function.update_self]
    rfl
  · rw [if_neg fun heq => h (heq.trans hkey), Function.update_of_ne h]

/-- `schedule_interrupt_now` does what the loop expects. -/
theorem scheduleInterruptNow_states {s t : Store} {id reason : String} {now : Nat} {r : Schedule}
    (h : s.scheduleInterruptNow id reason now = .ok (t, r)) :
    s.states.interrupt id = some t.states := by
  simp only [scheduleInterruptNow, bind_ok] at h
  obtain ⟨_, -, sch, hread, h⟩ := h
  unfold Timer.Journal.interrupt
  rw [scheduleOf_states hread, Option.map_some]
  split_ifs at h ⊢ with hactive
  · simp only [bind_ok, Schedule.interrupted_ok] at h
    obtain ⟨next, ⟨-, rfl⟩, hsave⟩ := h
    rw [saveSchedule_states hread hsave rfl]
  · rw [pure_ok] at h
    cases h
    rfl

/-- `schedule_claim_due` returns a trigger of a schedule that waited, and leaves it in flight. -/
theorem scheduleClaimDue_states {s t : Store} {id runtime issuer : String} {drawn : Drawn}
    {now commit : Nat} {trigger : Trigger}
    (h : s.scheduleClaimDue id runtime issuer drawn now commit = .ok (t, some trigger)) :
    s.states.claim id = some t.states := by
  simp only [scheduleClaimDue, bind_ok] at h
  obtain ⟨_, -, sch, hread, h⟩ := h
  by_cases hwaiting : sch.state ≠ .waiting
  · rw [if_pos hwaiting, pure_ok] at h
    cases h
  rw [if_neg hwaiting] at h
  rw [not_not] at hwaiting
  simp only [bind_ok] at h
  obtain ⟨current, -, h⟩ := h
  cases hrefused : claimRefused sch current (sch.nextDueMs.getD 0) now with
  | some reason =>
    simp only [hrefused, bind_ok, pure_ok] at h
    obtain ⟨next, -, saved, -, h⟩ := h
    cases h
  | none =>
    simp only [hrefused] at h
    split_ifs at h with hdue
    · rw [pure_ok] at h
      cases h
    · simp only [bind_ok] at h
      obtain ⟨a, -, ⟨resolved, available⟩, -, _, -, ⟨duration, _⟩, -, h⟩ := h
      split_ifs at h with hspent
      · simp only [bind_ok, pure_ok] at h
        obtain ⟨next, -, saved, -, h⟩ := h
        cases h
      · simp only [bind_ok, pure_ok] at h
        obtain ⟨⟨u, claim⟩, hclaim, h⟩ := h
        cases h
        simp only [commitClaim, bind_ok, pure_ok, Schedule.advance_ok] at hclaim
        obtain ⟨next, ⟨-, rfl⟩, ⟨u, r⟩, hsave, v, hinsert, _, -, _, -, hclaim⟩ := hclaim
        cases hclaim
        rw [insertTrigger_schedules hinsert]
        have hstates := saveSchedule_states hread hsave rfl
        unfold Timer.Journal.claim
        rw [scheduleOf_states hread, if_pos (congrArg some hwaiting)]
        exact congrArg some hstates.symm

end Store

end

end Eef.Coordinator
