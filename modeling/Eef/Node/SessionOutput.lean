import Eef.Lib.Run
import Mathlib.Data.List.Nodup
import Mathlib.Logic.Function.Basic

/-!
# Framed session output

`session_output.rs`: any number of `send` calls share one writer behind a lock and one
flag that says the session's output is retired. A call looks at the flag, waits for the
lock, looks again, and writes its frame under a guard that raises the flag when it is
dropped before the frame is out.

The steps are as fine as the code's: a byte at a time, the guard's drop before the lock's
release, the second look apart from the first byte. A waiter whose timer ran out has
`left` the queue first and raises the flag before its call returns. What a call writes is
`frame c`, absent when encoding fails.

`Inv` says how the output came to be: the calls that began a write, in order, each with
its whole frame but the last, and an incomplete last one is still being written or the
flag is up. Two run lemmas follow: once the flag is up no further call begins
(`Run.barred`), and once no writer is left the output stands still (`Run.sealed`).

A waiter that timed out does not keep the others from the lock until its call returns: one
of them may have it, and write its whole frame, before the flag is up (`waiter_before_flag`).
-/

namespace Eef.Node.SessionOutput

open Eef.Lib

/-- How a call ends: `retired` is the refusal without a write, `failed` an error of the
encoder or the writer. -/
inductive Outcome where
  | ok
  | retired
  | failed
  | timedOut
  | cancelled
  deriving DecidableEq, Repr

/-- Where a call is. It is `holding` between the lock and the second look at the flag, and
`checked` between that look and the guard; it is `leaving` once the guard is gone and the
lock still held, and `left` once it holds nothing and has not returned. -/
inductive Phase where
  | idle
  | queued
  | holding
  | checked
  | writing
  | leaving (o : Outcome)
  | left (o : Outcome)
  | returned (o : Outcome)
  deriving DecidableEq, Repr

namespace Phase

/-- The call holds the lock. -/
def holds : Phase → Bool
  | holding | checked | writing | leaving _ => true
  | _ => false

/-- The call has not armed its guard. -/
@[simp]
def early : Phase → Bool
  | idle | queued | holding | checked => true
  | _ => false

/-- The call has or will have succeeded. -/
@[simp]
def succeeds : Phase → Bool
  | leaving .ok | left .ok | returned .ok => true
  | _ => false

/-- The call returned an error. -/
@[simp]
def reported : Phase → Bool
  | returned .retired | returned .failed | returned .timedOut => true
  | _ => false

end Phase

/-- The writer, its lock and flag, and the calls; `begun` and `written` record which calls
began a write, in order, and how far each got. -/
structure State where
  failed : Bool
  holder : Option Nat
  output : List UInt8
  phase : Nat → Phase
  begun : List Nat
  written : Nat → Nat

/-- A new session. -/
def State.initial : State := ⟨false, none, [], fun _ => .idle, [], fun _ => 0⟩

/-- A call goes on; nothing is written. -/
def State.move (s : State) (c : Nat) (p : Phase) (failed : Bool) (holder : Option Nat) : State :=
  { s with
    failed := failed
    holder := holder
    phase := Function.update s.phase c p }

/-- `WriteGuard::new`. -/
def State.arm (s : State) (c : Nat) : State :=
  { s with
    phase := Function.update s.phase c .writing
    begun := s.begun ++ [c] }

/-- The writer takes one byte. -/
def State.write (s : State) (c : Nat) (b : UInt8) : State :=
  { s with
    output := s.output ++ [b]
    written := Function.update s.written c (s.written c + 1) }

/-- The result sets the flag: `if result.is_err()`, which a dropped call does not reach. -/
def Outcome.raises : Outcome → Bool
  | .ok | .cancelled => false
  | _ => true

/-- One step of one call, or of another owner of the flag. -/
inductive Step (frame : Nat → Option (List UInt8)) : State → State → Prop where
  | refuse (s : State) (c : Nat) (h : s.phase c = .idle) (hf : s.failed = true) :
    Step frame s (s.move c (.returned .retired) s.failed s.holder)
  | enqueue (s : State) (c : Nat) (h : s.phase c = .idle) (hf : s.failed = false) :
    Step frame s (s.move c .queued s.failed s.holder)
  | acquire (s : State) (c : Nat) (h : s.phase c = .queued) (hl : s.holder = none) :
    Step frame s (s.move c .holding s.failed (some c))
  | recheckFails (s : State) (c : Nat) (h : s.phase c = .holding) (hf : s.failed = true) :
    Step frame s (s.move c (.leaving .retired) s.failed s.holder)
  | recheck (s : State) (c : Nat) (h : s.phase c = .holding) (hf : s.failed = false) :
    Step frame s (s.move c .checked s.failed s.holder)
  | arm (s : State) (c : Nat) (h : s.phase c = .checked) : Step frame s (s.arm c)
  | write (s : State) (c : Nat) (f : List UInt8) (b : UInt8) (h : s.phase c = .writing)
    (hf : frame c = some f) (hb : f[s.written c]? = some b) : Step frame s (s.write c b)
  -- `guard.complete()` after the flush
  | complete (s : State) (c : Nat) (f : List UInt8) (h : s.phase c = .writing)
    (hf : frame c = some f) (hw : s.written c = f.length) :
    Step frame s (s.move c (.leaving .ok) s.failed s.holder)
  -- an error, the timer or a cancellation: the guard is dropped first
  | interrupt (s : State) (c : Nat) (o : Outcome) (h : s.phase c = .writing)
    (ho : o = .failed ∨ o = .timedOut ∨ o = .cancelled) :
    Step frame s (s.move c (.leaving o) true s.holder)
  | release (s : State) (c : Nat) (o : Outcome) (h : s.phase c = .leaving o) :
    Step frame s (s.move c (.left o) s.failed none)
  | elapse (s : State) (c : Nat) (h : s.phase c = .queued) :
    Step frame s (s.move c (.left .timedOut) s.failed s.holder)
  | cancelWait (s : State) (c : Nat) (h : s.phase c = .queued) :
    Step frame s (s.move c (.left .cancelled) s.failed s.holder)
  | finish (s : State) (c : Nat) (o : Outcome) (h : s.phase c = .left o) :
    Step frame s (s.move c (.returned o) (s.failed || o.raises) s.holder)
  -- the session is retired elsewhere
  | retire (s : State) : Step frame s { s with failed := true }

/-- The call's frame is out. -/
def Complete (frame : Nat → Option (List UInt8)) (s : State) (c : Nat) : Prop :=
  ∃ f, frame c = some f ∧ s.written c = f.length

/-- What a call has put out. -/
def piece (frame : Nat → Option (List UInt8)) (written : Nat → Nat) (c : Nat) : List UInt8 :=
  ((frame c).getD []).take (written c)

/-- How the output came to be. -/
structure Inv (frame : Nat → Option (List UInt8)) (s : State) : Prop where
  held : ∀ c, s.holder = some c ↔ (s.phase c).holds = true
  output : s.output = s.begun.flatMap (piece frame s.written)
  nodup : s.begun.Nodup
  early : ∀ c, (s.phase c).early = true → c ∉ s.begun
  writing : ∀ c, s.phase c = .writing → s.begun.getLast? = some c
  fresh : ∀ c, c ∉ s.begun → s.written c = 0
  bound : ∀ c f, frame c = some f → s.written c ≤ f.length
  unfinished : ∀ c ∈ s.begun, ¬Complete frame s c →
    s.begun.getLast? = some c ∧ (s.phase c = .writing ∨ s.failed = true)
  checked : ∀ c, s.phase c = .checked → ∀ d ∈ s.begun, Complete frame s d
  succeeds : ∀ c, (s.phase c).succeeds = true → c ∈ s.begun ∧ Complete frame s c
  reported : ∀ c, (s.phase c).reported = true → s.failed = true

variable {frame : Nat → Option (List UInt8)} {s t : State}

theorem Inv.initial : Inv frame State.initial where
  held c := by simp [State.initial, Phase.holds]
  output := rfl
  nodup := List.nodup_nil
  early _ _ := List.not_mem_nil
  writing _ h := nomatch h
  fresh _ _ := rfl
  bound _ _ _ := Nat.zero_le _
  unfinished _ h := nomatch h
  checked _ h := nomatch h
  succeeds _ h := nomatch h
  reported _ h := nomatch h

/-- Two calls never hold the lock. -/
theorem Inv.one_holder (hi : Inv frame s) {c d : Nat} (hc : (s.phase c).holds = true)
    (hd : (s.phase d).holds = true) : c = d := by
  have h1 := (hi.held c).mpr hc
  have h2 := (hi.held d).mpr hd
  exact Option.some.inj (h1.symm.trans h2)

/-- A step that only moves a call on keeps the invariant, when its new phase is
accounted for. -/
theorem Inv.move (hi : Inv frame s) {c : Nat} {p : Phase} {failed : Bool} {holder : Option Nat}
    (hf : s.failed = true → failed = true)
    (hheld : ∀ d, holder = some d ↔ (Function.update s.phase c p d).holds = true)
    (hearly : p.early = true → (s.phase c).early = true) (hw : p ≠ .writing)
    (hopen : s.phase c = .writing → failed = true ∨ Complete frame s c)
    (hchecked : p = .checked → ∀ d ∈ s.begun, Complete frame s d)
    (hsucc : p.succeeds = true → c ∈ s.begun ∧ Complete frame s c)
    (hrep : p.reported = true → failed = true) : Inv frame (s.move c p failed holder) where
  held := hheld
  output := hi.output
  nodup := hi.nodup
  early d hd := by
    by_cases hdc : d = c
    · subst hdc
      simp only [State.move, Function.update_self] at hd
      exact hi.early d (hearly hd)
    · simp only [State.move, Function.update_of_ne hdc] at hd
      exact hi.early d hd
  writing d hd := by
    by_cases hdc : d = c
    · subst hdc
      simp only [State.move, Function.update_self] at hd
      exact absurd hd hw
    · simp only [State.move, Function.update_of_ne hdc] at hd
      exact hi.writing d hd
  fresh := hi.fresh
  bound := hi.bound
  unfinished d hd hinc := by
    obtain ⟨hlast, hcase⟩ := hi.unfinished d hd hinc
    refine ⟨hlast, ?_⟩
    by_cases hdc : d = c
    · subst hdc
      rcases hcase with hwr | hfl
      · exact .inr ((hopen hwr).resolve_right hinc)
      · exact .inr (hf hfl)
    · rcases hcase with hwr | hfl
      · left
        simpa only [State.move, Function.update_of_ne hdc] using hwr
      · exact .inr (hf hfl)
  checked d hd := by
    by_cases hdc : d = c
    · subst hdc
      simp only [State.move, Function.update_self] at hd
      exact hchecked hd
    · simp only [State.move, Function.update_of_ne hdc] at hd
      exact hi.checked d hd
  succeeds d hd := by
    by_cases hdc : d = c
    · subst hdc
      simp only [State.move, Function.update_self] at hd
      exact hsucc hd
    · simp only [State.move, Function.update_of_ne hdc] at hd
      exact hi.succeeds d hd
  reported d hd := by
    by_cases hdc : d = c
    · subst hdc
      simp only [State.move, Function.update_self] at hd
      exact hrep hd
    · simp only [State.move, Function.update_of_ne hdc] at hd
      exact hf (hi.reported d hd)

/-- The lock stays where it is when the call's hold on it does. -/
theorem Inv.held_same (hi : Inv frame s) {c : Nat} {p : Phase}
    (h : p.holds = (s.phase c).holds) :
    ∀ d, s.holder = some d ↔ (Function.update s.phase c p d).holds = true := by
  intro d
  by_cases hdc : d = c
  · subst hdc
    rw [Function.update_self, h]
    exact hi.held d
  · rw [Function.update_of_ne hdc]
    exact hi.held d

/-- A free lock is taken by one call. -/
theorem Inv.held_taken (hi : Inv frame s) (hl : s.holder = none) {c : Nat} {p : Phase}
    (h : p.holds = true) :
    ∀ d, some c = some d ↔ (Function.update s.phase c p d).holds = true := by
  intro d
  by_cases hdc : d = c
  · subst hdc
    simp [h]
  · rw [Function.update_of_ne hdc, ← hi.held d, hl]
    simp [Ne.symm hdc]

/-- The holder lets go. -/
theorem Inv.held_released (hi : Inv frame s) {c : Nat} (hc : (s.phase c).holds = true) {p : Phase}
    (h : p.holds = false) :
    ∀ d, (none : Option Nat) = some d ↔ (Function.update s.phase c p d).holds = true := by
  intro d
  by_cases hdc : d = c
  · subst hdc
    simp [h]
  · rw [Function.update_of_ne hdc]
    have : ¬(s.phase d).holds = true := fun hd => hdc (hi.one_holder hd hc)
    simp [this]

theorem piece_update_of_ne {written : Nat → Nat} {c d n : Nat} (h : d ≠ c) :
    piece frame (Function.update written c n) d = piece frame written d := by
  simp only [piece, Function.update_of_ne h]

/-- The frame of the writer grows by the byte that is written. -/
theorem piece_write {written : Nat → Nat} {c : Nat} {f : List UInt8} {b : UInt8}
    (hf : frame c = some f) (hb : f[written c]? = some b) :
    piece frame (Function.update written c (written c + 1)) c = piece frame written c ++ [b] := by
  simp only [piece, Function.update_self, hf, Option.getD_some, List.take_add_one, hb,
    Option.toList_some]

/-- The writer is the last call that began. -/
theorem begun_split {l : List Nat} {c : Nat} (h : l.getLast? = some c) : ∃ front, l = front ++ [c] := by
  obtain ⟨front, last, rfl⟩ := List.eq_nil_or_concat l |>.resolve_left (by rintro rfl; simp at h)
  rw [List.concat_eq_append, List.getLast?_append] at h
  simp only [List.getLast?_singleton, Option.some.injEq, Option.some_or] at h
  exact ⟨front, by rw [List.concat_eq_append, h]⟩

theorem Inv.arm (hi : Inv frame s) {c : Nat} (h : s.phase c = .checked) : Inv frame (s.arm c) := by
  have hnew : c ∉ s.begun := hi.early c (by rw [h]; rfl)
  have hall := hi.checked c h
  have hother : ∀ d, d ≠ c → (s.arm c).phase d = s.phase d := fun d hd =>
    Function.update_of_ne hd _ _
  have hself : (s.arm c).phase c = .writing := Function.update_self _ _ _
  have hpiece : piece frame s.written c = [] := by simp [piece, hi.fresh c hnew]
  refine ⟨?_, ?_, ?_, ?_, ?_, ?_, hi.bound, ?_, ?_, ?_, ?_⟩
  · exact hi.held_same (by rw [h]; rfl)
  · show s.output = (s.begun ++ [c]).flatMap (piece frame s.written)
    rw [List.flatMap_append, List.flatMap_singleton, hpiece, List.append_nil]
    exact hi.output
  · refine List.nodup_append.mpr ⟨hi.nodup, List.nodup_singleton _, ?_⟩
    intro a ha b hb
    rw [List.mem_singleton] at hb
    rintro rfl
    exact hnew (hb ▸ ha)
  · intro d hd
    have hdc : d ≠ c := by
      rintro rfl
      rw [hself] at hd
      exact absurd hd (by decide)
    rw [hother d hdc] at hd
    simpa [State.arm, hdc] using hi.early d hd
  · intro d hd
    by_cases hdc : d = c
    · subst hdc
      simp [State.arm]
    · -- the lock is the armed call's
      rw [hother d hdc] at hd
      exact absurd (hi.one_holder (by rw [hd]; rfl) (by rw [h]; rfl)) hdc
  · intro d hd
    exact hi.fresh d fun hm => hd (List.mem_append_left _ hm)
  · intro d hd hinc
    rcases List.mem_append.mp hd with hd | hd
    · exact absurd (hall d hd) hinc
    · rw [List.mem_singleton] at hd
      subst hd
      exact ⟨by simp [State.arm], .inl hself⟩
  · intro d hd
    by_cases hdc : d = c
    · subst hdc
      rw [hself] at hd
      cases hd
    · rw [hother d hdc] at hd
      exact absurd (hi.one_holder (by rw [hd]; rfl) (by rw [h]; rfl)) hdc
  · intro d hd
    by_cases hdc : d = c
    · subst hdc
      rw [hself] at hd
      exact absurd hd (by decide)
    · rw [hother d hdc] at hd
      obtain ⟨hmem, hcomplete⟩ := hi.succeeds d hd
      exact ⟨List.mem_append_left _ hmem, hcomplete⟩
  · intro d hd
    by_cases hdc : d = c
    · subst hdc
      rw [hself] at hd
      exact absurd hd (by decide)
    · rw [hother d hdc] at hd
      exact hi.reported d hd

/-- A frame that is out stays out. -/
theorem Complete.write {c d : Nat} {b : UInt8} {f : List UInt8} (hf : frame c = some f)
    (hb : f[s.written c]? = some b) (h : Complete frame s d) : Complete frame (s.write c b) d := by
  obtain ⟨g, hg, hw⟩ := h
  have hdc : d ≠ c := by
    rintro rfl
    have hlt := List.getElem?_eq_some_iff.mp hb
    rw [hf, Option.some.injEq] at hg
    subst hg
    exact absurd hlt.1 (by omega)
  refine ⟨g, hg, ?_⟩
  simpa only [State.write, Function.update_of_ne hdc] using hw

theorem Inv.write (hi : Inv frame s) {c : Nat} {f : List UInt8} {b : UInt8}
    (h : s.phase c = .writing) (hf : frame c = some f) (hb : f[s.written c]? = some b) :
    Inv frame (s.write c b) := by
  obtain ⟨front, hfront⟩ := begun_split (hi.writing c h)
  have hmem : c ∈ s.begun := by
    rw [hfront]
    exact List.mem_append_right _ (List.mem_singleton_self c)
  have hlt : s.written c < f.length := (List.getElem?_eq_some_iff.mp hb).1
  refine ⟨hi.held, ?_, hi.nodup, hi.early, hi.writing, ?_, ?_, ?_, ?_, ?_, hi.reported⟩
  · -- the calls before the writer have their pieces as before
    have hnot : c ∉ front := by
      intro hc
      have hnd := hi.nodup
      rw [hfront, List.nodup_append] at hnd
      exact hnd.2.2 c hc c (List.mem_singleton_self c) rfl
    have hsame : front.flatMap (piece frame (Function.update s.written c (s.written c + 1)))
        = front.flatMap (piece frame s.written) := by
      apply List.flatMap_congr
      intro d hd
      exact piece_update_of_ne fun e => hnot (e ▸ hd)
    show s.output ++ [b]
      = s.begun.flatMap (piece frame (Function.update s.written c (s.written c + 1)))
    rw [hi.output, hfront, List.flatMap_append, List.flatMap_append, List.flatMap_singleton,
      List.flatMap_singleton, hsame, piece_write hf hb, List.append_assoc]
  · intro d hd
    have hdc : d ≠ c := fun e => hd (e ▸ hmem)
    show Function.update s.written c _ d = 0
    rw [Function.update_of_ne hdc]
    exact hi.fresh d hd
  · intro d g hg
    by_cases hdc : d = c
    · subst hdc
      rw [hf, Option.some.injEq] at hg
      subst hg
      show Function.update s.written d _ d ≤ _
      rw [Function.update_self]
      omega
    · show Function.update s.written c _ d ≤ _
      rw [Function.update_of_ne hdc]
      exact hi.bound d g hg
  · intro d hd hinc
    exact hi.unfinished d hd fun hc => hinc (hc.write hf hb)
  · intro d hd e he
    exact (hi.checked d hd e he).write hf hb
  · intro d hd
    obtain ⟨hm, hc⟩ := hi.succeeds d hd
    exact ⟨hm, hc.write hf hb⟩

/-- Step: the invariant holds after every step. -/
theorem Inv.step (hi : Inv frame s) (h : Step frame s t) : Inv frame t := by
  cases h with
  | refuse c h hf =>
    exact hi.move id (hi.held_same (by rw [h]; rfl)) (by simp) (by simp) (by simp [h])
      (by simp) (by simp) fun _ => hf
  | enqueue c h hf =>
    exact hi.move id (hi.held_same (by rw [h]; rfl)) (by simp [h, Phase.early]) (by simp)
      (by simp [h]) (by simp) (by simp) (by simp)
  | acquire c h hl =>
    exact hi.move id (hi.held_taken hl rfl) (by simp [h, Phase.early]) (by simp) (by simp [h])
      (by simp) (by simp) (by simp)
  | recheckFails c h hf =>
    exact hi.move id (hi.held_same (by rw [h]; rfl)) (by simp) (by simp) (by simp [h])
      (by simp) (by simp) (by simp)
  | recheck c h hf =>
    refine hi.move id (hi.held_same (by rw [h]; rfl)) (by simp [h, Phase.early]) (by simp)
      (by simp [h]) ?_ (by simp) (by simp)
    -- the flag is down and the lock is ours, so no write is incomplete
    intro _ d hd
    by_contra hinc
    rcases (hi.unfinished d hd hinc).2 with hw | hfl
    · have := hi.one_holder (c := d) (d := c) (by rw [hw]; rfl) (by rw [h]; rfl)
      subst this
      rw [h] at hw
      cases hw
    · rw [hf] at hfl
      cases hfl
  | arm c h => exact hi.arm h
  | write c f b h hf hb => exact hi.write h hf hb
  | complete c f h hf hw =>
    have hmem : c ∈ s.begun := List.mem_of_getLast? (hi.writing c h)
    exact hi.move id (hi.held_same (by rw [h]; rfl)) (by simp) (by simp)
      (fun _ => .inr ⟨f, hf, hw⟩) (by simp) (fun _ => ⟨hmem, f, hf, hw⟩) (by simp)
  | interrupt c o h ho =>
    refine hi.move (fun _ => rfl) (hi.held_same (by rw [h]; rfl)) (by simp [Phase.early]) (by simp)
      (fun _ => .inl rfl) (by simp) ?_ (fun _ => rfl)
    rcases ho with rfl | rfl | rfl <;> simp [Phase.succeeds]
  | release c o h =>
    refine hi.move id (hi.held_released (by rw [h]; rfl) rfl) (by simp [Phase.early]) (by simp)
      (by simp [h]) (by simp) ?_ (by simp [Phase.reported])
    intro ho
    cases o with
    | ok => exact hi.succeeds c (by rw [h]; rfl)
    | _ => simp [Phase.succeeds] at ho
  | elapse c h =>
    exact hi.move id (hi.held_same (by rw [h]; rfl)) (by simp) (by simp) (by simp [h])
      (by simp) (by simp) (by simp)
  | cancelWait c h =>
    exact hi.move id (hi.held_same (by rw [h]; rfl)) (by simp) (by simp) (by simp [h])
      (by simp) (by simp) (by simp)
  | finish c o h =>
    refine hi.move (fun hf => by simp [hf]) (hi.held_same (by rw [h]; rfl)) (by simp [Phase.early])
      (by simp) (by simp [h]) (by simp) ?_ ?_
    · intro ho
      cases o with
      | ok => exact hi.succeeds c (by rw [h]; rfl)
      | _ => simp [Phase.succeeds] at ho
    · intro ho
      cases o with
      | ok => simp [Phase.reported] at ho
      | cancelled => simp [Phase.reported] at ho
      | _ => simp [Outcome.raises]
  | retire =>
    refine ⟨hi.held, hi.output, hi.nodup, hi.early, hi.writing, hi.fresh, hi.bound, ?_, hi.checked,
      hi.succeeds, fun _ _ => rfl⟩
    intro d hd hinc
    exact ⟨(hi.unfinished d hd hinc).1, .inr rfl⟩

/-- Run: the invariant holds of every reachable state. -/
theorem Inv.run (h : Run (Step frame) State.initial s) : Inv frame s :=
  Run.invariant (fun _ _ hi hstep => hi.step hstep) Inv.initial h

/-! ## After the flag is up -/

/-- The flag stays up. -/
theorem Step.failed (h : Step frame s t) (hf : s.failed = true) : t.failed = true := by
  cases h with
  | finish c o h => simp [State.move, hf]
  | interrupt c o h ho => rfl
  | retire => rfl
  | _ => exact hf

/-- The call has not looked at the flag a second time, or saw it up. -/
def Barred (s : State) (c : Nat) : Prop :=
  c ∉ s.begun ∧ (s.phase c).succeeds = false ∧ s.phase c ≠ .checked ∧ s.phase c ≠ .writing

/-- Step: with the flag up, a barred call stays barred. -/
theorem Step.barred (h : Step frame s t) (hf : s.failed = true) {c : Nat} (hb : Barred s c) :
    Barred t c := by
  obtain ⟨hnew, hsucc, hchk, hwr⟩ := hb
  have hmove : ∀ (d : Nat) (p : Phase) (fl : Bool) (ho : Option Nat),
      (d = c → p.succeeds = false ∧ p ≠ .checked ∧ p ≠ .writing) → Barred (s.move d p fl ho) c := by
    intro d p fl ho hp
    refine ⟨hnew, ?_⟩
    by_cases hdc : c = d
    · subst hdc
      simpa only [State.move, Function.update_self] using hp rfl
    · simp only [State.move, Function.update_of_ne hdc]
      exact ⟨hsucc, hchk, hwr⟩
  cases h with
  | refuse d h hfl => exact hmove _ _ _ _ fun _ => by decide
  | enqueue d h hfl => exact hmove _ _ _ _ fun _ => by decide
  | acquire d h hl => exact hmove _ _ _ _ fun _ => by decide
  | recheckFails d h hfl => exact hmove _ _ _ _ fun _ => by decide
  | recheck d h hfl =>
    rw [hf] at hfl
    cases hfl
  | arm d h =>
    have hdc : c ≠ d := by
      rintro rfl
      exact hchk h
    refine ⟨by simp [State.arm, hnew, hdc], ?_⟩
    simp only [State.arm, Function.update_of_ne hdc]
    exact ⟨hsucc, hchk, hwr⟩
  | write d f b h hfr hb => exact ⟨hnew, hsucc, hchk, hwr⟩
  | complete d f h hfr hw => exact hmove _ _ _ _ fun e => absurd (e ▸ h) hwr
  | interrupt d o h ho => exact hmove _ _ _ _ fun e => absurd (e ▸ h) hwr
  | release d o h =>
    refine hmove _ _ _ _ fun e => ⟨?_, by simp, by simp⟩
    subst e
    rw [h] at hsucc
    cases o <;> simp_all [Phase.succeeds]
  | elapse d h => exact hmove _ _ _ _ fun _ => by decide
  | cancelWait d h => exact hmove _ _ _ _ fun _ => by decide
  | finish d o h =>
    refine hmove _ _ _ _ fun e => ⟨?_, by simp, by simp⟩
    subst e
    rw [h] at hsucc
    cases o <;> simp_all [Phase.succeeds]
  | retire => exact ⟨hnew, hsucc, hchk, hwr⟩

/-- Run: a call that had not armed its guard when the flag went up, nor looked at it the
second time, never writes and never succeeds. -/
theorem Run.barred (h : Run (Step frame) s t) (hf : s.failed = true) {c : Nat} (hb : Barred s c) :
    Barred t c := by
  have hrun : t.failed = true ∧ Barred t c :=
    Run.invariant (I := fun s => s.failed = true ∧ Barred s c)
      (fun _ _ hi hstep => ⟨hstep.failed hi.1, hstep.barred hi.1 hi.2⟩) ⟨hf, hb⟩ h
  exact hrun.2

/-- The flag is up and nobody is writing or about to. -/
def Sealed (s : State) : Prop :=
  s.failed = true ∧ ∀ c, s.phase c ≠ .checked ∧ s.phase c ≠ .writing

/-- Step: a sealed session puts nothing out and stays sealed. -/
theorem Step.sealed (h : Step frame s t) (hs : Sealed s) : Sealed t ∧ t.output = s.output := by
  obtain ⟨hf, hc⟩ := hs
  have hmove : ∀ (d : Nat) (p : Phase) (fl : Bool) (ho : Option Nat), fl = true → p ≠ .checked →
      p ≠ .writing → Sealed (s.move d p fl ho) ∧ (s.move d p fl ho).output = s.output := by
    intro d p fl ho hfl h1 h2
    refine ⟨⟨hfl, ?_⟩, rfl⟩
    intro e
    by_cases hed : e = d
    · subst hed
      simp only [State.move, Function.update_self]
      exact ⟨h1, h2⟩
    · simp only [State.move, Function.update_of_ne hed]
      exact hc e
  cases h with
  | refuse d h hfl => exact hmove _ _ _ _ hf (by decide) (by decide)
  | enqueue d h hfl => exact hmove _ _ _ _ hf (by decide) (by decide)
  | acquire d h hl => exact hmove _ _ _ _ hf (by decide) (by decide)
  | recheckFails d h hfl => exact hmove _ _ _ _ hf (by decide) (by decide)
  | recheck d h hfl =>
    rw [hf] at hfl
    cases hfl
  | arm d h => exact absurd h (hc d).1
  | write d f b h hfr hb => exact absurd h (hc d).2
  | complete d f h hfr hw => exact absurd h (hc d).2
  | interrupt d o h ho => exact absurd h (hc d).2
  | release d o h => exact hmove _ _ _ _ hf (by simp) (by simp)
  | elapse d h => exact hmove _ _ _ _ hf (by decide) (by decide)
  | cancelWait d h => exact hmove _ _ _ _ hf (by decide) (by decide)
  | finish d o h => exact hmove _ _ _ _ (by simp [hf]) (by simp) (by simp)
  | retire => exact ⟨⟨rfl, hc⟩, rfl⟩

/-- Run: nothing is written any more. -/
theorem Run.sealed (h : Run (Step frame) s t) (hs : Sealed s) : t.output = s.output := by
  have hrun : Sealed t ∧ t.output = s.output :=
    Run.invariant (I := fun u => Sealed u ∧ u.output = s.output)
      (fun _ _ hi hstep => ⟨(hstep.sealed hi.1).1, (hstep.sealed hi.1).2.trans hi.2⟩) ⟨hs, rfl⟩ h
  exact hrun.2

/-- A write that was given up before its frame was out. -/
def Abandoned (frame : Nat → Option (List UInt8)) (s : State) (c : Nat) : Prop :=
  c ∈ s.begun ∧ ¬Complete frame s c ∧ s.phase c ≠ .writing

/-- A write that was given up seals the session. -/
theorem Inv.sealed (hi : Inv frame s) {c : Nat} (h : Abandoned frame s c) : Sealed s := by
  obtain ⟨hmem, hinc, hwr⟩ := h
  obtain ⟨hlast, hcase⟩ := hi.unfinished c hmem hinc
  refine ⟨hcase.resolve_left hwr, ?_⟩
  intro d
  refine ⟨fun hd => hinc (hi.checked d hd c hmem), ?_⟩
  intro hd
  have := hi.writing d hd
  rw [hlast, Option.some.injEq] at this
  subst this
  exact hwr hd

/-- What is out: whole frames, each of another call, and at most one proper prefix. -/
theorem Inv.frames (hi : Inv frame s) :
    ∃ (whole : List Nat) (tail : List UInt8), whole.Nodup
      ∧ (∀ c ∈ whole, Complete frame s c)
      ∧ s.output = whole.flatMap (fun c => (frame c).getD []) ++ tail
      ∧ (tail = [] ∨ ∃ c f, frame c = some f ∧ c ∉ whole ∧ tail <+: f ∧ tail ≠ f)
      ∧ ∀ c ∈ s.begun, Complete frame s c → c ∈ whole := by
  have hpieces : ∀ l : List Nat, (∀ c ∈ l, Complete frame s c) →
      l.flatMap (piece frame s.written) = l.flatMap fun c => (frame c).getD [] := by
    intro l hl
    apply List.flatMap_congr
    intro c hc
    obtain ⟨f, hf, hw⟩ := hl c hc
    simp [piece, hf, hw]
  by_cases hall : ∀ c ∈ s.begun, Complete frame s c
  · refine ⟨s.begun, [], hi.nodup, hall, ?_, .inl rfl, fun c hc _ => hc⟩
    rw [List.append_nil, hi.output, hpieces _ hall]
  · -- the last call that began is the only one whose frame is not out
    push Not at hall
    obtain ⟨c, hmem, hinc⟩ := hall
    obtain ⟨front, hfront⟩ := begun_split (hi.unfinished c hmem hinc).1
    have hnd := hi.nodup
    rw [hfront, List.nodup_append] at hnd
    have hnot : c ∉ front := fun hc => hnd.2.2 c hc c (List.mem_singleton_self c) rfl
    have hwhole : ∀ d ∈ front, Complete frame s d := by
      intro d hd
      by_contra hd'
      have hlast := (hi.unfinished d (by rw [hfront]; exact List.mem_append_left _ hd) hd').1
      rw [hfront, List.getLast?_append, List.getLast?_singleton] at hlast
      simp only [Option.some_or, Option.some.injEq] at hlast
      exact hnot (hlast ▸ hd)
    refine ⟨front, piece frame s.written c, hnd.1, hwhole, ?_, ?_, ?_⟩
    · rw [hi.output, hfront, List.flatMap_append, List.flatMap_singleton, hpieces _ hwhole]
    · cases hf : frame c with
      | none =>
        left
        simp [piece, hf]
      | some f =>
        have hne : s.written c ≠ f.length := fun e => hinc ⟨f, hf, e⟩
        have hle := hi.bound c f hf
        refine .inr ⟨c, f, hf, hnot, ?_, ?_⟩
        · simp only [piece, hf, Option.getD_some]
          exact List.take_prefix _ _
        · intro e
          have hlen := congrArg List.length e
          simp only [piece, hf, Option.getD_some, List.length_take] at hlen
          omega
    · intro d hd hd'
      rw [hfront, List.mem_append, List.mem_singleton] at hd
      exact hd.resolve_right fun e => hinc (e ▸ hd')

/-- Where a frame is not out, its writer has the lock or the flag is up. -/
theorem Inv.failed_before_handoff (hi : Inv frame s) {c : Nat} (hc : c ∈ s.begun)
    (hinc : ¬Complete frame s c) (hholder : s.holder ≠ some c) : s.failed = true :=
  (hi.unfinished c hc hinc).2.resolve_left fun hw => hholder ((hi.held c).2 (by rw [hw]; rfl))

/-- Framed session output. In every reachable state the output is whole frames of
different calls followed by at most one proper prefix of a frame, and every call that
returned `Ok` has exactly its one frame among them. A given-up write has the flag up and
nothing follows it, and the flag is up before its lock is free or another call has it; a
call that returned an error, a timeout in the queue included, has the flag up; and while
the flag is up, no call that has yet to look at it under the lock ever writes or
succeeds. -/
theorem output_integrity (frame : Nat → Option (List UInt8)) (s : State)
    (h : Run (Step frame) State.initial s) :
    (∃ (whole : List Nat) (tail : List UInt8), whole.Nodup
      ∧ s.output = whole.flatMap (fun c => (frame c).getD []) ++ tail
      ∧ (tail = [] ∨ ∃ c f, frame c = some f ∧ c ∉ whole ∧ tail <+: f ∧ tail ≠ f)
      ∧ ∀ c, s.phase c = .returned .ok → c ∈ whole ∧ (frame c).isSome = true)
    ∧ (∀ c, Abandoned frame s c → s.failed = true ∧ ∀ t, Run (Step frame) s t → t.output = s.output)
    ∧ (∀ c ∈ s.begun, ¬Complete frame s c → s.holder ≠ some c → s.failed = true)
    ∧ (∀ c, (s.phase c).reported = true → s.failed = true)
    ∧ (s.failed = true → ∀ c, (s.phase c).early = true → s.phase c ≠ .checked →
      ∀ t, Run (Step frame) s t → c ∉ t.begun ∧ t.phase c ≠ .returned .ok) := by
  have hi := Inv.run h
  refine ⟨?_, ?_, fun c hc hinc hholder => hi.failed_before_handoff hc hinc hholder,
    hi.reported, ?_⟩
  · obtain ⟨whole, tail, hnd, _, hout, htail, hin⟩ := hi.frames
    refine ⟨whole, tail, hnd, hout, htail, ?_⟩
    intro c hc
    obtain ⟨hmem, hcomplete⟩ := hi.succeeds c (by rw [hc]; rfl)
    refine ⟨hin c hmem hcomplete, ?_⟩
    obtain ⟨f, hf, _⟩ := hcomplete
    rw [hf]
    rfl
  · intro c hc
    have hsealed := hi.sealed hc
    exact ⟨hsealed.1, fun t ht => Run.sealed ht hsealed⟩
  · intro hf c hearly hchk t ht
    have hb : Barred s c := by
      refine ⟨hi.early c hearly, ?_, hchk, ?_⟩
      · cases hp : s.phase c <;> simp_all [Phase.early, Phase.succeeds]
      · intro hw
        rw [hw] at hearly
        exact absurd hearly (by decide)
    obtain ⟨hnew, hsucc, _⟩ := Run.barred ht hf hb
    refine ⟨hnew, ?_⟩
    intro hok
    rw [hok] at hsucc
    exact absurd hsucc (by decide)

/-- A call whose two-byte frame is cut off after one byte. -/
def cutOff : State :=
  (((((State.initial.move 0 .queued false none).move 0 .holding false (some 0)).move 0 .checked
    false (some 0)).arm 0).write 0 1).move 0 (.leaving .failed) true (some 0)

theorem cutOff_run : Run (Step fun _ => some [1, 2]) State.initial cutOff := by
  refine ((((((Relation.ReflTransGen.refl.tail (.enqueue _ 0 rfl rfl)).tail
    (.acquire _ 0 rfl rfl)).tail (.recheck _ 0 rfl rfl)).tail (.arm _ 0 rfl)).tail
    (.write _ 0 [1, 2] 1 rfl rfl rfl)).tail (.interrupt _ 0 .failed rfl (.inl rfl)))

theorem cutOff_abandoned : Abandoned (fun _ => some [1, 2]) cutOff 0 := by
  refine ⟨List.mem_singleton_self 0, ?_, ?_⟩
  · rintro ⟨f, hf, hw⟩
    cases hf
    exact absurd hw (by decide)
  · exact fun h => by cases h

/-- Nothing follows the cut-off frame, and no other call succeeds any more. -/
theorem output_integrity_cutOff : cutOff.failed = true ∧
    ∀ t, Run (Step fun _ => some [1, 2]) cutOff t → t.output = [1] ∧ t.phase 1 ≠ .returned .ok := by
  obtain ⟨-, habandoned, -, -, hbarred⟩ := output_integrity _ cutOff cutOff_run
  obtain ⟨hfailed, hstill⟩ := habandoned 0 cutOff_abandoned
  exact ⟨hfailed, fun t ht => ⟨hstill t ht, (hbarred hfailed 1 rfl nofun t ht).2⟩⟩

/-- Three calls with frames of two bytes: call 2 has the lock, and the timer of call 0 has run
out behind it. -/
def timedOut : State :=
  ((((State.initial.move 2 .queued false none).move 2 .holding false (some 2)).move 0 .queued
    false (some 2)).move 1 .queued false (some 2)).move 0 (.left .timedOut) false (some 2)

theorem timedOut_run : Run (Step fun _ => some [1, 2]) State.initial timedOut :=
  ((((Relation.ReflTransGen.refl.tail (.enqueue _ 2 rfl rfl)).tail (.acquire _ 2 rfl rfl)).tail
    (.enqueue _ 0 rfl rfl)).tail (.enqueue _ 1 rfl rfl)).tail (.elapse _ 0 rfl)

/-- Before call 0 goes on, call 2 writes its frame and lets go: call 1 takes the lock with the flag
down. -/
def handedOn : State :=
  (((((((timedOut.move 2 .checked false (some 2)).arm 2).write 2 1).write 2 2).move 2 (.leaving .ok)
    false (some 2)).move 2 (.left .ok) false none).move 1 .holding false (some 1))

theorem handedOn_run : Run (Step fun _ => some [1, 2]) timedOut handedOn :=
  (((((((Relation.ReflTransGen.refl.tail (.recheck _ 2 rfl rfl)).tail (.arm _ 2 rfl)).tail
    (.write _ 2 [1, 2] 1 rfl rfl rfl)).tail (.write _ 2 [1, 2] 2 rfl rfl rfl)).tail
    (.complete _ 2 [1, 2] rfl rfl rfl)).tail (.release _ 2 .ok rfl)).tail (.acquire _ 1 rfl rfl))

/-- And it writes its whole frame. -/
def overtaken : State :=
  ((((((handedOn.move 1 .checked false (some 1)).arm 1).write 1 1).write 1 2).move 1 (.leaving .ok)
    false (some 1)).move 1 (.left .ok) false none).move 1 (.returned .ok) false none

theorem overtaken_run : Run (Step fun _ => some [1, 2]) handedOn overtaken :=
  ((((((Relation.ReflTransGen.refl.tail (.recheck _ 1 rfl rfl)).tail (.arm _ 1 rfl)).tail
    (.write _ 1 [1, 2] 1 rfl rfl rfl)).tail (.write _ 1 [1, 2] 2 rfl rfl rfl)).tail
    (.complete _ 1 [1, 2] rfl rfl rfl)).tail (.release _ 1 .ok rfl)).tail (.finish _ 1 .ok rfl)

/-- After a timeout in the queue the flag need not be up before another waiter has the lock: it
is down when call 1 takes the lock, and still down when that call has written its frame and
returned. -/
theorem waiter_before_flag :
    (¬∀ (frame : Nat → Option (List UInt8)) (s t : State) (c d : Nat),
      Run (Step frame) State.initial s → s.phase c = .left .timedOut → Run (Step frame) s t →
      s.phase d = .queued → t.holder = some d → t.failed = true) ∧
    Run (Step fun _ => some [1, 2]) handedOn overtaken ∧ overtaken.phase 0 = .left .timedOut ∧
      overtaken.phase 1 = .returned .ok ∧ overtaken.output = [1, 2, 1, 2] ∧
      overtaken.failed = false := by
  refine ⟨fun hflag => ?_, overtaken_run, rfl, rfl, rfl, rfl⟩
  have hup := hflag (fun _ => some [1, 2]) timedOut handedOn 0 1 timedOut_run rfl handedOn_run rfl rfl
  cases hup

end Eef.Node.SessionOutput
