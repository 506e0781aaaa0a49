import Mathlib.Order.Basic

/-!
# Fallible code and its inversion rules

The sources return `anyhow::Result`; here a fallible function returns
`Except String`, with the text the source fails with. Three facts are used
everywhere above this file:

* `bind_ok` — a `do` block succeeds exactly when its first line and its
  continuation do, so a whole function body comes apart by `obtain`;
* `ensure_ok` — `ensure!(c, msg)` succeeds exactly when `c` holds;
* `context_ok` — an `Option` with `.context(msg)?` succeeds exactly on `some`.

`Except.isOk` (`is_ok()`) turns a validation into the `Bool` the sources branch
on.
-/

namespace Eef.Lib

/-- A source function's `Result`, failing with the source's own message. -/
abbrev Result (α : Type) := Except String α

variable {α β : Type}

/-- `ensure!(c, msg)`. -/
def ensure (c : Prop) [Decidable c] (msg : String) : Result Unit :=
  if c then .ok () else .error msg

/-- `bail!(msg)` under a condition: `if c { bail!(msg) }`. -/
def bailIf (c : Prop) [Decidable c] (msg : String) : Result Unit :=
  if c then .error msg else .ok ()

/-- `option.context(msg)?`. -/
def context (o : Option α) (msg : String) : Result α :=
  match o with
  | some a => .ok a
  | none => .error msg

/-- `result.is_ok()`. -/
def isOk (r : Result α) : Bool :=
  match r with
  | .ok _ => true
  | .error _ => false

theorem bind_ok {x : Result α} {f : α → Result β} {b : β} :
    (x >>= f) = .ok b ↔ ∃ a, x = .ok a ∧ f a = .ok b := by
  cases x <;> simp [bind, Except.bind]

theorem ok_bind {a : α} {f : α → Result β} : ((.ok a : Result α) >>= f) = f a := rfl

theorem error_bind {msg : String} {f : α → Result β} :
    ((.error msg : Result α) >>= f) = .error msg := rfl

theorem pure_ok {a b : α} : (pure a : Result α) = .ok b ↔ a = b := by
  simp [pure, Except.pure]

theorem ensure_ok {c : Prop} [Decidable c] {msg : String} {u : Unit} :
    ensure c msg = .ok u ↔ c := by
  unfold ensure
  split <;> simp_all

theorem bailIf_ok {c : Prop} [Decidable c] {msg : String} {u : Unit} :
    bailIf c msg = .ok u ↔ ¬c := by
  unfold bailIf
  split <;> simp_all

theorem bailIf_error {c : Prop} [Decidable c] {msg : String} {f : Unit → Result α} (h : c) :
    (bailIf c msg >>= f) = .error msg := by
  rw [bailIf, if_pos h]
  rfl

theorem bailIf_pass {c : Prop} [Decidable c] {msg : String} {f : Unit → Result α} (h : ¬c) :
    (bailIf c msg >>= f) = f () := by
  rw [bailIf, if_neg h]
  rfl

theorem context_ok {o : Option α} {msg : String} {a : α} :
    context o msg = .ok a ↔ o = some a := by
  cases o <;> simp [context]

theorem isOk_iff {r : Result α} : isOk r = true ↔ ∃ a, r = .ok a := by
  cases r <;> simp [isOk]

theorem isOk_unit {r : Result Unit} : isOk r = true ↔ r = .ok () := by
  cases r <;> simp [isOk]

/-- Running `f` on each element in order, stopping at the first failure: the
shape of every validating `for` loop of the sources that keeps no state. -/
def each (f : α → Result Unit) : List α → Result Unit
  | [] => .ok ()
  | a :: l => do
    f a
    each f l

theorem each_ok {f : α → Result Unit} :
    ∀ {l : List α} {u : Unit}, each f l = .ok u ↔ ∀ a ∈ l, f a = .ok ()
  | [], _ => by simp [each]
  | a :: l, u => by
    simp only [each, bind_ok, each_ok (l := l), List.mem_cons, forall_eq_or_imp]
    constructor
    · rintro ⟨_, ha, hl⟩
      exact ⟨ha, hl⟩
    · rintro ⟨ha, hl⟩
      exact ⟨(), ha, hl⟩

end Eef.Lib
