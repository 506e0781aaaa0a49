import Mathlib.Data.List.Basic
import Mathlib.Data.Nat.Basic
import Mathlib.Algebra.Group.Nat.Defs
import Eef.Lib.Result

/-!
# Code that may panic

A function of the sources that slices bytes or calculates with machine integers can stop in two
ways: with an error it returns, or with a panic at an index out of range or an overflow. Here a
slice and an operation of a given width panic exactly where the source would, and `Safe` is that a
run does not. A body is shown safe line by line with `Safe.bind`, which hands the values of the
lines before it to the next one.
-/

namespace Eef.Lib

/-- How a run stops without a value. -/
inductive Fault where
  | error (msg : String)
  | panic
  deriving DecidableEq, Repr

/-- A run that may panic. -/
abbrev Checked (α : Type) := Except Fault α

namespace Checked

variable {α β : Type}

/-- `if c { bail!(msg) }`. -/
def bailIf (c : Prop) [Decidable c] (msg : String) : Checked Unit :=
  if c then .error (.error msg) else .ok ()

/-- `option.context(msg)?`. -/
def context (o : Option α) (msg : String) : Checked α :=
  match o with
  | some a => .ok a
  | none => .error (.error msg)

/-- `xs.get(a..b)`. -/
def get (xs : List α) (a b : Nat) : Option (List α) :=
  if a ≤ b ∧ b ≤ xs.length then some ((xs.drop a).take (b - a)) else none

/-- `xs[a..b]`. -/
def slice (xs : List α) (a b : Nat) : Checked (List α) :=
  match get xs a b with
  | some ys => .ok ys
  | none => .error .panic

/-- `x.checked_add(y)` at `w` bits. -/
def checkedAdd (w x y : Nat) : Option Nat := if x + y < 2 ^ w then some (x + y) else none

/-- `x + y` at `w` bits. -/
def add (w x y : Nat) : Checked Nat := if x + y < 2 ^ w then .ok (x + y) else .error .panic

/-- `x * y` at `w` bits. -/
def mul (w x y : Nat) : Checked Nat := if x * y < 2 ^ w then .ok (x * y) else .error .panic

/-- `x - y`. -/
def sub (x y : Nat) : Checked Nat := if y ≤ x then .ok (x - y) else .error .panic

/-- `x % y`. -/
def rem (x y : Nat) : Checked Nat := if y ≠ 0 then .ok (x % y) else .error .panic

/-- `x / y`. -/
def div (x y : Nat) : Checked Nat := if y ≠ 0 then .ok (x / y) else .error .panic

/-! ## What a run that returns has done -/

theorem bind_ok {x : Checked α} {f : α → Checked β} {b : β} :
    (x >>= f) = .ok b ↔ ∃ a, x = .ok a ∧ f a = .ok b := by
  cases x with
  | error e => exact ⟨nofun, fun ⟨_, h, _⟩ => nomatch h⟩
  | ok a =>
    constructor
    · exact fun h => ⟨a, rfl, h⟩
    · rintro ⟨_, ⟨⟩, h⟩
      exact h

theorem pure_ok {a b : α} : (pure a : Checked α) = .ok b ↔ a = b :=
  ⟨fun h => Except.ok.inj h, fun h => h ▸ rfl⟩

theorem bailIf_ok {c : Prop} [Decidable c] {msg : String} {u : Unit} :
    bailIf c msg = .ok u ↔ ¬c := by
  unfold bailIf
  split
  · rename_i h
    exact ⟨nofun, fun hn => absurd h hn⟩
  · rename_i h
    exact ⟨fun _ => h, fun _ => rfl⟩

theorem context_ok {o : Option α} {msg : String} {a : α} :
    context o msg = .ok a ↔ o = some a := by
  cases o with
  | none => exact ⟨nofun, nofun⟩
  | some b => exact ⟨fun h => congrArg some (Except.ok.inj h), fun h => by cases h; rfl⟩

theorem get_some {xs ys : List α} {a b : Nat} :
    get xs a b = some ys ↔ a ≤ b ∧ b ≤ xs.length ∧ ys = (xs.drop a).take (b - a) := by
  unfold get
  split
  · rename_i h
    rw [Option.some.injEq]
    exact ⟨fun he => ⟨h.1, h.2, he.symm⟩, fun he => he.2.2.symm⟩
  · rename_i h
    exact ⟨nofun, fun he => absurd ⟨he.1, he.2.1⟩ h⟩

theorem slice_ok {xs ys : List α} {a b : Nat} :
    slice xs a b = .ok ys ↔ a ≤ b ∧ b ≤ xs.length ∧ ys = (xs.drop a).take (b - a) := by
  rw [← get_some]
  unfold slice
  cases get xs a b with
  | none => exact ⟨nofun, nofun⟩
  | some zs => exact ⟨fun h => congrArg some (Except.ok.inj h), fun h => by cases h; rfl⟩

theorem checkedAdd_some {w x y z : Nat} :
    checkedAdd w x y = some z ↔ x + y < 2 ^ w ∧ z = x + y := by
  unfold checkedAdd
  split
  · rename_i h
    rw [Option.some.injEq]
    exact ⟨fun he => ⟨h, he.symm⟩, fun he => he.2.symm⟩
  · rename_i h
    exact ⟨nofun, fun he => absurd he.1 h⟩

/-- An operation that panics outside its range. -/
theorem ite_ok {c : Prop} [Decidable c] {a b : α} :
    (if c then .ok a else .error .panic : Checked α) = .ok b ↔ c ∧ b = a := by
  split
  · rename_i h
    exact ⟨fun he => ⟨h, (Except.ok.inj he).symm⟩, fun he => by rw [he.2]⟩
  · rename_i h
    exact ⟨nofun, fun he => absurd he.1 h⟩

theorem add_ok {w x y z : Nat} : add w x y = .ok z ↔ x + y < 2 ^ w ∧ z = x + y := ite_ok

theorem mul_ok {w x y z : Nat} : mul w x y = .ok z ↔ x * y < 2 ^ w ∧ z = x * y := ite_ok

theorem sub_ok {x y z : Nat} : sub x y = .ok z ↔ y ≤ x ∧ z = x - y := ite_ok

theorem rem_ok {x y z : Nat} : rem x y = .ok z ↔ y ≠ 0 ∧ z = x % y := ite_ok

theorem div_ok {x y z : Nat} : div x y = .ok z ↔ y ≠ 0 ∧ z = x / y := ite_ok

/-! ## Runs that do not panic -/

/-- The run does not panic. -/
def Safe (x : Checked α) : Prop := x ≠ .error .panic

theorem Safe.ok (a : α) : Safe (.ok a) := nofun

theorem Safe.of_ok {x : Checked α} {a : α} (h : x = .ok a) : Safe x := h ▸ Safe.ok a

theorem Safe.bind {x : Checked α} {f : α → Checked β} (hx : Safe x)
    (hf : ∀ a, x = .ok a → Safe (f a)) : Safe (x >>= f) := by
  cases x with
  | error e => exact fun h => hx (congrArg Except.error (Except.error.inj h))
  | ok a => exact hf a rfl

theorem Safe.bailIf (c : Prop) [Decidable c] (msg : String) : Safe (bailIf c msg) := by
  unfold Checked.bailIf
  split
  · exact nofun
  · exact nofun

theorem Safe.context (o : Option α) (msg : String) : Safe (context o msg) := by
  cases o with
  | none => exact nofun
  | some a => exact nofun

theorem Safe.slice {xs : List α} {a b : Nat} (hab : a ≤ b) (hb : b ≤ xs.length) :
    Safe (slice xs a b) := .of_ok (slice_ok.mpr ⟨hab, hb, rfl⟩)

theorem Safe.add {w x y : Nat} (h : x + y < 2 ^ w) : Safe (add w x y) :=
  .of_ok (add_ok.mpr ⟨h, rfl⟩)

theorem Safe.mul {w x y : Nat} (h : x * y < 2 ^ w) : Safe (mul w x y) :=
  .of_ok (mul_ok.mpr ⟨h, rfl⟩)

theorem Safe.sub {x y : Nat} (h : y ≤ x) : Safe (sub x y) := .of_ok (sub_ok.mpr ⟨h, rfl⟩)

theorem Safe.rem {x y : Nat} (h : y ≠ 0) : Safe (rem x y) := .of_ok (rem_ok.mpr ⟨h, rfl⟩)

theorem Safe.div {x y : Nat} (h : y ≠ 0) : Safe (div x y) := .of_ok (div_ok.mpr ⟨h, rfl⟩)

end Checked

end Eef.Lib
