import Mathlib.Data.List.Pairwise
import Mathlib.Order.Lattice

/-!
# Ordered sets

`BTreeSet` as the list of its items in order. An item is inserted where the order puts it, `retain`
keeps the order, and two sets with the same items are equal (`ext`).
-/

namespace Eef.Lib

variable {κ : Type} [LinearOrder κ]

/-- `BTreeSet<K>`. -/
structure SortedSet (κ : Type) [LinearOrder κ] where
  items : List κ
  sorted : items.Pairwise (· < ·)

namespace SortedSet

instance : DecidableEq (SortedSet κ) := fun a b =>
  decidable_of_iff (a.items = b.items) (by cases a; cases b; simp)

instance : Membership κ (SortedSet κ) := ⟨fun s k => k ∈ s.items⟩

instance (k : κ) (s : SortedSet κ) : Decidable (k ∈ s) := inferInstanceAs (Decidable (k ∈ s.items))

theorem mem_items {k : κ} {s : SortedSet κ} : k ∈ s.items ↔ k ∈ s := Iff.rfl

/-- `BTreeSet::new`. -/
def empty : SortedSet κ := ⟨[], List.Pairwise.nil⟩

theorem not_mem_empty (k : κ) : k ∉ (empty : SortedSet κ) := List.not_mem_nil

/-- The item goes where the order puts it. -/
def insertItem (k : κ) : List κ → List κ
  | [] => [k]
  | a :: s => if k < a then k :: a :: s else if k = a then a :: s else a :: insertItem k s

theorem mem_insertItem {k j : κ} {s : List κ} : j ∈ insertItem k s ↔ j = k ∨ j ∈ s := by
  induction s with
  | nil => rw [insertItem, List.mem_singleton, or_iff_left List.not_mem_nil]
  | cons a s ih =>
    unfold insertItem
    by_cases hlt : k < a
    · rw [if_pos hlt, List.mem_cons]
    · rw [if_neg hlt]
      by_cases heq : k = a
      · rw [if_pos heq, heq]
        constructor
        · exact .inr
        · intro h
          rcases h with h | h
          · exact h ▸ List.mem_cons_self ..
          · exact h
      · rw [if_neg heq, List.mem_cons, ih, List.mem_cons]
        exact or_left_comm

theorem insertItem_sorted {k : κ} {s : List κ} (h : s.Pairwise (· < ·)) :
    (insertItem k s).Pairwise (· < ·) := by
  induction s with
  | nil => exact List.pairwise_singleton _ _
  | cons a s ih =>
    obtain ⟨hhead, htail⟩ := List.pairwise_cons.mp h
    unfold insertItem
    by_cases hlt : k < a
    · rw [if_pos hlt, List.pairwise_cons]
      refine ⟨?_, h⟩
      intro j hj
      rcases List.mem_cons.mp hj with rfl | hj
      · exact hlt
      · exact lt_trans hlt (hhead j hj)
    · rw [if_neg hlt]
      by_cases heq : k = a
      · rw [if_pos heq]
        exact h
      · rw [if_neg heq, List.pairwise_cons]
        refine ⟨?_, ih htail⟩
        intro j hj
        rcases mem_insertItem.mp hj with rfl | hj
        · exact lt_of_le_of_ne (not_lt.mp hlt) (Ne.symm heq)
        · exact hhead j hj

/-- `BTreeSet::insert`. -/
def insert (s : SortedSet κ) (k : κ) : SortedSet κ := ⟨insertItem k s.items, insertItem_sorted s.sorted⟩

theorem mem_insert {k j : κ} {s : SortedSet κ} : j ∈ s.insert k ↔ j = k ∨ j ∈ s := mem_insertItem

theorem length_insert_le (s : SortedSet κ) (k : κ) :
    (s.insert k).items.length ≤ s.items.length + 1 := by
  show (insertItem k s.items).length ≤ s.items.length + 1
  induction s.items with
  | nil => exact Nat.le_refl _
  | cons a t ih =>
    unfold insertItem
    split
    · exact Nat.le_refl _
    · split
      · exact Nat.le_succ _
      · exact Nat.succ_le_succ ih

/-- `BTreeSet::retain`. -/
def retain (s : SortedSet κ) (p : κ → Bool) : SortedSet κ := ⟨s.items.filter p, s.sorted.filter p⟩

theorem mem_retain {k : κ} {s : SortedSet κ} {p : κ → Bool} : k ∈ s.retain p ↔ k ∈ s ∧ p k = true :=
  List.mem_filter

/-- `BTreeSet::extend`. -/
def extend (s : SortedSet κ) (ks : List κ) : SortedSet κ := ks.foldl insert s

theorem mem_extend {k : κ} {ks : List κ} {s : SortedSet κ} : k ∈ s.extend ks ↔ k ∈ s ∨ k ∈ ks := by
  induction ks generalizing s with
  | nil => exact (or_iff_left List.not_mem_nil).symm
  | cons a ks ih =>
    show k ∈ (s.insert a).extend ks ↔ _
    rw [ih, mem_insert, List.mem_cons, or_assoc, or_left_comm]

/-- Sets with the same items are the same. -/
theorem ext {s t : SortedSet κ} (h : ∀ k, k ∈ s ↔ k ∈ t) : s = t := by
  obtain ⟨xs, hxs⟩ := s
  obtain ⟨ys, hys⟩ := t
  have heq : xs = ys := by
    refine List.Perm.eq_of_pairwise (fun a b _ _ hab hba => absurd hab (lt_asymm hba)) hxs hys ?_
    exact (List.perm_ext_iff_of_nodup (hxs.imp ne_of_lt) (hys.imp ne_of_lt)).mpr h
  subst heq
  rfl

/-- A set of one item at most. -/
theorem length_le_one {s : SortedSet κ} {k : κ} (h : ∀ j ∈ s.items, j = k) : s.items.length ≤ 1 := by
  refine Nat.not_lt.mp fun hlt => ?_
  have hless := List.pairwise_iff_getElem.mp s.sorted 0 1 (by omega) hlt Nat.zero_lt_one
  rw [h _ (List.getElem_mem _), h _ (List.getElem_mem hlt)] at hless
  exact lt_irrefl k hless

end SortedSet

end Eef.Lib
