import Mathlib.Data.List.MinMax
import Mathlib.Data.List.Nodup
import Mathlib.Order.Nat

/-!
# Lists that grow, entry by entry

Histories are lists to which entries are appended. What was said of an entry by its place stays so
(`getElem?_prefix`), a test of all entries is one of the first and of the rest (`forall_getElem?_cons`),
and identifiers that are counted from one are as many as the largest says (`largest_eq`).
-/

namespace Eef.Lib.Lists

theorem nodup_append_singleton {α : Type} {seen : List α} {x : α} :
    (seen ++ [x]).Nodup ↔ seen.Nodup ∧ x ∉ seen := by
  rw [← List.concat_eq_append, List.nodup_concat]
  exact And.comm

/-- The tests of a list, entry by entry. -/
theorem forall_getElem?_cons {α : Type} {P : Nat → α → Prop} {k : Nat} {a : α} {as : List α} :
    (∀ i b, (a :: as)[i]? = some b → P (k + i) b) ↔
      P k a ∧ ∀ i b, as[i]? = some b → P (k + 1 + i) b := by
  constructor
  · intro h
    refine ⟨h 0 a rfl, fun i b hb => ?_⟩
    rw [Nat.add_assoc, Nat.add_comm 1]
    exact h (i + 1) b hb
  · intro h i b hb
    cases i with
    | zero =>
      cases hb
      exact h.1
    | succ i =>
      rw [Nat.add_comm i, ← Nat.add_assoc]
      exact h.2 i b hb

theorem getElem?_prefix {α : Type} {xs ys : List α} (h : xs <+: ys) {i : Nat} {x : α}
    (hx : xs[i]? = some x) : ys[i]? = some x := by
  obtain ⟨zs, rfl⟩ := h
  rw [List.getElem?_append_left (List.getElem?_eq_some_iff.mp hx).1]
  exact hx

/-- Rows that are changed without becoming relevant. -/
theorem filter_map_sublist {α β γ : Type} {p : β → Bool} {g : β → γ} {f f' : α → β} :
    ∀ {l : List α}, (∀ a ∈ l, p (f' a) = true → p (f a) = true ∧ g (f' a) = g (f a)) →
      (((l.map f').filter p).map g).Sublist (((l.map f).filter p).map g)
  | [], _ => .slnil
  | a :: l, h => by
    rw [List.forall_mem_cons] at h
    have ih := filter_map_sublist h.2
    rw [List.map_cons, List.map_cons]
    by_cases hnew : p (f' a) = true
    · obtain ⟨hold, heq⟩ := h.1 hnew
      rw [List.filter_cons_of_pos hnew, List.filter_cons_of_pos hold, List.map_cons, List.map_cons, heq]
      exact ih.cons_cons _
    · rw [List.filter_cons_of_neg hnew]
      by_cases hold : p (f a) = true
      · rw [List.filter_cons_of_pos hold, List.map_cons]
        exact ih.cons _
      · rw [List.filter_cons_of_neg hold]
        exact ih

/-- No number of a list is above the largest. -/
theorem le_largest {l : List Nat} {n : Nat} (h : n ∈ l) : n ≤ l.foldr max 0 :=
  List.le_max_of_le h (Nat.le_refl n)

/-- The largest of the numbers from one on is how many there are. -/
theorem largest_eq {l : List Nat} (h : l.Perm (List.range' 1 l.length)) :
    l.foldr max 0 = l.length := by
  refine Nat.le_antisymm (List.max_le_of_forall_le l l.length fun n hn => ?_) ?_
  · have := List.mem_range'_1.mp (h.subset hn)
    omega
  · by_cases hzero : l.length = 0
    · omega
    · exact le_largest (h.symm.subset (List.mem_range'_1.mpr ⟨by omega, by omega⟩))

end Eef.Lib.Lists
