import Mathlib.Data.List.Basic

/-!
# Association lists

The sources' `BTreeMap`s, as lists of key/value pairs read by `List.lookup`:
`set` is `insert`, `erase` is `remove`. `lookup_set` and `lookup_erase` follow a
map through an update.
-/

namespace Eef.Lib.Assoc

variable {κ β : Type} [DecidableEq κ]

/-- `map.insert(k, v)`. -/
def set (k : κ) (v : β) : List (κ × β) → List (κ × β)
  | [] => [(k, v)]
  | (a, b) :: m => if a = k then (k, v) :: m else (a, b) :: set k v m

/-- `map.remove(k)`. -/
def erase (k : κ) (m : List (κ × β)) : List (κ × β) := m.filter fun p => p.1 ≠ k

theorem lookup_cons (k a : κ) (b : β) (m : List (κ × β)) :
    ((a, b) :: m).lookup k = if k = a then some b else m.lookup k := by
  rw [List.lookup_cons]
  by_cases h : k = a
  · simp [h]
  · simp [h, beq_eq_false_iff_ne.mpr h]

theorem mem_of_lookup {k : κ} {v : β} : ∀ {m : List (κ × β)}, m.lookup k = some v → (k, v) ∈ m
  | (a, b) :: m, h => by
    rw [lookup_cons] at h
    split at h
    · rename_i hk
      cases h
      exact hk ▸ List.mem_cons_self ..
    · exact List.mem_cons_of_mem _ (mem_of_lookup h)

theorem lookup_eq_some_iff {k : κ} {v : β} : ∀ {m : List (κ × β)}, (m.map Prod.fst).Nodup →
    (m.lookup k = some v ↔ (k, v) ∈ m)
  | [], _ => by simp
  | (a, b) :: m, h => by
    rw [List.map_cons, List.nodup_cons] at h
    rw [lookup_cons, List.mem_cons, Prod.mk.injEq]
    split
    · rename_i hk
      subst hk
      have hnot : (k, v) ∉ m := fun hm => h.1 (List.mem_map.2 ⟨(k, v), hm, rfl⟩)
      simp [hnot, eq_comm]
    · rename_i hk
      simp [hk, lookup_eq_some_iff h.2]

theorem lookup_isSome {k : κ} {m : List (κ × β)} (h : (m.lookup k).isSome) :
    k ∈ m.map Prod.fst := by
  obtain ⟨v, hv⟩ := Option.isSome_iff_exists.1 h
  exact List.mem_map_of_mem (mem_of_lookup hv)

theorem lookup_set (k j : κ) (v : β) (m : List (κ × β)) :
    (set k v m).lookup j = if j = k then some v else m.lookup j := by
  induction m with
  | nil => rw [set, lookup_cons]
  | cons p m ih =>
    obtain ⟨a, b⟩ := p
    rw [set]
    by_cases hak : a = k
    · subst hak
      rw [if_pos rfl, lookup_cons, lookup_cons]
      by_cases hj : j = a <;> simp [hj]
    · rw [if_neg hak, lookup_cons, lookup_cons, ih]
      by_cases hja : j = a
      · have hjk : j ≠ k := fun e => hak (hja ▸ e)
        simp [hja, hak]
      · simp [hja]

theorem lookup_erase (k j : κ) (m : List (κ × β)) :
    (erase k m).lookup j = if j = k then none else m.lookup j := by
  induction m with
  | nil => simp [erase]
  | cons p m ih =>
    obtain ⟨a, b⟩ := p
    unfold erase at ih ⊢
    rw [List.filter_cons]
    by_cases hak : a = k
    · subst hak
      simp only [ne_eq, not_true_eq_false, decide_false, Bool.false_eq_true, if_false]
      rw [ih, lookup_cons]
      by_cases hj : j = a <;> simp [hj]
    · simp only [ne_eq, hak, not_false_eq_true, decide_true, if_true]
      rw [lookup_cons, ih, lookup_cons]
      by_cases hja : j = a
      · simp [hja, hak]
      · simp [hja]

theorem lookup_map {γ : Type} (f : κ → β → γ) (k : κ) :
    ∀ m : List (κ × β), (m.map fun e => (e.1, f e.1 e.2)).lookup k = (m.lookup k).map (f k)
  | [] => rfl
  | (a, b) :: m => by
    rw [List.map_cons, lookup_cons, lookup_cons, lookup_map f k m]
    by_cases h : k = a
    · simp [h]
    · simp [h]

/-- Replacing a value leaves the keys as they are. -/
theorem map_fst_set {k : κ} {v u : β} : ∀ {m : List (κ × β)}, m.lookup k = some u →
    (set k v m).map Prod.fst = m.map Prod.fst
  | [], h => by cases h
  | (a, b) :: m, h => by
    rw [lookup_cons] at h
    by_cases hk : a = k
    · simp [set, hk]
    · rw [if_neg fun e => hk e.symm] at h
      simp [set, hk, map_fst_set h]

theorem mem_set {k : κ} {v : β} {e : κ × β} : ∀ {m : List (κ × β)}, e ∈ set k v m →
    e = (k, v) ∨ e ∈ m
  | [], h => Or.inl (List.mem_singleton.mp h)
  | (a, b) :: m, h => by
    rw [set] at h
    split at h
    · rcases List.mem_cons.mp h with h | h
      · exact Or.inl h
      · exact Or.inr (List.mem_cons_of_mem _ h)
    · rcases List.mem_cons.mp h with h | h
      · exact Or.inr (h ▸ List.mem_cons_self ..)
      · rcases mem_set h with h | h
        · exact Or.inl h
        · exact Or.inr (List.mem_cons_of_mem _ h)

theorem length_set {k : κ} {v : β} {m : List (κ × β)} (h : m.lookup k = none) :
    (set k v m).length = m.length + 1 := by
  induction m with
  | nil => rfl
  | cons p m ih =>
    obtain ⟨a, b⟩ := p
    rw [lookup_cons] at h
    split at h
    · cases h
    · rename_i hk
      rw [set, if_neg (Ne.symm hk), List.length_cons, ih h, List.length_cons]

end Eef.Lib.Assoc
