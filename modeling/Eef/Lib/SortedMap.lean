import Eef.Lib.Assoc
import Mathlib.Data.List.Pairwise
import Mathlib.Data.Finset.Card
import Mathlib.Order.Defs.LinearOrder

/-!
# Ordered maps

`BTreeMap` as the list of its entries in the order of the keys. `insert` and `get?` follow the
usual rules (`get?_insert`), and a map is the one its entries build (`ofList_entries`), so a
document that lists them reads back as the same map.
-/

namespace Eef.Lib

variable {κ β : Type} [LinearOrder κ]

/-- `BTreeMap<K, V>`. -/
structure SortedMap (κ β : Type) [LinearOrder κ] where
  entries : List (κ × β)
  sorted : (entries.map Prod.fst).Pairwise (· < ·)

namespace SortedMap

instance [DecidableEq β] : DecidableEq (SortedMap κ β) := fun a b =>
  decidable_of_iff (a.entries = b.entries) (by cases a; cases b; simp)

/-- The entry for `k` goes where the order puts it. -/
def insertEntry (k : κ) (v : β) : List (κ × β) → List (κ × β)
  | [] => [(k, v)]
  | (a, b) :: m =>
    if k < a then (k, v) :: (a, b) :: m
    else if k = a then (k, v) :: m
    else (a, b) :: insertEntry k v m

theorem insertEntry_keys (k : κ) (v : β) (m : List (κ × β)) :
    ∀ a ∈ (insertEntry k v m).map Prod.fst, a = k ∨ a ∈ m.map Prod.fst := by
  induction m with
  | nil => simp [insertEntry]
  | cons e m ih =>
    obtain ⟨a, b⟩ := e
    intro c hc
    unfold insertEntry at hc
    split at hc
    · simpa using hc
    · split at hc
      · simp only [List.map_cons, List.mem_cons] at hc ⊢
        exact hc.imp id fun h => Or.inr h
      · simp only [List.map_cons, List.mem_cons] at hc ⊢
        rcases hc with rfl | hc
        · exact Or.inr (Or.inl rfl)
        · exact (ih c hc).imp id Or.inr

theorem insertEntry_sorted (k : κ) (v : β) {m : List (κ × β)}
    (h : (m.map Prod.fst).Pairwise (· < ·)) :
    ((insertEntry k v m).map Prod.fst).Pairwise (· < ·) := by
  induction m with
  | nil => simp [insertEntry]
  | cons e m ih =>
    obtain ⟨a, b⟩ := e
    simp only [List.map_cons, List.pairwise_cons] at h
    unfold insertEntry
    split
    · rename_i hka
      simp only [List.map_cons, List.pairwise_cons, List.mem_cons]
      refine ⟨?_, h.1, h.2⟩
      rintro c (rfl | hc)
      · exact hka
      · exact lt_trans hka (h.1 c hc)
    · rename_i hka
      split
      · rename_i hk
        subst hk
        simp only [List.map_cons, List.pairwise_cons]
        exact h
      · rename_i hne
        have hak : a < k := lt_of_le_of_ne (not_lt.mp hka) (fun e => hne e.symm)
        simp only [List.map_cons, List.pairwise_cons]
        refine ⟨fun c hc => ?_, ih h.2⟩
        rcases insertEntry_keys k v m c hc with rfl | hc
        · exact hak
        · exact h.1 c hc

/-- `BTreeMap::new`. -/
def empty : SortedMap κ β := ⟨[], by simp⟩

/-- `map.insert(k, v)`. -/
def insert (m : SortedMap κ β) (k : κ) (v : β) : SortedMap κ β :=
  ⟨insertEntry k v m.entries, insertEntry_sorted k v m.sorted⟩

/-- `map.get(k)`. -/
def get? (m : SortedMap κ β) (k : κ) : Option β := m.entries.lookup k

/-- The map with these entries. -/
def ofList : List (κ × β) → SortedMap κ β
  | [] => empty
  | (k, v) :: l => (ofList l).insert k v

@[simp]
theorem get?_empty (k : κ) : (empty : SortedMap κ β).get? k = none := rfl

theorem lookup_insertEntry (k j : κ) (v : β) (m : List (κ × β)) :
    (insertEntry k v m).lookup j = if j = k then some v else m.lookup j := by
  induction m with
  | nil => rw [insertEntry, Assoc.lookup_cons]
  | cons e m ih =>
    obtain ⟨a, b⟩ := e
    unfold insertEntry
    split
    · rw [Assoc.lookup_cons]
    · split
      · rename_i hk
        subst hk
        rw [Assoc.lookup_cons, Assoc.lookup_cons]
        by_cases h : j = k
        · simp [h]
        · simp [h]
      · rename_i hne
        rw [Assoc.lookup_cons, Assoc.lookup_cons, ih]
        by_cases h : j = a
        · have hak : a ≠ k := fun e => hne e.symm
          simp [h, hak]
        · simp [h]

theorem get?_insert (m : SortedMap κ β) (k j : κ) (v : β) :
    (m.insert k v).get? j = if j = k then some v else m.get? j :=
  lookup_insertEntry k j v m.entries

@[simp]
theorem get?_insert_self (m : SortedMap κ β) (k : κ) (v : β) :
    (m.insert k v).get? k = some v := by
  rw [get?_insert, if_pos rfl]

theorem insertEntry_head {k : κ} {v : β} {m : List (κ × β)}
    (h : ∀ a ∈ m.map Prod.fst, k < a) : insertEntry k v m = (k, v) :: m := by
  cases m with
  | nil => rfl
  | cons e m =>
    obtain ⟨a, b⟩ := e
    unfold insertEntry
    rw [if_pos (h a (by simp))]

/-- A map is the one that its entries build. -/
theorem ofList_entries (m : SortedMap κ β) : ofList m.entries = m := by
  obtain ⟨entries, sorted⟩ := m
  induction entries with
  | nil => rfl
  | cons e l ih =>
    obtain ⟨k, v⟩ := e
    simp only [List.map_cons, List.pairwise_cons] at sorted
    show (ofList l).insert k v = _
    rw [ih sorted.2]
    simp only [insert, mk.injEq]
    exact insertEntry_head sorted.1

/-- The keys in order. -/
def keys (m : SortedMap κ β) : List κ := m.entries.map Prod.fst

theorem mem_insertEntry (k a : κ) (v : β) (m : List (κ × β)) :
    a ∈ (insertEntry k v m).map Prod.fst ↔ a = k ∨ a ∈ m.map Prod.fst := by
  refine ⟨insertEntry_keys k v m a, ?_⟩
  induction m with
  | nil =>
    rintro (h | h)
    · exact List.mem_singleton.mpr h
    · exact absurd h List.not_mem_nil
  | cons e m ih =>
    obtain ⟨b, c⟩ := e
    unfold insertEntry
    split
    · simp only [List.map_cons, List.mem_cons]
      exact id
    · split
      · rename_i hk
        simp only [List.map_cons, List.mem_cons]
        rintro (h | h | h)
        · exact Or.inl h
        · exact Or.inl (h.trans hk.symm)
        · exact Or.inr h
      · simp only [List.map_cons, List.mem_cons] at ih ⊢
        rintro (h | h | h)
        · exact Or.inr (ih (Or.inl h))
        · exact Or.inl h
        · exact Or.inr (ih (Or.inr h))

@[simp]
theorem mem_keys_insert (m : SortedMap κ β) (k a : κ) (v : β) :
    a ∈ (m.insert k v).keys ↔ a = k ∨ a ∈ m.keys := mem_insertEntry k a v m.entries

theorem keys_nodup (m : SortedMap κ β) : m.keys.Nodup :=
  m.sorted.imp fun h => ne_of_lt h

theorem get?_none_iff (m : SortedMap κ β) (k : κ) : m.get? k = none ↔ k ∉ m.keys := by
  show m.entries.lookup k = none ↔ k ∉ m.entries.map Prod.fst
  rw [List.lookup_eq_none_iff]
  constructor
  · intro h hk
    obtain ⟨e, he, heq⟩ := List.mem_map.mp hk
    have := h e he
    rw [← heq] at this
    simp at this
  · intro h e he
    by_contra hne
    have hk : k = e.1 := by simpa using hne
    exact h (hk ▸ List.mem_map_of_mem he)

theorem insertEntry_length (k : κ) (v : β) (m : List (κ × β)) :
    (insertEntry k v m).length ≤ m.length + 1 := by
  induction m with
  | nil => exact Nat.le_refl 1
  | cons e m ih =>
    unfold insertEntry
    split
    · exact Nat.le_refl _
    · split
      · exact Nat.le_succ _
      · exact Nat.succ_le_succ ih

theorem length_insert_le (m : SortedMap κ β) (k : κ) (v : β) :
    (m.insert k v).entries.length ≤ m.entries.length + 1 := insertEntry_length k v m.entries

/-- As many entries as there are keys. -/
theorem length_eq_card (m : SortedMap κ β) : m.entries.length = m.keys.toFinset.card := by
  rw [List.toFinset_card_of_nodup m.keys_nodup]
  exact (List.length_map Prod.fst).symm

/-- A key that is there is written over. -/
theorem length_insert_of_mem (m : SortedMap κ β) {k : κ} (v : β) (h : k ∈ m.keys) :
    (m.insert k v).entries.length = m.entries.length := by
  rw [length_eq_card, length_eq_card]
  congr 1
  ext a
  rw [List.mem_toFinset, List.mem_toFinset, mem_keys_insert]
  constructor
  · rintro (rfl | ha)
    · exact h
    · exact ha
  · exact Or.inr

theorem mem_of_get? {m : SortedMap κ β} {k : κ} {v : β} (h : m.get? k = some v) :
    (k, v) ∈ m.entries := Assoc.mem_of_lookup h

/-- `map.remove(k)`. -/
def erase (m : SortedMap κ β) (k : κ) : SortedMap κ β where
  entries := m.entries.filter fun e => decide (e.1 ≠ k)
  sorted := m.sorted.sublist (List.filter_sublist.map Prod.fst)

theorem get?_erase (m : SortedMap κ β) (k j : κ) :
    (m.erase k).get? j = if j = k then none else m.get? j := Assoc.lookup_erase k j m.entries

end SortedMap

end Eef.Lib
