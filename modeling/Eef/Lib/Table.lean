import Mathlib.Data.List.Nodup
import Mathlib.Data.List.Sort

/-!
# Tables with a unique column

A table is a list of rows, `key` its unique column. `find` is `SELECT .. WHERE
key=?`, `update` is `UPDATE .. WHERE`, and inserting appends a row whose key is
not there yet. `Keyed` says the column is unique; the lemmas follow `find`,
membership and `Keyed` through the two statements. An update that leaves keys alone
changes what `find` returns row by row (`find_update`), which is what a frame
argument about the other rows needs.
-/

namespace Eef.Lib.Table

variable {ρ κ : Type} [DecidableEq κ] {key : ρ → κ}

/-- The row with key `k`. -/
def find (key : ρ → κ) (k : κ) (rows : List ρ) : Option ρ := rows.find? fun r => key r = k

/-- Apply `f` to the rows that match. -/
def update (p : ρ → Bool) (f : ρ → ρ) (rows : List ρ) : List ρ :=
  rows.map fun r => if p r then f r else r

/-- The key column is unique. -/
def Keyed (key : ρ → κ) (rows : List ρ) : Prop := (rows.map key).Nodup

theorem find_some {k : κ} {rows : List ρ} {r : ρ} (h : find key k rows = some r) :
    r ∈ rows ∧ key r = k := by
  refine ⟨List.mem_of_find?_eq_some h, ?_⟩
  simpa using List.find?_some h

theorem find_none {k : κ} {rows : List ρ} : find key k rows = none ↔ ∀ r ∈ rows, key r ≠ k := by
  simp [find]

theorem find_mem {k : κ} {rows : List ρ} {r : ρ} (h : find key k rows = some r) :
    k ∈ rows.map key := by
  obtain ⟨hmem, hkey⟩ := find_some h
  exact List.mem_map.mpr ⟨r, hmem, hkey⟩

/-- Rows that are appended do not change what was found before. -/
theorem find_prefix {k : κ} {rows later : List ρ} {r : ρ} (h : rows <+: later)
    (hr : find key k rows = some r) : find key k later = some r := by
  obtain ⟨zs, rfl⟩ := h
  rw [find] at hr
  rw [find, List.find?_append, hr]
  rfl

theorem find_of_mem {rows : List ρ} (hk : Keyed key rows) {r : ρ} (h : r ∈ rows) :
    find key (key r) rows = some r := by
  cases hf : find key (key r) rows with
  | none => exact absurd rfl (find_none.mp hf r h)
  | some s =>
    obtain ⟨hs, hkey⟩ := find_some hf
    rw [List.inj_on_of_nodup_map hk hs h hkey]

omit [DecidableEq κ] in
/-- Two rows of a keyed table with one key are the same row. -/
theorem Keyed.eq {rows : List ρ} (hk : Keyed key rows) {r s : ρ} (hr : r ∈ rows) (hs : s ∈ rows)
    (h : key r = key s) : r = s := List.inj_on_of_nodup_map hk hr hs h

theorem find_insert (k : κ) (rows : List ρ) (r : ρ) :
    find key k (rows ++ [r]) = (find key k rows).or (if key r = k then some r else none) := by
  simp only [find, List.find?_append, List.find?_cons, List.find?_nil]
  split <;> simp_all

theorem find_insert_of_ne {k : κ} {rows : List ρ} {r : ρ} (h : key r ≠ k) :
    find key k (rows ++ [r]) = find key k rows := by
  rw [find_insert, if_neg h, Option.or_none]

theorem find_insert_self {rows : List ρ} {r : ρ} (h : find key (key r) rows = none) :
    find key (key r) (rows ++ [r]) = some r := by
  rw [find_insert, h, if_pos rfl, Option.none_or]

theorem Keyed.insert {rows : List ρ} (hk : Keyed key rows) {r : ρ}
    (h : find key (key r) rows = none) : Keyed key (rows ++ [r]) := by
  unfold Keyed
  rw [List.map_append, List.map_singleton, List.nodup_append]
  refine ⟨hk, List.nodup_singleton _, ?_⟩
  rintro a ha b hb rfl
  obtain ⟨s, hs, hsa⟩ := List.mem_map.mp ha
  rw [List.mem_singleton] at hb
  exact find_none.mp h s hs (hsa.trans hb)

variable {p : ρ → Bool} {f : ρ → ρ}

theorem mem_update {rows : List ρ} {r : ρ} :
    r ∈ update p f rows ↔ ∃ s ∈ rows, r = if p s then f s else s := by
  simp only [update, List.mem_map]
  constructor
  · rintro ⟨s, hs, rfl⟩
    exact ⟨s, hs, rfl⟩
  · rintro ⟨s, hs, rfl⟩
    exact ⟨s, hs, rfl⟩

theorem find_update (hf : ∀ r, key (f r) = key r) (k : κ) (rows : List ρ) :
    find key k (update p f rows) = (find key k rows).map fun r => if p r then f r else r := by
  have hkey : ∀ r, key (if p r then f r else r) = key r := by
    intro r
    split
    · exact hf r
    · rfl
  simp only [find, update, List.find?_map]
  congr 2
  funext r
  simp [hkey]

/-- A row takes the place of the one with its key. -/
theorem find_replace (row : ρ) (k : κ) (rows : List ρ) :
    find key k (update (fun r => key r == key row) (fun _ => row) rows) =
      if k = key row then (find key k rows).map fun _ => row else find key k rows := by
  have hkey : ∀ r, key (if key r == key row then row else r) = key r := by
    intro r
    by_cases h : key r = key row
    · rw [if_pos (beq_iff_eq.mpr h), h]
    · rw [if_neg fun hb => h (beq_iff_eq.mp hb)]
  have hfind : find key k (update (fun r => key r == key row) (fun _ => row) rows) =
      (find key k rows).map fun r => if key r == key row then row else r := by
    simp only [find, update, List.find?_map]
    congr 2
    funext r
    simp only [Function.comp, hkey]
  rw [hfind]
  by_cases hk : k = key row
  · rw [if_pos hk]
    cases hr : find key k rows with
    | none => rfl
    | some r =>
      have hrk := (find_some hr).2
      simp [hrk, hk]
  · rw [if_neg hk]
    cases hr : find key k rows with
    | none => rfl
    | some r =>
      have hrk := (find_some hr).2
      have hne : key r ≠ key row := fun h => hk (hrk.symm.trans h)
      simp [hne]

omit [DecidableEq κ] in
theorem Keyed.update {rows : List ρ} (hk : Keyed key rows) (hf : ∀ r, key (f r) = key r) :
    Keyed key (update p f rows) := by
  have : (Table.update p f rows).map key = rows.map key := by
    simp only [Table.update, List.map_map]
    apply List.map_congr_left
    intro r _
    simp only [Function.comp]
    split
    · exact hf r
    · rfl
  unfold Keyed
  rwa [this]

/-- A row in place of the one with its key. -/
theorem Keyed.replace {rows : List ρ} (hk : Keyed key rows) (row : ρ) :
    Keyed key (Table.update (fun r => key r == key row) (fun _ => row) rows) := by
  have hkeys : (Table.update (fun r => key r == key row) (fun _ => row) rows).map key =
      rows.map key := by
    rw [Table.update, List.map_map]
    refine List.map_congr_left fun r _ => ?_
    simp only [Function.comp]
    split
    · next heq => exact (beq_iff_eq.mp heq).symm
    · rfl
  unfold Keyed
  rw [hkeys]
  exact hk

omit [DecidableEq κ] in
theorem Keyed.filter {rows : List ρ} (hk : Keyed key rows) (p : ρ → Bool) :
    Keyed key (rows.filter p) := List.Nodup.sublist (List.filter_sublist.map key) hk

omit [DecidableEq κ] in
/-- A statement that selects by a unique column selects one row. -/
theorem countP_keyed {rows : List ρ} (hk : Keyed key rows) {r : ρ} (hr : r ∈ rows) {p : ρ → Bool}
    (hp : p r = true) (honly : ∀ s, p s = true → key s = key r) : rows.countP p = 1 := by
  induction rows with
  | nil => exact absurd hr List.not_mem_nil
  | cons s rows ih =>
    have hk' := hk
    unfold Keyed at hk'
    rw [List.map_cons, List.nodup_cons] at hk'
    rcases List.mem_cons.mp hr with rfl | hmem
    · rw [List.countP_cons_of_pos hp]
      have hrest : rows.countP p = 0 := by
        refine List.countP_eq_zero.mpr fun t ht htp => hk'.1 ?_
        rw [← honly t htp]
        exact List.mem_map_of_mem ht
      rw [hrest]
    · have hs : ¬p s = true := by
        intro hsp
        refine hk'.1 ?_
        rw [honly s hsp]
        exact List.mem_map_of_mem hmem
      rw [List.countP_cons_of_neg hs]
      exact ih hk'.2 hmem

/-! ## Rows in order -/

/-- A row that no other comes after is sorted to the end. -/
theorem insertionSort_concat {r : ρ → ρ → Prop} [DecidableRel r] {rows : List ρ} {row : ρ}
    (h : ∀ a ∈ rows, r a row) : (rows ++ [row]).insertionSort r = rows.insertionSort r ++ [row] := by
  have hinsert : ∀ {a : ρ} {k : List ρ}, r a row →
      (k ++ [row]).orderedInsert r a = k.orderedInsert r a ++ [row] := by
    intro a k ha
    induction k with
    | nil => exact if_pos ha
    | cons b k ih =>
      rw [List.cons_append, List.orderedInsert_cons, List.orderedInsert_cons, ih]
      split
      · rfl
      · rfl
  induction rows with
  | nil => rfl
  | cons a rows ih =>
    rw [List.forall_mem_cons] at h
    rw [List.cons_append, List.insertionSort_cons, List.insertionSort_cons, ih h.2, hinsert h.1]

end Eef.Lib.Table
