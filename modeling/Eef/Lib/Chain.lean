import Mathlib.Data.List.Basic

/-!
# Append-only logs with a digest chain

A log is a list of records. `digest` folds a record into the running digest, `row`
is how a record is stored after the digest of everything before it. `rows` is the
stored form of a whole log and `fold` its digest; both grow at the end
(`rows_append`, `fold_append`), so appending one record adds one row.

`Linked R` says that every record is related to the one before it, the first one to
`none`. A writer that only checks its new record against the last one keeps it
(`Linked.append`).
-/

namespace Eef.Lib.Chain

variable {δ ρ τ : Type} {digest : δ → ρ → δ} {row : δ → ρ → τ}

/-- The digest of a log, from `seed` on. -/
def fold (digest : δ → ρ → δ) (seed : δ) (log : List ρ) : δ := log.foldl digest seed

/-- The stored rows of a log, from `seed` on. -/
def rows (digest : δ → ρ → δ) (row : δ → ρ → τ) : δ → List ρ → List τ
  | _, [] => []
  | seed, r :: log => row seed r :: rows digest row (digest seed r) log

@[simp]
theorem fold_nil (seed : δ) : fold digest seed [] = seed := rfl

theorem fold_cons (seed : δ) (r : ρ) (log : List ρ) :
    fold digest seed (r :: log) = fold digest (digest seed r) log := rfl

theorem fold_append (seed : δ) (log log' : List ρ) :
    fold digest seed (log ++ log') = fold digest (fold digest seed log) log' :=
  List.foldl_append

@[simp]
theorem rows_length (seed : δ) (log : List ρ) : (rows digest row seed log).length = log.length := by
  induction log generalizing seed with
  | nil => rfl
  | cons r log ih => simp [rows, ih]

theorem rows_append (seed : δ) (log log' : List ρ) :
    rows digest row seed (log ++ log') =
      rows digest row seed log ++ rows digest row (fold digest seed log) log' := by
  induction log generalizing seed with
  | nil => rfl
  | cons r log ih => simp [rows, ih, fold_cons]

/-- A column that only depends on the record is the column of the log. -/
theorem map_rows {β : Type} {f : τ → β} {g : ρ → β} (h : ∀ seed r, f (row seed r) = g r)
    (seed : δ) (log : List ρ) : (rows digest row seed log).map f = log.map g := by
  induction log generalizing seed with
  | nil => rfl
  | cons r log ih => simp [rows, ih, h]

/-- The digest of a log is the fold of a column of its rows, when the digest reads the
record through that column. -/
theorem fold_rows {β : Type} {f : τ → β} {g : ρ → β} {next : δ → β → δ}
    (h : ∀ seed r, f (row seed r) = g r) (hd : ∀ seed r, digest seed r = next seed (g r))
    (seed : δ) (log : List ρ) :
    (rows digest row seed log).foldl (fun a t => next a (f t)) seed = fold digest seed log := by
  suffices ∀ a, (rows digest row seed log).foldl (fun a t => next a (f t)) a = fold digest a log from
    this seed
  intro a
  induction log generalizing seed a with
  | nil => rfl
  | cons r log ih =>
    rw [rows, List.foldl_cons, fold_cons, h, ← hd]
    exact ih _ _

/-- Every row is the row of a record, after the digest of those before it. -/
theorem mem_rows {seed : δ} {log : List ρ} {t : τ} (h : t ∈ rows digest row seed log) :
    ∃ before r after, log = before ++ r :: after ∧ t = row (fold digest seed before) r := by
  induction log generalizing seed with
  | nil => cases h
  | cons r log ih =>
    rcases List.mem_cons.mp h with rfl | h
    · exact ⟨[], r, log, rfl, rfl⟩
    · obtain ⟨before, s, after, rfl, rfl⟩ := ih h
      exact ⟨r :: before, s, after, rfl, rfl⟩

/-- The row a key selects: the keys before it differ. -/
theorem find_rows {κ : Type} [DecidableEq κ] {f : τ → κ} {g : ρ → κ}
    (h : ∀ seed r, f (row seed r) = g r) (seed : δ) {log log' : List ρ} {r : ρ}
    (hne : ∀ s ∈ log, g s ≠ g r) :
    (rows digest row seed (log ++ r :: log')).find? (fun t => f t = g r) =
      some (row (fold digest seed log) r) := by
  have hnone : (rows digest row seed log).find? (fun t => decide (f t = g r)) = none := by
    have hmap : (rows digest row seed log).map f = log.map g := map_rows h seed log
    rw [List.find?_eq_none]
    intro t ht
    have : f t ∈ log.map g := hmap ▸ List.mem_map_of_mem ht
    obtain ⟨s, hs, hst⟩ := List.mem_map.mp this
    simpa [← hst] using hne s hs
  rw [rows_append, List.find?_append, hnone, rows, List.find?_cons]
  simp [h]

/-- Every record of a log is related to the one before it. -/
def Linked (R : Option ρ → ρ → Prop) : Option ρ → List ρ → Prop
  | _, [] => True
  | previous, r :: log => R previous r ∧ Linked R (some r) log

variable {R : Option ρ → ρ → Prop}

/-- A record related to the last one extends the log. -/
theorem Linked.append {previous : Option ρ} {log : List ρ} {r : ρ} (h : Linked R previous log)
    (hr : R (log.getLast?.or previous) r) : Linked R previous (log ++ [r]) := by
  induction log generalizing previous with
  | nil => exact ⟨by simpa using hr, trivial⟩
  | cons s log ih =>
    refine ⟨h.1, ih h.2 ?_⟩
    have hlast : ((s :: log).getLast?).or previous = log.getLast?.or (some s) := by
      rw [List.getLast?_cons]
      cases log.getLast? <;> rfl
    rwa [← hlast]

/-- What links imply for one record at a time. -/
theorem Linked.forall {P : ρ → Prop} (hP : ∀ previous r, R previous r → P r)
    {previous : Option ρ} {log : List ρ} (h : Linked R previous log) : ∀ r ∈ log, P r := by
  induction log generalizing previous with
  | nil => simp
  | cons s log ih =>
    intro r hr
    rcases List.mem_cons.mp hr with rfl | hr
    · exact hP _ _ h.1
    · exact ih h.2 r hr

end Eef.Lib.Chain
