import Mathlib.Data.List.Lex
import Mathlib.Order.Compare
import Mathlib.Order.Lattice
import Mathlib.Order.RelClasses

/-!
# Orders by rank, and the first difference of two lists

A comparison that reads each of its two sides and compares what it has read is a strict weak order
(`strictWeak_of_rank`): two things are incomparable exactly when they read the same. Lists are
compared by the first place where they differ and then by their lengths; `firstDifference_iff` says
that this is the lexicographic order of the ranks.
-/

namespace Eef.Lib

variable {α κ : Type} [LinearOrder κ]

/-- A relation that compares ranks is a strict weak order. -/
theorem strictWeak_of_rank {r : α → α → Prop} {rank : α → κ} (h : ∀ a b, r a b ↔ rank a < rank b) :
    IsStrictWeakOrder α r := by
  refine { irrefl := ?_, trans := ?_, incomp_trans := ?_ }
  · intro a ha
    exact lt_irrefl _ ((h a a).mp ha)
  · intro a b c hab hbc
    exact (h a c).mpr (lt_trans ((h a b).mp hab) ((h b c).mp hbc))
  · intro a b c hab hbc
    have same : ∀ x y, ¬r x y ∧ ¬r y x → rank x = rank y := fun x y hxy =>
      le_antisymm (not_lt.mp fun hlt => hxy.2 ((h y x).mpr hlt))
        (not_lt.mp fun hlt => hxy.1 ((h x y).mpr hlt))
    have hac : rank a = rank c := (same a b hab).trans (same b c hbc)
    constructor
    · intro hlt
      exact absurd hac (ne_of_lt ((h a c).mp hlt))
    · intro hlt
      exact absurd hac.symm (ne_of_lt ((h c a).mp hlt))

/-- `a.cmp(&b)`, of a type with a linear order. -/
abbrev ordering (a b : κ) : Ordering := cmp a b

/-- The first pair that differs decides, and then the left list has to be the longer one. -/
def firstDifference (order : α → α → Ordering) (left right : List α) : Bool :=
  match ((left.zip right).map fun p => order p.1 p.2).find? (· ≠ .eq) with
  | some order => order = .gt
  | none => right.length < left.length

theorem firstDifference_cons (order : α → α → Ordering) (a b : α) (left right : List α) :
    firstDifference order (a :: left) (b :: right)
      = if order a b = .eq then firstDifference order left right else order a b = .gt := by
  unfold firstDifference
  rw [List.zip_cons_cons, List.map_cons]
  by_cases h : order a b = .eq
  · rw [if_pos h, List.find?_cons_of_neg (by simpa using h)]
    simp only [List.length_cons, Nat.add_lt_add_iff_right]
  · rw [if_neg h, List.find?_cons_of_pos (by simpa using h)]

/-- The comparison is the lexicographic order of the ranks. -/
theorem firstDifference_iff {order : α → α → Ordering} {rank : α → κ}
    (h : ∀ a b, order a b = cmp (rank a) (rank b)) (left right : List α) :
    firstDifference order left right = true ↔ right.map rank < left.map rank := by
  induction left generalizing right with
  | nil =>
    have hf : firstDifference order [] right = false := by
      unfold firstDifference
      exact decide_eq_false (Nat.not_lt_zero _)
    rw [hf]
    exact ⟨fun hn => absurd hn Bool.false_ne_true, fun hn => absurd hn (List.not_lt_nil _)⟩
  | cons a left ih =>
    cases right with
    | nil =>
      have hf : firstDifference order (a :: left) [] = true := by
        unfold firstDifference
        exact decide_eq_true (Nat.succ_pos _)
      rw [hf]
      exact ⟨fun _ => List.nil_lt_cons _ _, fun _ => rfl⟩
    | cons b right =>
      rw [firstDifference_cons, h, List.map_cons, List.map_cons, List.cons_lt_cons_iff]
      by_cases heq : rank a = rank b
      · rw [if_pos ((cmp_eq_eq_iff _ _).mpr heq), ih right]
        constructor
        · intro hlt
          exact Or.inr ⟨heq.symm, hlt⟩
        · rintro (hlt | ⟨-, hlt⟩)
          · exact absurd heq.symm (ne_of_lt hlt)
          · exact hlt
      · rw [if_neg fun hc => heq ((cmp_eq_eq_iff _ _).mp hc), decide_eq_true_eq, cmp_eq_gt_iff]
        constructor
        · intro hlt
          exact Or.inl hlt
        · rintro (hlt | ⟨hsame, -⟩)
          · exact hlt
          · exact absurd hsame.symm heq

/-- Lists that agree up to a place are in the order of what they hold there. -/
theorem append_cons_lt (before : List κ) {a b : κ} (h : a < b) (left right : List κ) :
    before ++ a :: left < before ++ b :: right := by
  induction before with
  | nil => exact List.cons_lt_cons_iff.mpr (Or.inl h)
  | cons c before ih => exact List.cons_lt_cons_iff.mpr (Or.inr ⟨rfl, ih⟩)

/-- A list of which not all entries are good has a first bad one. -/
theorem exists_first_not {p : α → Prop} {l : List α} (h : ¬∀ a ∈ l, p a) :
    ∃ before a after, l = before ++ a :: after ∧ (∀ b ∈ before, p b) ∧ ¬p a := by
  induction l with
  | nil => exact absurd (fun a ha => absurd ha List.not_mem_nil) h
  | cons c l ih =>
    by_cases hc : p c
    · obtain ⟨before, a, after, hl, hbefore, ha⟩ := ih fun hall =>
        h fun a ha => (List.mem_cons.mp ha).elim (fun heq => heq ▸ hc) (hall a)
      refine ⟨c :: before, a, after, by rw [hl, List.cons_append], ?_, ha⟩
      intro b hb
      rcases List.mem_cons.mp hb with hb | hb
      · exact hb ▸ hc
      · exact hbefore b hb
    · exact ⟨[], c, l, rfl, fun b hb => absurd hb List.not_mem_nil, hc⟩

/-! ## Fields between separators -/

section Fields
variable [DecidableEq α] {x : α}

theorem not_mem_splitOn {cs : List α} : ∀ field ∈ cs.splitOn x, x ∉ field := by
  induction cs with
  | nil =>
    intro field hf hx
    rw [List.splitOn_nil] at hf
    rw [List.mem_singleton.mp hf] at hx
    exact absurd hx List.not_mem_nil
  | cons c cs ih =>
    intro field hf
    rw [List.splitOn_cons_eq_if_modifyHead] at hf
    by_cases hc : (c == x) = true
    · rw [if_pos hc] at hf
      rcases List.mem_cons.mp hf with h | h
      · rw [h]
        exact List.not_mem_nil
      · exact ih field h
    · rw [if_neg hc] at hf
      cases hs : cs.splitOn x with
      | nil => exact absurd hs (List.splitOn_ne_nil x cs)
      | cons first rest =>
        rw [hs, List.modifyHead_cons] at hf
        rcases List.mem_cons.mp hf with h | h
        · rw [h]
          intro hx
          rcases List.mem_cons.mp hx with hx | hx
          · exact hc (beq_iff_eq.mpr hx.symm)
          · exact ih first (by rw [hs]; exact List.mem_cons_self) hx
        · exact ih field (by rw [hs]; exact List.mem_cons_of_mem _ h)

theorem mem_of_mem_splitOn {cs : List α} :
    ∀ field ∈ cs.splitOn x, ∀ c ∈ field, c ∈ cs := by
  induction cs with
  | nil =>
    intro field hf c hc
    rw [List.splitOn_nil] at hf
    rw [List.mem_singleton.mp hf] at hc
    exact absurd hc List.not_mem_nil
  | cons d cs ih =>
    intro field hf c hc
    rw [List.splitOn_cons_eq_if_modifyHead] at hf
    by_cases hd : (d == x) = true
    · rw [if_pos hd] at hf
      rcases List.mem_cons.mp hf with h | h
      · rw [h] at hc
        exact absurd hc List.not_mem_nil
      · exact List.mem_cons_of_mem _ (ih field h c hc)
    · rw [if_neg hd] at hf
      cases hs : cs.splitOn x with
      | nil => exact absurd hs (List.splitOn_ne_nil x cs)
      | cons first rest =>
        rw [hs, List.modifyHead_cons] at hf
        rcases List.mem_cons.mp hf with h | h
        · rw [h] at hc
          rcases List.mem_cons.mp hc with hc | hc
          · exact List.mem_cons.mpr (Or.inl hc)
          · exact List.mem_cons_of_mem _ (ih first (by rw [hs]; exact List.mem_cons_self) c hc)
        · exact List.mem_cons_of_mem _
            (ih field (by rw [hs]; exact List.mem_cons_of_mem _ h) c hc)

/-- What stands before a field can be given another end. -/
theorem splitOn_front {cs : List α} {before after : List (List α)} {field : List α}
    (h : cs.splitOn x = before ++ field :: after) :
    ∃ front : List α, (∀ y, (front ++ y).splitOn x = before ++ y.splitOn x) ∧
      front.length + field.length ≤ cs.length ∧ ∀ c ∈ front, c ∈ cs := by
  induction before generalizing cs with
  | nil =>
    refine ⟨[], fun y => rfl, ?_, fun c hc => absurd hc List.not_mem_nil⟩
    have hjoin : [x].intercalate (cs.splitOn x) = cs := List.intercalate_splitOn x
    rw [← hjoin, h]
    cases after with
    | nil => simp
    | cons next after => simp [List.intercalate_cons_cons]
  | cons first before ih =>
    have hcs : cs = first ++ x :: [x].intercalate (before ++ field :: after) := by
      have hjoin : [x].intercalate (cs.splitOn x) = cs := List.intercalate_splitOn x
      rw [h] at hjoin
      rw [← hjoin, List.cons_append]
      cases hb : before ++ field :: after with
      | nil => exact absurd (List.append_eq_nil_iff.mp hb).2 (List.cons_ne_nil _ _)
      | cons next rest => simp [List.intercalate_cons_cons]
    have hsplit : ([x].intercalate (before ++ field :: after)).splitOn x
        = before ++ field :: after := by
      refine List.splitOn_intercalate x (fun l hl => ?_) (List.append_ne_nil_of_right_ne_nil _ (List.cons_ne_nil _ _))
      exact not_mem_splitOn l (by rw [h]; exact List.mem_cons_of_mem _ hl)
    have hfirst : x ∉ first := not_mem_splitOn first (by rw [h]; exact List.mem_cons_self)
    obtain ⟨front, hfront, hlen, hmem⟩ := ih hsplit
    refine ⟨first ++ x :: front, fun y => ?_, ?_, ?_⟩
    · rw [List.append_assoc, List.cons_append, List.splitOn_append_cons_self_of_not_mem hfirst,
        hfront]
      rfl
    · rw [hcs]
      simp only [List.length_append, List.length_cons]
      omega
    · intro c hc
      rw [hcs]
      rcases List.mem_append.mp hc with hc | hc
      · exact List.mem_append_left _ hc
      · rcases List.mem_cons.mp hc with hc | hc
        · exact List.mem_append_right _ (hc ▸ List.mem_cons_self)
        · exact List.mem_append_right _ (List.mem_cons_of_mem _ (hmem c hc))

end Fields

end Eef.Lib
