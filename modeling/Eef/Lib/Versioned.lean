import Eef.Lib.Run

/-!
# Versions that count

A value is stored with a number that goes up by one exactly when the value changes. Along a
run the number never falls, and while it stands still the value is the same one; so whoever
acts on a number read earlier knows that nothing happened to the value in between
(`Later.unchanged`). No reader sees an old number come back with another value.
-/

namespace Eef.Lib

variable {σ π : Type} {read : σ → Option (π × Nat)}

/-- What `read` finds in `t` is no older than what it finds in `s`. -/
def Later (read : σ → Option (π × Nat)) (s t : σ) : Prop :=
  ∀ p n, read s = some (p, n) →
    ∃ p' n', read t = some (p', n') ∧ n ≤ n' ∧ (n = n' → p = p')

namespace Later

theorem refl (s : σ) : Later read s s := fun p n h => ⟨p, n, h, Nat.le_refl n, fun _ => rfl⟩

theorem trans {s t u : σ} (hst : Later read s t) (htu : Later read t u) : Later read s u := by
  intro p n hs
  obtain ⟨p', n', ht, hle, heq⟩ := hst p n hs
  obtain ⟨p'', n'', hu, hle', heq'⟩ := htu p' n' ht
  refine ⟨p'', n'', hu, Nat.le_trans hle hle', fun h => ?_⟩
  have hfirst : n = n' := by omega
  have hsecond : n' = n'' := by omega
  exact (heq hfirst).trans (heq' hsecond)

/-- A step that counts the changes of the value. -/
theorem of_counted [DecidableEq π] {s t : σ} {p p' : π} {n n' : Nat}
    (hs : read s = some (p, n)) (ht : read t = some (p', n'))
    (hn : n' = if p' = p then n else n + 1) : Later read s t := by
  intro q m hq
  rw [hs] at hq
  cases hq
  refine ⟨p', n', ht, ?_, fun h => ?_⟩
  · rw [hn]
    split <;> omega
  · by_cases hsame : p' = p
    · exact hsame.symm
    · rw [if_neg hsame] at hn
      omega

/-- A number that is still there at the end was there, with its value, all along. -/
theorem unchanged {s t u : σ} {p p' : π} {n : Nat} (hst : Later read s t) (htu : Later read t u)
    (hs : read s = some (p, n)) (hu : read u = some (p', n)) :
    read t = some (p, n) ∧ p' = p := by
  obtain ⟨q, m, ht, hle, heq⟩ := hst p n hs
  obtain ⟨q', m', hu', hle', heq'⟩ := htu q m ht
  rw [hu] at hu'
  cases hu'
  have hm : n = m := by omega
  rw [ht, ← hm, heq hm]
  exact ⟨rfl, (heq' hm.symm).symm⟩

end Later

variable {step : σ → σ → Prop}

theorem Run.later (hstep : ∀ s t, step s t → Later read s t) {s t : σ} (h : Run step s t) :
    Later read s t :=
  @Run.monotone σ step (fun _ => True) (Later read) (fun _ _ _ _ => trivial) Later.refl
    (fun _ _ _ => Later.trans) (fun s t _ => hstep s t) s t trivial h

end Eef.Lib
