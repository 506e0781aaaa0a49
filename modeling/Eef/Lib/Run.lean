import Mathlib.Logic.Relation

/-!
# Runs of a transition system

A run is the reflexive transitive closure of a step relation
(`Relation.ReflTransGen`). Two rules are used by the state machines above: an
invariant that every step keeps holds along every run (`Run.invariant`), and a
preorder that every step of an invariant state goes up in relates the two ends of
every run (`Run.monotone`). A `Trail` is a run that remembers where it went.
-/

namespace Eef.Lib

variable {σ : Type} {step : σ → σ → Prop}

/-- `t` is reached from `s` by some number of steps. -/
abbrev Run (step : σ → σ → Prop) : σ → σ → Prop := Relation.ReflTransGen step

theorem Run.invariant {I : σ → Prop} (hstep : ∀ s t, I s → step s t → I t) {s t : σ}
    (hs : I s) (h : Run step s t) : I t := by
  induction h with
  | refl => exact hs
  | tail _ hlast ih => exact hstep _ _ ih hlast

theorem Run.monotone {I : σ → Prop} {R : σ → σ → Prop}
    (hstep : ∀ s t, I s → step s t → I t) (hrefl : ∀ s, R s s)
    (htrans : ∀ a b c, R a b → R b c → R a c) (hmono : ∀ s t, I s → step s t → R s t) {s t : σ}
    (hs : I s) (h : Run step s t) : R s t := by
  induction h with
  | refl => exact hrefl s
  | tail hrun hlast ih => exact htrans _ _ _ ih (hmono _ _ (Run.invariant hstep hs hrun) hlast)

/-- A run with the states it went through before its last, the latest first. -/
inductive Trail (step : σ → σ → Prop) (first : σ) : List σ → σ → Prop where
  | start : Trail step first [] first
  | turn {past : List σ} {s t : σ} (htrail : Trail step first past s) (h : step s t) :
      Trail step first (s :: past) t

theorem Trail.run {first s : σ} {past : List σ} (h : Trail step first past s) :
    Run step first s := by
  induction h with
  | start => exact .refl
  | turn _ h ih => exact ih.tail h

end Eef.Lib
