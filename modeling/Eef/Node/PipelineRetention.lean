import Eef.Node.PipelineEvidence
import Mathlib.Algebra.Group.Nat.Defs
import Mathlib.Data.List.Count
import Mathlib.Data.List.Perm.Lattice

/-!
# What a pipeline retains

The loop of `pipeline_runtime.rs` counts the uses of every result, lets a result go with its last
use, and keeps the sum of the sizes of what it holds. `Kept` is the account at a stage boundary:
the counts are the uses still ahead, a value is held exactly when its step completed and a later
step has not used it yet, and the retained bytes are those of the held values, inside the budget.
Taking one use keeps the account (`consumeReference_kept`), whether it is a data input, a guard
or an input of a skipped stage. So along any run of a valid definition the account is right, and
no error of the accounting is ever returned.
-/

namespace Eef.Node

open Eef.Lib

/-! ## Maps by their keys -/

section Maps
variable {κ β γ : Type} [DecidableEq κ] {k : κ} {v : β} {m : List (κ × β)}

theorem Assoc.erase_map (f : κ × β → γ) (k : κ) (m : List (κ × β)) :
    Assoc.erase k (m.map fun e => (e.1, f e)) = (Assoc.erase k m).map fun e => (e.1, f e) := by
  unfold Assoc.erase
  rw [List.filter_map]
  rfl

theorem Assoc.set_of_absent (h : k ∉ m.map Prod.fst) : Assoc.set k v m = m ++ [(k, v)] := by
  induction m with
  | nil => rfl
  | cons e m ih =>
    obtain ⟨a, b⟩ := e
    rw [List.map_cons, List.mem_cons, not_or] at h
    rw [Assoc.set, if_neg (Ne.symm h.1), ih h.2, List.cons_append]

theorem Assoc.erase_cons (k a : κ) (b : β) (m : List (κ × β)) :
    Assoc.erase k ((a, b) :: m) = if a = k then Assoc.erase k m else (a, b) :: Assoc.erase k m := by
  unfold Assoc.erase
  rw [List.filter_cons]
  by_cases h : a = k
  · simp [h]
  · simp [h]

theorem Assoc.erase_of_absent (h : k ∉ m.map Prod.fst) : Assoc.erase k m = m := by
  refine List.filter_eq_self.mpr fun e he => decide_eq_true fun heq => h ?_
  exact heq ▸ List.mem_map_of_mem he

theorem Assoc.isSome_lookup : (m.lookup k).isSome = true ↔ k ∈ m.map Prod.fst := by
  induction m with
  | nil => simp
  | cons e m ih =>
    obtain ⟨a, b⟩ := e
    rw [Assoc.lookup_cons, List.map_cons, List.mem_cons]
    by_cases hk : k = a
    · simp [hk]
    · rw [if_neg hk, ih]
      simp [hk]

theorem Assoc.keys_erase (k : κ) (m : List (κ × β)) :
    (Assoc.erase k m).map Prod.fst = (m.map Prod.fst).filter (· ≠ k) := by
  unfold Assoc.erase
  rw [List.filter_map]
  rfl

/-- The sizes of a map are the size of one entry and those of the others. -/
theorem Assoc.sum_erase (size : κ × β → Nat) (hm : (m.map Prod.fst).Nodup)
    (h : m.lookup k = some v) :
    (m.map size).sum = size (k, v) + ((Assoc.erase k m).map size).sum := by
  induction m with
  | nil => exact absurd h.symm (Option.some_ne_none v)
  | cons e m ih =>
    obtain ⟨a, b⟩ := e
    rw [List.map_cons, List.nodup_cons] at hm
    rw [Assoc.lookup_cons] at h
    by_cases hk : k = a
    · rw [if_pos hk] at h
      rw [Assoc.erase_cons, if_pos hk.symm, Assoc.erase_of_absent (hk ▸ hm.1), List.map_cons,
        List.sum_cons, ← hk, Option.some.inj h]
    · rw [if_neg hk] at h
      rw [Assoc.erase_cons, if_neg (Ne.symm hk), List.map_cons, List.map_cons, List.sum_cons,
        List.sum_cons, ih hm.2 h]
      omega

end Maps

/-! ## The account -/

section
variable [F64]

/-- The account of a running pipeline: `pending` are the uses still ahead, `done` the steps behind
it. -/
structure Kept (d : Definition) (pending done : List String) (st : RunState) : Prop where
  references : ∀ s ∈ d.graph.steps, st.references.lookup s.id = some (pending.count s.id)
  held : ∀ id, id ∈ st.values.map Prod.fst ↔ id ∈ done ∧ id ∉ st.skipped ∧ id ∈ pending
  sizes : st.sizes = st.values.map fun e => (e.1, e.2.size)
  once : (st.values.map Prod.fst).Nodup
  retained : st.retained = (st.values.map fun e => e.2.size).sum
  bounded : st.retained ≤ d.graph.maxRetainedBytes

/-- A use that is ahead can be taken, and leaves the account of the uses after it. -/
theorem consumeReference_kept {d : Definition} {pending done : List String} {st : RunState}
    {source : String} (h : Kept d (source :: pending) done st)
    (hstep : ∃ s ∈ d.graph.steps, s.id = source) (hdone : source ∈ done) :
    ∃ st', consumeReference st source = .ok st' ∧ Kept d pending done st' ∧
      st'.skipped = st.skipped := by
  obtain ⟨s, hs, hid⟩ := hstep
  have hlook : st.references.lookup source = some (pending.count source + 1) := by
    rw [← hid, h.references s hs, hid, List.count_cons_self]
  have hrefs : ∀ t ∈ d.graph.steps,
      (Assoc.set source (pending.count source) st.references).lookup t.id
        = some (pending.count t.id) := by
    intro t ht
    rw [Assoc.lookup_set]
    by_cases htid : t.id = source
    · rw [if_pos htid, htid]
    · rw [if_neg htid, h.references t ht, List.count_cons_of_ne (Ne.symm htid)]
  have huses : pending.count source + 1 - 1 = pending.count source := by omega
  unfold consumeReference
  rw [hlook]
  simp only [context, bailIf, ok_bind, Nat.add_eq_zero_iff, one_ne_zero, and_false, if_false, huses]
  by_cases hlast : source ∈ pending
  · have hpos : pending.count source ≠ 0 := fun hz => List.count_eq_zero.mp hz hlast
    rw [if_neg hpos]
    refine ⟨_, rfl, ⟨hrefs, fun id => ?_, h.sizes, h.once, h.retained, h.bounded⟩, rfl⟩
    have hpend : id ∈ source :: pending ↔ id ∈ pending := by
      rw [List.mem_cons]
      exact ⟨fun hc => hc.elim (fun he => he ▸ hlast) fun hm => hm, Or.inr⟩
    rw [← hpend]
    exact h.held id
  · have hzero : pending.count source = 0 := List.count_eq_zero.mpr hlast
    rw [if_pos hzero]
    have hheld : ∀ id, id ∈ (Assoc.erase source st.values).map Prod.fst ↔
        id ∈ done ∧ id ∉ st.skipped ∧ id ∈ pending := by
      intro id
      rw [Assoc.keys_erase, List.mem_filter, h.held id, List.mem_cons, decide_eq_true_eq]
      constructor
      · rintro ⟨⟨hd, hsk, hp⟩, hne⟩
        exact ⟨hd, hsk, hp.resolve_left hne⟩
      · rintro ⟨hd, hsk, hp⟩
        exact ⟨⟨hd, hsk, Or.inr hp⟩, fun he => hlast (he ▸ hp)⟩
    have honce : ((Assoc.erase source st.values).map Prod.fst).Nodup := by
      rw [Assoc.keys_erase]
      exact h.once.filter _
    have hsize : st.sizes.lookup source = (st.values.lookup source).map Json.size := by
      rw [h.sizes]
      exact Assoc.lookup_map (fun _ v => v.size) source st.values
    rw [hsize]
    cases hv : st.values.lookup source with
    | some v =>
      have hsum : st.retained
          = v.size + ((Assoc.erase source st.values).map fun e => e.2.size).sum :=
        h.retained.trans (Assoc.sum_erase (fun e => e.2.size) h.once hv)
      have hnot : ¬st.retained < v.size := by omega
      simp only [Option.map_some, if_neg hnot, ok_bind]
      refine ⟨_, rfl, ⟨hrefs, hheld, ?_, honce, ?_, ?_⟩, rfl⟩
      · show Assoc.erase source st.sizes = _
        rw [h.sizes]
        exact Assoc.erase_map (fun e => e.2.size) source st.values
      · show st.retained - v.size = ((Assoc.erase source st.values).map fun e => e.2.size).sum
        omega
      · exact (Nat.sub_le _ _).trans h.bounded
    | none =>
      have habsent : source ∉ st.values.map Prod.fst := by
        rw [← Assoc.isSome_lookup, hv]
        exact Bool.false_ne_true
      have hskipped : source ∈ st.skipped := by
        by_contra hsk
        exact habsent ((h.held source).mpr ⟨hdone, hsk, List.mem_cons_self⟩)
      simp only [Option.map_none, ensure, if_pos hskipped, ok_bind]
      refine ⟨_, rfl, ⟨hrefs, hheld, ?_, honce, ?_, h.bounded⟩, rfl⟩
      · show st.sizes = (Assoc.erase source st.values).map _
        rw [Assoc.erase_of_absent habsent, h.sizes]
      · show st.retained = ((Assoc.erase source st.values).map _).sum
        rw [Assoc.erase_of_absent habsent, h.retained]

/-- The uses of a step can be taken, one after the other. -/
theorem consumeReferences_kept {d : Definition} {pending done sources : List String}
    {st : RunState} (h : Kept d (sources ++ pending) done st)
    (hsteps : ∀ source ∈ sources, ∃ s ∈ d.graph.steps, s.id = source)
    (hdone : ∀ source ∈ sources, source ∈ done) :
    ∃ st', consumeReferences st sources = .ok st' ∧ Kept d pending done st' ∧
      st'.skipped = st.skipped := by
  induction sources generalizing st with
  | nil => exact ⟨st, rfl, h, rfl⟩
  | cons source sources ih =>
    obtain ⟨mid, hmid, hkept, hsame⟩ := consumeReference_kept h
      (hsteps source List.mem_cons_self) (hdone source List.mem_cons_self)
    obtain ⟨st', hst', hkept', hsame'⟩ := ih hkept
      (fun s hs => hsteps s (List.mem_cons_of_mem _ hs))
      (fun s hs => hdone s (List.mem_cons_of_mem _ hs))
    refine ⟨st', ?_, hkept', hsame'.trans hsame⟩
    rw [consumeReferences, hmid]
    exact hst'

/-! ## Stages -/

/-- The uses of the steps, in their order. -/
def pendingUses (d : Definition) (steps : List PipelineStep) : List String :=
  steps.flatMap d.referenceSources

/-- The account at the boundary before stage `index`. -/
structure Boundary (d : Definition) (index : Nat) (st : RunState) : Prop where
  kept : Kept d (pendingUses d (d.graph.steps.drop index))
    ((d.graph.steps.take index).map PipelineStep.id) st
  skipped : ∀ id ∈ st.skipped, id ∈ (d.graph.steps.take index).map PipelineStep.id
  finite : ∀ graph, d = .finite graph → st.skipped = []

omit [F64] in
/-- What a valid definition says of its steps: they differ, and what they read is behind them. -/
structure Backward (d : Definition) : Prop where
  nodup : (d.graph.steps.map PipelineStep.id).Nodup
  back : ∀ index step, d.graph.steps[index]? = some step → ∀ source ∈ d.referenceSources step,
    source ∈ (d.graph.steps.take index).map PipelineStep.id

/-- Where a turn leaves the loop running. -/
def Turn.state : Turn → Option RunState
  | .finished _ _ => none
  | .ran st _ => some st
  | .skipped st => some st

omit [F64] in
theorem pendingUses_drop {d : Definition} {index : Nat} {step : PipelineStep}
    (h : d.graph.steps[index]? = some step) :
    pendingUses d (d.graph.steps.drop index)
      = d.referenceSources step ++ pendingUses d (d.graph.steps.drop (index + 1)) := by
  obtain ⟨hlt, heq⟩ := List.getElem?_eq_some_iff.mp h
  rw [List.drop_eq_getElem_cons hlt, heq]
  exact List.flatMap_cons

omit [F64] in
theorem take_succ_ids {d : Definition} {index : Nat} {step : PipelineStep}
    (h : d.graph.steps[index]? = some step) :
    (d.graph.steps.take (index + 1)).map PipelineStep.id
      = (d.graph.steps.take index).map PipelineStep.id ++ [step.id] := by
  rw [List.take_add_one, h, List.map_append]
  rfl

omit [F64] in
/-- A step is not one of those behind it. -/
theorem Backward.fresh {d : Definition} (hd : Backward d) {index : Nat} {step : PipelineStep}
    (h : d.graph.steps[index]? = some step) :
    step.id ∉ (d.graph.steps.take index).map PipelineStep.id := by
  have hsub : ((d.graph.steps.take (index + 1)).map PipelineStep.id).Nodup :=
    ((List.take_sublist _ _).map _).nodup hd.nodup
  rw [take_succ_ids h, List.nodup_append] at hsub
  intro hmem
  exact hsub.2.2 _ hmem _ List.mem_cons_self rfl

omit [F64] in
/-- What a step reads is a step of the graph. -/
theorem Backward.source {d : Definition} (hd : Backward d) {index : Nat} {step : PipelineStep}
    (h : d.graph.steps[index]? = some step) :
    ∀ source ∈ d.referenceSources step, ∃ s ∈ d.graph.steps, s.id = source := by
  intro source hsource
  obtain ⟨s, hs, hid⟩ := List.mem_map.mp (hd.back index step h source hsource)
  exact ⟨s, List.mem_of_mem_take hs, hid⟩

/-- At a boundary the uses of the next stage can be taken, whether it runs or is skipped. -/
theorem Boundary.consume {d : Definition} (hd : Backward d) {index : Nat} {st : RunState}
    {step : PipelineStep} (h : Boundary d index st) (hstep : d.graph.steps[index]? = some step) :
    ∃ st', consumeReferences st (d.referenceSources step) = .ok st' ∧
      Kept d (pendingUses d (d.graph.steps.drop (index + 1)))
        ((d.graph.steps.take index).map PipelineStep.id) st' ∧ st'.skipped = st.skipped := by
  have hkept := h.kept
  rw [pendingUses_drop hstep] at hkept
  exact consumeReferences_kept hkept (hd.source hstep) (hd.back index step hstep)

/-- The state of a stage that is skipped, before its uses are taken. -/
theorem Boundary.skip {d : Definition} (hd : Backward d) {index : Nat} {st : RunState}
    {step : PipelineStep} (h : Boundary d index st) (hstep : d.graph.steps[index]? = some step)
    (hcond : ∀ graph, d ≠ .finite graph) (outcomes : List StepOutcome) :
    ∃ st', consumeReferences { st with skipped := step.id :: st.skipped, outcomes }
        (d.referenceSources step) = .ok st' ∧ Boundary d (index + 1) st' := by
  have hfresh := hd.fresh hstep
  have hkept : Kept d (pendingUses d (d.graph.steps.drop index))
      ((d.graph.steps.take index).map PipelineStep.id)
      { st with skipped := step.id :: st.skipped, outcomes } := by
    refine ⟨h.kept.references, fun id => (h.kept.held id).trans ?_, h.kept.sizes, h.kept.once,
      h.kept.retained, h.kept.bounded⟩
    constructor
    · rintro ⟨hdone, hsk, hp⟩
      refine ⟨hdone, fun hc => ?_, hp⟩
      rcases List.mem_cons.mp hc with hc | hc
      · exact hfresh (hc ▸ hdone)
      · exact hsk hc
    · rintro ⟨hdone, hsk, hp⟩
      exact ⟨hdone, fun hc => hsk (List.mem_cons_of_mem _ hc), hp⟩
  rw [pendingUses_drop hstep] at hkept
  obtain ⟨st', hst', hkept', hsame⟩ :=
    consumeReferences_kept hkept (hd.source hstep) (hd.back index step hstep)
  have hskipped : st'.skipped = step.id :: st.skipped := hsame
  refine ⟨st', hst', ⟨⟨hkept'.references, fun id => (hkept'.held id).trans ?_, hkept'.sizes,
    hkept'.once, hkept'.retained, hkept'.bounded⟩, ?_, fun graph hg => absurd hg (hcond graph)⟩⟩
  · rw [take_succ_ids hstep, hskipped]
    constructor
    · rintro ⟨hdone, hrest⟩
      exact ⟨List.mem_append_left _ hdone, hrest⟩
    · rintro ⟨hdone, hsk, hp⟩
      rcases List.mem_append.mp hdone with hdone | hdone
      · exact ⟨hdone, hsk, hp⟩
      · exact absurd (List.mem_cons.mpr (Or.inl (List.mem_singleton.mp hdone))) hsk
  · intro id hid
    rw [hskipped] at hid
    rw [take_succ_ids hstep]
    rcases List.mem_cons.mp hid with hid | hid
    · exact List.mem_append_right _ (List.mem_singleton.mpr hid)
    · exact List.mem_append_left _ (h.skipped id hid)

/-- What an output needs to join the account: it is of a step of the graph that is not behind. -/
theorem Kept.retain {d : Definition} {pending done : List String} {st st' : RunState}
    {step : PipelineStep} {output : Json} (h : Kept d pending done st)
    (hstep : step ∈ d.graph.steps) (hdone : step.id ∉ done) (hskipped : step.id ∉ st.skipped)
    (hr : retainOutput d st step output output.size = .ok st') :
    Kept d pending (done ++ [step.id]) st' ∧ st'.skipped = st.skipped := by
  have habsent : step.id ∉ st.values.map Prod.fst := fun hc => hdone ((h.held _).mp hc).1
  unfold retainOutput at hr
  rw [h.references step hstep] at hr
  simp only [context, ok_bind] at hr
  have hothers : ∀ id, id ≠ step.id → (id ∈ done ++ [step.id] ↔ id ∈ done) := by
    intro id hne
    rw [List.mem_append, List.mem_singleton]
    exact or_iff_left hne
  by_cases huses : pending.count step.id > 0
  · rw [if_pos huses] at hr
    obtain ⟨_, hroom, hr⟩ := bind_ok.mp hr
    cases hr
    have hroom' := bailIf_ok.mp hroom
    have hset := Assoc.set_of_absent (v := output) habsent
    have hsizes : step.id ∉ st.sizes.map Prod.fst := by
      rw [h.sizes, List.map_map]
      exact habsent
    have hsetSizes := Assoc.set_of_absent (v := output.size) hsizes
    refine ⟨⟨h.references, fun id => ?_, ?_, ?_, ?_, ?_⟩, rfl⟩
    · show id ∈ (Assoc.set step.id output st.values).map Prod.fst ↔ _
      rw [hset, List.map_append, List.mem_append, h.held id]
      by_cases hid : id = step.id
      · rw [hid]
        have hin : step.id ∈ pending := List.count_pos_iff.mp huses
        exact ⟨fun _ => ⟨List.mem_append_right _ List.mem_cons_self, hskipped, hin⟩,
          fun _ => Or.inr List.mem_cons_self⟩
      · rw [hothers id hid]
        refine or_iff_left fun hc => hid (List.mem_singleton.mp hc)
    · show Assoc.set step.id output.size st.sizes = (Assoc.set step.id output st.values).map _
      rw [hset, hsetSizes, h.sizes, List.map_append]
      rfl
    · show ((Assoc.set step.id output st.values).map Prod.fst).Nodup
      rw [hset, List.map_append, List.nodup_append]
      refine ⟨h.once, List.nodup_singleton _, fun a ha b hb heq => habsent ?_⟩
      have hb' : b = step.id := List.mem_singleton.mp hb
      rw [← hb', ← heq]
      exact ha
    · show st.retained + output.size = ((Assoc.set step.id output st.values).map _).sum
      rw [hset, List.map_append, List.sum_append, h.retained]
      rfl
    · exact Nat.not_lt.mp hroom'
  · rw [if_neg huses] at hr
    cases hr
    have hnot : step.id ∉ pending := fun hc => huses (List.count_pos_iff.mpr hc)
    refine ⟨⟨h.references, fun id => ?_, h.sizes, h.once, h.retained, h.bounded⟩, rfl⟩
    rw [h.held id]
    by_cases hid : id = step.id
    · rw [hid]
      exact ⟨fun hc => absurd hc.2.2 hnot, fun hc => absurd hc.2.2 hnot⟩
    · rw [hothers id hid]

theorem Kept.pushOutcome {d : Definition} {pending done : List String} {st : RunState}
    (h : Kept d pending done st) (step : PipelineStep) (state : StepState)
    (matched : Option Bool) : Kept d pending done (pushOutcome d st step state matched) := by
  cases d with
  | finite graph => exact h
  | conditional p => exact ⟨h.references, h.held, h.sizes, h.once, h.retained, h.bounded⟩

theorem runStage_consumed {d : Definition} {e : Stage} {st st' : RunState} {step : PipelineStep}
    {output : Json} {bytes : Nat} (h : runStage d e st step = .ok (st', output, bytes)) :
    consumeReferences st (d.referenceSources step) = .ok st' ∧ bytes = output.size := by
  simp only [runStage, bind_ok, ensure_ok, context_ok, pure_ok, Json.encodedBytes_ok,
    Prod.mk.injEq] at h
  obtain ⟨_, -, _, -, _, -, _, -, st1, hc, _, -, _, -, out, -, _, ⟨-, hbytes⟩, rfl, rfl, rfl⟩ := h
  exact ⟨hc, hbytes⟩

omit [F64] in
theorem settleStage_state {d : Definition} {e : Stage} {index : Nat} {step : PipelineStep}
    {matched : Option Bool} {st st' : RunState} {output : Json} {bytes : Nat} {turn : Turn}
    (h : settleStage d e index step matched st output bytes = .ok turn)
    (hst : turn.state = some st') :
    retainOutput d (pushOutcome d st step .completed matched) step output bytes = .ok st' := by
  unfold settleStage at h
  by_cases hfail : step.isProcess = true ∧ reportsFailure output = true
  · simp only [if_pos hfail, bind_ok, pure_ok] at h
    obtain ⟨_, -, rfl⟩ := h
    exact absurd hst.symm (Option.some_ne_none st')
  · simp only [if_neg hfail] at h
    by_cases hlast : index + 1 = d.graph.steps.length
    · simp only [if_pos hlast, bind_ok, pure_ok] at h
      obtain ⟨_, -, rfl⟩ := h
      exact absurd hst.symm (Option.some_ne_none st')
    · simp only [if_neg hlast, bind_ok, pure_ok] at h
      obtain ⟨mid, hmid, _, -, rfl⟩ := h
      exact (Option.some.inj hst) ▸ hmid

/-- One turn leads from a boundary to the next. -/
theorem Boundary.step {d : Definition} (hd : Backward d) {e : Stage} {index : Nat}
    {st st' : RunState} {step : PipelineStep} {turn : Turn} (h : Boundary d index st)
    (hstep : d.graph.steps[index]? = some step) (hturn : stageStep d e index st step = .ok turn)
    (hst : turn.state = some st') : Boundary d (index + 1) st' := by
  simp only [stageStep, bind_ok, ensure_ok] at hturn
  obtain ⟨_, -, decision, hdecision, hturn⟩ := hturn
  have hcond : (∀ matched, decision ≠ .run matched) → ∀ graph, d ≠ .finite graph := by
    intro hne graph hg
    rw [hg] at hdecision
    exact hne none (Except.ok.inj hdecision).symm
  cases decision with
  | run matched =>
    obtain ⟨⟨mid, output, bytes⟩, hrun, hsettle⟩ := bind_ok.mp hturn
    obtain ⟨hconsume, hbytes⟩ := runStage_consumed hrun
    obtain ⟨mid', hmid', hkept, hsame⟩ := h.consume hd hstep
    have heq : mid' = mid := Except.ok.inj (hmid'.symm.trans hconsume)
    rw [heq] at hkept hsame
    have hretain := settleStage_state hsettle hst
    rw [hbytes] at hretain
    have hskipped : (Eef.Node.pushOutcome d mid step .completed matched).skipped = st.skipped :=
      (pushOutcome_skipped ..).trans hsame
    have hfresh : step.id ∉ st.skipped := fun hc => hd.fresh hstep (h.skipped _ hc)
    obtain ⟨hkept', hsame'⟩ := (hkept.pushOutcome step .completed matched).retain
      (List.mem_of_getElem? hstep) (hd.fresh hstep) (by rw [hskipped]; exact hfresh) hretain
    refine ⟨by rw [take_succ_ids hstep]; exact hkept', fun id hid => ?_, fun graph hg => ?_⟩
    swap
    · rw [hsame', hskipped]
      exact h.finite graph hg
    rw [hsame', hskipped] at hid
    rw [take_succ_ids hstep]
    exact List.mem_append_left _ (h.skipped id hid)
  | skipCondition =>
    obtain ⟨mid, hmid, heq⟩ := bind_ok.mp hturn
    cases heq
    obtain ⟨mid', hmid', hboundary⟩ := h.skip hd hstep
      (hcond fun matched hc => Decision.noConfusion hc) (st.outcomes ++ (skipOutcome step .skipCondition).toList)
    rw [← Option.some.inj hst, ← Except.ok.inj (hmid'.symm.trans hmid)]
    exact hboundary
  | skipDependency source matched =>
    obtain ⟨mid, hmid, heq⟩ := bind_ok.mp hturn
    cases heq
    obtain ⟨mid', hmid', hboundary⟩ := h.skip hd hstep
      (hcond fun matched hc => Decision.noConfusion hc) (st.outcomes ++ (skipOutcome step (.skipDependency source matched)).toList)
    rw [← Option.some.inj hst, ← Except.ok.inj (hmid'.symm.trans hmid)]
    exact hboundary

/-! ## Valid definitions -/

omit [F64] in
/-- The guards of a definition are a map: each step has at most one. -/
def Definition.Mapped : Definition → Prop
  | .finite _ => True
  | .conditional p => (p.conditions.map Prod.fst).Nodup

omit [F64] in
theorem stepIndex_eq {steps : List PipelineStep} (hnodup : (steps.map PipelineStep.id).Nodup)
    {index : Nat} {step : PipelineStep} (h : steps[index]? = some step) :
    stepIndex steps step.id = some index := by
  unfold stepIndex
  obtain ⟨hlt, heq⟩ := List.getElem?_eq_some_iff.mp h
  refine List.findIdx?_eq_some_iff_getElem.mpr ⟨hlt, by rw [heq]; exact beq_self_eq_true _, ?_⟩
  intro j hj hc
  have hids : steps[j].id = step.id := beq_iff_eq.mp hc
  have hj' : j < (steps.map PipelineStep.id).length := by
    rw [List.length_map]
    omega
  have hi' : index < (steps.map PipelineStep.id).length := by
    rw [List.length_map]
    exact hlt
  have hget : (steps.map PipelineStep.id)[j] = (steps.map PipelineStep.id)[index] := by
    rw [List.getElem_map, List.getElem_map, hids, heq]
  exact absurd ((hnodup.getElem_inj_iff).mp hget) (by omega)

omit [F64] in
theorem mem_take_of_stepIndex {steps : List PipelineStep} {id : String} {source target : Nat}
    (h : stepIndex steps id = some source) (hlt : source < target) :
    id ∈ (steps.take target).map PipelineStep.id := by
  obtain ⟨hs, hid, -⟩ := List.findIdx?_eq_some_iff_getElem.mp h
  rw [← beq_iff_eq.mp hid]
  refine List.mem_map_of_mem (List.mem_take_iff_getElem.mpr ⟨source, by omega, rfl⟩)

/-- A guard of a valid definition belongs to a step, and reads a step behind it. -/
theorem validateCondition_ok {steps : List PipelineStep} {entry : String × Condition}
    (h : validateCondition steps entry = .ok ()) :
    entry.2.validate = .ok () ∧ ∃ target source, stepIndex steps entry.1 = some target ∧
      stepIndex steps entry.2.sourceStep = some source ∧ source < target := by
  simp only [validateCondition, bind_ok, context_ok, bailIf_ok] at h
  obtain ⟨_, -, _, hvalid, target, htarget, source, hsource, hlt⟩ := h
  exact ⟨hvalid, target, source, htarget, hsource, Nat.not_le.mp hlt⟩

/-- What the reference counts of a definition were computed for. -/
theorem referenceCounts_valid {d : Definition} {references : List (String × Nat)}
    (h : d.referenceCounts = .ok references) :
    d.graph.validateForExecutor none = .ok () ∧
      ∀ p, d = .conditional p → ∀ e ∈ p.conditions, validateCondition p.graph.steps e = .ok () := by
  cases d with
  | finite graph =>
    obtain ⟨_, hvalid, -⟩ := bind_ok.mp h
    exact ⟨hvalid, fun p hp => Definition.noConfusion hp⟩
  | conditional p =>
    obtain ⟨_, hvalid, -⟩ := bind_ok.mp h
    simp only [ConditionalPipeline.validateForExecutor, bind_ok, each_ok] at hvalid
    obtain ⟨_, hgraph, _, -, hconds⟩ := hvalid
    refine ⟨hgraph, fun q hq => ?_⟩
    cases hq
    exact hconds

/-- A definition with reference counts only looks back. -/
theorem referenceCounts_backward {d : Definition} {references : List (String × Nat)}
    (h : d.referenceCounts = .ok references) : Backward d := by
  obtain ⟨hgraph, hconds⟩ := referenceCounts_valid h
  have hvalid := (FinitePipeline.validateForExecutor_valid hgraph).graph
  refine ⟨hvalid.nodup, fun index step hstep source hsource => ?_⟩
  have hinputs : source ∈ step.inputs.map (·.sourceStep) →
      source ∈ (d.graph.steps.take index).map PipelineStep.id := by
    intro hs
    obtain ⟨input, hinput, rfl⟩ := List.mem_map.mp hs
    obtain ⟨hlt, heq⟩ := List.getElem?_eq_some_iff.mp hstep
    exact hvalid.back index hlt input (heq ▸ hinput)
  cases d with
  | finite graph => exact hinputs hsource
  | conditional p =>
    rcases List.mem_append.mp hsource with hs | hs
    · exact hinputs hs
    · obtain ⟨c, hc, rfl⟩ := Option.map_eq_some_iff.mp (Option.mem_toList.mp hs)
      obtain ⟨-, target, source, htarget, hsource', hlt⟩ := validateCondition_ok
        (hconds p rfl _ (Assoc.mem_of_lookup hc))
      have hindex : index = target :=
        Option.some.inj ((stepIndex_eq hvalid.nodup hstep).symm.trans htarget)
      rw [← hindex] at hlt
      exact mem_take_of_stepIndex hsource' hlt

/-! ## The first account -/

omit [F64] in
/-- Every occurrence of a source counts once. -/
theorem lookup_foldl_addReference {sources : List String} {counts : List (String × Nat)}
    {id : String} {n : Nat} (h : counts.lookup id = some n) :
    (sources.foldl Definition.addReference counts).lookup id = some (n + sources.count id) := by
  induction sources generalizing counts n with
  | nil => exact h
  | cons source sources ih =>
    rw [List.foldl_cons]
    by_cases hid : source = id
    · have hset : (Definition.addReference counts source).lookup id = some (n + 1) := by
        unfold Definition.addReference
        rw [hid, h]
        show (Assoc.set id (n + 1) counts).lookup id = _
        rw [Assoc.lookup_set, if_pos rfl]
      rw [ih hset, hid, List.count_cons_self]
      congr 1
      omega
    · have hset : (Definition.addReference counts source).lookup id = some n := by
        unfold Definition.addReference
        cases hs : counts.lookup source with
        | none => exact h
        | some m =>
          show (Assoc.set source (m + 1) counts).lookup id = _
          rw [Assoc.lookup_set, if_neg (Ne.symm hid), h]
      rw [ih hset, List.count_cons_of_ne hid]

omit [F64] in
theorem lookup_zeros {steps : List PipelineStep} {step : PipelineStep} (h : step ∈ steps) :
    (steps.map fun s => (s.id, 0)).lookup step.id = some 0 := by
  induction steps with
  | nil => exact absurd h List.not_mem_nil
  | cons s steps ih =>
    rw [List.map_cons, Assoc.lookup_cons]
    by_cases hid : step.id = s.id
    · rw [if_pos hid]
    · rw [if_neg hid]
      refine ih ((List.mem_cons.mp h).resolve_left fun heq => hid (by rw [heq]))

omit [F64] in
/-- The guards of a map, read step by step, are the entries of the map. -/
theorem guards_perm {p : ConditionalPipeline} {steps : List PipelineStep}
    (hmap : (p.conditions.map Prod.fst).Nodup) (hnodup : (steps.map PipelineStep.id).Nodup)
    (htargets : ∀ e ∈ p.conditions, e.1 ∈ steps.map PipelineStep.id) :
    (steps.flatMap fun s => ((p.guard s).map fun c => (s.id, c)).toList).Perm p.conditions := by
  have hsub : ∀ l : List PipelineStep,
      ((l.flatMap fun s => ((p.guard s).map fun c => (s.id, c)).toList).map Prod.fst).Sublist
        (l.map PipelineStep.id) := by
    intro l
    induction l with
    | nil => exact List.Sublist.slnil
    | cons s l ih =>
      rw [List.flatMap_cons, List.map_append, List.map_cons]
      cases p.guard s with
      | none => exact ih.cons _
      | some c => exact ih.cons_cons _
  refine (List.perm_ext_iff_of_nodup ((hsub steps).nodup hnodup).of_map hmap.of_map).mpr ?_
  rintro ⟨id, c⟩
  rw [List.mem_flatMap]
  constructor
  · rintro ⟨s, -, hc⟩
    obtain ⟨c', hc', heq⟩ := Option.map_eq_some_iff.mp (Option.mem_toList.mp hc)
    exact heq ▸ Assoc.mem_of_lookup hc'
  · intro hc
    obtain ⟨s, hs, hid⟩ := List.mem_map.mp (htargets _ hc)
    refine ⟨s, hs, Option.mem_toList.mpr (Option.map_eq_some_iff.mpr ⟨c, ?_, by rw [hid]⟩)⟩
    unfold ConditionalPipeline.guard
    rw [hid]
    exact (Assoc.lookup_eq_some_iff hmap).mpr hc

omit [F64] in
/-- The uses of the steps are their inputs and their guards. -/
theorem count_pendingUses {p : ConditionalPipeline} (steps : List PipelineStep) (id : String) :
    (pendingUses (.conditional p) steps).count id
      = (steps.flatMap fun s => s.inputs.map (·.sourceStep)).count id
        + (steps.flatMap fun s => ((p.guard s).map (·.sourceStep)).toList).count id := by
  induction steps with
  | nil => rfl
  | cons s steps ih =>
    have hcons : pendingUses (.conditional p) (s :: steps)
        = (s.inputs.map (·.sourceStep) ++ ((p.guard s).map (·.sourceStep)).toList)
          ++ pendingUses (.conditional p) steps := List.flatMap_cons
    rw [hcons, List.flatMap_cons, List.flatMap_cons]
    simp only [List.count_append, ih]
    omega

theorem validateCondition_target {steps : List PipelineStep} {entry : String × Condition}
    (h : validateCondition steps entry = .ok ()) : entry.1 ∈ steps.map PipelineStep.id := by
  obtain ⟨-, target, source, htarget, -, -⟩ := validateCondition_ok h
  obtain ⟨hlt, -, -⟩ := List.findIdx?_eq_some_iff_getElem.mp htarget
  have := mem_take_of_stepIndex htarget (Nat.lt_succ_self target)
  exact List.map_subset _ (List.take_subset _ _) this

theorem graphCounts_lookup {graph : FinitePipeline} {references : List (String × Nat)}
    (h : Definition.graphCounts graph = .ok references) {step : PipelineStep}
    (hstep : step ∈ graph.steps) :
    references.lookup step.id
      = some ((graph.steps.flatMap fun s => s.inputs.map (·.sourceStep)).count step.id) := by
  obtain ⟨_, -, h⟩ := bind_ok.mp h
  cases h
  rw [lookup_foldl_addReference (lookup_zeros hstep), Nat.zero_add]

/-- The reference counts are the uses of all steps. -/
theorem referenceCounts_lookup {d : Definition} {references : List (String × Nat)}
    (hmap : d.Mapped) (h : d.referenceCounts = .ok references) {step : PipelineStep}
    (hstep : step ∈ d.graph.steps) :
    references.lookup step.id = some ((pendingUses d d.graph.steps).count step.id) := by
  obtain ⟨hgraph, hconds⟩ := referenceCounts_valid h
  have hnodup := (referenceCounts_backward h).nodup
  cases d with
  | finite graph => exact graphCounts_lookup h hstep
  | conditional p =>
    simp only [Definition.referenceCounts, bind_ok, ensure_ok, pure_ok] at h
    obtain ⟨_, -, counts, hcounts, _, -, rfl⟩ := h
    rw [lookup_foldl_addReference (graphCounts_lookup hcounts hstep)]
    congr 1
    have hperm := guards_perm hmap hnodup fun e he => validateCondition_target (hconds p rfl e he)
    have hsources : (p.conditions.map (·.2.sourceStep)).count step.id
        = ((p.graph.steps.flatMap fun s => ((p.guard s).map (·.sourceStep)).toList)).count
          step.id := by
      rw [← (hperm.map (·.2.sourceStep)).count_eq, List.map_flatMap]
      congr 1
      refine List.flatMap_congr fun s _ => ?_
      cases p.guard s <;> rfl
    rw [hsources]
    exact (count_pendingUses p.graph.steps step.id).symm

/-- What the loop of `execute` starts from. -/
def initialState (references : List (String × Nat)) : RunState :=
  { references, values := [], sizes := [], retained := 0, skipped := [], outcomes := [] }

theorem Boundary.initial {d : Definition} {references : List (String × Nat)} (hmap : d.Mapped)
    (h : d.referenceCounts = .ok references) : Boundary d 0 (initialState references) := by
  refine ⟨⟨fun s hs => ?_, fun id => ?_, rfl, List.nodup_nil, rfl, Nat.zero_le _⟩, ?_,
    fun graph hg => rfl⟩
  · exact referenceCounts_lookup hmap h hs
  · exact ⟨fun hc => absurd hc List.not_mem_nil, fun hc => absurd hc.1 List.not_mem_nil⟩
  · intro id hid
    exact absurd hid List.not_mem_nil

/-! ## Errors that are never returned -/

omit [F64] in
/-- The errors of the accounting. -/
def accountingErrors : List String :=
  ["Pipeline reference accounting missing", "Pipeline reference accounting underflow",
    "Pipeline retained byte accounting underflow", "Pipeline retained size missing",
    "Conditional source result unavailable", "Pipeline source result is unavailable"]

section Avoids
variable {α β : Type}

omit [F64]

/-- A result is none of the errors of the accounting. -/
def Avoids (x : Result α) : Prop := ∀ m ∈ accountingErrors, x ≠ .error m

theorem avoids_ok (a : α) : Avoids (.ok a : Result α) := by
  intro m _ h
  cases h

theorem avoids_error {m : String} (h : m ∉ accountingErrors) : Avoids (.error m : Result α) := by
  intro m' hm' heq
  exact h (Except.error.inj heq ▸ hm')

theorem avoids_bind {x : Result α} {f : α → Result β} (hx : Avoids x)
    (hf : ∀ a, x = .ok a → Avoids (f a)) : Avoids (x >>= f) := by
  cases x with
  | error m => exact avoids_error fun hm => hx m hm rfl
  | ok a => exact hf a rfl

theorem avoids_ensure {c : Prop} [Decidable c] {m : String} (h : m ∉ accountingErrors) :
    Avoids (ensure c m) := by
  unfold ensure
  by_cases hc : c
  · rw [if_pos hc]
    exact avoids_ok ()
  · rw [if_neg hc]
    exact avoids_error h

theorem avoids_bailIf {c : Prop} [Decidable c] {m : String} (h : m ∉ accountingErrors) :
    Avoids (bailIf c m) := by
  unfold bailIf
  by_cases hc : c
  · rw [if_pos hc]
    exact avoids_error h
  · rw [if_neg hc]
    exact avoids_ok ()

theorem avoids_context {o : Option α} {m : String} (h : m ∉ accountingErrors) :
    Avoids (context o m) := by
  cases o with
  | none => exact avoids_error h
  | some a => exact avoids_ok a

theorem avoids_some {o : Option α} {m : String} (h : o.isSome = true) : Avoids (context o m) := by
  cases o with
  | none => exact absurd h Bool.false_ne_true
  | some a => exact avoids_ok a

theorem avoids_each {f : α → Result Unit} {l : List α} (h : ∀ a ∈ l, Avoids (f a)) :
    Avoids (each f l) := by
  induction l with
  | nil => exact avoids_ok ()
  | cons a l ih =>
    refine avoids_bind (h a List.mem_cons_self) fun _ _ => ?_
    exact ih fun b hb => h b (List.mem_cons_of_mem _ hb)

end Avoids

omit [F64] in
theorem textBound_avoids (text : String) : Avoids (textBound text) := avoids_ensure (by decide)

omit [F64] in
theorem validateDataType_avoids (key : String) (value : Json) :
    Avoids (validateDataType key value) := by
  unfold validateDataType
  split
  · exact avoids_ok ()
  · cases value with
    | arr values => exact avoids_bailIf (by decide)
    | _ => exact avoids_error (by decide)
  · exact avoids_ensure (by decide)

omit [F64] in
theorem validateMessage_avoids (message : Json) : Avoids (validateMessage message) := by
  unfold validateMessage
  cases message with
  | obj fields =>
    refine avoids_bind (avoids_bailIf (by decide)) fun _ _ => ?_
    exact avoids_bind (avoids_context (by decide)) fun _ _ => textBound_avoids _
  | _ => exact avoids_error (by decide)

theorem validateModelLiterals_avoids (params : Json) (vision boundImages : Bool) :
    Avoids (validateModelLiterals params vision boundImages) := by
  have himages := fun images => validateDataType_avoids "images" images
  unfold validateModelLiterals
  dsimp only
  -- each field is absent or checked, and every check has its own text
  repeat' first
    | exact avoids_ok _
    | exact avoids_error (by decide)
    | exact avoids_bailIf (by decide)
    | exact avoids_context (by decide)
    | exact textBound_avoids _
    | exact himages _
    | exact avoids_each fun m _ => validateMessage_avoids m
    | refine avoids_bind ?_ fun _ _ => ?_
    | split

theorem encodedBytes_avoids (j : Json) (limit : Nat) : Avoids (j.encodedBytes limit) := by
  unfold Json.encodedBytes
  by_cases h : j.size ≤ limit
  · rw [if_pos h]
    exact avoids_ok _
  · rw [if_neg h]
    exact avoids_error (by decide)

omit [F64] in
theorem bindIdentity_avoids (key : String) (value : Option String) (fields : List (String × Json)) :
    Avoids (bindIdentity key value fields) := by
  cases value with
  | none => exact avoids_ok fields
  | some v =>
    unfold bindIdentity
    by_cases h : (fields.lookup key).any (· ≠ .str v) = true
    · simp only [if_pos h]
      exact avoids_error (by decide)
    · simp only [if_neg h]
      exact avoids_ok _

theorem boundParams_avoids (step : PipelineStep) : Avoids step.boundParams := by
  unfold PipelineStep.boundParams
  cases step.params with
  | obj fields =>
    refine avoids_bind (avoids_bailIf (by decide)) fun _ _ => ?_
    refine avoids_bind (bindIdentity_avoids _ _ _) fun _ _ => ?_
    refine avoids_bind (bindIdentity_avoids _ _ _) fun _ _ => ?_
    exact avoids_bind (bindIdentity_avoids _ _ _) fun _ _ => avoids_ok _
  | _ => exact avoids_error (by decide)

/-- The inputs resolve without an accounting error where all their sources are held. -/
theorem resolveInputs_avoids {results : String → Option Json} {inputs : List DataInput}
    (h : ∀ i ∈ inputs, (results i.sourceStep).isSome = true) (params : Json) (remaining : Nat) :
    Avoids (resolveInputs results params remaining inputs) := by
  induction inputs generalizing params remaining with
  | nil => exact avoids_ok params
  | cons i inputs ih =>
    unfold resolveInputs
    refine avoids_bind (avoids_some (h i List.mem_cons_self)) fun _ _ => ?_
    refine avoids_bind (avoids_context (by decide)) fun _ _ => ?_
    refine avoids_bind (avoids_bailIf (by decide)) fun _ _ => ?_
    refine avoids_bind (encodedBytes_avoids _ _) fun _ _ => ?_
    refine avoids_bind (validateDataType_avoids _ _) fun _ _ => ?_
    exact ih (fun j hj => h j (List.mem_cons_of_mem _ hj)) _ _

theorem resolveWithLimit_avoids {step : PipelineStep} {results : String → Option Json}
    (hvalid : step.validate none = .ok ())
    (h : ∀ i ∈ step.inputs, (results i.sourceStep).isSome = true) (limit : Nat) :
    Avoids (step.resolveWithLimit results limit) := by
  unfold PipelineStep.resolveWithLimit
  refine avoids_bind (avoids_ensure (by decide)) fun _ _ => ?_
  rw [hvalid]
  refine avoids_bind (avoids_ok ()) fun _ _ => ?_
  refine avoids_bind (boundParams_avoids step) fun _ _ => ?_
  refine avoids_bind (encodedBytes_avoids _ _) fun _ _ => ?_
  refine avoids_bind (resolveInputs_avoids h _ _) fun params _ => ?_
  by_cases hmodel : isModel step.capability = true
  · rw [if_pos hmodel]
    exact avoids_bind (validateModelLiterals_avoids _ _ _) fun _ _ => avoids_ok _
  · rw [if_neg hmodel]
    exact avoids_ok _

theorem numberOrdering_avoids (left right : Number) : Avoids (numberOrdering left right) := by
  unfold numberOrdering
  dsimp only
  repeat' first
    | exact avoids_ok _
    | exact avoids_ensure (by decide)
    | exact avoids_bailIf (by decide)
    | exact avoids_context (by decide)
    | refine avoids_bind ?_ fun _ _ => ?_
    | split

theorem scalarOrdering_avoids (value expected : Json) : Avoids (scalarOrdering value expected) := by
  unfold scalarOrdering
  repeat' first
    | exact avoids_ok _
    | exact avoids_error (by decide)
    | exact numberOrdering_avoids _ _
    | split

theorem matches_avoids {c : Condition} (h : c.validate = .ok ()) (source : Json) :
    Avoids (c.matches source) := by
  unfold Condition.matches
  rw [h]
  refine avoids_bind (avoids_ok ()) fun _ _ => ?_
  refine avoids_bind (avoids_context (by decide)) fun _ _ => ?_
  exact avoids_bind (scalarOrdering_avoids _ _) fun _ _ => avoids_ok _

/-! ## Every stage finds what it needs -/

/-- At a boundary, a source of the next stage that was not skipped is held. -/
theorem Boundary.available {d : Definition} (hd : Backward d) {index : Nat} {st : RunState}
    {step : PipelineStep} (h : Boundary d index st) (hstep : d.graph.steps[index]? = some step)
    {source : String} (hs : source ∈ d.referenceSources step) (hsk : source ∉ st.skipped) :
    (st.values.lookup source).isSome = true := by
  refine Assoc.isSome_lookup.mpr ((h.kept.held source).mpr ⟨hd.back index step hstep source hs, hsk, ?_⟩)
  rw [pendingUses_drop hstep]
  exact List.mem_append_left _ hs

/-- The guard of the next stage is decided without an accounting error. -/
theorem decision_avoids {d : Definition} {references : List (String × Nat)}
    (hrefs : d.referenceCounts = .ok references) {index : Nat} {st : RunState}
    {step : PipelineStep} (h : Boundary d index st) (hstep : d.graph.steps[index]? = some step) :
    Avoids (d.decision step st.values st.skipped) := by
  cases d with
  | finite graph => exact avoids_ok _
  | conditional p =>
    show Avoids (p.decisionWith step _ st.skipped)
    unfold ConditionalPipeline.decisionWith
    cases hguard : p.guard step with
    | none => exact avoids_ok _
    | some c =>
      by_cases hsk : c.sourceStep ∈ st.skipped
      · simp only [if_pos hsk]
        exact avoids_ok _
      · simp only [if_neg hsk]
        have hsource : c.sourceStep ∈ (Definition.conditional p).referenceSources step := by
          refine List.mem_append_right _ (Option.mem_toList.mpr ?_)
          rw [hguard]
          rfl
        have hvalid := (validateCondition_ok
          ((referenceCounts_valid hrefs).2 p rfl _ (Assoc.mem_of_lookup hguard))).1
        refine avoids_bind ?_ fun _ _ => avoids_ok _
        refine avoids_bind (avoids_some ?_) fun source _ => matches_avoids hvalid source
        exact h.available (referenceCounts_backward hrefs) hstep hsource hsk

/-- A stage that runs skipped none of its inputs. -/
theorem Boundary.run_inputs {d : Definition} {index : Nat} {st : RunState} {step : PipelineStep}
    {matched : Option Bool} (hb : Boundary d index st)
    (h : d.decision step st.values st.skipped = .ok (.run matched)) :
    ∀ i ∈ step.inputs, i.sourceStep ∉ st.skipped := by
  intro i hi hsk
  cases d with
  | finite graph =>
    rw [hb.finite graph rfl] at hsk
    exact absurd hsk List.not_mem_nil
  | conditional p =>
    have hrun : inputSkipped step st.skipped = false := by
      rcases decisionWith_cases h with ⟨-, -, hr⟩ | ⟨hc, -⟩ | ⟨c, hc, -⟩ | ⟨source, hc, -⟩
      · exact hr
      · cases hc
      · cases hc
      · cases hc
    have hany : inputSkipped step st.skipped = true := by
      refine List.any_eq_true.mpr ⟨i, hi, ?_⟩
      simpa using hsk
    rw [hrun] at hany
    exact Bool.false_ne_true hany

omit [F64] in
theorem observe_avoids (d : Definition) (written : Bool) : Avoids (observe d written) := by
  cases d with
  | finite graph => exact avoids_ensure (by decide)
  | conditional p => exact avoids_ok ()

/-- A stage runs without an accounting error. -/
theorem runStage_avoids {d : Definition} {references : List (String × Nat)}
    (hrefs : d.referenceCounts = .ok references) {e : Stage} {index : Nat} {st : RunState}
    {step : PipelineStep} {matched : Option Bool} (h : Boundary d index st)
    (hstep : d.graph.steps[index]? = some step)
    (hdecision : d.decision step st.values st.skipped = .ok (.run matched)) :
    Avoids (runStage d e st step) := by
  have hd := referenceCounts_backward hrefs
  have hvalid : step.validate none = .ok () := by
    have hgraph := (referenceCounts_valid hrefs).1
    simp only [FinitePipeline.validateForExecutor, bind_ok] at hgraph
    obtain ⟨_, -, _, -, hsteps⟩ := hgraph
    exact (validateSteps_spec hsteps).1 step (List.mem_of_getElem? hstep)
  have hinputs : ∀ i ∈ step.inputs, (st.values.lookup i.sourceStep).isSome = true := by
    intro i hi
    refine h.available hd hstep ?_ (h.run_inputs hdecision i hi)
    have hmem : i.sourceStep ∈ step.inputs.map (·.sourceStep) := List.mem_map_of_mem hi
    cases d with
    | finite graph => exact hmem
    | conditional p => exact List.mem_append_left _ hmem
  obtain ⟨mid, hmid, -, -⟩ := h.consume hd hstep
  unfold runStage
  refine avoids_bind (boundParams_avoids step) fun _ _ => ?_
  refine avoids_bind (avoids_ensure (by decide)) fun _ _ => ?_
  refine avoids_bind (resolveWithLimit_avoids hvalid hinputs _) fun _ _ => ?_
  refine avoids_bind (encodedBytes_avoids _ _) fun _ _ => ?_
  rw [hmid]
  refine avoids_bind (avoids_ok mid) fun _ _ => ?_
  refine avoids_bind (observe_avoids _ _) fun _ _ => ?_
  refine avoids_bind (avoids_ensure (by decide)) fun _ _ => ?_
  refine avoids_bind (avoids_context (by decide)) fun _ _ => ?_
  exact avoids_bind (encodedBytes_avoids _ _) fun _ _ => avoids_ok _

/-- What a stage returned is settled without an accounting error. -/
theorem settleStage_avoids {d : Definition} {pending done : List String} {e : Stage} {index : Nat}
    {st : RunState} {step : PipelineStep} (h : Kept d pending done st) (hstep : step ∈ d.graph.steps)
    (matched : Option Bool) (output : Json) (bytes : Nat) :
    Avoids (settleStage d e index step matched st output bytes) := by
  have hretain : ∀ st', Kept d pending done st' → Avoids (retainOutput d st' step output bytes) := by
    intro st' hst'
    unfold retainOutput
    rw [hst'.references step hstep]
    refine avoids_bind (avoids_ok _) fun uses _ => ?_
    by_cases huses : uses > 0
    · rw [if_pos huses]
      exact avoids_bind (avoids_bailIf (by decide)) fun _ _ => avoids_ok _
    · rw [if_neg huses]
      exact avoids_ok _
  unfold settleStage
  by_cases hfail : step.isProcess = true ∧ reportsFailure output = true
  · simp only [if_pos hfail]
    exact avoids_bind (observe_avoids _ _) fun _ _ => avoids_ok _
  · simp only [if_neg hfail]
    by_cases hlast : index + 1 = d.graph.steps.length
    · simp only [if_pos hlast]
      exact avoids_bind (observe_avoids _ _) fun _ _ => avoids_ok _
    · simp only [if_neg hlast]
      refine avoids_bind (hretain _ (h.pushOutcome step .completed matched)) fun _ _ => ?_
      exact avoids_bind (observe_avoids _ _) fun _ _ => avoids_ok _

/-- One turn from a boundary returns no accounting error. -/
theorem stageStep_avoids {d : Definition} {references : List (String × Nat)}
    (hrefs : d.referenceCounts = .ok references) {e : Stage} {index : Nat} {st : RunState}
    {step : PipelineStep} (h : Boundary d index st) (hstep : d.graph.steps[index]? = some step) :
    Avoids (stageStep d e index st step) := by
  have hd := referenceCounts_backward hrefs
  have hskip : ∀ outcomes, d.isConditional = true →
      Avoids (consumeReferences { st with skipped := step.id :: st.skipped, outcomes }
        (d.referenceSources step) >>= fun st => (pure (Turn.skipped st) : Result Turn)) := by
    intro outcomes hc
    have hcond : ∀ graph, d ≠ .finite graph := by
      intro graph hg
      rw [hg] at hc
      exact Bool.false_ne_true hc
    obtain ⟨mid, hmid, -⟩ := h.skip hd hstep hcond outcomes
    rw [hmid]
    exact avoids_bind (avoids_ok mid) fun _ _ => avoids_ok _
  unfold stageStep
  refine avoids_bind (avoids_ensure (by decide)) fun _ _ => ?_
  refine avoids_bind (decision_avoids hrefs h hstep) fun decision hdecision => ?_
  have hcond : (∀ matched, decision ≠ .run matched) → d.isConditional = true := by
    intro hne
    cases d with
    | finite graph => exact absurd (Except.ok.inj hdecision).symm (hne none)
    | conditional p => rfl
  cases decision with
  | run matched =>
    refine avoids_bind (runStage_avoids hrefs h hstep hdecision) fun out hrun => ?_
    obtain ⟨mid, output, bytes⟩ := out
    obtain ⟨hconsume, -⟩ := runStage_consumed hrun
    obtain ⟨mid', hmid', hkept, -⟩ := h.consume hd hstep
    rw [Except.ok.inj (hmid'.symm.trans hconsume)] at hkept
    exact settleStage_avoids hkept (List.mem_of_getElem? hstep) matched output bytes
  | skipCondition => exact hskip _ (hcond fun matched hc => Decision.noConfusion hc)
  | skipDependency source matched => exact hskip _ (hcond fun matched hc => Decision.noConfusion hc)

/-! ## Runs -/

/-- The boundaries a run comes to, with the steps that completed and what they returned. -/
inductive Reached (d : Definition) (env : Nat → Stage) (references : List (String × Nat)) :
    Nat → RunState → List (String × Json) → Prop
  | start : Reached d env references 0 (initialState references) []
  | ran {index : Nat} {st st' : RunState} {completed : List (String × Json)} {step : PipelineStep}
      {output : Json} : Reached d env references index st completed →
    d.graph.steps[index]? = some step →
    stageStep d (env index) index st step = .ok (.ran st' output) →
    Reached d env references (index + 1) st' (completed ++ [(step.id, output)])
  | skipped {index : Nat} {st st' : RunState} {completed : List (String × Json)}
      {step : PipelineStep} : Reached d env references index st completed →
    d.graph.steps[index]? = some step →
    stageStep d (env index) index st step = .ok (.skipped st') →
    Reached d env references (index + 1) st' completed

omit [F64] in
theorem consumeReference_values {st st' : RunState} {source : String}
    (h : consumeReference st source = .ok st') : st'.values ⊆ st.values := by
  simp only [consumeReference, bind_ok, context_ok, bailIf_ok] at h
  obtain ⟨uses, -, _, -, h⟩ := h
  have herase : Assoc.erase source st.values ⊆ st.values :=
    List.filter_subset_self _
  by_cases hzero : uses - 1 = 0
  · rw [if_pos hzero] at h
    cases hbytes : st.sizes.lookup source with
    | some bytes =>
      rw [hbytes] at h
      obtain ⟨_, -, h⟩ := bind_ok.mp h
      cases h
      exact herase
    | none =>
      rw [hbytes] at h
      obtain ⟨_, -, h⟩ := bind_ok.mp h
      cases h
      exact herase
  · rw [if_neg hzero] at h
    cases h
    exact List.Subset.refl _

omit [F64] in
theorem consumeReferences_values {sources : List String} {st st' : RunState}
    (h : consumeReferences st sources = .ok st') : st'.values ⊆ st.values := by
  induction sources generalizing st with
  | nil =>
    cases h
    exact List.Subset.refl _
  | cons source sources ih =>
    obtain ⟨mid, hmid, hrest⟩ := bind_ok.mp h
    exact List.Subset.trans (ih hrest) (consumeReference_values hmid)

omit [F64] in
theorem retainOutput_values {d : Definition} {st st' : RunState} {step : PipelineStep}
    {output : Json} {bytes : Nat} (h : retainOutput d st step output bytes = .ok st') :
    ∀ e ∈ st'.values, e = (step.id, output) ∨ e ∈ st.values := by
  simp only [retainOutput, bind_ok, context_ok] at h
  obtain ⟨uses, -, h⟩ := h
  by_cases huses : uses > 0
  · rw [if_pos huses] at h
    obtain ⟨_, -, h⟩ := bind_ok.mp h
    cases h
    exact fun e he => Assoc.mem_set he
  · rw [if_neg huses] at h
    cases h
    exact fun e he => Or.inr he

/-- A stage that ran can only add its own output to what is held. -/
theorem stageStep_ran {d : Definition} {e : Stage} {index : Nat} {st st' : RunState}
    {step : PipelineStep} {output : Json}
    (h : stageStep d e index st step = .ok (.ran st' output)) :
    st'.skipped = st.skipped ∧ ∀ v ∈ st'.values, v = (step.id, output) ∨ v ∈ st.values := by
  rcases stageStep_cases h with ⟨matched, mid, out, bytes, -, hrun, hsettle⟩ |
    ⟨decision, outcome, mid, -, -, hturn, -⟩
  · have hretain := settleStage_state hsettle rfl
    have hout : out = output := by
      rcases settleStage_cases hsettle with ⟨-, -, hturn⟩ | ⟨-, -, hturn⟩ | ⟨-, -, mid', hturn, -⟩
      · cases hturn
      · cases hturn
      · cases hturn
        rfl
    rw [hout] at hretain
    obtain ⟨hconsume, -⟩ := runStage_consumed hrun
    have hvalues : (pushOutcome d mid step .completed matched).values = mid.values := by
      cases d <;> rfl
    refine ⟨(retainOutput_frame hretain).1.trans ((pushOutcome_skipped ..).trans
      (consumeReferences_frame hconsume).1), fun v hv => ?_⟩
    rcases retainOutput_values hretain v hv with hv | hv
    · exact Or.inl hv
    · rw [hvalues] at hv
      exact Or.inr (consumeReferences_values hconsume hv)
  · cases hturn

/-- A stage that is skipped adds nothing to what is held. -/
theorem stageStep_skipped {d : Definition} {e : Stage} {index : Nat} {st st' : RunState}
    {step : PipelineStep} (h : stageStep d e index st step = .ok (.skipped st')) :
    st'.skipped = step.id :: st.skipped ∧ st'.values ⊆ st.values := by
  simp only [stageStep, bind_ok, ensure_ok] at h
  obtain ⟨_, -, decision, -, h⟩ := h
  cases decision with
  | run matched =>
    obtain ⟨⟨mid, output, bytes⟩, -, hsettle⟩ := bind_ok.mp h
    rcases settleStage_cases hsettle with ⟨-, -, hturn⟩ | ⟨-, -, hturn⟩ | ⟨-, -, mid', hturn, -⟩
    · cases hturn
    · cases hturn
    · cases hturn
  | skipCondition =>
    obtain ⟨mid, hmid, heq⟩ := bind_ok.mp h
    cases heq
    have hvalues := consumeReferences_values hmid
    exact ⟨(consumeReferences_frame hmid).1, hvalues⟩
  | skipDependency source matched =>
    obtain ⟨mid, hmid, heq⟩ := bind_ok.mp h
    cases heq
    have hvalues := consumeReferences_values hmid
    exact ⟨(consumeReferences_frame hmid).1, hvalues⟩

/-- What a run that reached a boundary completed. -/
structure Completed (d : Definition) (index : Nat) (st : RunState)
    (completed : List (String × Json)) : Prop where
  boundary : Boundary d index st
  steps : ∀ id, id ∈ completed.map Prod.fst ↔
    id ∈ (d.graph.steps.take index).map PipelineStep.id ∧ id ∉ st.skipped
  once : (completed.map Prod.fst).Nodup
  values : st.values ⊆ completed

theorem Reached.completed {d : Definition} {env : Nat → Stage} {references : List (String × Nat)}
    (hmap : d.Mapped) (hrefs : d.referenceCounts = .ok references) {index : Nat} {st : RunState}
    {completed : List (String × Json)} (h : Reached d env references index st completed) :
    Completed d index st completed := by
  have hd := referenceCounts_backward hrefs
  induction h with
  | start =>
    refine ⟨Boundary.initial hmap hrefs, fun id => ?_, List.nodup_nil, List.Subset.refl _⟩
    exact ⟨fun hc => absurd hc List.not_mem_nil, fun hc => absurd hc.1 List.not_mem_nil⟩
  | @ran index st st' completed step output _ hstep hturn ih =>
    obtain ⟨hskipped, hvalues⟩ := stageStep_ran hturn
    have hfresh := hd.fresh hstep
    have hnot : step.id ∉ completed.map Prod.fst := fun hc => hfresh ((ih.steps _).mp hc).1
    refine ⟨ih.boundary.step hd hstep hturn rfl, fun id => ?_, ?_, ?_⟩
    · rw [List.map_append, List.mem_append, ih.steps id, take_succ_ids hstep, List.mem_append,
        hskipped]
      constructor
      · rintro (⟨hdone, hsk⟩ | hid)
        · exact ⟨Or.inl hdone, hsk⟩
        · have heq : id = step.id := List.mem_singleton.mp hid
          refine ⟨Or.inr hid, fun hc => hfresh ?_⟩
          exact heq ▸ ih.boundary.skipped id hc
      · rintro ⟨hdone | hid, hsk⟩
        · exact Or.inl ⟨hdone, hsk⟩
        · exact Or.inr hid
    · rw [List.map_append, List.nodup_append]
      refine ⟨ih.once, List.nodup_singleton _, fun a ha b hb heq => hnot ?_⟩
      have hb' : b = step.id := List.mem_singleton.mp hb
      rw [← hb', ← heq]
      exact ha
    · intro v hv
      rcases hvalues v hv with hv | hv
      · exact List.mem_append_right _ (List.mem_singleton.mpr hv)
      · exact List.mem_append_left _ (ih.values hv)
  | @skipped index st st' completed step _ hstep hturn ih =>
    obtain ⟨hskipped, hvalues⟩ := stageStep_skipped hturn
    refine ⟨ih.boundary.step hd hstep hturn rfl, fun id => ?_, ih.once,
      List.Subset.trans hvalues ih.values⟩
    have hcons : id ∉ step.id :: st.skipped ↔ id ≠ step.id ∧ id ∉ st.skipped := by
      rw [List.mem_cons, not_or]
    rw [ih.steps id, take_succ_ids hstep, List.mem_append, hskipped, hcons]
    constructor
    · rintro ⟨hdone, hsk⟩
      exact ⟨Or.inl hdone, fun heq => hd.fresh hstep (heq ▸ hdone), hsk⟩
    · rintro ⟨hdone | hid, hne, hsk⟩
      · exact ⟨hdone, hsk⟩
      · exact absurd (List.mem_singleton.mp hid) hne

/-- The loop from a boundary returns no accounting error. -/
theorem runFrom_avoids {d : Definition} {env : Nat → Stage} {references : List (String × Nat)}
    (hrefs : d.referenceCounts = .ok references) {steps : List PipelineStep} {index : Nat}
    {st : RunState} (hsteps : d.graph.steps.drop index = steps) (h : Boundary d index st) :
    Avoids (runFrom d env index st steps) := by
  induction steps generalizing index st with
  | nil => exact avoids_bind (avoids_ensure (by decide)) fun _ _ => avoids_ok _
  | cons step steps ih =>
    have hstep : d.graph.steps[index]? = some step := by
      rw [← List.head?_drop, hsteps]
      rfl
    have hrest : d.graph.steps.drop (index + 1) = steps := by
      rw [← List.tail_drop, hsteps]
      rfl
    unfold runFrom
    refine avoids_bind (stageStep_avoids hrefs h hstep) fun turn hturn => ?_
    have hnext : ∀ st', turn.state = some st' → Avoids (runFrom d env (index + 1) st' steps) :=
      fun st' hst' => ih hrest (h.step (referenceCounts_backward hrefs) hstep hturn hst')
    cases turn with
    | finished data output => exact avoids_ok _
    | ran st' output => exact avoids_bind (hnext st' rfl) fun _ _ => avoids_ok _
    | skipped st' => exact hnext st' rfl

/-- What a run retains at a boundary: `completed` are the steps that completed, with their
outputs. -/
structure Retention (d : Definition) (index : Nat) (st : RunState)
    (completed : List (String × Json)) : Prop where
  sum : st.retained = (st.values.map fun e => e.2.size).sum
  sizes : st.sizes = st.values.map fun e => (e.1, e.2.size)
  bounded : st.retained ≤ d.graph.maxRetainedBytes
  once : (st.values.map Prod.fst).Nodup
  held : ∀ id value, (id, value) ∈ st.values ↔ (id, value) ∈ completed ∧
    ∃ later ∈ d.graph.steps.drop index, id ∈ d.referenceSources later

/-- At every boundary of every run the account is right, and no run ends in an error of the
accounting. -/
theorem pipeline_retention {d : Definition} {references : List (String × Nat)} (hmap : d.Mapped)
    (hrefs : d.referenceCounts = .ok references) (env : Nat → Stage) :
    (∀ index st completed, Reached d env references index st completed →
      Retention d index st completed) ∧
    ∀ m ∈ accountingErrors,
      runFrom d env 0 (initialState references) d.graph.steps ≠ .error m := by
  refine ⟨fun index st completed h => ?_,
    runFrom_avoids hrefs List.drop_zero (Boundary.initial hmap hrefs)⟩
  have hc := h.completed hmap hrefs
  have hkept := hc.boundary.kept
  refine ⟨hkept.retained, hkept.sizes, hkept.bounded, hkept.once, fun id value => ?_⟩
  constructor
  · intro hv
    obtain ⟨-, -, hpending⟩ := (hkept.held id).mp (List.mem_map_of_mem hv)
    obtain ⟨later, hlater, hid⟩ := List.mem_flatMap.mp hpending
    exact ⟨hc.values hv, later, hlater, hid⟩
  · rintro ⟨hv, later, hlater, hid⟩
    obtain ⟨hdone, hsk⟩ := (hc.steps id).mp (List.mem_map_of_mem hv)
    have hheld := (hkept.held id).mpr ⟨hdone, hsk, List.mem_flatMap.mpr ⟨later, hlater, hid⟩⟩
    obtain ⟨⟨id', value'⟩, hv', heq⟩ := List.mem_map.mp hheld
    have hid' : id' = id := heq
    rw [hid'] at hv'
    have hsame := (Assoc.lookup_eq_some_iff hc.once).mpr (hc.values hv')
    rw [(Assoc.lookup_eq_some_iff hc.once).mpr hv] at hsame
    rw [Option.some.inj hsame]
    exact hv'

end

deriving instance DecidableEq for RunState, Turn

/-- The account of the guarded run after its first stage. -/
def probeHeld : RunState where
  references := [("probe", 1), ("native", 0)]
  values := [("probe", .obj [("pong", .bool true)])]
  sizes := [("probe", 13)]
  retained := 13
  skipped := []
  outcomes := [⟨"probe", .completed, none, none⟩]

theorem probe_turn :
    @Definition.referenceCounts F64.bits (.conditional probePipeline)
      = .ok [("probe", 1), ("native", 0)] ∧
    (Definition.conditional probePipeline).graph.steps[0]?
      = some (literalStep "probe" "system.ping" (.obj [])) ∧
    @stageStep F64.bits (.conditional probePipeline) (probeEnv 0) 0
        (initialState [("probe", 1), ("native", 0)])
        (literalStep "probe" "system.ping" (.obj []))
      = .ok (.ran probeHeld (.obj [("pong", .bool true)])) := by
  decide +kernel

theorem pipeline_retention_probe :
    @Retention F64.bits (.conditional probePipeline) 1 probeHeld
      [("probe", .obj [("pong", .bool true)])] ∧
    @runFrom F64.bits (.conditional probePipeline) probeEnv 0
        (initialState [("probe", 1), ("native", 0)]) probeSteps
      ≠ .error "Pipeline retained size missing" := by
  obtain ⟨hcounts, hstep, hturn⟩ := probe_turn
  have hmap : (Definition.conditional probePipeline).Mapped := List.nodup_singleton "native"
  obtain ⟨hkept, herrors⟩ := @pipeline_retention F64.bits _ _ hmap hcounts probeEnv
  refine ⟨hkept 1 _ _ (@Reached.ran F64.bits _ _ _ 0 _ _ [] _ _ ?_ hstep hturn), ?_⟩
  · exact @Reached.start F64.bits _ _ _
  · exact herrors _ (by decide)

end Eef.Node
