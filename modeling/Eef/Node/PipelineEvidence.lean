import Eef.Node.GrantReport

/-!
# Compound evidence: the runtime and the checker agree
-/

namespace Eef.Node

open Eef.Lib

/-! ## What one turn of the loop can do -/

theorem consumeReference_frame {st st' : RunState} {source : String}
    (h : consumeReference st source = .ok st') :
    st'.skipped = st.skipped ∧ st'.outcomes = st.outcomes := by
  simp only [consumeReference, bind_ok, context_ok, bailIf_ok] at h
  obtain ⟨uses, -, _, -, h⟩ := h
  split at h
  · split at h
    · simp only [bind_ok, bailIf_ok, pure_ok] at h
      obtain ⟨_, -, rfl⟩ := h
      exact ⟨rfl, rfl⟩
    · simp only [bind_ok, ensure_ok, pure_ok] at h
      obtain ⟨_, -, rfl⟩ := h
      exact ⟨rfl, rfl⟩
  · simp only [pure_ok] at h
    subst h
    exact ⟨rfl, rfl⟩

/-- Reference accounting touches neither the skipped steps nor the outcomes. -/
theorem consumeReferences_frame :
    ∀ {sources : List String} {st st' : RunState}, consumeReferences st sources = .ok st' →
      st'.skipped = st.skipped ∧ st'.outcomes = st.outcomes
  | [], st, st', h => by
    simp only [consumeReferences, Except.ok.injEq] at h
    subst h
    exact ⟨rfl, rfl⟩
  | source :: sources, st, st', h => by
    simp only [consumeReferences, bind_ok] at h
    obtain ⟨mid, h1, h2⟩ := h
    obtain ⟨hs1, ho1⟩ := consumeReference_frame h1
    obtain ⟨hs2, ho2⟩ := consumeReferences_frame h2
    exact ⟨hs2.trans hs1, ho2.trans ho1⟩

theorem retainOutput_frame {d : Definition} {st st' : RunState} {step : PipelineStep}
    {output : Json} {bytes : Nat} (h : retainOutput d st step output bytes = .ok st') :
    st'.skipped = st.skipped ∧ st'.outcomes = st.outcomes := by
  simp only [retainOutput, bind_ok, context_ok] at h
  obtain ⟨uses, -, h⟩ := h
  split at h
  · simp only [bind_ok, bailIf_ok, pure_ok] at h
    obtain ⟨_, -, rfl⟩ := h
    exact ⟨rfl, rfl⟩
  · simp only [pure_ok] at h
    subst h
    exact ⟨rfl, rfl⟩

theorem pushOutcome_skipped (d : Definition) (st : RunState) (step : PipelineStep)
    (state : StepState) (matched : Option Bool) :
    (pushOutcome d st step state matched).skipped = st.skipped := by
  cases d <;> rfl

/-- The three ways a stage that ran is settled. -/
theorem settleStage_cases {d : Definition} {e : Stage} {index : Nat} {step : PipelineStep}
    {matched : Option Bool} {st : RunState} {output : Json} {bytes : Nat} {turn : Turn}
    (h : settleStage d e index step matched st output bytes = .ok turn) :
    (step.isProcess = true ∧ reportsFailure output = true ∧
      turn = .finished
        (d.result index true output (pushOutcome d st step .failed matched).outcomes) output) ∨
    (¬(step.isProcess = true ∧ reportsFailure output = true) ∧
      index + 1 = d.graph.steps.length ∧
      turn = .finished
        (d.result (index + 1) false output (pushOutcome d st step .completed matched).outcomes)
        output) ∨
    (¬(step.isProcess = true ∧ reportsFailure output = true) ∧
      index + 1 ≠ d.graph.steps.length ∧
      ∃ st', turn = .ran st' output ∧ st'.skipped = st.skipped ∧
        st'.outcomes = (pushOutcome d st step .completed matched).outcomes) := by
  unfold settleStage at h
  split at h
  · rename_i hfail
    simp only [bind_ok, pure_ok] at h
    obtain ⟨_, -, rfl⟩ := h
    exact Or.inl ⟨hfail.1, hfail.2, rfl⟩
  · rename_i hfail
    right
    simp only at h
    split at h
    · rename_i hlast
      simp only [bind_ok, pure_ok] at h
      obtain ⟨_, -, rfl⟩ := h
      exact Or.inl ⟨hfail, hlast, rfl⟩
    · rename_i hlast
      simp only [bind_ok, pure_ok] at h
      obtain ⟨st', hst', _, -, rfl⟩ := h
      obtain ⟨hs, ho⟩ := retainOutput_frame hst'
      exact Or.inr ⟨hfail, hlast, st', rfl, hs.trans (pushOutcome_skipped ..), ho⟩

section
variable [F64]

/-- What running a stage establishes: the output is the adapter's and fits the
definition's budget. -/
theorem runStage_spec {d : Definition} {e : Stage} {st st' : RunState} {step : PipelineStep}
    {output : Json} {bytes : Nat} (h : runStage d e st step = .ok (st', output, bytes)) :
    st'.skipped = st.skipped ∧ st'.outcomes = st.outcomes ∧ e.output = some output
      ∧ output.size ≤ d.graph.maxRetainedBytes := by
  simp only [runStage, bind_ok, ensure_ok, context_ok, pure_ok, Json.encodedBytes_ok,
    Prod.mk.injEq] at h
  obtain ⟨_, -, _, -, _, -, _, -, st1, hc, _, -, _, -, out, hout, _, ⟨hsize, -⟩, rfl, rfl, -⟩ := h
  obtain ⟨hs, ho⟩ := consumeReferences_frame hc
  exact ⟨hs, ho, hout, hsize⟩

/-- One turn either runs its stage or skips it. -/
theorem stageStep_cases {d : Definition} {e : Stage} {index : Nat} {st : RunState}
    {step : PipelineStep} {turn : Turn} (h : stageStep d e index st step = .ok turn) :
    (∃ matched st' output bytes, d.decision step st.values st.skipped = .ok (.run matched) ∧
      runStage d e st step = .ok (st', output, bytes) ∧
      settleStage d e index step matched st' output bytes = .ok turn) ∨
    (∃ decision outcome st', d.decision step st.values st.skipped = .ok decision ∧
      skipOutcome step decision = some outcome ∧ turn = .skipped st' ∧
      st'.skipped = step.id :: st.skipped ∧ st'.outcomes = st.outcomes ++ [outcome]) := by
  simp only [stageStep, bind_ok, ensure_ok] at h
  obtain ⟨_, -, decision, hdec, h⟩ := h
  split at h
  · rename_i matched
    simp only [bind_ok, Prod.exists] at h
    obtain ⟨st', output, bytes, hrun, hset⟩ := h
    exact Or.inl ⟨matched, st', output, bytes, hdec, hrun, hset⟩
  · rename_i hne
    simp only [bind_ok, pure_ok] at h
    obtain ⟨st', hc, rfl⟩ := h
    obtain ⟨hs, ho⟩ := consumeReferences_frame hc
    right
    cases hd : decision with
    | run m => exact absurd hd (hne m)
    | skipCondition =>
      subst hd
      exact ⟨_, _, st', hdec, rfl, rfl, hs, ho⟩
    | skipDependency source m =>
      subst hd
      exact ⟨_, _, st', hdec, rfl, rfl, hs, ho⟩

end

/-! ## Decisions and the outcomes the checker accepts -/

theorem firstSkipped_eq_none {step : PipelineStep} {skipped : List String} :
    firstSkipped step skipped = none ↔ inputSkipped step skipped = false := by
  simp [firstSkipped, inputSkipped, List.find?_eq_none]

theorem firstSkipped_mem {step : PipelineStep} {skipped : List String} {source : String}
    (h : firstSkipped step skipped = some source) :
    source ∈ skipped ∧ ∃ i ∈ step.inputs, i.sourceStep = source := by
  simp only [firstSkipped, Option.map_eq_some_iff] at h
  obtain ⟨i, hi, rfl⟩ := h
  have hp := List.find?_some hi
  exact ⟨by simpa using hp, i, List.mem_of_find?_eq_some hi, rfl⟩

/-- The four ways a decision comes about, whatever answers the guard. -/
theorem decisionWith_cases {p : ConditionalPipeline} {step : PipelineStep}
    {holds : Condition → Result Bool} {skipped : List String} {decision : Decision}
    (h : p.decisionWith step holds skipped = .ok decision) :
    (decision = .run ((p.guard step).map fun _ => true) ∧ p.guardSkipped step skipped = false ∧
      inputSkipped step skipped = false) ∨
    (decision = .skipCondition ∧ (p.guard step).isSome = true ∧
      p.guardSkipped step skipped = false) ∨
    (∃ c, decision = .skipDependency c.sourceStep none ∧ p.guard step = some c ∧
      p.guardSkipped step skipped = true) ∨
    (∃ source, decision = .skipDependency source ((p.guard step).map fun _ => true) ∧
      p.guardSkipped step skipped = false ∧ firstSkipped step skipped = some source) := by
  have hdep : ∀ guard, p.guard step = guard → p.guardSkipped step skipped = false →
      dependencyDecision step guard skipped = decision →
      (decision = .run ((p.guard step).map fun _ => true) ∧ p.guardSkipped step skipped = false ∧
        inputSkipped step skipped = false) ∨
      (∃ source, decision = .skipDependency source ((p.guard step).map fun _ => true) ∧
        p.guardSkipped step skipped = false ∧ firstSkipped step skipped = some source) := by
    intro guard hg hgs hd
    subst hg
    unfold dependencyDecision at hd
    split at hd
    · rename_i source hsrc
      exact Or.inr ⟨source, hd.symm, hgs, hsrc⟩
    · rename_i hnone
      exact Or.inl ⟨hd.symm, hgs, firstSkipped_eq_none.mp hnone⟩
  unfold ConditionalPipeline.decisionWith at h
  split at h
  · rename_i hg
    have hgs : p.guardSkipped step skipped = false := by simp [ConditionalPipeline.guardSkipped, hg]
    rcases hdep none hg hgs (by simpa using h) with hr | hr
    · exact Or.inl hr
    · exact Or.inr (Or.inr (Or.inr hr))
  · rename_i c hg
    split at h
    · rename_i hmem
      simp only [Except.ok.injEq] at h
      exact Or.inr (Or.inr (Or.inl ⟨c, h.symm, hg, by
        simp [ConditionalPipeline.guardSkipped, hg, hmem]⟩))
    · rename_i hmem
      have hgs : p.guardSkipped step skipped = false := by
        simp [ConditionalPipeline.guardSkipped, hg, hmem]
      simp only [bind_ok, pure_ok] at h
      obtain ⟨matched, -, h⟩ := h
      cases matched with
      | false => exact Or.inr (Or.inl ⟨by simpa using h.symm, by simp [hg], hgs⟩)
      | true =>
        rcases hdep (some c) hg hgs (by simpa using h) with hr | hr
        · exact Or.inl hr
        · exact Or.inr (Or.inr (Or.inr hr))

/-- The outcome of a stage that ran, with nothing it reads skipped. -/
@[mk_iff ranOutcome_iff]
structure RanOutcome (p : ConditionalPipeline) (skipped : List String) (step : PipelineStep)
    (o : StepOutcome) : Prop where
  guard : p.guardSkipped step skipped = false
  inputs : inputSkipped step skipped = false
  dependency : o.skippedDependency = none
  matched : o.conditionMatched = (p.guard step).map fun _ => true

/-- What the checker demands of one outcome, state by state. -/
def Accepts (p : ConditionalPipeline) (r : ConditionalResult) (skipped : List String) (last : Bool)
    (step : PipelineStep) (o : StepOutcome) : Prop :=
  match o.state with
  | .completed => RanOutcome p skipped step o
  | .failed => RanOutcome p skipped step o ∧ r.success = false ∧ last = true
    ∧ step.isProcess = true ∧ reportsFailure r.output = true
  | .skippedCondition => (p.guard step).isSome = true ∧ p.guardSkipped step skipped = false
    ∧ o.conditionMatched = some false ∧ o.skippedDependency = none
  | .skippedDependency => ∃ source, o.skippedDependency = some source ∧
    if p.guardSkipped step skipped then
      (∃ c, p.guard step = some c ∧ c.sourceStep = source) ∧ o.conditionMatched = none
    else (source ∈ skipped ∧ ∃ i ∈ step.inputs, i.sourceStep = source)
      ∧ o.conditionMatched = (p.guard step).map fun _ => true

/-- The steps skipped after an outcome. -/
def skippedAfter (skipped : List String) (step : PipelineStep) (o : StepOutcome) : List String :=
  match o.state with
  | .completed | .failed => skipped
  | .skippedCondition | .skippedDependency => step.id :: skipped

theorem checkOutcome_ok {p : ConditionalPipeline} {r : ConditionalResult}
    {skipped skipped' : List String} {last : Bool} {step : PipelineStep} {o : StepOutcome} :
    checkOutcome p r skipped last step o = .ok skipped' ↔
      o.id = step.id ∧ Accepts p r skipped last step o ∧
        skipped' = skippedAfter skipped step o := by
  have hran : ¬(p.guardSkipped step skipped = true ∨ inputSkipped step skipped = true ∨
      o.skippedDependency.isSome = true ∨
      o.conditionMatched ≠ (p.guard step).map fun _ => true) ↔ RanOutcome p skipped step o := by
    rw [ranOutcome_iff]
    simp [not_or]
  unfold checkOutcome Accepts skippedAfter
  simp only [bind_ok, ensure_ok, exists_and_left, exists_const]
  refine and_congr_right fun _ => ?_
  cases o.state with
  | completed =>
    simp only [bind_ok, bailIf_ok, hran, pure_ok, exists_and_left, exists_const]
    exact and_congr_right fun _ => eq_comm
  | failed =>
    simp only [bind_ok, bailIf_ok, hran, pure_ok, exists_and_left, exists_const]
    simp only [not_or, Bool.not_eq_true, Bool.not_eq_false, eq_comm (a := skipped), and_assoc]
  | skippedCondition =>
    simp only [bind_ok, bailIf_ok, pure_ok, exists_and_left, exists_const]
    simp [not_or, Option.ne_none_iff_isSome, eq_comm (b := skipped'), and_assoc]
  | skippedDependency =>
    simp only [bind_ok, ensure_ok, context_ok, pure_ok, exists_and_left, exists_const]
    cases p.guardSkipped step skipped with
    | false =>
      have hany : ∀ a, (step.inputs.any fun i => i.sourceStep == a && skipped.contains a) = true ↔
          a ∈ skipped ∧ ∃ i ∈ step.inputs, i.sourceStep = a := by
        intro a
        simp only [List.any_eq_true, Bool.and_eq_true, beq_iff_eq, List.contains_eq_mem,
          decide_eq_true_eq]
        constructor
        · rintro ⟨i, hi, hs, ha⟩
          exact ⟨ha, i, hi, hs⟩
        · rintro ⟨ha, i, hi, hs⟩
          exact ⟨i, hi, hs, ha⟩
      simp only [Bool.false_eq_true, if_false, hany]
      constructor
      · rintro ⟨a, hdep, h, rfl⟩
        exact ⟨⟨a, hdep, h⟩, rfl⟩
      · rintro ⟨⟨a, hdep, h⟩, rfl⟩
        exact ⟨a, hdep, h, rfl⟩
    | true =>
      simp only [if_true, Option.any_eq_true, beq_iff_eq]
      constructor
      · rintro ⟨a, hdep, h, rfl⟩
        exact ⟨⟨a, hdep, h⟩, rfl⟩
      · rintro ⟨⟨a, hdep, h⟩, rfl⟩
        exact ⟨a, hdep, h, rfl⟩

/-- A stage the definition runs reads nothing that was skipped. -/
theorem ranOutcome_of_run {p : ConditionalPipeline} {skipped : List String}
    {step : PipelineStep} {matched : Option Bool} {holds : Condition → Result Bool}
    (state : StepState) (h : p.decisionWith step holds skipped = .ok (.run matched)) :
    RanOutcome p skipped step ⟨step.id, state, matched, none⟩ := by
  obtain ⟨hd, hg, hi⟩ | ⟨hd, -⟩ | ⟨c, hd, -⟩ | ⟨source, hd, -⟩ := decisionWith_cases h
  · cases hd
    exact ⟨hg, hi, rfl, rfl⟩
  · cases hd
  · cases hd
  · cases hd

/-- The outcome recorded for a skip is acceptable, and extends the skipped steps. -/
theorem accepts_skipped {p : ConditionalPipeline} (r : ConditionalResult) {skipped : List String}
    (last : Bool) {step : PipelineStep} {decision : Decision} {o : StepOutcome}
    {holds : Condition → Result Bool} (h : p.decisionWith step holds skipped = .ok decision)
    (ho : skipOutcome step decision = some o) :
    o.id = step.id ∧ Accepts p r skipped last step o ∧
      skippedAfter skipped step o = step.id :: skipped := by
  obtain ⟨rfl, hg, hi⟩ | ⟨rfl, hsome, hg⟩ | ⟨c, rfl, hc, hg⟩ | ⟨source, rfl, hg, hf⟩ :=
    decisionWith_cases h
  · cases ho
  · cases ho
    exact ⟨rfl, ⟨hsome, hg, rfl, rfl⟩, rfl⟩
  · cases ho
    refine ⟨rfl, ⟨c.sourceStep, rfl, ?_⟩, rfl⟩
    rw [if_pos hg]
    exact ⟨⟨c, hc, rfl⟩, rfl⟩
  · cases ho
    refine ⟨rfl, ⟨source, rfl, ?_⟩, rfl⟩
    rw [hg, if_neg (by simp)]
    exact ⟨firstSkipped_mem hf, rfl⟩

/-! ## The conditional runtime -/

/-- How the last outcome, the output and the success flag of a run belong
together; no outcome means the run ended before any step. -/
def LastOk (steps : List PipelineStep) (os : List StepOutcome) (output : Json) (success : Bool) :
    Prop :=
  match os.getLast? with
  | none => success = true ∧ output = .null
  | some o =>
    match o.state with
    | .failed => success = false
    | .completed => success = true ∧ ∀ s, steps[os.length - 1]? = some s →
      ¬(s.isProcess = true ∧ reportsFailure output = true)
    | .skippedCondition | .skippedDependency => success = true ∧ output = .null

theorem LastOk.cons {steps : List PipelineStep} {os : List StepOutcome} {output : Json}
    {success : Bool} (step : PipelineStep) (o : StepOutcome) (hne : os ≠ [])
    (h : LastOk steps os output success) : LastOk (step :: steps) (o :: os) output success := by
  obtain ⟨a, os, rfl⟩ := List.exists_cons_of_ne_nil hne
  simpa only [LastOk, List.getLast?_cons_cons, List.length_cons, Nat.add_sub_cancel,
    List.getElem?_cons_succ] using h

section
variable [F64]

/-- What a run of the remaining `steps` from `skipped` adds: the outcomes `os`, and
a report the checker accepts from here on. -/
structure ConditionalRun (p : ConditionalPipeline) (steps : List PipelineStep)
    (skipped : List String) (log : StageLog) (os : List StepOutcome) (output : Json)
    (success : Bool) : Prop where
  fits : output.size ≤ p.graph.maxRetainedBytes
  length_le : os.length ≤ steps.length
  complete : success = true → os.length = steps.length
  checked : ∀ r : ConditionalResult, r.success = success → r.output = output →
    checkOutcomes p r skipped steps os = .ok ()
  last : LastOk steps os output success
  failed : success = false ↔ ∃ e ∈ log, e.1.isProcess = true ∧ reportsFailure e.2 = true

/-- A run that ends at its first stage. -/
theorem ConditionalRun.finish {p : ConditionalPipeline} {step : PipelineStep}
    {steps : List PipelineStep} {skipped : List String} {o : StepOutcome} {output : Json}
    {success : Bool} (hfit : output.size ≤ p.graph.maxRetainedBytes)
    (hlen : success = true → steps = [])
    (hcheck : ∀ r : ConditionalResult, r.success = success → r.output = output →
      checkOutcome p r skipped true step o = .ok skipped)
    (hlast : LastOk (step :: steps) [o] output success)
    (hfail : success = false ↔ step.isProcess = true ∧ reportsFailure output = true) :
    ConditionalRun p (step :: steps) skipped [(step, output)] [o] output success where
  fits := hfit
  length_le := by simp
  complete h := by simp [hlen h]
  checked r hs ho := by
    simp only [checkOutcomes, List.isEmpty_nil, bind_ok]
    exact ⟨skipped, hcheck r hs ho, trivial⟩
  last := hlast
  failed := by simpa using hfail

/-- A run that goes on after its first stage. -/
theorem ConditionalRun.cons {p : ConditionalPipeline} {step : PipelineStep}
    {steps : List PipelineStep} {skipped skipped' : List String} {log log' : StageLog}
    {o : StepOutcome} {os : List StepOutcome} {output : Json} {success : Bool}
    (h : ConditionalRun p steps skipped' log os output success)
    (hcheck : ∀ (r : ConditionalResult) (last : Bool),
      checkOutcome p r skipped last step o = .ok skipped')
    (hlast : os = [] → LastOk (step :: steps) [o] output success)
    (hlog : (∃ e ∈ log', e.1.isProcess = true ∧ reportsFailure e.2 = true) ↔
      ∃ e ∈ log, e.1.isProcess = true ∧ reportsFailure e.2 = true) :
    ConditionalRun p (step :: steps) skipped log' (o :: os) output success where
  fits := h.fits
  length_le := by simpa using h.length_le
  complete hs := by simpa using h.complete hs
  checked r hs ho := by
    simp only [checkOutcomes, bind_ok]
    exact ⟨skipped', hcheck r _, h.checked r hs ho⟩
  last := by
    by_cases hos : os = []
    · subst hos
      exact hlast rfl
    · exact h.last.cons step o hos
  failed := h.failed.trans hlog.symm

/-- The conditional loop, by induction over the steps not yet visited. -/
theorem runFrom_conditional {p : ConditionalPipeline} {env : Nat → Stage}
    (hnull : 4 ≤ p.graph.maxRetainedBytes) :
    ∀ {steps : List PipelineStep} {index : Nat} {st : RunState} {data : Json} {log : StageLog},
      index + steps.length = p.graph.steps.length →
      runFrom (.conditional p) env index st steps = .ok (data, log) →
      ∃ os output success, data = conditionalResult (st.outcomes ++ os) output success ∧
        ConditionalRun p steps st.skipped log os output success
  | [], index, st, data, log, _, h => by
    simp only [runFrom, bind_ok, ensure_ok, pure_ok, Prod.mk.injEq] at h
    obtain ⟨_, -, rfl, rfl⟩ := h
    refine ⟨[], .null, true, by simp [Definition.result], ?_⟩
    exact
      { fits := by simpa [Json.size] using hnull
        length_le := le_refl _
        complete := fun _ => rfl
        checked := fun _ _ _ => rfl
        last := ⟨rfl, rfl⟩
        failed := by simp }
  | step :: steps, index, st, data, log, hlen, h => by
    simp only [List.length_cons] at hlen
    simp only [runFrom, bind_ok] at h
    obtain ⟨turn, hturn, h⟩ := h
    obtain ⟨matched, st', output, bytes, hdec, hrun, hset⟩ |
      ⟨decision, o, st', hdec, ho, rfl, hsk, hos⟩ := stageStep_cases hturn
    · obtain ⟨hs', ho', -, hfit⟩ := runStage_spec hrun
      have hran := fun state => ranOutcome_of_run state hdec
      obtain ⟨hp, hf, rfl⟩ | ⟨hnf, hend, rfl⟩ | ⟨hnf, hmore, st'', rfl, hsk, hos⟩ :=
        settleStage_cases hset
      · -- a known unsuccessful exit ends the run with `success = false`
        simp only [pure_ok, Prod.mk.injEq] at h
        obtain ⟨rfl, rfl⟩ := h
        refine ⟨[⟨step.id, .failed, matched, none⟩], output, false, ?_, ?_⟩
        · simp [Definition.result, pushOutcome, ho']
        · refine .finish hfit (by simp) ?_ rfl (by simp [hp, hf])
          intro r hr hro
          rw [checkOutcome_ok]
          exact ⟨rfl, ⟨hran _, hr, rfl, hp, hro ▸ hf⟩, rfl⟩
      · -- the last stage publishes its output
        simp only [pure_ok, Prod.mk.injEq] at h
        obtain ⟨rfl, rfl⟩ := h
        have hnil : steps = [] := by
          apply List.eq_nil_of_length_eq_zero
          simp only [Definition.graph] at hend
          omega
        refine ⟨[⟨step.id, .completed, matched, none⟩], output, true, ?_, ?_⟩
        · simp [Definition.result, pushOutcome, ho']
        · refine .finish hfit (fun _ => hnil) ?_ ⟨rfl, ?_⟩ (by simpa using hnf)
          · intro r _ _
            rw [checkOutcome_ok]
            exact ⟨rfl, hran _, rfl⟩
          · intro s hs
            simp only [List.length_singleton, Nat.sub_self, List.getElem?_cons_zero,
              Option.some.injEq] at hs
            subst hs
            exact hnf
      · -- an intermediate stage: the rest of the run decides
        simp only [bind_ok, pure_ok, Prod.exists] at h
        obtain ⟨data', log', hrest, hd⟩ := h
        simp only [Prod.mk.injEq] at hd
        obtain ⟨rfl, rfl⟩ := hd
        obtain ⟨os, out, success, hdata, hcr⟩ :=
          runFrom_conditional hnull (by omega) hrest
        refine ⟨⟨step.id, .completed, matched, none⟩ :: os, out, success, ?_, ?_⟩
        · simp [hdata, hos, pushOutcome, ho']
        · rw [hsk, hs'] at hcr
          refine hcr.cons ?_ ?_ (by simp only [List.exists_mem_cons_iff, or_iff_right hnf])
          · intro r last
            rw [checkOutcome_ok]
            exact ⟨rfl, hran _, rfl⟩
          · intro hos
            subst hos
            have hsucc : success = true := hcr.last.1
            have := hcr.complete hsucc
            simp only [Definition.graph, List.length_nil] at hmore this
            omega
    · -- a skipped stage
      obtain ⟨os, out, success, hdata, hcr⟩ := runFrom_conditional hnull (by omega) h
      refine ⟨o :: os, out, success, ?_, ?_⟩
      · simp [hdata, hos]
      · rw [hsk] at hcr
        refine hcr.cons ?_ ?_ Iff.rfl
        · intro r last
          rw [checkOutcome_ok]
          obtain ⟨hid, hacc, hafter⟩ := accepts_skipped r last hdec ho
          exact ⟨hid, hacc, hafter.symm⟩
        · intro hnil
          subst hnil
          have hl := hcr.last
          simp only [LastOk, List.getLast?_nil] at hl
          cases decision with
          | run m => cases ho
          | skipCondition =>
            cases ho
            exact hl
          | skipDependency source m =>
            cases ho
            exact hl

/-! ## How large a conditional report gets -/

omit [F64] in
/-- A step identifier encodes to at most 34 bytes. -/
theorem strSize_stepId {id : String} (h : validStepId id = true) : Json.strSize id ≤ 34 := by
  simp only [validStepId, Bool.and_eq_true, decide_eq_true_eq, List.all_eq_true] at h
  have := Json.strSize_plain (s := id)
    (List.all_eq_true.mpr fun c hc => isPlain_of_identifierChar (h.2 c hc))
  omega

theorem StepOutcome.size_le {o : StepOutcome} (hid : validStepId o.id = true)
    (hdep : ∀ d ∈ o.skippedDependency, validStepId d = true) : o.toJson.size ≤ 152 := by
  have h1 := strSize_stepId hid
  have h2 : Json.strSize o.state.name ≤ 20 := by cases o.state <;> decide
  have h3 : (Json.ofOption Json.bool o.conditionMatched).size ≤ 5 := by
    cases o.conditionMatched with
    | none => simp [Json.ofOption, Json.size]
    | some b => cases b <;> simp [Json.ofOption, Json.size]
  have h4 : (Json.ofOption Json.str o.skippedDependency).size ≤ 34 := by
    cases hd : o.skippedDependency with
    | none => simp [Json.ofOption, Json.size]
    | some d => simpa [Json.ofOption, Json.size] using strSize_stepId (hdep d (by simp [hd]))
  have k1 : Json.strSize "id" = 4 := by decide
  have k2 : Json.strSize "state" = 7 := by decide
  have k3 : Json.strSize "condition_matched" = 19 := by decide
  have k4 : Json.strSize "skipped_dependency" = 20 := by decide
  simp only [StepOutcome.toJson, Json.size, Json.fieldsSize, k1, k2, k3, k4]
  omega

/-- The report adds at most its reserved metadata to the output. -/
theorem conditionalResult_size {os : List StepOutcome} (output : Json) (success : Bool)
    (hlen : os.length ≤ maxSteps) (hos : ∀ o ∈ os, o.toJson.size ≤ 152) :
    (conditionalResult os output success).size ≤ output.size + resultMetadataReservation := by
  have hitems : Json.itemsSize (os.map StepOutcome.toJson) ≤ os.length * 153 := by
    have hall : ∀ j ∈ os.map StepOutcome.toJson, j.size ≤ 152 := by simpa using hos
    simpa using Json.itemsSize_le hall
  have k1 : Json.strSize "schema_version" = 16 := by decide
  have k2 : Json.strSize "report_type" = 13 := by decide
  have k3 : Json.strSize "conditional_pipeline_result" = 29 := by decide
  have k4 : Json.strSize "success" = 9 := by decide
  have k5 : Json.strSize "outcomes" = 10 := by decide
  have k6 : Json.strSize "output" = 8 := by decide
  have k7 : (if success = true then 4 else 5) ≤ 5 := by split <;> omega
  have k8 : Json.natSize 1 = 1 := by decide
  simp only [conditionalResult, ConditionalResult.toJson, Json.size, Json.fieldsSize, Json.nat,
    Json.numSize, k1, k2, k3, k4, k5, k6, k8]
  simp only [maxSteps, resultMetadataReservation] at *
  omega

/-! ## The runtime's report passes the checker -/

omit [F64] in
/-- The names an accepted outcome carries come from the definition. -/
theorem checkOutcomes_names {p : ConditionalPipeline} {r : ConditionalResult} :
    ∀ {steps : List PipelineStep} {skipped : List String} {os : List StepOutcome},
      checkOutcomes p r skipped steps os = .ok () → ∀ o ∈ os, ∃ s ∈ steps, o.id = s.id ∧
        ∀ d ∈ o.skippedDependency, (∃ c, p.guard s = some c ∧ c.sourceStep = d) ∨
          ∃ i ∈ s.inputs, i.sourceStep = d
  | _, _, [], _, o, ho => by cases ho
  | step :: steps, skipped, a :: os, h, o, ho => by
    simp only [checkOutcomes, bind_ok, checkOutcome_ok] at h
    obtain ⟨skipped', ⟨hid, hacc, -⟩, hrest⟩ := h
    rcases List.mem_cons.mp ho with rfl | ho
    · refine ⟨step, List.mem_cons_self .., hid, ?_⟩
      intro d hd
      unfold Accepts at hacc
      split at hacc
      · simp [hacc.dependency] at hd
      · simp [hacc.1.dependency] at hd
      · simp [hacc.2.2.2] at hd
      · obtain ⟨source, hsource, hcase⟩ := hacc
        have hds : d = source := by simpa [hsource] using hd.symm
        subst hds
        split at hcase
        · exact Or.inl hcase.1
        · exact Or.inr hcase.1.2
    · obtain ⟨s, hs, hrest'⟩ := checkOutcomes_names hrest o ho
      exact ⟨s, List.mem_cons_of_mem _ hs, hrest'⟩

omit [F64] in
theorem checkOutcomes_size [F64] {p : ConditionalPipeline} {r : ConditionalResult}
    {skipped : List String} {os : List StepOutcome} (hp : p.Valid)
    (h : checkOutcomes p r skipped p.graph.steps os = .ok ()) :
    ∀ o ∈ os, o.toJson.size ≤ 152 := by
  intro o ho
  obtain ⟨s, hs, hid, hdep⟩ := checkOutcomes_names h o ho
  refine StepOutcome.size_le (hid ▸ hp.graph.graph.ids s hs) ?_
  intro d hd
  obtain ⟨c, hc, rfl⟩ | ⟨i, hi, rfl⟩ := hdep d hd
  · exact hp.sources _ (Assoc.mem_of_lookup hc)
  · exact hp.graph.graph.source hs hi

/-- The checker accepts what a complete conditional run reports. -/
theorem ConditionalRun.confirmed {p : ConditionalPipeline} {log : StageLog}
    {os : List StepOutcome} {output : Json} {success : Bool} (hne : p.graph.steps ≠ [])
    (h : ConditionalRun p p.graph.steps [] log os output success) :
    p.confirmedResult (conditionalResult os output success) = .ok success := by
  have hos : os ≠ [] := by
    rintro rfl
    have hs : success = true := h.last.1
    have := h.complete hs
    exact hne (List.eq_nil_of_length_eq_zero this.symm)
  obtain ⟨last, hlast⟩ : ∃ o, os.getLast? = some o := by
    exact ⟨_, List.getLast?_eq_getLast_of_ne_nil hos⟩
  have hpos : 0 < os.length := List.length_pos_of_ne_nil hos
  have hidx : os.length - 1 < p.graph.steps.length := by
    have := h.length_le
    omega
  have hl := h.last
  simp only [LastOk, hlast] at hl
  unfold ConditionalPipeline.confirmedResult conditionalResult
  rw [ConditionalResult.fromJson_toJson rfl]
  simp only [bind_ok, context_ok, bailIf_ok, pure_ok, Json.encodedBytes_ok]
  refine ⟨_, rfl, (), ?_, output.size, ⟨h.fits, rfl⟩, (), h.checked _ rfl rfl, last, hlast,
    (), ?_, (), ?_, _, List.getElem?_eq_getElem hidx, (), ?_, rfl⟩
  · simp only [ne_eq, not_true_eq_false, hos, false_or, not_or, not_and, not_not]
    exact ⟨by have := h.length_le; omega, h.complete⟩
  · rintro ⟨hs, hstate⟩
    cases hst : last.state <;> simp_all
  · rintro ⟨hstate, hnull⟩
    rcases hstate with hstate | hstate <;>
    · simp only [hstate] at hl
      simp [hl.2, Json.isNull] at hnull
  · rintro ⟨-, hstate, hproc, hfail⟩
    simp only [hstate] at hl
    exact hl.2 _ (List.getElem?_eq_getElem hidx) ⟨hproc, hfail⟩

/-! ## The finite runtime -/

/-- How a finite run ends: at a known unsuccessful exit of step `completed`, or
after every step. -/
structure FiniteRun (graph : FinitePipeline) (log : StageLog) (completed : Nat) (failed : Bool)
    (output : Json) : Prop where
  stopped : failed = true → ∃ s, graph.steps[completed]? = some s ∧ s.isProcess = true ∧
    reportsFailure output = true
  complete : failed = false → completed = graph.steps.length
  failed : failed = true ↔ ∃ e ∈ log, e.1.isProcess = true ∧ reportsFailure e.2 = true

/-- The finite loop, by induction over the steps not yet visited. -/
theorem runFrom_finite {graph : FinitePipeline} {env : Nat → Stage} :
    ∀ {steps : List PipelineStep} {index : Nat} {st : RunState} {data : Json} {log : StageLog},
      graph.steps.drop index = steps → runFrom (.finite graph) env index st steps = .ok (data, log) →
      ∃ completed failed output, data = pipelineResult graph completed failed output ∧
        FiniteRun graph log completed failed output
  | [], index, st, data, log, _, h => by
    simp only [runFrom, bind_ok, ensure_ok, Definition.isConditional, Bool.false_eq_true, false_and,
      exists_false] at h
  | step :: steps, index, st, data, log, hdrop, h => by
    simp only [runFrom, bind_ok] at h
    obtain ⟨turn, hturn, h⟩ := h
    have hstep : graph.steps[index]? = some step := by
      have := congrArg List.head? hdrop
      simpa [List.head?_drop] using this
    have hrest : graph.steps.drop (index + 1) = steps := by
      rw [← List.drop_drop, hdrop, List.drop_one, List.tail_cons]
    obtain ⟨matched, st', output, bytes, -, -, hset⟩ | ⟨decision, o, st', hdec, ho, -⟩ :=
      stageStep_cases hturn
    · obtain ⟨hp, hf, rfl⟩ | ⟨hnf, hend, rfl⟩ | ⟨hnf, -, st'', rfl, -⟩ := settleStage_cases hset
      · simp only [pure_ok, Prod.mk.injEq] at h
        obtain ⟨rfl, rfl⟩ := h
        exact ⟨index, true, output, rfl, fun _ => ⟨step, hstep, hp, hf⟩, by simp, by simp [hp, hf]⟩
      · simp only [pure_ok, Prod.mk.injEq] at h
        obtain ⟨rfl, rfl⟩ := h
        exact ⟨index + 1, false, output, rfl, by simp, fun _ => hend, by simpa using hnf⟩
      · simp only [bind_ok, pure_ok, Prod.exists, Prod.mk.injEq] at h
        obtain ⟨data', log', hrun, rfl, rfl⟩ := h
        obtain ⟨completed, failed, out, hdata, hfr⟩ := runFrom_finite hrest hrun
        refine ⟨completed, failed, out, hdata, hfr.stopped, hfr.complete, hfr.failed.trans ?_⟩
        simp only [List.exists_mem_cons_iff, or_iff_right hnf]
    · -- a finite definition never decides to skip
      cases hdec
      cases ho

omit [F64] in
theorem completedSteps_iff {ids : List String} {steps : List PipelineStep} :
    (ids.length ≤ steps.length ∧ ((ids.zip steps).any fun e => e.1 ≠ e.2.id) = false) ↔
      ids = (steps.take ids.length).map PipelineStep.id := by
  induction ids generalizing steps with
  | nil => simp
  | cons a ids ih =>
    cases steps with
    | nil => simp
    | cons s steps =>
      have := @ih steps
      simp only [List.length_cons, Nat.add_le_add_iff_right, List.zip_cons_cons, List.any_cons,
        Bool.or_eq_false_iff, List.take_succ_cons, List.map_cons, List.cons.injEq,
        decide_eq_false_iff_not, ne_eq, not_not] at this ⊢
      rw [← this]
      tauto

/-- What the finite checker demands of a decoded report. -/
structure FiniteReport (p : FinitePipeline) (r : PipelineResult) : Prop where
  version : r.schemaVersion = 1
  type : r.reportType = "local_pipeline_result"
  steps : r.completedSteps = (p.steps.take r.completedSteps.length).map PipelineStep.id
  succeeded : r.success = true → r.failedStep = none ∧ r.completedSteps.length = p.steps.length
  stopped : r.success = false → ∃ s, p.steps[r.completedSteps.length]? = some s ∧
    r.failedStep = some s.id ∧ s.isProcess = true ∧ reportsFailure r.output = true

omit [F64] in
theorem FinitePipeline.confirmedResult_ok {p : FinitePipeline} {data : Json} {success : Bool} :
    p.confirmedResult data = .ok success ↔
      ∃ r, PipelineResult.fromJson data = some r ∧ FiniteReport p r ∧ r.success = success := by
  unfold FinitePipeline.confirmedResult
  simp only [bind_ok, context_ok, bailIf_ok]
  refine exists_congr fun r => and_congr_right fun _ => ?_
  constructor
  · rintro ⟨_, hshape, h⟩
    simp only [not_or, not_not, not_lt, Bool.not_eq_true] at hshape
    obtain ⟨hv, ht, hlen, hids⟩ := hshape
    have hsteps := completedSteps_iff.mp ⟨hlen, hids⟩
    cases hs : r.success with
    | true =>
      simp only [hs, if_true, bind_ok, bailIf_ok, pure_ok, not_or, not_not, Bool.not_eq_true,
        Option.isSome_eq_false_iff, Option.isNone_iff_eq_none] at h
      obtain ⟨_, hok, rfl⟩ := h
      exact ⟨⟨hv, ht, hsteps, fun _ => hok, by simp [hs]⟩, rfl⟩
    | false =>
      simp only [hs, Bool.false_eq_true, if_false, bind_ok, context_ok, bailIf_ok, pure_ok, not_or,
        not_not, Bool.not_eq_false] at h
      obtain ⟨s, hs', _, hok, rfl⟩ := h
      exact ⟨⟨hv, ht, hsteps, by simp [hs], fun _ => ⟨s, hs', hok⟩⟩, rfl⟩
  · rintro ⟨⟨hv, ht, hsteps, hok, hstop⟩, rfl⟩
    obtain ⟨hlen, hids⟩ := completedSteps_iff.mpr hsteps
    refine ⟨(), ?_, ?_⟩
    · simp only [not_or, not_not, not_lt, Bool.not_eq_true]
      exact ⟨hv, ht, hlen, hids⟩
    · cases hs : r.success with
      | true =>
        simp only [if_true, bind_ok, bailIf_ok, pure_ok]
        exact ⟨(), by simpa using hok hs, trivial⟩
      | false =>
        obtain ⟨s, hs', h1, h2, h3⟩ := hstop hs
        simp only [Bool.false_eq_true, if_false, bind_ok, context_ok, bailIf_ok, pure_ok]
        exact ⟨s, hs', (), by simp [h1, h2, h3], trivial⟩

omit [F64] in
/-- The checker accepts what a finite run reports. -/
theorem FiniteRun.confirmed {graph : FinitePipeline} {log : StageLog} {completed : Nat}
    {failed : Bool} {output : Json} (h : FiniteRun graph log completed failed output) :
    graph.confirmedResult (pipelineResult graph completed failed output) = .ok (!failed) := by
  have hlen : (graph.steps.take completed).length = completed := by
    rw [List.length_take, Nat.min_eq_left]
    cases hf : failed with
    | false => exact (h.complete hf).le
    | true =>
      obtain ⟨s, hs, -⟩ := h.stopped hf
      exact (List.getElem?_eq_some_iff.mp hs).1.le
  rw [FinitePipeline.confirmedResult_ok]
  refine ⟨_, PipelineResult.fromJson_toJson rfl, ⟨rfl, rfl, ?_, ?_, ?_⟩, rfl⟩
  · rw [List.length_map, hlen]
  · intro hs
    simp only [Bool.not_eq_true'] at hs
    refine ⟨by simp [hs], ?_⟩
    rw [List.length_map, hlen, h.complete hs]
  · intro hs
    simp only [Bool.not_eq_false'] at hs
    obtain ⟨s, hs', hp, hf⟩ := h.stopped hs
    exact ⟨s, by simpa only [List.length_map, hlen] using hs', by simp [hs, hs'], hp, hf⟩

/-! ## The evidence of a run is complete -/

/-- The log holds what the adapter returned at each stage it names. -/
theorem runFrom_log {d : Definition} {env : Nat → Stage} :
    ∀ {steps : List PipelineStep} {index : Nat} {st : RunState} {data : Json} {log : StageLog},
      runFrom d env index st steps = .ok (data, log) →
      ∀ e ∈ log, ∃ i, steps[i]? = some e.1 ∧ (env (index + i)).output = some e.2
  | [], index, st, data, log, h, e, he => by
    simp only [runFrom, bind_ok, ensure_ok, pure_ok, Prod.mk.injEq] at h
    obtain ⟨_, -, -, rfl⟩ := h
    cases he
  | step :: steps, index, st, data, log, h, e, he => by
    have hlater : ∀ {st' : RunState} {data' : Json} {log' : StageLog}, e ∈ log' →
        runFrom d env (index + 1) st' steps = .ok (data', log') →
        ∃ i, (step :: steps)[i]? = some e.1 ∧ (env (index + i)).output = some e.2 := by
      intro st' data' log' hmem hrun
      obtain ⟨i, hi, ho⟩ := runFrom_log hrun e hmem
      exact ⟨i + 1, by simpa using hi, by rwa [← Nat.add_assoc, Nat.add_right_comm]⟩
    simp only [runFrom, bind_ok] at h
    obtain ⟨turn, hturn, h⟩ := h
    obtain ⟨matched, st', output, bytes, -, hrun, hset⟩ | ⟨_, _, st', -, -, rfl, -⟩ :=
      stageStep_cases hturn
    · have hout := (runStage_spec hrun).2.2.1
      have hhere : ∃ i, (step :: steps)[i]? = some (step, output).1 ∧
          (env (index + i)).output = some (step, output).2 := ⟨0, rfl, hout⟩
      obtain ⟨-, -, rfl⟩ | ⟨-, -, rfl⟩ | ⟨-, -, st'', rfl, -⟩ := settleStage_cases hset
      · simp only [pure_ok, Prod.mk.injEq] at h
        obtain ⟨-, rfl⟩ := h
        exact List.mem_singleton.mp he ▸ hhere
      · simp only [pure_ok, Prod.mk.injEq] at h
        obtain ⟨-, rfl⟩ := h
        exact List.mem_singleton.mp he ▸ hhere
      · simp only [bind_ok, pure_ok, Prod.exists, Prod.mk.injEq] at h
        obtain ⟨data', log', hrun', rfl, rfl⟩ := h
        rcases List.mem_cons.mp he with rfl | he
        · exact hhere
        · exact hlater he hrun'
    · exact hlater he h

variable [PeerAdmission]

/-- What a returned report says, whichever kind of definition ran. -/
structure RunEvidence (g : ExecutionGrant) (d : Definition) (data : Json) (log : StageLog)
    (success : Bool) : Prop where
  confirmed : confirmedResult g data = .ok success
  flag : data.get? "success" = some (.bool success)
  failed : success = false ↔ ∃ e ∈ log, e.1.isProcess = true ∧ reportsFailure e.2 = true
  fits : g.capability = conditionalCapability → data.size ≤ g.limits.maxResultBytes

omit [PeerAdmission] in
theorem runFrom_evidence {g : ExecutionGrant} {d : Definition} {env : Nat → Stage} {st : RunState}
    {data : Json} {log : StageLog} (hd : Definition.fromGrant g = .ok d)
    (hsk : st.skipped = []) (hos : st.outcomes = [])
    (h : runFrom d env 0 st d.graph.steps = .ok (data, log)) :
    ∃ success, RunEvidence g d data log success := by
  unfold Definition.fromGrant at hd
  split at hd
  · rename_i hcap
    simp only [bind_ok, pure_ok] at hd
    obtain ⟨p, hp, rfl⟩ := hd
    obtain ⟨hvalid, hlimit⟩ := ConditionalPipeline.fromGrant_valid hp
    have hnull : 4 ≤ p.graph.maxRetainedBytes := le_trans (by omega) hvalid.graph.retained_ge
    obtain ⟨os, output, success, rfl, hrun⟩ := runFrom_conditional hnull (by simp [Definition.graph]) h
    rw [hsk] at hrun
    rw [hos, List.nil_append]
    refine ⟨success, ?_, rfl, hrun.failed, fun _ => ?_⟩
    · rw [confirmedResult, if_pos hcap]
      simp only [conditionalConfirmedResult, bind_ok]
      exact ⟨p, hp, hrun.confirmed hvalid.graph.nonempty⟩
    · have hlen : os.length ≤ maxSteps := hrun.length_le.trans hvalid.graph.length_le
      have := conditionalResult_size output success hlen
        (checkOutcomes_size hvalid (hrun.checked ⟨1, "", success, os, output⟩ rfl rfl))
      have := hrun.fits
      omega
  · rename_i hcap
    simp only [bind_ok, pure_ok] at hd
    obtain ⟨p, hp, rfl⟩ := hd
    obtain ⟨completed, failed, output, rfl, hrun⟩ := runFrom_finite rfl h
    refine ⟨!failed, ?_, rfl, ?_, fun hc => absurd hc hcap⟩
    · rw [confirmedResult, if_neg hcap]
      simp only [bind_ok]
      exact ⟨p, hp, hrun.confirmed⟩
    · rw [← hrun.failed]
      simp

omit [PeerAdmission] in
theorem confirmedResult_compound {g : ExecutionGrant} {data : Json} {success : Bool}
    (h : confirmedResult g data = .ok success) : isCompound g.capability = true := by
  unfold confirmedResult at h
  split at h
  · rename_i hcap
    simp [isCompound, hcap]
  · simp only [bind_ok] at h
    obtain ⟨p, hp, -⟩ := h
    simp [isCompound, (FinitePipeline.fromGrant_valid hp).2.1]

/-- Confirmed data is reported as completed, and the report confirms its grant;
data past the budget is withheld, and that report confirms it too. -/
theorem operationReport_confirms [Sha256] {g : ExecutionGrant} {data : Json} {success : Bool}
    (hg : g.Valid) (h : confirmedResult g data = .ok success) :
    (operationReport g data).confirms g ∧
    (data.size ≤ g.limits.maxResultBytes →
      operationReport g data = completedOutcome g data ∧
      completedOutcome g data = GrantReport.new g .completed data
        (if success then none else some "pipeline_stage_unsuccessful")) := by
  have hc := confirmedResult_compound h
  have hout : completedOutcome g data = GrantReport.new g .completed data
      (if success then none else some "pipeline_stage_unsuccessful") := by
    have hpeer := (ne_of_isCompound hc).2
    simp [completedOutcome, hpeer, hc, h]
  by_cases hsize : data.size ≤ g.limits.maxResultBytes
  · have hrep : operationReport g data = completedOutcome g data := by simp [operationReport, hsize]
    refine ⟨?_, fun _ => ⟨hrep, hout⟩⟩
    rw [hrep, hout]
    refine GrantReport.new_compound_confirms hc hsize ?_ (Or.inr ?_)
    · intro code hcode
      cases success with
      | true => simp at hcode
      | false =>
        simp only [Bool.false_eq_true, if_false, Option.mem_def, Option.some.injEq] at hcode
        subst hcode
        decide
    · simp only [GrantReport.compoundEvidence, GrantReport.new, h]
      cases success <;> simp
  · have hrep : operationReport g data = GrantReport.new g .completed .null (some "result_too_large") := by
      simp [operationReport, hsize]
    refine ⟨?_, fun h => absurd h hsize⟩
    rw [hrep]
    refine GrantReport.new_compound_confirms hc ?_ ?_ (Or.inl ⟨rfl, rfl, rfl⟩)
    · have := hg.maxResultBytes.1
      simp only [Json.size]
      omega
    · intro code hcode
      simp only [Option.mem_def, Option.some.injEq] at hcode
      subst hcode
      decide

/-- Whatever a compound grant's stages return, a report the runtime gives back is
accepted by the checker, its flag tells whether a process run failed, and the
report built from it confirms the grant. A conditional report always fits. -/
theorem execute_evidence_complete [Sha256] {admitted : Bool} {g : ExecutionGrant}
    {env : Nat → Stage} {data : Json} {log : StageLog}
    (h : executeLogged admitted g env = .ok (data, log)) :
    execute admitted g env = .ok data ∧
    ∃ d success, Definition.fromGrant g = .ok d ∧
      (∀ e ∈ log, ∃ i, d.graph.steps[i]? = some e.1 ∧ (env i).output = some e.2) ∧
      confirmedResult g data = .ok success ∧
      data.get? "success" = some (.bool success) ∧
      (success = false ↔ ∃ e ∈ log, e.1.isProcess = true ∧ reportsFailure e.2 = true) ∧
      (operationReport g data).confirms g ∧
      (data.size ≤ g.limits.maxResultBytes →
        operationReport g data = completedOutcome g data ∧
        completedOutcome g data = GrantReport.new g .completed data
          (if success then none else some "pipeline_stage_unsuccessful")) ∧
      (g.capability = conditionalCapability → data.size ≤ g.limits.maxResultBytes) := by
  have hexec : execute admitted g env = .ok data := by
    simp only [execute, bind_ok, pure_ok]
    exact ⟨(data, log), h, rfl⟩
  simp only [executeLogged, bind_ok, ensure_ok] at h
  obtain ⟨_, hg, _, -, d, hd, references, -, hrun⟩ := h
  obtain ⟨success, hev⟩ := runFrom_evidence hd rfl rfl hrun
  obtain ⟨hconf, hrep⟩ := operationReport_confirms (ExecutionGrant.validate_ok.mp hg) hev.confirmed
  refine ⟨hexec, d, success, hd, ?_, hev.confirmed, hev.flag, hev.failed, hconf, hrep, hev.fits⟩
  intro e he
  obtain ⟨i, hi, ho⟩ := runFrom_log hrun e he
  exact ⟨i, hi, by rwa [Nat.zero_add] at ho⟩

end

/-! A guarded process run that exits unsuccessfully, run and confirmed. -/

/-- A step with literal parameters only. -/
def literalStep (id capability : String) (params : Json) : PipelineStep where
  id := id
  capability := capability
  action := "run"
  params := params
  resourceId := none
  modelId := none
  backend := none
  modelRole := none
  inputs := []

def probeSteps : List PipelineStep :=
  [literalStep "probe" "system.ping" (.obj []),
    literalStep "native" "process.exec" (.obj [("program", .str "/bin/false")])]

def probePipeline : ConditionalPipeline where
  schemaVersion := 1
  graph := ⟨1, probeSteps, 1024⟩
  conditions := [("native", ⟨"probe", "/pong", .equal, .bool true⟩)]

def probeGrant : ExecutionGrant :=
  { sampleGrant with
    capability := "pipeline.when"
    params := .obj [("pipeline", probePipeline.toJson)] }

def probeStage (output : Json) : Stage := ⟨true, true, true, true, some output, true⟩

def probeOutput : Json := .obj [("exit_code", .nat 1), ("success", .bool false)]

def probeEnv : Nat → Stage
  | 0 => probeStage (.obj [("pong", .bool true)])
  | _ => probeStage probeOutput

def probeData : Json :=
  conditionalResult [⟨"probe", .completed, none, none⟩, ⟨"native", .failed, some true, none⟩]
    probeOutput false

/-- `definition_digest` of the probe grant. -/
@[reducible]
def probeSha : Sha256 :=
  .constant "ee2553ca35c3aafa029afb731f6bac545038c2993bce587d36a1e1fa3113c1a9" (by decide)

/-- The log of its stages. -/
def probeLog : StageLog :=
  [(literalStep "probe" "system.ping" (.obj []), .obj [("pong", .bool true)]),
    (literalStep "native" "process.exec" (.obj [("program", .str "/bin/false")]), probeOutput)]

/-- What its execution returns. -/
theorem probe_executed :
    @executeLogged F64.bits .never true probeGrant probeEnv = .ok (probeData, probeLog) := by
  decide +kernel

theorem execute_evidence_probe :
    @confirmedResult F64.bits probeGrant probeData = .ok false ∧
    @GrantReport.confirms probeSha F64.bits .never
      (@operationReport probeSha F64.bits .never probeGrant probeData) probeGrant := by
  obtain ⟨-, d, success, -, -, hconf, hflag, -, hrep, -⟩ :=
    @execute_evidence_complete F64.bits .never probeSha true probeGrant probeEnv probeData
      probeLog probe_executed
  cases success with
  | false => exact ⟨hconf, hrep⟩
  | true => exact absurd hflag (by decide)

end Eef.Node
