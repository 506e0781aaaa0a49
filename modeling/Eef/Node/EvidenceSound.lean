import Eef.Node.PipelineEvidence
import Mathlib.Data.List.Nodup

/-!
# Compound evidence: what the checker's acceptance is worth

`EvidenceSound g data` is what a reader relies on when `confirmed_result` accepts:
for a conditional grant the reported outcomes are a replay of the definition's own
decisions under some assignment of truth values to its guards, failure is reported
exactly for a failed process run, and success is never reported over a final
process run whose output says it failed.

The conditional checker meets all of it (`conditional_replays`). The finite checker
does not make the last test, so a complete finite report may claim success over an
unsuccessful exit: `evidenceSound_iff` says that this is the only way evidence is
unsound, and `finite_false_success` shows such a report.
-/

namespace Eef.Node

open Eef.Lib

/-! ## Replaying the decisions -/

/-- The outcome records this decision. A dependency skip may name any skipped input
of the step, not only the first. -/
def Decision.records (p : ConditionalPipeline) (step : PipelineStep) (skipped : List String)
    (o : StepOutcome) : Decision → Prop
  | .run matched => (o.state = .completed ∨ o.state = .failed) ∧ o.conditionMatched = matched ∧
    o.skippedDependency = none
  | .skipCondition => o.state = .skippedCondition ∧ o.conditionMatched = some false ∧
    o.skippedDependency = none
  | .skipDependency source matched => o.state = .skippedDependency ∧
    o.conditionMatched = matched ∧ ∃ d, o.skippedDependency = some d ∧ d ∈ skipped ∧
      (d = source ∨ (p.guardSkipped step skipped = false ∧ ∃ i ∈ step.inputs, i.sourceStep = d))

/-- `truth` answers every guard; replaying `decision` step by step records exactly
these outcomes. -/
def Replays (p : ConditionalPipeline) (truth : String → Bool) :
    List String → List PipelineStep → List StepOutcome → Prop
  | _, _, [] => True
  | _, [], _ :: _ => False
  | skipped, step :: steps, o :: os =>
    o.id = step.id ∧
    (∃ decision, p.decisionWith step (fun _ => .ok (truth step.id)) skipped = .ok decision ∧
      decision.records p step skipped o) ∧
    Replays p truth (skippedAfter skipped step o) steps os

/-- The decision a guard's answer leads to. -/
theorem decisionWith_eq (p : ConditionalPipeline) (step : PipelineStep) (answer : Bool)
    (skipped : List String) :
    p.decisionWith step (fun _ => .ok answer) skipped =
      match p.guard step with
      | none => .ok (dependencyDecision step none skipped)
      | some c =>
        if p.guardSkipped step skipped then .ok (.skipDependency c.sourceStep none)
        else if answer then .ok (dependencyDecision step (some c) skipped)
        else .ok .skipCondition := by
  unfold ConditionalPipeline.decisionWith ConditionalPipeline.guardSkipped
  cases p.guard step with
  | none => rfl
  | some c =>
    by_cases hc : c.sourceStep ∈ skipped
    · simp [hc]
    · cases answer <;> simp [hc, bind, Except.bind, pure, Except.pure]

/-- With nothing skipped before it, a step runs when its guard holds. -/
theorem decisionWith_run {p : ConditionalPipeline} {step : PipelineStep} {answer : Bool}
    {skipped : List String} (hg : p.guardSkipped step skipped = false)
    (ha : (p.guard step).isSome = true → answer = true) :
    p.decisionWith step (fun _ => .ok answer) skipped =
      .ok (dependencyDecision step (p.guard step) skipped) := by
  rw [decisionWith_eq]
  cases hgd : p.guard step with
  | none => rfl
  | some c => simp [hg, ha (by simp [hgd])]

/-- An accepted outcome records the decision its own guard value leads to. -/
theorem Accepts.records {p : ConditionalPipeline} {r : ConditionalResult} {skipped : List String}
    {last answer : Bool} {step : PipelineStep} {o : StepOutcome}
    (h : Accepts p r skipped last step o) (ha : answer = (o.conditionMatched == some true)) :
    ∃ decision, p.decisionWith step (fun _ => .ok answer) skipped = .ok decision ∧
      decision.records p step skipped o := by
  have hmatched : o.conditionMatched = ((p.guard step).map fun _ => true) →
      (p.guard step).isSome = true → answer = true := by
    intro hm hs
    obtain ⟨c, hc⟩ := Option.isSome_iff_exists.mp hs
    simp [ha, hm, hc]
  have hran : RanOutcome p skipped step o → (o.state = .completed ∨ o.state = .failed) →
      ∃ decision, p.decisionWith step (fun _ => .ok answer) skipped = .ok decision ∧
        decision.records p step skipped o := by
    intro hr hstate
    refine ⟨_, decisionWith_run hr.guard (hmatched hr.matched), ?_⟩
    rw [dependencyDecision, firstSkipped_eq_none.mpr hr.inputs]
    exact ⟨hstate, hr.matched, hr.dependency⟩
  unfold Accepts at h
  cases hstate : o.state with
  | completed =>
    simp only [hstate] at h
    exact hran h (Or.inl hstate)
  | failed =>
    simp only [hstate] at h
    exact hran h.1 (Or.inr hstate)
  | skippedCondition =>
    simp only [hstate] at h
    obtain ⟨hsome, hg, hm, hd⟩ := h
    obtain ⟨c, hc⟩ := Option.isSome_iff_exists.mp hsome
    refine ⟨.skipCondition, ?_, hstate, hm, hd⟩
    simp [decisionWith_eq, hc, hg, ha, hm]
  | skippedDependency =>
    simp only [hstate] at h
    obtain ⟨source, hsource, hcase⟩ := h
    cases hg : p.guardSkipped step skipped with
    | true =>
      simp only [hg, if_true] at hcase
      obtain ⟨⟨c, hc, rfl⟩, hm⟩ := hcase
      refine ⟨.skipDependency c.sourceStep none, by simp [decisionWith_eq, hc, hg], hstate, hm,
        c.sourceStep, hsource, ?_, Or.inl rfl⟩
      simpa [ConditionalPipeline.guardSkipped, hc] using hg
    | false =>
      simp only [hg, Bool.false_eq_true, if_false] at hcase
      obtain ⟨⟨hmem, i, hi, his⟩, hm⟩ := hcase
      refine ⟨_, decisionWith_run hg (hmatched hm), ?_⟩
      have hskip : inputSkipped step skipped = true := by
        simp only [inputSkipped, List.any_eq_true]
        exact ⟨i, hi, by simpa [his] using hmem⟩
      cases hf : firstSkipped step skipped with
      | none =>
        rw [firstSkipped_eq_none.mp hf] at hskip
        cases hskip
      | some first =>
        simp only [dependencyDecision, hf]
        exact ⟨hstate, hm, source, hsource, hmem, Or.inr ⟨hg, i, hi, his⟩⟩

/-- The outcome loop accepts only replays of the definition. -/
theorem checkOutcomes_replays {p : ConditionalPipeline} {r : ConditionalResult}
    {truth : String → Bool} :
    ∀ {steps : List PipelineStep} {skipped : List String} {os : List StepOutcome},
      (∀ o ∈ os, truth o.id = (o.conditionMatched == some true)) →
      checkOutcomes p r skipped steps os = .ok () → Replays p truth skipped steps os
  | _, _, [], _, _ => by simp [Replays]
  | [], _, _ :: _, _, h => by simp [checkOutcomes] at h
  | step :: steps, skipped, o :: os, ht, h => by
    simp only [checkOutcomes, bind_ok, checkOutcome_ok] at h
    obtain ⟨_, ⟨hid, hacc, rfl⟩, hrest⟩ := h
    have ho := ht o (List.mem_cons_self ..)
    refine ⟨hid, ?_, checkOutcomes_replays (fun a ha => ht a (List.mem_cons_of_mem _ ha)) hrest⟩
    exact hacc.records (by rw [← hid, ho])

/-- The reported identifiers are the first steps' own. -/
theorem checkOutcomes_ids {p : ConditionalPipeline} {r : ConditionalResult} :
    ∀ {steps : List PipelineStep} {skipped : List String} {os : List StepOutcome},
      checkOutcomes p r skipped steps os = .ok () →
      os.map StepOutcome.id = (steps.take os.length).map PipelineStep.id
  | _, _, [], _ => by simp
  | [], _, _ :: _, h => by simp [checkOutcomes] at h
  | step :: steps, skipped, o :: os, h => by
    simp only [checkOutcomes, bind_ok, checkOutcome_ok] at h
    obtain ⟨_, ⟨hid, -⟩, hrest⟩ := h
    simp [hid, checkOutcomes_ids hrest]

/-- A failed outcome can only be the last one, of a process run. -/
theorem checkOutcomes_failed {p : ConditionalPipeline} {r : ConditionalResult} :
    ∀ {steps : List PipelineStep} {skipped : List String} {os : List StepOutcome}
      {last : StepOutcome}, checkOutcomes p r skipped steps os = .ok () →
      os.getLast? = some last → last.state = .failed →
      r.success = false ∧ ∃ s, steps[os.length - 1]? = some s ∧ s.isProcess = true
  | _, _, [], _, _, h, _ => by simp at h
  | [], _, _ :: _, _, h, _, _ => by simp [checkOutcomes] at h
  | step :: steps, skipped, [o], last, h, hl, hf => by
    simp only [checkOutcomes, bind_ok, checkOutcome_ok] at h
    obtain ⟨_, ⟨-, hacc, -⟩, -⟩ := h
    simp only [List.getLast?_singleton, Option.some.injEq] at hl
    subst hl
    simp only [Accepts, hf] at hacc
    exact ⟨hacc.2.1, step, rfl, hacc.2.2.2.1⟩
  | step :: steps, skipped, o :: o' :: os, last, h, hl, hf => by
    simp only [checkOutcomes, bind_ok] at h
    obtain ⟨skipped', -, h⟩ := h
    have h' : checkOutcomes p r skipped' steps (o' :: os) = .ok () := h
    obtain ⟨hs, s, hget, hp⟩ := checkOutcomes_failed h' (by simpa using hl) hf
    exact ⟨hs, s, by simpa using hget, hp⟩

/-! ## What acceptance guarantees -/

section
variable [F64]

/-- A conditional report as its reader understands it: a replay under some truth
assignment, failed exactly at a failed process run. -/
structure ReplayedReport (p : ConditionalPipeline) (r : ConditionalResult) : Prop where
  replayed : ∃ truth, Replays p truth [] p.graph.steps r.outcomes
  failure : r.success = false ↔ ∃ o s, r.outcomes.getLast? = some o ∧
    p.graph.steps[r.outcomes.length - 1]? = some s ∧ o.state = .failed ∧ s.isProcess = true

/-- The conditions `confirmed_result` puts on an accepted conditional report. -/
theorem ConditionalPipeline.confirmedResult_cases {p : ConditionalPipeline} {data : Json}
    {success : Bool} (h : p.confirmedResult data = .ok success) :
    ∃ r last s, ConditionalResult.fromJson data = some r ∧ r.success = success ∧
      checkOutcomes p r [] p.graph.steps r.outcomes = .ok () ∧
      r.outcomes.getLast? = some last ∧ p.graph.steps[r.outcomes.length - 1]? = some s ∧
      (r.success = true → r.outcomes.length = p.graph.steps.length) ∧
      (r.success = false → last.state = .failed) ∧
      (last.state = .skippedCondition ∨ last.state = .skippedDependency → r.output = .null) ∧
      ¬(r.success = true ∧ last.state = .completed ∧ s.isProcess = true ∧
        reportsFailure r.output = true) := by
  simp only [ConditionalPipeline.confirmedResult, bind_ok, context_ok, bailIf_ok, pure_ok] at h
  obtain ⟨r, hr, _, hshape, _, -, _, hcheck, last, hlast, _, hfail, _, hskip, s, hs, _, hproc,
    rfl⟩ := h
  refine ⟨r, last, s, hr, rfl, hcheck, hlast, hs, ?_, ?_, ?_, hproc⟩
  · intro hsucc
    by_contra hlen
    exact hshape (by simp [hsucc, hlen])
  · intro hsucc
    by_contra hstate
    exact hfail ⟨hsucc, hstate⟩
  · intro hstate
    by_contra hnull
    refine hskip ⟨hstate, ?_⟩
    cases ho : r.output <;> simp_all [Json.isNull]

/-- An accepted conditional report replays the definition: its own guard values are
the truth assignment, well defined because step identifiers are distinct. -/
theorem conditional_replays {p : ConditionalPipeline} {data : Json} {success : Bool}
    (hp : p.Valid) (h : p.confirmedResult data = .ok success) :
    ∃ r, ConditionalResult.fromJson data = some r ∧ r.success = success ∧ ReplayedReport p r := by
  obtain ⟨r, last, s, hr, hs, hcheck, hlast, hget, -, hfail, -, -⟩ :=
    ConditionalPipeline.confirmedResult_cases h
  refine ⟨r, hr, hs, ⟨fun id => r.outcomes.any fun o => o.id == id && o.conditionMatched == some true,
    ?_⟩, ?_⟩
  · have hnodup : (r.outcomes.map StepOutcome.id).Nodup := by
      rw [checkOutcomes_ids hcheck, List.map_take]
      exact hp.graph.graph.nodup.sublist (List.take_sublist _ _)
    refine checkOutcomes_replays (fun o ho => ?_) hcheck
    rw [Bool.eq_iff_iff]
    simp only [List.any_eq_true, Bool.and_eq_true, beq_iff_eq]
    constructor
    · rintro ⟨o', ho', hid, hm⟩
      exact List.inj_on_of_nodup_map hnodup ho' ho hid ▸ hm
    · intro hm
      exact ⟨o, ho, rfl, hm⟩
  · constructor
    · intro hsucc
      have hstate := hfail hsucc
      obtain ⟨-, t, ht, hproc⟩ := checkOutcomes_failed hcheck hlast hstate
      exact ⟨last, t, hlast, ht, hstate, hproc⟩
    · rintro ⟨o, t, ho, -, hstate, -⟩
      exact (checkOutcomes_failed hcheck ho hstate).1

/-- The last step of a grant's definition. -/
def finalStep (g : ExecutionGrant) : Option PipelineStep :=
  match Definition.fromGrant g with
  | .ok d => d.graph.steps.getLast?
  | .error _ => none

/-- The output a report carries, read as the grant's kind of report. -/
def reportedOutput (g : ExecutionGrant) (data : Json) : Option Json :=
  if g.capability = conditionalCapability then (ConditionalResult.fromJson data).map (·.output)
  else (PipelineResult.fromJson data).map (·.output)

/-- What a reader relies on when `confirmed_result` accepts. -/
structure EvidenceSound (g : ExecutionGrant) (data : Json) : Prop where
  conditional : g.capability = conditionalCapability → ∀ success,
    confirmedResult g data = .ok success →
    ∃ p r, ConditionalPipeline.fromGrant g = .ok p ∧ ConditionalResult.fromJson data = some r ∧
      r.success = success ∧ ReplayedReport p r
  noFalseSuccess : ∀ s output, finalStep g = some s → s.isProcess = true →
    reportedOutput g data = some output → reportsFailure output = true →
    confirmedResult g data ≠ .ok true

/-- A complete success report of a finite definition that ends in a process run,
carrying that run's unsuccessful exit. -/
def FalseSuccess (g : ExecutionGrant) (data : Json) : Prop :=
  ∃ p s output, FinitePipeline.fromGrant g = .ok p ∧ p.steps.getLast? = some s ∧
    s.isProcess = true ∧ reportsFailure output = true ∧
    PipelineResult.fromJson data =
      some ⟨1, "local_pipeline_result", true, p.steps.map PipelineStep.id, none, output⟩

theorem confirmedResult_conditional {g : ExecutionGrant} {data : Json} {success : Bool}
    (hcap : g.capability = conditionalCapability) (h : confirmedResult g data = .ok success) :
    ∃ p, ConditionalPipeline.fromGrant g = .ok p ∧ p.confirmedResult data = .ok success := by
  rw [confirmedResult, if_pos hcap] at h
  simpa only [conditionalConfirmedResult, bind_ok] using h

theorem confirmedResult_finite {g : ExecutionGrant} {data : Json} {success : Bool}
    (hcap : g.capability ≠ conditionalCapability) :
    confirmedResult g data = .ok success ↔
      ∃ p, FinitePipeline.fromGrant g = .ok p ∧ p.confirmedResult data = .ok success := by
  rw [confirmedResult, if_neg hcap, bind_ok]

/-- The conditional checker never accepts success over a failed final process run. -/
theorem conditional_noFalseSuccess {p : ConditionalPipeline} {data : Json} {s : PipelineStep}
    {r : ConditionalResult} (hs : p.graph.steps.getLast? = some s) (hproc : s.isProcess = true)
    (hr : ConditionalResult.fromJson data = some r) (hout : reportsFailure r.output = true) :
    p.confirmedResult data ≠ .ok true := by
  intro h
  obtain ⟨r', last, s', hr', hsucc, hcheck, hlast, hget, hlen, -, hnull, hno⟩ :=
    ConditionalPipeline.confirmedResult_cases h
  obtain rfl : r' = r := by simpa [hr'] using hr
  have hs' : s' = s := by
    rw [hlen hsucc] at hget
    rw [List.getLast?_eq_getElem?] at hs
    simpa [hs] using hget.symm
  subst hs'
  cases hstate : last.state with
  | completed => exact hno ⟨hsucc, hstate, hproc, hout⟩
  | failed =>
    have := (checkOutcomes_failed hcheck hlast hstate).1
    rw [hsucc] at this
    cases this
  | skippedCondition =>
    rw [hnull (Or.inl hstate)] at hout
    exact absurd hout (by decide)
  | skippedDependency =>
    rw [hnull (Or.inr hstate)] at hout
    exact absurd hout (by decide)

/-- A finite definition is not a conditional grant's. -/
theorem FinitePipeline.fromGrant_capability {g : ExecutionGrant} {p : FinitePipeline}
    (h : FinitePipeline.fromGrant g = .ok p) : g.capability ≠ conditionalCapability := by
  rw [(FinitePipeline.fromGrant_valid h).2.1]
  decide

/-- Accepted evidence is sound except for one kind of report: a complete finite
success whose final process run exited unsuccessfully. -/
theorem evidenceSound_iff (g : ExecutionGrant) (data : Json) :
    EvidenceSound g data ↔ ¬FalseSuccess g data := by
  constructor
  · rintro hsound ⟨p, s, output, hp, hs, hproc, hout, hdata⟩
    have hcap := FinitePipeline.fromGrant_capability hp
    have hfinal : finalStep g = some s := by
      simp [finalStep, Definition.fromGrant, hcap, hp, bind, Except.bind, pure, Except.pure,
        Definition.graph, hs]
    refine hsound.noFalseSuccess s output hfinal hproc (by simp [reportedOutput, hcap, hdata]) hout ?_
    rw [confirmedResult_finite hcap]
    refine ⟨p, hp, FinitePipeline.confirmedResult_ok.mpr ⟨_, hdata, ⟨rfl, rfl, ?_, ?_, ?_⟩, rfl⟩⟩
    · simp
    · simp
    · simp
  · intro hno
    refine ⟨?_, ?_⟩
    · intro hcap success h
      obtain ⟨p, hp, hconf⟩ := confirmedResult_conditional hcap h
      obtain ⟨r, hr, hs, hrep⟩ :=
        conditional_replays (ConditionalPipeline.fromGrant_valid hp).1 hconf
      exact ⟨p, r, hp, hr, hs, hrep⟩
    · intro s output hfinal hproc hrep hout h
      by_cases hcap : g.capability = conditionalCapability
      · obtain ⟨p, hp, hconf⟩ := confirmedResult_conditional hcap h
        simp only [finalStep, Definition.fromGrant, hcap, if_true, hp, bind, Except.bind, pure,
          Except.pure, Definition.graph] at hfinal
        simp only [reportedOutput, hcap, if_true, Option.map_eq_some_iff] at hrep
        obtain ⟨r, hr, rfl⟩ := hrep
        exact conditional_noFalseSuccess hfinal hproc hr hout hconf
      · obtain ⟨p, hp, hconf⟩ := (confirmedResult_finite hcap).mp h
        simp only [finalStep, Definition.fromGrant, hcap, if_false, hp, bind, Except.bind, pure,
          Except.pure, Definition.graph] at hfinal
        simp only [reportedOutput, hcap, if_false, Option.map_eq_some_iff] at hrep
        obtain ⟨r, hr, rfl⟩ := hrep
        obtain ⟨r', hr', hrep', hsucc⟩ := FinitePipeline.confirmedResult_ok.mp hconf
        obtain rfl : r' = r := by simpa [hr'] using hr
        obtain ⟨hfailed, hlen⟩ := hrep'.succeeded hsucc
        refine hno ⟨p, s, r'.output, hp, hfinal, hproc, hout, ?_⟩
        have hsteps : r'.completedSteps = p.steps.map PipelineStep.id := by
          rw [hrep'.steps, hlen, List.take_length]
        rw [hr', ← hsteps, ← hfailed, ← hrep'.version, ← hrep'.type, ← hsucc]

end

/-! A process run that exits unsuccessfully, reported as a success and confirmed. -/

def nativePipeline : FinitePipeline :=
  ⟨1, [literalStep "native" "process.exec" (.obj [("program", .str "/bin/false")])], 1024⟩

def nativeGrant : ExecutionGrant :=
  { sampleGrant with
    capability := "pipeline.run"
    params := .obj [("pipeline", nativePipeline.toJson)] }

/-- The finite report of the unsuccessful exit, but claiming success. -/
def falseSuccessData : Json := pipelineResult nativePipeline 1 false probeOutput

/-- What the two nodes make of it. -/
theorem falseSuccess_confirmed :
    @confirmedResult F64.bits nativeGrant falseSuccessData = .ok true
    ∧ @finalStep F64.bits nativeGrant = nativePipeline.steps.getLast?
    ∧ @ExecutionGrant.validate F64.bits .never nativeGrant = .ok ()
    ∧ reportedOutput nativeGrant falseSuccessData = some probeOutput := by
  decide +kernel

theorem finite_false_success :
    @ExecutionGrant.validate F64.bits .never nativeGrant = .ok () ∧
    @confirmedResult F64.bits nativeGrant falseSuccessData = .ok true ∧
    @finalStep F64.bits nativeGrant = nativePipeline.steps.getLast? ∧
    (∀ s ∈ nativePipeline.steps, s.isProcess = true) ∧
    reportedOutput nativeGrant falseSuccessData = some probeOutput ∧
    reportsFailure probeOutput = true ∧
    ¬@EvidenceSound F64.bits nativeGrant falseSuccessData := by
  obtain ⟨hconf, hfinal, hvalid, houtput⟩ := falseSuccess_confirmed
  refine ⟨hvalid, hconf, hfinal, by decide, houtput, by decide, ?_⟩
  intro hsound
  exact @EvidenceSound.noFalseSuccess F64.bits _ _ hsound _ probeOutput hfinal (by decide)
    houtput (by decide) hconf

end Eef.Node
