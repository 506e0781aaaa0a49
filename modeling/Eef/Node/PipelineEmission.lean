import Eef.Node.EvidenceSound
import Eef.Node.PipelineRetention
import Eef.Node.PipelineTrace
import Mathlib.Data.List.Chain

/-!
# The observations a running pipeline makes

`pipeline_runtime.rs` observes a finite pipeline at four places of its loop: before a stage, after
a known failure, after the last stage and after any other. `runObservations` lists what `observe`
is called with over a run. Each is of a step of the definition and inside its budget (`Sound`,
which rests on the account of what the pipeline retains), and they come in the order the ledger
asks for (`runObservations_chain`). So the ledger accepts them, one after the other, unless the
clock read zero when the grant was claimed: such a receipt never reads back.
-/

namespace Eef.Node

open Eef.Lib

/-- What `observe` is called with. -/
structure StageObservation where
  index : Nat
  phase : Phase
  retained : Nat
  resolved : Nat
  deriving DecidableEq, Repr

/-- The phase of an observation and the step it is about. -/
def StageObservation.event (o : StageObservation) : Phase × Nat := (o.phase, o.index)

section
variable [F64]

/-- A stage up to its first observation: the state then, and the bytes of its resolved data. -/
def prepareStage (d : Definition) (e : Stage) (st : RunState) (step : PipelineStep) :
    Result (RunState × Nat) := do
  let _ ← step.boundParams
  ensure e.operation "Operation is not allowed by the local policy"
  let params ← step.resolveWithLimit (fun id => st.values.lookup id) d.graph.maxRetainedBytes
  let resolved ← (modelAlias step params).encodedBytes d.graph.maxRetainedBytes
  let st ← consumeReferences st (d.referenceSources step)
  return (st, resolved)

/-- A stage from its first observation to its output, and the bytes of it. -/
def stageOutput (d : Definition) (e : Stage) : Result (Json × Nat) := do
  observe d e.starting
  ensure e.beforeDeadline "Pipeline parent deadline expired before stage"
  let output ← context e.output "execution failed"
  let bytes ← output.encodedBytes d.graph.maxRetainedBytes
  return (output, bytes)

/-- The observation after the output of a stage. -/
def settleObservations (graph : FinitePipeline) (index : Nat) (st : RunState) (step : PipelineStep)
    (output : Json) (bytes : Nat) : List StageObservation :=
  if step.isProcess ∧ reportsFailure output then [⟨index, .failed, st.retained, 0⟩]
  else if index + 1 = graph.steps.length then [⟨index, .completed, 0, 0⟩]
  else
    match retainOutput (.finite graph) st step output bytes with
    | .ok st => [⟨index, .completed, st.retained, 0⟩]
    | .error _ => []

/-- The observations of one turn of the loop, as far as it gets. -/
def turnObservations (graph : FinitePipeline) (e : Stage) (index : Nat) (st : RunState)
    (step : PipelineStep) : List StageObservation :=
  match (do
    ensure e.policy "Grant policy no longer allows execution"
    prepareStage (.finite graph) e st step : Result (RunState × Nat)) with
  | .error _ => []
  | .ok (st, resolved) =>
    ⟨index, .starting, st.retained, resolved⟩ ::
      match stageOutput (.finite graph) e with
      | .error _ => []
      | .ok (output, bytes) => settleObservations graph index st step output bytes

/-- The observations of the loop, from the steps not yet visited. -/
def runObservations (graph : FinitePipeline) (env : Nat → Stage) :
    Nat → RunState → List PipelineStep → List StageObservation
  | _, _, [] => []
  | index, st, step :: steps =>
    turnObservations graph (env index) index st step ++
      match stageStep (.finite graph) (env index) index st step with
      | .ok (.ran st _) => runObservations graph env (index + 1) st steps
      | _ => []

/-- The observations `execute` makes of a finite pipeline. -/
def executeObservations [PeerAdmission] (admitted : Bool) (g : ExecutionGrant)
    (env : Nat → Stage) : List StageObservation :=
  match (do
    g.validate
    ensure admitted "Local admission refused the grant"
    let graph ← FinitePipeline.fromGrant g
    let references ← (Definition.finite graph).referenceCounts
    return (graph, references) : Result (FinitePipeline × List (String × Nat))) with
  | .error _ => []
  | .ok (graph, references) => runObservations graph env 0 (initialState references) graph.steps

/-! ## A turn is its parts -/

theorem runStage_parts (d : Definition) (e : Stage) (st : RunState) (step : PipelineStep) :
    runStage d e st step = (do
      let (st, _) ← prepareStage d e st step
      let (output, bytes) ← stageOutput d e
      return (st, output, bytes)) := by
  unfold runStage prepareStage stageOutput
  simp only [bind_assoc, pure_bind]

/-- What is true of every observation a pipeline makes. -/
structure StageObservation.Sound (graph : FinitePipeline) (o : StageObservation) : Prop where
  phase : o.phase ≠ .pending
  step : ∃ step, graph.steps[o.index]? = some step ∧ (o.phase = .failed → step.isProcess = true)
  retained : o.retained ≤ graph.maxRetainedBytes
  resolved : o.resolved ≤ graph.maxRetainedBytes
  released : o.phase ≠ .starting → o.resolved = 0

/-- A sound observation makes a checkpoint at any reading of the clock that is a time. -/
theorem StageObservation.Sound.checkpoint {graph : FinitePipeline} {o : StageObservation}
    (h : o.Sound graph) {g : ExecutionGrant} (hg : FinitePipeline.fromGrant g = .ok graph) {now : Nat}
    (hpos : now ≠ 0) (hle : now ≤ i64Max) : ∃ p,
      PipelineProgress.checkpoint g o.index o.phase o.retained o.resolved now = .ok p := by
  obtain ⟨hvalid, -, -⟩ := FinitePipeline.fromGrant_valid hg
  obtain ⟨step, hstep, hprocess⟩ := h.step
  obtain ⟨hlt, hget⟩ := List.getElem?_eq_some_iff.mp hstep
  have hlength := hvalid.length_le
  have hretained := h.retained.trans hvalid.retained_le
  have hresolved := h.resolved.trans hvalid.retained_le
  have hid : validStepId step.id = true := by
    rw [← hget]
    exact hvalid.graph.ids _ (List.getElem_mem hlt)
  refine ⟨_, PipelineProgress.checkpoint_ok.mpr ⟨graph, step, hg, hstep, ?_, rfl⟩⟩
  refine PipelineProgress.confirms_iff.mpr ⟨graph, hg, ?_, ?_, rfl, h.retained, h.resolved, step, ?_,
    rfl, hprocess⟩
  · refine ⟨rfl, rfl, rfl, ⟨?_, hlength⟩, ?_, ?_, hid, hretained, hresolved, hpos, hle⟩
    · show 1 ≤ graph.steps.length
      omega
    · show (if o.phase = .completed then o.index + 1 else o.index) ≤ graph.steps.length
      split <;> omega
    · cases hphase : o.phase <;>
        simp only [PipelineProgress.observed] <;> omega
  · have hreleased := h.released
    have hphase := h.phase
    cases hp : o.phase <;>
      simp only [hp, ne_eq, reduceCtorEq, not_false_eq_true, not_true_eq_false, forall_const,
        PipelineProgress.consistent, PipelineProgress.observed, if_true, if_false] at hreleased hphase ⊢
    · exact ⟨hlt, trivial⟩
    · exact ⟨by omega, by omega, hreleased⟩
    · exact ⟨hlt, by omega, hreleased⟩
  · rw [← hstep]
    cases hp : o.phase <;> rfl

/-! ## The observations of a turn -/

theorem prepareStage_ok {d : Definition} {e : Stage} {st st' : RunState} {step : PipelineStep}
    {resolved : Nat} (h : prepareStage d e st step = .ok (st', resolved)) :
    consumeReferences st (d.referenceSources step) = .ok st' ∧
      resolved ≤ d.graph.maxRetainedBytes := by
  simp only [prepareStage, bind_ok, ensure_ok, pure_ok, Json.encodedBytes_ok, Prod.mk.injEq] at h
  obtain ⟨_, -, _, -, _, -, _, ⟨hle, rfl⟩, st1, hc, rfl, rfl⟩ := h
  exact ⟨hc, hle⟩

omit [F64] in
/-- What is kept of an output stays inside the budget. -/
theorem retainOutput_bounded {d : Definition} {st st' : RunState} {step : PipelineStep}
    {output : Json} {bytes : Nat} (h : retainOutput d st step output bytes = .ok st')
    (hst : st.retained ≤ d.graph.maxRetainedBytes) : st'.retained ≤ d.graph.maxRetainedBytes := by
  simp only [retainOutput, bind_ok, context_ok] at h
  obtain ⟨uses, -, h⟩ := h
  by_cases huses : uses > 0
  · rw [if_pos huses] at h
    obtain ⟨_, hroom, h⟩ := bind_ok.mp h
    cases h
    exact Nat.not_lt.mp (bailIf_ok.mp hroom)
  · rw [if_neg huses] at h
    cases h
    exact hst

omit [F64] in
/-- The observation after an output: a failure, the last completion, or a completion. -/
theorem settleObservations_cases {graph : FinitePipeline} {index : Nat} {st : RunState}
    {step : PipelineStep} (hstep : graph.steps[index]? = some step) (output : Json) (bytes : Nat)
    (hst : st.retained ≤ graph.maxRetainedBytes) :
    settleObservations graph index st step output bytes = [] ∨
    ∃ o : StageObservation, settleObservations graph index st step output bytes = [o] ∧
      o.Sound graph ∧ (o.event = (.failed, index) ∨ o.event = (.completed, index)) := by
  unfold settleObservations
  by_cases hfail : step.isProcess = true ∧ reportsFailure output = true
  · rw [if_pos hfail]
    refine .inr ⟨_, rfl, ⟨Phase.noConfusion, ⟨step, hstep, fun _ => hfail.1⟩, hst, Nat.zero_le _,
      fun _ => rfl⟩, .inl rfl⟩
  · rw [if_neg hfail]
    by_cases hlast : index + 1 = graph.steps.length
    · rw [if_pos hlast]
      exact .inr ⟨_, rfl, ⟨Phase.noConfusion, ⟨step, hstep, Phase.noConfusion⟩, Nat.zero_le _,
        Nat.zero_le _, fun _ => rfl⟩, .inr rfl⟩
    · rw [if_neg hlast]
      cases hretain : retainOutput (.finite graph) st step output bytes with
      | error m => exact .inl rfl
      | ok st' =>
        exact .inr ⟨_, rfl, ⟨Phase.noConfusion, ⟨step, hstep, Phase.noConfusion⟩,
          retainOutput_bounded hretain hst, Nat.zero_le _, fun _ => rfl⟩, .inr rfl⟩

/-- A turn of a finite pipeline observes what it started, and how that ended, as far as it got. -/
theorem turnObservations_cases {graph : FinitePipeline} {references : List (String × Nat)}
    (hrefs : (Definition.finite graph).referenceCounts = .ok references) {e : Stage} {index : Nat}
    {st : RunState} {step : PipelineStep} (h : Boundary (.finite graph) index st)
    (hstep : graph.steps[index]? = some step) :
    turnObservations graph e index st step = [] ∨
    ∃ start : StageObservation, start.Sound graph ∧ start.event = (.starting, index) ∧
      (turnObservations graph e index st step = [start] ∨
      ∃ o : StageObservation, turnObservations graph e index st step = [start, o] ∧ o.Sound graph ∧
        (o.event = (.failed, index) ∨ o.event = (.completed, index))) := by
  unfold turnObservations
  cases hprep : (ensure (e.policy = true) "Grant policy no longer allows execution" >>= fun _ =>
      prepareStage (.finite graph) e st step) with
  | error m => exact .inl rfl
  | ok prepared =>
    obtain ⟨st', resolved⟩ := prepared
    obtain ⟨_, -, hprep⟩ := bind_ok.mp hprep
    obtain ⟨hconsume, hresolved⟩ := prepareStage_ok hprep
    obtain ⟨mid, hmid, hkept, -⟩ := h.consume (referenceCounts_backward hrefs) hstep
    rw [Except.ok.inj (hmid.symm.trans hconsume)] at hkept
    refine .inr ⟨⟨index, .starting, st'.retained, resolved⟩, ⟨Phase.noConfusion,
      ⟨step, hstep, Phase.noConfusion⟩, hkept.bounded, hresolved, fun hne => absurd rfl hne⟩, rfl, ?_⟩
    cases hout : stageOutput (.finite graph) e with
    | error m => exact .inl rfl
    | ok out =>
      obtain ⟨output, bytes⟩ := out
      rcases settleObservations_cases hstep output bytes hkept.bounded with hs | ⟨o, hs, hsound, hev⟩
      · exact .inl (by simp only [hs])
      · exact .inr ⟨o, by simp only [hs], hsound, hev⟩

/-- A stage that ran on was observed when it started and when it completed. -/
theorem turnObservations_ran {graph : FinitePipeline} {e : Stage} {index : Nat} {st st' : RunState}
    {step : PipelineStep} {output : Json}
    (h : stageStep (.finite graph) e index st step = .ok (.ran st' output)) :
    ∃ start done : StageObservation, turnObservations graph e index st step = [start, done] ∧
      start.event = (.starting, index) ∧ done.event = (.completed, index) := by
  have hpolicy : ensure (e.policy = true) "Grant policy no longer allows execution" = .ok () := by
    simp only [stageStep, bind_ok] at h
    obtain ⟨_, hp, -⟩ := h
    exact hp
  rcases stageStep_cases h with ⟨matched, mid, out, bytes, -, hrun, hsettle⟩ |
    ⟨_, _, _, -, -, hturn, -⟩
  swap
  · cases hturn
  rw [runStage_parts] at hrun
  simp only [bind_ok, Prod.exists, pure_ok, Prod.mk.injEq] at hrun
  obtain ⟨mid', resolved, hprep, out', bytes', hout, rfl, rfl, rfl⟩ := hrun
  have hretain : retainOutput (.finite graph) mid' step out' bytes' = .ok st' :=
    settleStage_state hsettle rfl
  refine ⟨⟨index, .starting, mid'.retained, resolved⟩, ⟨index, .completed, st'.retained, 0⟩, ?_,
    rfl, rfl⟩
  unfold turnObservations
  rw [hpolicy, ok_bind, hprep]
  simp only [hout]
  rcases settleStage_cases hsettle with ⟨-, -, hturn⟩ | ⟨-, -, hturn⟩ | ⟨hfail, hlast, -⟩
  · cases hturn
  · cases hturn
  · unfold settleObservations
    have hlast' : ¬index + 1 = graph.steps.length := hlast
    rw [if_neg hfail, if_neg hlast', hretain]

/-! ## The observations of a run -/

/-- A run makes sound observations, in the order the ledger asks for. -/
theorem runObservations_chain {graph : FinitePipeline} {references : List (String × Nat)}
    (hrefs : (Definition.finite graph).referenceCounts = .ok references) (env : Nat → Stage)
    {steps : List PipelineStep} {index : Nat} {st : RunState} {previous : Phase × Nat}
    (hsteps : graph.steps.drop index = steps) (h : Boundary (.finite graph) index st)
    (hprevious : index < graph.steps.length →
      Follows graph.steps.length previous (.starting, index)) :
    (∀ o ∈ runObservations graph env index st steps, o.Sound graph) ∧
      List.IsChain (Follows graph.steps.length)
        (previous :: (runObservations graph env index st steps).map StageObservation.event) := by
  induction steps generalizing index st previous with
  | nil => exact ⟨fun o ho => absurd ho List.not_mem_nil, .singleton _⟩
  | cons step steps ih =>
    have hstep : graph.steps[index]? = some step := by
      rw [← List.head?_drop, hsteps]
      rfl
    have hrest : graph.steps.drop (index + 1) = steps := by
      rw [← List.tail_drop, hsteps]
      rfl
    have hfirst := hprevious (List.getElem?_eq_some_iff.mp hstep).1
    -- what the turn itself observes, when the run does not go on
    have hturn : (∀ o ∈ turnObservations graph (env index) index st step, o.Sound graph) ∧
        List.IsChain (Follows graph.steps.length)
          (previous :: (turnObservations graph (env index) index st step).map
            StageObservation.event) := by
      rcases turnObservations_cases hrefs (e := env index) h hstep with hs |
        ⟨start, hsound, hevent, hs | ⟨o, hs, hsound', hevent'⟩⟩
      · rw [hs]
        exact ⟨fun o ho => absurd ho List.not_mem_nil, .singleton _⟩
      · rw [hs]
        refine ⟨fun o ho => (List.mem_singleton.mp ho) ▸ hsound, ?_⟩
        rw [List.map_singleton, hevent]
        exact List.isChain_pair.mpr hfirst
      · rw [hs]
        refine ⟨fun q hq => ?_, ?_⟩
        · rcases List.mem_cons.mp hq with hq | hq
          · exact hq ▸ hsound
          · exact (List.mem_singleton.mp hq) ▸ hsound'
        · rw [List.map_cons, List.map_singleton, hevent]
          refine List.isChain_cons_cons.mpr ⟨hfirst, List.isChain_pair.mpr ?_⟩
          rcases hevent' with he | he
          · exact he ▸ .failed index
          · exact he ▸ .completed index
    unfold runObservations
    cases hres : stageStep (.finite graph) (env index) index st step with
    | error m =>
      simp only [List.append_nil]
      exact hturn
    | ok turn =>
      cases turn with
      | finished data output =>
        simp only [List.append_nil]
        exact hturn
      | skipped st' =>
        simp only [List.append_nil]
        exact hturn
      | ran st' output =>
        obtain ⟨start, done, hs, hevent, hevent'⟩ := turnObservations_ran hres
        have hnext : index + 1 < graph.steps.length →
            Follows graph.steps.length (.completed, index) (.starting, index + 1) := .next index
        obtain ⟨hsound, hchain⟩ :=
          ih hrest (h.step (referenceCounts_backward hrefs) hstep hres rfl) hnext
        refine ⟨fun o ho => ?_, ?_⟩
        · rcases List.mem_append.mp ho with ho | ho
          · exact hturn.1 o ho
          · exact hsound o ho
        · simp only [hs, List.map_cons, hevent, hevent', List.cons_append, List.nil_append]
          exact List.isChain_cons_cons.mpr
            ⟨hfirst, List.isChain_cons_cons.mpr ⟨.completed index, hchain⟩⟩

/-- What `execute` observes of a finite grant, from its pending observation on. -/
theorem executeObservations_chain [PeerAdmission] {g : ExecutionGrant} {graph : FinitePipeline}
    (hg : FinitePipeline.fromGrant g = .ok graph) (admitted : Bool) (env : Nat → Stage) :
    (∀ o ∈ executeObservations admitted g env, o.Sound graph) ∧
      List.IsChain (Follows graph.steps.length)
        ((.pending, 0) :: (executeObservations admitted g env).map StageObservation.event) := by
  unfold executeObservations
  split
  · exact ⟨fun o ho => absurd ho List.not_mem_nil, .singleton _⟩
  · rename_i graph' references hstart
    simp only [bind_ok, pure_ok, Prod.mk.injEq] at hstart
    obtain ⟨_, -, _, -, _, hg', _, hrefs, rfl, rfl⟩ := hstart
    obtain rfl : graph = _ := Except.ok.inj (hg.symm.trans hg')
    exact runObservations_chain hrefs env List.drop_zero
      (Boundary.initial (d := .finite graph) trivial hrefs) fun hlt => .first hlt

end

/-! ## The trace of a grant -/

section
variable [F64] [Sha256] [PeerAdmission]

omit [Sha256] [PeerAdmission] in
/-- The checkpoint an observation makes at a reading of the clock. -/
def StageObservation.Makes (o : StageObservation) (g : ExecutionGrant) (now : Nat)
    (p : PipelineProgress) : Prop :=
  PipelineProgress.checkpoint g o.index o.phase o.retained o.resolved now = .ok p

/-- The observations accepted for a grant: a prefix of its steps in order, each started and
completed, unless the last one failed; and each names the step it is about. -/
structure LegalTrace (definition : FinitePipeline) (trace : List PipelineProgress) : Prop where
  legal : Legal definition.steps.length (trace.map PipelineProgress.event)
  steps : ∀ p ∈ trace, p.totalSteps = definition.steps.length ∧
    ∃ step, definition.steps[p.index]? = some step ∧ p.currentStep = step.id ∧
      (p.phase = .failed → step.isProcess = true)

/-- Every observing run is legal. -/
theorem Traced.legalTrace {g : ExecutionGrant} {definition : FinitePipeline}
    (hd : FinitePipeline.fromGrant g = .ok definition) {acceptedAt : Nat} {l : Ledger}
    {trace : List PipelineProgress} {last : PipelineProgress}
    (h : Traced g acceptedAt l trace last) : LegalTrace definition trace := by
  have habout : ∀ p ∈ trace, p.totalSteps = definition.steps.length ∧
      ∃ step, definition.steps[p.index]? = some step ∧ p.currentStep = step.id ∧
        (p.phase = .failed → step.isProcess = true) := by
    intro p hp
    obtain ⟨now, hconf⟩ := h.about p hp
    obtain ⟨definition', hd', hc⟩ := PipelineProgress.confirms_iff.mp hconf
    obtain rfl : definition = definition' := Except.ok.inj (hd.symm.trans hd')
    exact ⟨hc.total, hc.step⟩
  refine ⟨?_, habout⟩
  rw [← (habout last (List.mem_of_getLast? h.getLast)).1]
  exact h.legal

/-- Nothing follows the observation that ends a pipeline. -/
theorem Traced.refuses {g : ExecutionGrant} {acceptedAt : Nat} {l : Ledger}
    {trace : List PipelineProgress} {last : PipelineProgress} (h : Traced g acceptedAt l trace last)
    (hend : last.Ended) (p q : PipelineProgress) (stored : Bool) :
    (l.recordPipelineProgress g p stored).2 ≠ .ok q := by
  intro hok
  rcases l.commit_cases (l.progressTx g p stored) with ⟨-, hne⟩ | ⟨j, _, htx, -⟩
  · exact hne q hok
  · obtain ⟨-, -, receipt, previous, rows, ha, -⟩ := progressTx_accepts.mp htx
    obtain ⟨-, rfl, -⟩ := h.accepted ha
    exact ha.running hend

/-- No call moves the update time of an operation back. -/
theorem LedgerInv.run_updated {l : Ledger} (h : LedgerInv l) (op : LedgerOp) {id : String}
    {row : ReceiptRow} (hrow : l.journal.receipt id = some row) (hkind : row.kind = .operation) :
    ∃ row', (op.run l).1.journal.receipt id = some row' ∧ row.updatedMs ≤ row'.updatedMs := by
  rcases op.run_journal l with hj | hc
  · rw [hj]
    exact ⟨row, hrow, Nat.le_refl _⟩
  · by_cases hother : ∀ g p stored, op = .progress g p stored → g.grantId ≠ id
    · obtain ⟨row', hrow', -, hle, -⟩ := (hc.leaves h hother).row row hrow hkind
      exact ⟨row', hrow', hle⟩
    · push Not at hother
      obtain ⟨g, p, stored, rfl, rfl⟩ := hother
      generalize (LedgerOp.run (.progress g p stored) l).1.journal = j' at hc
      cases hc with
      | progress hc =>
        obtain ⟨receipt, rows, hread, hle, -, -, rfl⟩ := hc.writes
        obtain ⟨-, -, -, row', progress, hrow', -, -, -, hreceipt⟩ := Journal.readConsumed_ok.mp hread
        obtain rfl : row = row' := Option.some.inj (hrow.symm.trans hrow')
        have hclock : row.updatedMs ≤ p.recordedAtMs := by
          rw [hreceipt] at hle
          exact hle
        refine ⟨if Ledger.acceptedAs g.grantId receipt.grantSha256 row
          then { row with updatedMs := p.recordedAtMs } else row, ?_, ?_⟩
        · refine (Table.find_update (fun _ => ?_) _ _).trans ?_
          · rfl
          have hrow₀ : Table.find ReceiptRow.grantId g.grantId l.journal.receipts = some row := hrow
          rw [hrow₀]
          rfl
        · split
          · exact hclock
          · exact Nat.le_refl _

/-- After the observations made before it, and no earlier, an observation that a running pipeline
makes is accepted. -/
theorem Traced.emitted {g : ExecutionGrant} {definition : FinitePipeline}
    (hd : FinitePipeline.fromGrant g = .ok definition) {acceptedAt : Nat} {l : Ledger}
    {first last : PipelineProgress} {rest : List PipelineProgress}
    (h : Traced g acceptedAt l (first :: rest) last) {admitted : Bool} {env : Nat → Stage}
    {before after : List StageObservation} {o : StageObservation}
    (hrun : executeObservations admitted g env = before ++ o :: after)
    (hmade : List.Forall₂ (fun o p => ∃ now, o.Makes g now p) before rest) {now : Nat}
    (hclock : ∀ q ∈ first :: rest, q.recordedAtMs ≤ now) {p : PipelineProgress}
    (hp : o.Makes g now p) {row : ReceiptRow} (hrow : l.journal.receipt g.grantId = some row)
    (hopen : row.state = .accepted) :
    (l.recordPipelineProgress g p true).2 = .ok p ↔ acceptedAt ≠ 0 := by
  obtain ⟨definition', step, hd', -, hconf, hobs⟩ := PipelineProgress.checkpoint_ok.mp hp
  have hevent : p.event = o.event := by
    rw [hobs]
    exact PipelineProgress.observed_event ..
  have hrecorded : p.recordedAtMs = now := by rw [hobs]; rfl
  have hlast : last ∈ first :: rest := List.mem_of_getLast? h.getLast
  constructor
  · intro hok
    rcases l.commit_cases (l.progressTx g p true) with ⟨-, hne⟩ | ⟨j, _, htx, -⟩
    · exact absurd hok (hne p)
    · obtain ⟨-, -, receipt, previous, rows, ha, -⟩ := progressTx_accepts.mp htx
      exact (h.accepted ha).1
  · intro hpos
    refine h.accepts hpos hrow hopen hconf ?_ (by rw [hrecorded]; exact hclock last hlast)
    -- the accepted observations are those made so far, so this one follows the last of them
    have hevents : rest.map PipelineProgress.event = before.map StageObservation.event := by
      clear hrun hclock h hlast
      induction hmade with
      | nil => rfl
      | cons hhead _ ih =>
        obtain ⟨now', hnow⟩ := hhead
        obtain ⟨_, _, -, -, -, hobs'⟩ := PipelineProgress.checkpoint_ok.mp hnow
        rw [List.map_cons, List.map_cons, ih, hobs', PipelineProgress.observed_event]
        rfl
    have hfirst : first.event = (.pending, 0) :=
      Option.some.inj (Legal.head (h.legalTrace hd).legal)
    have hchain := (executeObservations_chain hd admitted env).2
    rw [hrun, List.map_append, List.map_cons, ← hevents, ← hfirst, ← List.cons_append,
      ← List.map_cons] at hchain
    have hfollows := (List.isChain_append.mp hchain).2.2
    rw [((h.legalTrace hd).steps last hlast).1, hevent]
    refine hfollows _ ?_ _ rfl
    rw [List.getLast?_map, h.getLast]
    rfl

/-- In every run that consumed a finite pipeline the accepted observations are a legal trace, none
follows the one that ends it, and no call moves the receipt's update time back. Each observation
a running pipeline makes while its receipt is accepted, no earlier than those before it, is
accepted exactly when the clock did not read zero at the claim. -/
theorem pipeline_trace {g : ExecutionGrant} {definition : FinitePipeline}
    (hd : FinitePipeline.fromGrant g = .ok definition) {l : Ledger} {trace : List PipelineProgress}
    (h : Observing g l trace) :
    LegalTrace definition trace ∧
    (∀ last, trace.getLast? = some last → last.Ended →
      ∀ p q stored, (l.recordPipelineProgress g p stored).2 ≠ .ok q) ∧
    (∀ (op : LedgerOp) (row : ReceiptRow), l.journal.receipt g.grantId = some row →
      ∃ row', (op.run l).1.journal.receipt g.grantId = some row' ∧
        row.updatedMs ≤ row'.updatedMs) ∧
    ∀ (admitted : Bool) (env : Nat → Stage) (before after : List StageObservation)
      (o : StageObservation), executeObservations admitted g env = before ++ o :: after →
      (∀ now, now ≠ 0 → now ≤ i64Max → ∃ p, o.Makes g now p) ∧
      ∀ (first : PipelineProgress) (rest : List PipelineProgress) (now : Nat)
        (p : PipelineProgress) (row : ReceiptRow), trace = first :: rest →
        List.Forall₂ (fun o p => ∃ now, o.Makes g now p) before rest →
        (∀ q ∈ trace, q.recordedAtMs ≤ now) → o.Makes g now p →
        l.journal.receipt g.grantId = some row → row.state = .accepted →
        ((l.recordPipelineProgress g p true).2 = .ok p ↔ first.recordedAtMs ≠ 0) := by
  obtain ⟨acceptedAt, last, ht⟩ := h.traced
  refine ⟨ht.legalTrace hd, ?_, ?_, ?_⟩
  · intro last' hlast hend p q stored
    obtain rfl : last = last' := Option.some.inj (ht.getLast.symm.trans hlast)
    exact ht.refuses hend p q stored
  · intro op row hrow
    obtain ⟨row', hrow', hfixed, -, -⟩ := ht.row
    obtain rfl : row = row' := Option.some.inj (hrow.symm.trans hrow')
    exact ht.reachable.inv.run_updated op hrow
      (ReceiptRow.fixed_eq ReceiptRow.kind (fun _ => rfl) hfixed)
  · intro admitted env before after o hrun
    have hsound : o.Sound definition := by
      refine (executeObservations_chain hd admitted env).1 o ?_
      rw [hrun]
      exact List.mem_append_right _ List.mem_cons_self
    refine ⟨fun now hpos hle => hsound.checkpoint hd hpos hle, ?_⟩
    intro first rest now p row htrace hmade hclock hp hrow hopen
    rw [htrace] at ht hclock
    have hat : first.recordedAtMs = acceptedAt := Option.some.inj ht.head
    rw [hat]
    exact ht.emitted hd hrun hmade hclock hp hrow hopen

end

/-! A pipeline of one native step is claimed, and its first observation is accepted. -/

def nativeEnv (_ : Nat) : Stage := ⟨true, true, true, true, some probeOutput, true⟩

/-- Its observation at a reading of the clock. -/
def nativeObservation (phase : Phase) (resolved now : Nat) : PipelineProgress :=
  .observed nativePipeline (literalStep "native" "process.exec" (.obj [("program", .str "/bin/false")]))
    0 phase 0 resolved now

/-- The ledger after the claim. -/
def nativeLedger : Ledger :=
  (@Ledger.claim F64.bits replaySha .never openedLedger nativeGrant claimReadings).1

theorem native_observed :
    @FinitePipeline.fromGrant F64.bits nativeGrant = .ok nativePipeline ∧
    (@Ledger.claim F64.bits replaySha .never openedLedger nativeGrant claimReadings).2 = .ok () ∧
    @PipelineProgress.checkpoint F64.bits nativeGrant 0 .pending 0 0 1000
      = .ok (nativeObservation .pending 0 1000) ∧
    @executeObservations F64.bits .never true nativeGrant nativeEnv
      = [] ++ ⟨0, .starting, 0, 24⟩ :: [⟨0, .failed, 0, 0⟩] ∧
    @PipelineProgress.checkpoint F64.bits nativeGrant 0 .starting 0 24 1001
      = .ok (nativeObservation .starting 24 1001) ∧
    nativeLedger.journal.receipt nativeGrant.grantId
      = some (@Ledger.claimedRow replaySha nativeGrant 1000) := by
  decide +kernel

theorem pipeline_trace_native :
    (@Ledger.recordPipelineProgress F64.bits replaySha .never nativeLedger nativeGrant
      (nativeObservation .starting 24 1001) true).2 = .ok (nativeObservation .starting 24 1001) := by
  obtain ⟨hd, hclaim, hfirst, hrun, hmade, hrow⟩ := native_observed
  have hobserving := @Observing.claimed F64.bits replaySha .never nativeGrant openedLedger
    claimReadings _ openedLedger_reachable rfl hclaim hfirst
  obtain ⟨-, -, -, hemitted⟩ :=
    @pipeline_trace F64.bits replaySha .never nativeGrant nativePipeline hd _ _ hobserving
  refine ((hemitted true nativeEnv _ _ _ hrun).2 _ [] 1001 _ _ rfl .nil ?_ hmade hrow rfl).mpr ?_
  · intro q hq
    rw [List.mem_singleton.mp hq]
    decide
  · decide

end Eef.Node
