import Eef.Node.Admission

/-!
# Running a compound grant

`pipeline_runtime.rs`: one loop that runs either kind of definition inside one
accepted grant. `Definition` is what differs between the two kinds; `RunState` is
what the loop keeps (last-use reference counts, the values still held and their
sizes, the skipped steps, the outcomes so far); `stageStep` is one turn of it,
and `runFrom` the loop.

What the loop reads from outside (owner policy, the journal checkpoint, the
deadline, the adapter's output) is a `Stage` for each index, chosen freely. The
loop also returns the steps it ran with what each produced, which the source does
not keep; `execute` drops it.
-/

namespace Eef.Node

open Eef.Lib

/-! ## The finite report -/

/-- `PipelineResult`. -/
structure PipelineResult where
  schemaVersion : Nat
  reportType : String
  success : Bool
  completedSteps : List String
  failedStep : Option String
  output : Json
  deriving DecidableEq, Repr

def PipelineResult.toJson (r : PipelineResult) : Json :=
  .obj [("schema_version", .nat r.schemaVersion), ("report_type", .str r.reportType),
    ("success", .bool r.success), ("completed_steps", .arr (r.completedSteps.map .str)),
    ("failed_step", Json.ofOption .str r.failedStep), ("output", r.output)]

def PipelineResult.fromJson (j : Json) : Option PipelineResult := do
  let fs ← j.struct ["schema_version", "report_type", "success", "completed_steps", "failed_step",
    "output"] 6
  let schemaVersion ← Json.field fs "schema_version" (Json.asUInt 32)
  let reportType ← Json.field fs "report_type" Json.asStr
  let success ← Json.field fs "success" Json.asBool
  let completedSteps ← Json.field fs "completed_steps" (Json.asList Json.asStr)
  let failedStep ← Json.optField fs "failed_step" Json.asStr
  let output ← Json.field fs "output" some
  return { schemaVersion, reportType, success, completedSteps, failedStep, output }

theorem PipelineResult.fromJson_toJson {r : PipelineResult} (h : r.schemaVersion = 1) :
    PipelineResult.fromJson r.toJson = some r := by
  have hv : r.schemaVersion < 2 ^ 32 := by omega
  rw [PipelineResult.toJson, PipelineResult.fromJson]
  refine Eq.trans (Json.struct_bind ?_ ?_) ?_
  · rfl
  · decide
  refine (Json.field_bind rfl (Json.asUInt_nat hv)).trans ?_
  refine (Json.field_bind (a := r.reportType) rfl rfl).trans ?_
  refine (Json.field_bind (a := r.success) rfl rfl).trans ?_
  refine (Json.field_bind rfl
    (Json.asList_map (f := Json.asStr) (e := Json.str) (fun _ => rfl) r.completedSteps)).trans ?_
  refine (Json.optField_bind (Json.optField_str (o := r.failedStep) rfl)).trans ?_
  refine (Json.field_bind (a := r.output) rfl rfl).trans ?_
  rfl

/-- `pipeline_runtime::result`. -/
def pipelineResult (graph : FinitePipeline) (completed : Nat) (failed : Bool) (output : Json) :
    Json :=
  PipelineResult.toJson
    { schemaVersion := 1, reportType := "local_pipeline_result", success := !failed,
      completedSteps := (graph.steps.take completed).map PipelineStep.id,
      failedStep := if failed then (graph.steps[completed]?).map PipelineStep.id else none,
      output := output }

/-- The finite branch of `pipeline_runtime::confirmed_result`, after the definition
is decoded. -/
def FinitePipeline.confirmedResult (p : FinitePipeline) (data : Json) : Result Bool := do
  let r ← context (PipelineResult.fromJson data) "Pipeline completion cannot be decoded"
  bailIf (r.schemaVersion ≠ 1 ∨ r.reportType ≠ "local_pipeline_result"
    ∨ r.completedSteps.length > p.steps.length
    ∨ (r.completedSteps.zip p.steps).any fun e => e.1 ≠ e.2.id)
    "Pipeline completion does not match the parent definition"
  if r.success then
    bailIf (r.failedStep.isSome ∨ r.completedSteps.length ≠ p.steps.length)
      "Incomplete pipeline cannot claim success"
  else
    let step ← context p.steps[r.completedSteps.length]? "Pipeline failure step missing"
    bailIf (r.failedStep ≠ some step.id ∨ step.isProcess = false ∨ reportsFailure r.output = false)
      "Pipeline failed-step evidence is not a supported known unsuccessful exit"
  return r.success

section
variable [F64]

/-- `conditional_pipeline::confirmed_result`. -/
def conditionalConfirmedResult (g : ExecutionGrant) (data : Json) : Result Bool := do
  let definition ← ConditionalPipeline.fromGrant g
  definition.confirmedResult data

/-- `pipeline_runtime::confirmed_result`. -/
def confirmedResult (g : ExecutionGrant) (data : Json) : Result Bool :=
  if g.capability = conditionalCapability then conditionalConfirmedResult g data
  else do
    let definition ← FinitePipeline.fromGrant g
    definition.confirmedResult data

/-! ## Either kind of definition -/

/-- `Definition`. -/
inductive Definition where
  | finite (graph : FinitePipeline)
  | conditional (definition : ConditionalPipeline)

namespace Definition

/-- `Definition::from_grant`. -/
def fromGrant (g : ExecutionGrant) : Result Definition :=
  if g.capability = conditionalCapability then do
    return .conditional (← ConditionalPipeline.fromGrant g)
  else do
    return .finite (← FinitePipeline.fromGrant g)

/-- `Definition::graph`. -/
def graph : Definition → FinitePipeline
  | .finite graph => graph
  | .conditional definition => definition.graph

/-- `matches!(definition, Definition::Conditional(_))`. -/
def isConditional : Definition → Bool
  | .finite _ => false
  | .conditional _ => true

/-- `Definition::reference_sources`, at a step of the graph. -/
def referenceSources (d : Definition) (step : PipelineStep) : List String :=
  match d with
  | .finite _ => step.inputs.map (·.sourceStep)
  | .conditional p =>
    step.inputs.map (·.sourceStep) ++ ((p.guard step).map (·.sourceStep)).toList

/-- One more use of a step's result. -/
def addReference (counts : List (String × Nat)) (source : String) : List (String × Nat) :=
  match counts.lookup source with
  | some n => Assoc.set source (n + 1) counts
  | none => counts

/-- `FinitePipeline::reference_counts`. -/
def graphCounts (graph : FinitePipeline) : Result (List (String × Nat)) := do
  graph.validateForExecutor none
  return (graph.steps.flatMap fun s => s.inputs.map (·.sourceStep)).foldl addReference
    (graph.steps.map fun s => (s.id, 0))

/-- `Definition::reference_counts`. -/
def referenceCounts : Definition → Result (List (String × Nat))
  | .finite graph => graphCounts graph
  | .conditional p => do
    p.validateForExecutor none
    let counts ← graphCounts p.graph
    ensure ((p.conditions.map (·.2.sourceStep)).all fun s => (counts.lookup s).isSome)
      "Missing conditional reference accounting"
    return (p.conditions.map (·.2.sourceStep)).foldl addReference counts

/-- `Definition::decision`, at a step of the graph. -/
def decision (d : Definition) (step : PipelineStep) (values : List (String × Json))
    (skipped : List String) : Result Decision :=
  match d with
  | .finite _ => .ok (.run none)
  | .conditional p => p.decision step values skipped

/-- `Definition::result`. -/
def result (d : Definition) (completed : Nat) (failed : Bool) (output : Json)
    (outcomes : List StepOutcome) : Json :=
  match d with
  | .finite graph => pipelineResult graph completed failed output
  | .conditional _ => conditionalResult outcomes output (!failed)

end Definition

/-! ## The loop -/

/-- What the loop of `execute` keeps between stages. -/
structure RunState where
  references : List (String × Nat)
  values : List (String × Json)
  sizes : List (String × Nat)
  retained : Nat
  skipped : List String
  outcomes : List StepOutcome

/-- What stage `index` meets outside the loop: whether the owner policy still
holds, whether the operation is allowed, whether the two journal observations
succeed, whether the deadline is still ahead, and what the adapter returns. -/
structure Stage where
  policy : Bool
  operation : Bool
  starting : Bool
  beforeDeadline : Bool
  output : Option Json
  observed : Bool

/-- One source of `consume_references`. -/
def consumeReference (st : RunState) (source : String) : Result RunState := do
  let uses ← context (st.references.lookup source) "Pipeline reference accounting missing"
  bailIf (uses = 0) "Pipeline reference accounting underflow"
  let st := { st with references := Assoc.set source (uses - 1) st.references }
  if uses - 1 = 0 then
    let st := { st with values := Assoc.erase source st.values }
    match st.sizes.lookup source with
    | some bytes =>
      bailIf (st.retained < bytes) "Pipeline retained byte accounting underflow"
      return { st with sizes := Assoc.erase source st.sizes, retained := st.retained - bytes }
    | none =>
      ensure (source ∈ st.skipped) "Pipeline retained size missing"
      return st
  else
    return st

/-- `consume_references`. -/
def consumeReferences : RunState → List String → Result RunState
  | st, [] => .ok st
  | st, source :: sources => do
    let st ← consumeReference st source
    consumeReferences st sources

/-- `observe` and, for a finite definition, the checkpoint it writes. -/
def observe (d : Definition) (written : Bool) : Result Unit :=
  match d with
  | .finite _ => ensure written "Pipeline observation was not recorded"
  | .conditional _ => .ok ()

/-- How a turn of the loop ends: with the report, or with the state the next turn
starts from. The output is what the stage returned, when it ran. -/
inductive Turn where
  | finished (data : Json) (output : Json)
  | ran (st : RunState) (output : Json)
  | skipped (st : RunState)

/-- The outcome recorded for a stage that is not run. -/
def skipOutcome (step : PipelineStep) : Decision → Option StepOutcome
  | .run _ => none
  | .skipCondition =>
    some ⟨step.id, .skippedCondition, some false, none⟩
  | .skipDependency source matched =>
    some ⟨step.id, .skippedDependency, matched, some source⟩

/-- `outcomes.push(..)` for a stage that ran; a finite definition keeps none. -/
def pushOutcome (d : Definition) (st : RunState) (step : PipelineStep) (state : StepState)
    (matched : Option Bool) : RunState :=
  match d with
  | .finite _ => st
  | .conditional _ =>
    { st with outcomes := st.outcomes ++
        [⟨step.id, state, matched, none⟩] }

/-- The adapter alias of a model step. -/
def modelAlias (step : PipelineStep) (params : Json) : Json :=
  match step.modelId with
  | some model =>
    (params.set "model" (.str model)).set "backend" (Json.ofOption .str step.backend)
  | none => params

/-- A stage that runs, from resolving its data to what the adapter returned and
the bytes of it. -/
def runStage (d : Definition) (g : Stage) (st : RunState) (step : PipelineStep) :
    Result (RunState × Json × Nat) := do
  let _ ← step.boundParams
  ensure g.operation "Operation is not allowed by the local policy"
  let params ← step.resolveWithLimit (fun id => st.values.lookup id) d.graph.maxRetainedBytes
  let _ ← (modelAlias step params).encodedBytes d.graph.maxRetainedBytes
  let st ← consumeReferences st (d.referenceSources step)
  observe d g.starting
  ensure g.beforeDeadline "Pipeline parent deadline expired before stage"
  let output ← context g.output "execution failed"
  let bytes ← output.encodedBytes d.graph.maxRetainedBytes
  return (st, output, bytes)

/-- Keep an output a later input still needs, inside the aggregate budget. -/
def retainOutput (d : Definition) (st : RunState) (step : PipelineStep) (output : Json)
    (bytes : Nat) : Result RunState := do
  let uses ← context (st.references.lookup step.id) "Pipeline reference accounting missing"
  if uses > 0 then
    bailIf (st.retained + bytes > d.graph.maxRetainedBytes)
      "Aggregate retained pipeline output exceeds its budget"
    return { st with
      retained := st.retained + bytes
      sizes := Assoc.set step.id bytes st.sizes
      values := Assoc.set step.id output st.values }
  else
    return st

/-- What the loop does with the output of a stage: stop at a known unsuccessful
exit or at the last stage, else keep the output while a later input needs it. -/
def settleStage (d : Definition) (g : Stage) (index : Nat) (step : PipelineStep)
    (matched : Option Bool) (st : RunState) (output : Json) (bytes : Nat) : Result Turn := do
  if step.isProcess ∧ reportsFailure output then
    let st := pushOutcome d st step .failed matched
    observe d g.observed
    return .finished (d.result index true output st.outcomes) output
  let st := pushOutcome d st step .completed matched
  if index + 1 = d.graph.steps.length then
    observe d g.observed
    return .finished (d.result (index + 1) false output st.outcomes) output
  let st ← retainOutput d st step output bytes
  observe d g.observed
  return .ran st output

/-- One turn of the loop of `execute`. -/
def stageStep (d : Definition) (g : Stage) (index : Nat) (st : RunState) (step : PipelineStep) :
    Result Turn := do
  ensure g.policy "Grant policy no longer allows execution"
  match ← d.decision step st.values st.skipped with
  | .run matched => do
    let (st, output, bytes) ← runStage d g st step
    settleStage d g index step matched st output bytes
  | decision => do
    let st := { st with
      skipped := step.id :: st.skipped
      outcomes := st.outcomes ++ (skipOutcome step decision).toList }
    let st ← consumeReferences st (d.referenceSources step)
    return .skipped st

/-- The steps that ran, with what each returned. -/
abbrev StageLog := List (PipelineStep × Json)

/-- The loop of `execute`, from the steps not yet visited. -/
def runFrom (d : Definition) (env : Nat → Stage) :
    Nat → RunState → List PipelineStep → Result (Json × StageLog)
  | _, st, [] => do
    ensure (d.isConditional = true ∧ st.outcomes.length = d.graph.steps.length)
      "Pipeline ended without a final result"
    return (d.result d.graph.steps.length false .null st.outcomes, [])
  | index, st, step :: steps => do
    match ← stageStep d (env index) index st step with
    | .finished data output => return (data, [(step, output)])
    | .ran st output => do
      let (data, log) ← runFrom d env (index + 1) st steps
      return (data, (step, output) :: log)
    | .skipped st => runFrom d env (index + 1) st steps

variable [PeerAdmission]

/-- `execute` with the log of the stages that ran. -/
def executeLogged (admitted : Bool) (g : ExecutionGrant) (env : Nat → Stage) :
    Result (Json × StageLog) := do
  g.validate
  ensure admitted "Local admission refused the grant"
  let d ← Definition.fromGrant g
  let references ← d.referenceCounts
  runFrom d env 0
    { references, values := [], sizes := [], retained := 0, skipped := [], outcomes := [] }
    d.graph.steps

/-- `pipeline_runtime::execute`. -/
def execute (admitted : Bool) (g : ExecutionGrant) (env : Nat → Stage) : Result Json := do
  return (← executeLogged admitted g env).1

end

end Eef.Node
