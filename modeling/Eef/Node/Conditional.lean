import Eef.Node.Pipeline

/-!
# Conditional pipelines: definition, decisions and evidence

`conditional_pipeline.rs`. A conditional pipeline is a finite graph with a guard
on some of its steps. Three functions of the source are embedded in full:

* `ConditionalPipeline.decision` — what the runtime does at one step, given the
  values still held and the steps skipped so far;
* `conditionalResult` — the report the runtime publishes;
* `ConditionalPipeline.confirmedResult` — the checker that accepts or refuses a
  report, a second implementation of the same rules.

`matches` reads data only; a guard over missing or wrongly typed data fails the
run, it is not false.
-/

namespace Eef.Node

open Eef.Lib

/-- `RESULT_METADATA_RESERVATION`. -/
def resultMetadataReservation : Nat := 4096

/-- `Operator`. -/
inductive Operator where
  | equal
  | greaterThan
  | lessThan
  deriving DecidableEq, Repr

/-- `Condition`. -/
structure Condition where
  sourceStep : String
  pointer : String
  operator : Operator
  expected : Json
  deriving DecidableEq, Repr

/-- `ConditionalPipeline`; `conditions` maps a step to its guard. -/
structure ConditionalPipeline where
  schemaVersion : Nat
  graph : FinitePipeline
  conditions : List (String × Condition)
  deriving DecidableEq, Repr

/-- `Decision`. -/
inductive Decision where
  | run (conditionMatched : Option Bool)
  | skipCondition
  | skipDependency (sourceStep : String) (conditionMatched : Option Bool)
  deriving DecidableEq, Repr

/-- `StepState`. -/
inductive StepState where
  | completed
  | skippedCondition
  | skippedDependency
  | failed
  deriving DecidableEq, Repr

/-- `StepOutcome`. -/
structure StepOutcome where
  id : String
  state : StepState
  conditionMatched : Option Bool
  skippedDependency : Option String
  deriving DecidableEq, Repr

/-- `ConditionalResult`. -/
structure ConditionalResult where
  schemaVersion : Nat
  reportType : String
  success : Bool
  outcomes : List StepOutcome
  output : Json
  deriving DecidableEq, Repr

/-! ## Encoding and decoding -/

def Operator.name : Operator → String
  | .equal => "equal"
  | .greaterThan => "greater_than"
  | .lessThan => "less_than"

def Operator.fromJson (j : Json) : Option Operator :=
  match j.asVariant with
  | some "equal" => some .equal
  | some "greater_than" => some .greaterThan
  | some "less_than" => some .lessThan
  | _ => none

def Condition.toJson (c : Condition) : Json :=
  .obj [("source_step", .str c.sourceStep), ("pointer", .str c.pointer),
    ("operator", .str c.operator.name), ("expected", c.expected)]

def Condition.fromJson (j : Json) : Option Condition := do
  let fs ← j.struct ["source_step", "pointer", "operator", "expected"] 4
  let sourceStep ← Json.field fs "source_step" Json.asStr
  let pointer ← Json.field fs "pointer" Json.asStr
  let operator ← Json.field fs "operator" Operator.fromJson
  let expected ← Json.field fs "expected" some
  return { sourceStep, pointer, operator, expected }

/-- A `BTreeMap<String, Condition>` is an object. -/
def conditionsFromJson : Json → Option (List (String × Condition))
  | .obj fields => fields.mapM fun f => (Condition.fromJson f.2).map (f.1, ·)
  | _ => none

def ConditionalPipeline.toJson (p : ConditionalPipeline) : Json :=
  .obj [("schema_version", .nat p.schemaVersion), ("graph", p.graph.toJson),
    ("conditions", .obj (p.conditions.map fun c => (c.1, c.2.toJson)))]

def ConditionalPipeline.fromJson (j : Json) : Option ConditionalPipeline := do
  let fs ← j.struct ["schema_version", "graph", "conditions"] 3
  let schemaVersion ← Json.field fs "schema_version" (Json.asUInt 32)
  let graph ← Json.field fs "graph" FinitePipeline.fromJson
  let conditions ← Json.field fs "conditions" conditionsFromJson
  return { schemaVersion, graph, conditions }

def StepState.name : StepState → String
  | .completed => "completed"
  | .skippedCondition => "skipped_condition"
  | .skippedDependency => "skipped_dependency"
  | .failed => "failed"

def StepState.fromJson (j : Json) : Option StepState :=
  match j.asVariant with
  | some "completed" => some .completed
  | some "skipped_condition" => some .skippedCondition
  | some "skipped_dependency" => some .skippedDependency
  | some "failed" => some .failed
  | _ => none

def StepOutcome.toJson (o : StepOutcome) : Json :=
  .obj [("id", .str o.id), ("state", .str o.state.name),
    ("condition_matched", Json.ofOption .bool o.conditionMatched),
    ("skipped_dependency", Json.ofOption .str o.skippedDependency)]

def StepOutcome.fromJson (j : Json) : Option StepOutcome := do
  let fs ← j.struct ["id", "state", "condition_matched", "skipped_dependency"] 4
  let id ← Json.field fs "id" Json.asStr
  let state ← Json.field fs "state" StepState.fromJson
  let conditionMatched ← Json.optField fs "condition_matched" Json.asBool
  let skippedDependency ← Json.optField fs "skipped_dependency" Json.asStr
  return { id, state, conditionMatched, skippedDependency }

def ConditionalResult.toJson (r : ConditionalResult) : Json :=
  .obj [("schema_version", .nat r.schemaVersion), ("report_type", .str r.reportType),
    ("success", .bool r.success), ("outcomes", .arr (r.outcomes.map StepOutcome.toJson)),
    ("output", r.output)]

def ConditionalResult.fromJson (j : Json) : Option ConditionalResult := do
  let fs ← j.struct ["schema_version", "report_type", "success", "outcomes", "output"] 5
  let schemaVersion ← Json.field fs "schema_version" (Json.asUInt 32)
  let reportType ← Json.field fs "report_type" Json.asStr
  let success ← Json.field fs "success" Json.asBool
  let outcomes ← Json.field fs "outcomes" (Json.asList StepOutcome.fromJson)
  let output ← Json.field fs "output" some
  return { schemaVersion, reportType, success, outcomes, output }

theorem StepState.fromJson_name (s : StepState) : StepState.fromJson (.str s.name) = some s := by
  cases s <;> rfl

theorem StepOutcome.fromJson_toJson (o : StepOutcome) : StepOutcome.fromJson o.toJson = some o := by
  rw [StepOutcome.toJson, StepOutcome.fromJson]
  refine Eq.trans (Json.struct_bind ?_ ?_) ?_
  · rfl
  · decide
  refine (Json.field_bind (a := o.id) rfl rfl).trans ?_
  refine (Json.field_bind rfl (StepState.fromJson_name o.state)).trans ?_
  refine (Json.optField_bind (Json.optField_bool (o := o.conditionMatched) rfl)).trans ?_
  refine (Json.optField_bind (Json.optField_str (o := o.skippedDependency) rfl)).trans ?_
  rfl

theorem ConditionalResult.fromJson_toJson {r : ConditionalResult} (h : r.schemaVersion = 1) :
    ConditionalResult.fromJson r.toJson = some r := by
  have hv : r.schemaVersion < 2 ^ 32 := by omega
  rw [ConditionalResult.toJson, ConditionalResult.fromJson]
  refine Eq.trans (Json.struct_bind ?_ ?_) ?_
  · rfl
  · decide
  refine (Json.field_bind rfl (Json.asUInt_nat hv)).trans ?_
  refine (Json.field_bind (a := r.reportType) rfl rfl).trans ?_
  refine (Json.field_bind (a := r.success) rfl rfl).trans ?_
  refine (Json.field_bind rfl (Json.asList_map StepOutcome.fromJson_toJson r.outcomes)).trans ?_
  refine (Json.field_bind (a := r.output) rfl rfl).trans ?_
  rfl

/-- `conditional_pipeline::result`. -/
def conditionalResult (outcomes : List StepOutcome) (output : Json) (success : Bool) : Json :=
  ConditionalResult.toJson
    { schemaVersion := 1, reportType := "conditional_pipeline_result", success, outcomes, output }

/-! ## Conditions -/

section
variable [F64]

/-- `n.is_finite()`: the exponent bits are not all set. -/
def isFinite (bits : BitVec 64) : Bool := (bits >>> 52) &&& 0x7ff#64 != 0x7ff#64

/-- `n.abs()`. -/
def absBits (bits : BitVec 64) : BitVec 64 := bits &&& 0x7fffffffffffffff#64

/-- An integer spelled as one, past the range doubles represent exactly. -/
def losesPrecision (n : Number) : Bool :=
  match n with
  | .float _ => false
  | _ => F64.cmp (absBits (Json.Number.asF64 n)) (F64.ofInt 9007199254740992) == some .gt

/-- `conditional_pipeline::number_ordering`. -/
def numberOrdering (left right : Number) : Result Ordering :=
  match Json.Number.asI64 left, Json.Number.asI64 right with
  | some a, some b => .ok (compare a b)
  | li, ri =>
    match Json.Number.asU64 left, Json.Number.asU64 right with
    | some a, some b => .ok (compare a b)
    | lu, ru =>
      if li.any (· < 0) && ru.isSome then .ok .lt
      else if ri.any (· < 0) && lu.isSome then .ok .gt
      else do
        let a := Json.Number.asF64 left
        let b := Json.Number.asF64 right
        ensure (isFinite a ∧ isFinite b) "Invalid numeric pipeline condition"
        bailIf (losesPrecision left ∨ losesPrecision right)
          "Mixed numeric pipeline condition would lose integer precision"
        context (F64.cmp a b) "Unordered numeric pipeline condition"

/-- `Condition::validate`. -/
def Condition.validate (c : Condition) : Result Unit := do
  stepId c.sourceStep
  bailIf (validPointer c.pointer = false ∨ c.expected.size > 512
    ∨ ¬(c.expected.asBool.isSome ∨ c.expected.isNumber ∨ c.expected.asStr.isSome)
    ∨ c.expected.asStr.any (·.utf8ByteSize > 256)
    ∨ (c.operator ≠ .equal ∧ c.expected.isNumber = false))
    "Invalid bounded scalar pipeline condition"
  match c.expected with
  | .num n => ensure (isFinite (Json.Number.asF64 n)) "Pipeline condition requires a finite number"
  | _ => pure ()

/-- The comparison of `Condition::matches`, before its operator is applied. -/
def scalarOrdering (value expected : Json) : Result Ordering :=
  match value, expected with
  | .num a, .num b => numberOrdering a b
  | .bool a, .bool b => .ok (compare a b)
  | .str a, .str b =>
    if a.utf8ByteSize > 256 then .error "Conditional pipeline scalar exceeds its bound"
    else .ok (compare a b)
  | _, _ => .error "Conditional pipeline data has the wrong scalar type"

/-- `Condition::matches`. -/
def Condition.matches (c : Condition) (source : Json) : Result Bool := do
  c.validate
  let value ← context (source.pointer c.pointer) "Conditional pipeline data is unavailable"
  let ordering ← scalarOrdering value c.expected
  return match c.operator with
    | .equal => ordering == .eq
    | .greaterThan => ordering == .gt
    | .lessThan => ordering == .lt

/-! ## The definition -/

/-- The position of a step identifier. -/
def stepIndex (steps : List PipelineStep) (id : String) : Option Nat :=
  steps.findIdx? (·.id == id)

/-- One turn of the condition loop of `validate_for_executor`. -/
def validateCondition (steps : List PipelineStep) (entry : String × Condition) : Result Unit := do
  stepId entry.1
  entry.2.validate
  let target ← context (stepIndex steps entry.1) "Conditional pipeline target is unavailable"
  let source ← context (stepIndex steps entry.2.sourceStep)
    "Conditional pipeline source is unavailable"
  bailIf (target ≤ source)
    "Pipeline conditions require an earlier result, not a cycle or forward reference"

/-- `ConditionalPipeline::validate_for_executor`. -/
def ConditionalPipeline.validateForExecutor (p : ConditionalPipeline) (executor : Option String) :
    Result Unit := do
  p.graph.validateForExecutor executor
  bailIf (p.schemaVersion ≠ 1 ∨ p.conditions = [] ∨ p.conditions.length > p.graph.steps.length
    ∨ p.toJson.size > maxDefinitionBytes) "Unsupported or unbounded conditional pipeline definition"
  each (validateCondition p.graph.steps) p.conditions

/-- `conditional_pipeline::CAPABILITY`. -/
def conditionalCapability : String := "pipeline.when"

/-- `ConditionalPipeline::from_grant`. -/
def ConditionalPipeline.fromGrant (g : ExecutionGrant) : Result ConditionalPipeline := do
  bailIf (g.capability ≠ conditionalCapability ∨ g.action ≠ "run" ∨ g.resourceId.isSome
    ∨ g.modelId.isSome ∨ g.backend.isSome ∨ g.modelRole.isSome ∨ g.params.keys ≠ ["pipeline"])
    "Conditional pipeline requires one exact definition and no substituted root bindings"
  let definition ← context (ConditionalPipeline.fromJson (g.params.index "pipeline"))
    "Conditional pipeline definition cannot be decoded"
  definition.validateForExecutor (some g.executorNode)
  bailIf (definition.graph.maxRetainedBytes + resultMetadataReservation > g.limits.maxResultBytes)
    "Conditional pipeline data and outcome metadata exceed the parent result budget"
  return definition

/-- An accepted conditional definition: its graph, and guards that name a valid
earlier step. -/
structure ConditionalPipeline.Valid (p : ConditionalPipeline) : Prop where
  graph : p.graph.Valid
  sources : ∀ e ∈ p.conditions, validStepId e.2.sourceStep = true

theorem ConditionalPipeline.validateForExecutor_valid {p : ConditionalPipeline}
    {executor : Option String} (h : p.validateForExecutor executor = .ok ()) : p.Valid := by
  simp only [ConditionalPipeline.validateForExecutor, bind_ok, each_ok] at h
  obtain ⟨_, hgraph, _, -, hconds⟩ := h
  refine ⟨FinitePipeline.validateForExecutor_valid hgraph, ?_⟩
  intro e he
  have hc := hconds e he
  simp only [validateCondition, Condition.validate, bind_ok, stepId, ensure_ok] at hc
  obtain ⟨_, -, _, ⟨_, hsource, -⟩, -⟩ := hc
  exact hsource

theorem ConditionalPipeline.fromGrant_valid {g : ExecutionGrant} {p : ConditionalPipeline}
    (h : ConditionalPipeline.fromGrant g = .ok p) :
    p.Valid ∧ p.graph.maxRetainedBytes + resultMetadataReservation ≤ g.limits.maxResultBytes := by
  simp only [ConditionalPipeline.fromGrant, bind_ok, bailIf_ok, context_ok, pure_ok] at h
  obtain ⟨_, -, q, -, _, hval, _, hlim, rfl⟩ := h
  exact ⟨ConditionalPipeline.validateForExecutor_valid hval, by omega⟩

/-- The guard of a step, `definition.conditions.get(&step.id)`. -/
def ConditionalPipeline.guard (p : ConditionalPipeline) (step : PipelineStep) : Option Condition :=
  p.conditions.lookup step.id

/-- The first skipped input of a step. -/
def firstSkipped (step : PipelineStep) (skipped : List String) : Option String :=
  (step.inputs.find? fun i => skipped.contains i.sourceStep).map (·.sourceStep)

/-- The input loop of `ConditionalPipeline::decision`, once the guard holds. -/
def dependencyDecision (step : PipelineStep) (guard : Option Condition) (skipped : List String) :
    Decision :=
  match firstSkipped step skipped with
  | some source => .skipDependency source (guard.map fun _ => true)
  | none => .run (guard.map fun _ => true)

/-- `ConditionalPipeline::decision` at a step of the graph; `holds` answers what
`condition.matches` would on the value held for the guard's source. -/
def ConditionalPipeline.decisionWith (p : ConditionalPipeline) (step : PipelineStep)
    (holds : Condition → Result Bool) (skipped : List String) : Result Decision :=
  match p.guard step with
  | none => .ok (dependencyDecision step none skipped)
  | some c =>
    if c.sourceStep ∈ skipped then .ok (.skipDependency c.sourceStep none)
    else do
      let matched ← holds c
      return if matched then dependencyDecision step (some c) skipped else .skipCondition

/-- `ConditionalPipeline::decision`: the guard reads the value still held. -/
def ConditionalPipeline.decision (p : ConditionalPipeline) (step : PipelineStep)
    (values : List (String × Json)) (skipped : List String) : Result Decision :=
  p.decisionWith step (fun c => do
    let source ← context (values.lookup c.sourceStep) "Conditional source result unavailable"
    c.matches source) skipped

/-! ## The checker -/

/-- A `process.exec` run, the only operation with a known unsuccessful exit. -/
def PipelineStep.isProcess (s : PipelineStep) : Bool :=
  s.capability == "process.exec" && s.action == "run"

/-- `output.get("success") == Some(&Value::Bool(false))`; the same test as
`output.get("success").and_then(Value::as_bool) == Some(false)`. -/
def reportsFailure (output : Json) : Bool := output.get? "success" == some (.bool false)

/-- The guard source of a step was skipped. -/
def ConditionalPipeline.guardSkipped (p : ConditionalPipeline) (step : PipelineStep)
    (skipped : List String) : Bool :=
  (p.guard step).any fun c => skipped.contains c.sourceStep

/-- Some input of a step was skipped. -/
def inputSkipped (step : PipelineStep) (skipped : List String) : Bool :=
  step.inputs.any fun i => skipped.contains i.sourceStep

/-- One turn of the outcome loop of `confirmed_result`: the steps skipped so far,
and with this outcome. `last` says that this is the last reported outcome. -/
def checkOutcome (p : ConditionalPipeline) (r : ConditionalResult) (skipped : List String)
    (last : Bool) (step : PipelineStep) (o : StepOutcome) : Result (List String) := do
  ensure (o.id = step.id) "Conditional outcome order changed"
  let condition := p.guard step
  let guardSkipped := p.guardSkipped step skipped
  let inputSkipped := inputSkipped step skipped
  match o.state with
  | .completed => do
    bailIf (guardSkipped ∨ inputSkipped ∨ o.skippedDependency.isSome
      ∨ o.conditionMatched ≠ condition.map fun _ => true)
      "Conditional operation cannot run with skipped or unconfirmed inputs"
    return skipped
  | .failed => do
    bailIf (guardSkipped ∨ inputSkipped ∨ o.skippedDependency.isSome
      ∨ o.conditionMatched ≠ condition.map fun _ => true)
      "Conditional operation cannot run with skipped or unconfirmed inputs"
    bailIf (r.success ∨ last = false ∨ step.isProcess = false ∨ reportsFailure r.output = false)
      "Conditional known failure lacks exact native-exit evidence"
    return skipped
  | .skippedCondition => do
    bailIf (condition = none ∨ guardSkipped ∨ o.conditionMatched ≠ some false
      ∨ o.skippedDependency.isSome) "Conditional skip lacks a completed guard source"
    return step.id :: skipped
  | .skippedDependency => do
    let source ← context o.skippedDependency "Skipped dependency missing"
    ensure (if guardSkipped then condition.any (·.sourceStep == source) ∧ o.conditionMatched = none
      else (step.inputs.any fun i => i.sourceStep == source && skipped.contains source)
        ∧ o.conditionMatched = condition.map fun _ => true)
      "Conditional dependency skip is not supported by prior outcomes"
    return step.id :: skipped

/-- The outcome loop of `confirmed_result`, from the steps not yet compared. -/
def checkOutcomes (p : ConditionalPipeline) (r : ConditionalResult) :
    List String → List PipelineStep → List StepOutcome → Result Unit
  | _, _, [] => .ok ()
  | _, [], _ :: _ => .error "Conditional completion does not match its definition"
  | skipped, step :: steps, o :: os => do
    let skipped ← checkOutcome p r skipped os.isEmpty step o
    checkOutcomes p r skipped steps os

/-- `conditional_pipeline::confirmed_result`, after the definition is decoded. -/
def ConditionalPipeline.confirmedResult (p : ConditionalPipeline) (data : Json) : Result Bool := do
  let r ← context (ConditionalResult.fromJson data) "Conditional completion cannot be decoded"
  bailIf (r.schemaVersion ≠ 1 ∨ r.reportType ≠ "conditional_pipeline_result" ∨ r.outcomes = []
    ∨ r.outcomes.length > p.graph.steps.length
    ∨ (r.success = true ∧ r.outcomes.length ≠ p.graph.steps.length))
    "Conditional completion does not match its definition"
  let _ ← r.output.encodedBytes p.graph.maxRetainedBytes
  checkOutcomes p r [] p.graph.steps r.outcomes
  let last ← context r.outcomes.getLast? "Conditional completion does not match its definition"
  bailIf (r.success = false ∧ last.state ≠ .failed)
    "Conditional failure is not a known unsuccessful stage"
  bailIf ((last.state = .skippedCondition ∨ last.state = .skippedDependency)
    ∧ r.output.isNull = false) "A skipped final stage cannot publish another stage's output"
  let lastStep ← context p.graph.steps[r.outcomes.length - 1]?
    "Conditional completion does not match its definition"
  bailIf (r.success = true ∧ last.state = .completed ∧ lastStep.isProcess
    ∧ reportsFailure r.output) "An unsuccessful final native stage cannot claim success"
  return r.success

end

end Eef.Node
