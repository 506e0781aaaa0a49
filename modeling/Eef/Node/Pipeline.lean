import Eef.Node.Operation

/-!
# Finite pipelines: definition and validation

`pipeline.rs`. A finite pipeline is an ordered list of at most sixteen steps;
a step's inputs may only name results of earlier steps. `validate_ok_iff` states
what an accepted definition guarantees about its graph, in the two forms the
results above need: the identifiers are distinct, short and ASCII, and every
input of step `i` names a step before `i`.
-/

namespace Eef.Node

open Eef.Lib

/-- `MAX_STEPS`. -/
def maxSteps : Nat := 16

/-- `MAX_DEFINITION_BYTES`. -/
def maxDefinitionBytes : Nat := 64 * 1024

/-- `MAX_RETAINED_BYTES`. -/
def maxRetainedBytes : Nat := 1024 * 1024

/-- `DataInput`: an RFC 6901 pointer into an earlier result. -/
structure DataInput where
  parameter : String
  sourceStep : String
  pointer : String
  wrapArray : Bool
  deriving DecidableEq, Repr

/-- `PipelineStep`. -/
structure PipelineStep where
  id : String
  capability : String
  action : String
  params : Json
  resourceId : Option String
  modelId : Option String
  backend : Option String
  modelRole : Option String
  inputs : List DataInput
  deriving DecidableEq, Repr

/-- `FinitePipeline`. -/
structure FinitePipeline where
  schemaVersion : Nat
  steps : List PipelineStep
  maxRetainedBytes : Nat
  deriving DecidableEq, Repr

/-! ## Encoding and decoding -/

def DataInput.toJson (i : DataInput) : Json :=
  .obj [("parameter", .str i.parameter), ("source_step", .str i.sourceStep),
    ("pointer", .str i.pointer), ("wrap_array", .bool i.wrapArray)]

def PipelineStep.toJson (s : PipelineStep) : Json :=
  .obj [("id", .str s.id), ("capability", .str s.capability), ("action", .str s.action),
    ("params", s.params), ("resource_id", Json.ofOption .str s.resourceId),
    ("model_id", Json.ofOption .str s.modelId), ("backend", Json.ofOption .str s.backend),
    ("model_role", Json.ofOption .str s.modelRole),
    ("inputs", .arr (s.inputs.map DataInput.toJson))]

def FinitePipeline.toJson (p : FinitePipeline) : Json :=
  .obj [("schema_version", .nat p.schemaVersion), ("steps", .arr (p.steps.map PipelineStep.toJson)),
    ("max_retained_bytes", .nat p.maxRetainedBytes)]

def DataInput.fromJson (j : Json) : Option DataInput := do
  let fs ← j.struct ["parameter", "source_step", "pointer", "wrap_array"] 3
  let parameter ← Json.field fs "parameter" Json.asStr
  let sourceStep ← Json.field fs "source_step" Json.asStr
  let pointer ← Json.field fs "pointer" Json.asStr
  let wrapArray ← Json.defaultField fs "wrap_array" Json.asBool false
  return { parameter, sourceStep, pointer, wrapArray }

def PipelineStep.fromJson (j : Json) : Option PipelineStep := do
  let fs ← j.struct ["id", "capability", "action", "params", "resource_id", "model_id", "backend",
    "model_role", "inputs"] 4
  let id ← Json.field fs "id" Json.asStr
  let capability ← Json.field fs "capability" Json.asStr
  let action ← Json.field fs "action" Json.asStr
  let params ← Json.field fs "params" some
  let resourceId ← Json.optField fs "resource_id" Json.asStr
  let modelId ← Json.optField fs "model_id" Json.asStr
  let backend ← Json.optField fs "backend" Json.asStr
  let modelRole ← Json.optField fs "model_role" Json.asStr
  let inputs ← Json.defaultField fs "inputs" (Json.asList DataInput.fromJson) []
  return { id, capability, action, params, resourceId, modelId, backend, modelRole, inputs }

def FinitePipeline.fromJson (j : Json) : Option FinitePipeline := do
  let fs ← j.struct ["schema_version", "steps", "max_retained_bytes"] 3
  let schemaVersion ← Json.field fs "schema_version" (Json.asUInt 32)
  let steps ← Json.field fs "steps" (Json.asList PipelineStep.fromJson)
  let maxRetainedBytes ← Json.field fs "max_retained_bytes" (Json.asUInt 64)
  return { schemaVersion, steps, maxRetainedBytes }

/-! ## Validation -/

/-- `pipeline::step_id`. -/
def validStepId (id : String) : Bool :=
  id != "" && id.utf8ByteSize ≤ 32 && id.toList.all isIdentifierChar

/-- `pipeline::step_id`, as the fallible check. -/
def stepId (id : String) : Result Unit :=
  ensure (validStepId id) "Pipeline step ID must be a bounded ASCII identifier"

/-- The tilde escapes of a pointer are `~0` and `~1`. -/
def tildesEscaped : List Char → Bool
  | [] => true
  | ['~'] => false
  | '~' :: c :: cs => (c == '0' || c == '1') && tildesEscaped cs
  | _ :: cs => tildesEscaped cs

/-- `pipeline::valid_pointer`. -/
def validPointer (pointer : String) : Bool :=
  pointer.utf8ByteSize ≤ 256 && !(pointer.toList.any isControl)
    && (pointer == "" || pointer.toList.head? == some '/') && tildesEscaped pointer.toList

section
variable [F64]

/-- One identity of `PipelineStep::bound_params`: a literal must not differ. -/
def bindIdentity (key : String) (value : Option String) (fields : List (String × Json)) :
    Result (List (String × Json)) :=
  match value with
  | none => .ok fields
  | some v =>
    if (fields.lookup key).any (· ≠ .str v) then
      .error "Conflicting pipeline operation identity"
    else .ok (Assoc.set key (.str v) fields)

/-- `PipelineStep::bound_params`. -/
def PipelineStep.boundParams (s : PipelineStep) : Result Json :=
  match s.params with
  | .obj fields => do
    bailIf ((Json.obj fields).size > maxDefinitionBytes)
      "Invalid or oversized pipeline literal parameters"
    let fields ← bindIdentity "resource_id" s.resourceId fields
    let fields ← bindIdentity "model_id" s.modelId fields
    let fields ← bindIdentity "backend" s.backend fields
    return .obj fields
  | _ => .error "Invalid or oversized pipeline literal parameters"

/-- `PipelineStep::operation`. -/
def PipelineStep.operation (s : PipelineStep) (params : Json) : OperationShape where
  capability := s.capability
  action := s.action
  params := params
  resourceId := s.resourceId
  modelId := s.modelId
  backend := s.backend
  modelRole := s.modelRole

/-- The input loop of `PipelineStep::validate`; `targets` are the parameters bound
so far. -/
def validateInputs (s : PipelineStep) : List String → List DataInput → Result Unit
  | _, [] => .ok ()
  | targets, i :: is => do
    stepId i.sourceStep
    bailIf (dataParameter s.capability s.action i.parameter = false ∨ i.parameter ∈ targets
      ∨ (s.params.get? i.parameter).isSome ∨ (i.wrapArray = true ∧ i.parameter ≠ "images")
      ∨ validPointer i.pointer = false)
      "Pipeline inputs can bind distinct data parameters only, without literal or authority overrides"
    validateInputs s (i.parameter :: targets) is

/-- `PipelineStep::validate`. -/
def PipelineStep.validate (s : PipelineStep) (executor : Option String) : Result Unit := do
  stepId s.id
  let params ← s.boundParams
  (s.operation params).validate executor
  let keys ← parameterKeys s.capability s.action
  bailIf (isModel s.capability = false
    ∧ ((s.params.get? "model_id").isSome ∨ (s.params.get? "backend").isSome))
    "Non-model pipeline step cannot claim a model identity"
  bailIf (s.params.keys.any fun k =>
    !(keys.contains k) && !(["resource_id", "model_id", "backend"].contains k))
    "Unsupported pipeline step parameter"
  bailIf (s.inputs.length > 8) "Too many pipeline input bindings"
  validateInputs s [] s.inputs
  if isModel s.capability then
    let prompt := (s.params.get? "prompt").isSome || s.inputs.any (·.parameter == "prompt")
    bailIf (prompt = (s.params.get? "messages").isSome)
      "Pipeline model step needs exactly one prompt or messages source"
    validateModelLiterals s.params (s.capability == "vlm.analyze")
      (s.inputs.any (·.parameter == "images"))

/-- The graph loop of `FinitePipeline::validate_for_executor`: `previous` are the
identifiers of the steps before. -/
def validateSteps (executor : Option String) : List String → List PipelineStep → Result Unit
  | _, [] => .ok ()
  | previous, s :: ss => do
    s.validate executor
    bailIf (s.id ∈ previous) "Duplicate pipeline step ID"
    bailIf (s.inputs.any fun i => !(previous.contains i.sourceStep))
      "Pipeline input must refer to a completed earlier step; no cycles or forward references"
    validateSteps executor (s.id :: previous) ss

/-- `if let Some(node) = executor { validate_remote_node_id(node)? }`. -/
def validateExecutor : Option String → Result Unit
  | some node => validateRemoteNodeId node
  | none => .ok ()

/-- `FinitePipeline::validate_for_executor`. -/
def FinitePipeline.validateForExecutor (p : FinitePipeline) (executor : Option String) :
    Result Unit := do
  validateExecutor executor
  bailIf (p.schemaVersion ≠ 1 ∨ p.steps = [] ∨ p.steps.length > maxSteps
    ∨ ¬(1024 ≤ p.maxRetainedBytes ∧ p.maxRetainedBytes ≤ Eef.Node.maxRetainedBytes)
    ∨ p.toJson.size > maxDefinitionBytes) "Unsupported or unbounded finite pipeline definition"
  validateSteps executor [] p.steps

/-- `FinitePipeline::from_grant`. -/
def FinitePipeline.fromGrant (g : ExecutionGrant) : Result FinitePipeline := do
  bailIf (g.capability ≠ "pipeline.run" ∨ g.action ≠ "run" ∨ g.resourceId.isSome ∨ g.modelId.isSome
    ∨ g.backend.isSome ∨ g.modelRole.isSome ∨ g.params.keys ≠ ["pipeline"])
    "Pipeline requires one exact definition and no substituted top-level bindings"
  let definition ← context (FinitePipeline.fromJson (g.params.index "pipeline"))
    "Pipeline definition cannot be decoded"
  definition.validateForExecutor (some g.executorNode)
  bailIf (definition.maxRetainedBytes > g.limits.maxResultBytes)
    "Pipeline data limit exceeds the parent grant/owner result budget"
  return definition

/-! ## What an accepted graph guarantees -/

/-- The graph facts of an accepted definition: short ASCII identifiers, all
distinct, and inputs that only look back. -/
structure GraphWF (steps : List PipelineStep) : Prop where
  ids : ∀ s ∈ steps, validStepId s.id = true
  nodup : (steps.map PipelineStep.id).Nodup
  back : ∀ i (h : i < steps.length), ∀ inp ∈ (steps[i]).inputs,
    inp.sourceStep ∈ (steps.take i).map PipelineStep.id

theorem PipelineStep.validate_id {s : PipelineStep} {executor : Option String}
    (h : s.validate executor = .ok ()) : validStepId s.id = true := by
  simp only [PipelineStep.validate, bind_ok, stepId, ensure_ok] at h
  obtain ⟨_, hid, -⟩ := h
  exact hid

omit [F64] in
/-- An input's source is one of the graph's own identifiers. -/
theorem GraphWF.source {steps : List PipelineStep} (h : GraphWF steps) {s : PipelineStep}
    (hs : s ∈ steps) {inp : DataInput} (hi : inp ∈ s.inputs) :
    validStepId inp.sourceStep = true := by
  obtain ⟨i, hi', rfl⟩ := List.mem_iff_getElem.mp hs
  obtain ⟨t, ht, hid⟩ := List.mem_map.mp (h.back i hi' inp hi)
  exact hid ▸ h.ids t (List.mem_of_mem_take ht)

/-- What the graph loop establishes, relative to the identifiers already seen. -/
theorem validateSteps_spec {executor : Option String} :
    ∀ {steps : List PipelineStep} {previous : List String},
      validateSteps executor previous steps = .ok () →
      (∀ s ∈ steps, s.validate executor = .ok ()) ∧
      (steps.map PipelineStep.id).Nodup ∧
      (∀ s ∈ steps, s.id ∉ previous) ∧
      (∀ i (h : i < steps.length), ∀ inp ∈ (steps[i]).inputs,
        inp.sourceStep ∈ previous ∨ inp.sourceStep ∈ (steps.take i).map PipelineStep.id)
  | [], _, _ => by simp
  | s :: ss, previous, h => by
    simp only [validateSteps, bind_ok, bailIf_ok] at h
    obtain ⟨_, hs, _, hdup, _, hin, hrest⟩ := h
    obtain ⟨hval, hnd, hfresh, hback⟩ := validateSteps_spec hrest
    refine ⟨?_, ?_, ?_, ?_⟩
    · intro t ht
      rcases List.mem_cons.mp ht with rfl | ht
      · exact hs
      · exact hval t ht
    · rw [List.map_cons, List.nodup_cons]
      refine ⟨?_, hnd⟩
      intro hmem
      obtain ⟨t, ht, hid⟩ := List.mem_map.mp hmem
      exact hfresh t ht (hid ▸ List.mem_cons_self ..)
    · intro t ht
      rcases List.mem_cons.mp ht with rfl | ht
      · exact hdup
      · intro hp
        exact hfresh t ht (List.mem_cons_of_mem _ hp)
    · intro i hi inp hinp
      cases i with
      | zero =>
        left
        simp only [List.any_eq_true, Bool.not_eq_true', List.contains_eq_mem, decide_eq_false_iff_not,
          not_exists, not_and, not_not] at hin
        exact hin inp hinp
      | succ i =>
        rcases hback i (by simpa using hi) inp (by simpa using hinp) with hb | hb
        · rcases List.mem_cons.mp hb with hb | hb
          · right
            rw [List.take_succ_cons, List.map_cons, hb]
            exact List.mem_cons_self ..
          · exact Or.inl hb
        · right
          rw [List.take_succ_cons, List.map_cons]
          exact List.mem_cons_of_mem _ hb

/-- An accepted definition: its bounds and its graph. -/
structure FinitePipeline.Valid (p : FinitePipeline) : Prop where
  nonempty : p.steps ≠ []
  length_le : p.steps.length ≤ maxSteps
  retained_ge : 1024 ≤ p.maxRetainedBytes
  retained_le : p.maxRetainedBytes ≤ Eef.Node.maxRetainedBytes
  graph : GraphWF p.steps

theorem FinitePipeline.validateForExecutor_valid {p : FinitePipeline} {executor : Option String}
    (h : p.validateForExecutor executor = .ok ()) : p.Valid := by
  simp only [FinitePipeline.validateForExecutor, bind_ok, bailIf_ok] at h
  obtain ⟨_, _, _, hb, hs⟩ := h
  obtain ⟨hval, hnd, -, hback⟩ := validateSteps_spec hs
  push Not at hb
  obtain ⟨-, hne, hlen, ⟨hlo, hhi⟩, -⟩ := hb
  refine ⟨hne, hlen, hlo, hhi, fun s hs' => PipelineStep.validate_id (hval s hs'), hnd, ?_⟩
  intro i hi inp hinp
  rcases hback i hi inp hinp with hb | hb
  · exact absurd hb (by simp)
  · exact hb

theorem FinitePipeline.fromGrant_valid {g : ExecutionGrant} {p : FinitePipeline}
    (h : FinitePipeline.fromGrant g = .ok p) :
    p.Valid ∧ g.capability = "pipeline.run" ∧ p.maxRetainedBytes ≤ g.limits.maxResultBytes := by
  simp only [FinitePipeline.fromGrant, bind_ok, bailIf_ok, context_ok, pure_ok] at h
  obtain ⟨_, hshape, q, _, _, hval, _, hlim, rfl⟩ := h
  refine ⟨FinitePipeline.validateForExecutor_valid hval, ?_, by omega⟩
  by_contra hc
  exact hshape (Or.inl hc)

/-! ## Resolving a step's data -/

/-- The binding loop of `PipelineStep::resolve_with_limit`. -/
def resolveInputs (results : String → Option Json) :
    Json → Nat → List DataInput → Result Json
  | params, _, [] => .ok params
  | params, remaining, i :: is => do
    let source ← context (results i.sourceStep) "Pipeline source result is unavailable"
    let value ← context (source.pointer i.pointer) "Pipeline source field is unavailable"
    bailIf (remaining < i.parameter.utf8ByteSize + 8) "Resolved pipeline input exceeds data budget"
    let budget := remaining - (i.parameter.utf8ByteSize + 8)
    let bytes ← value.encodedBytes budget
    let value := if i.wrapArray then Json.arr [value] else value
    validateDataType i.parameter value
    resolveInputs results (params.set i.parameter value) (budget - bytes) is

/-- `PipelineStep::resolve_with_limit`. -/
def PipelineStep.resolveWithLimit (s : PipelineStep) (results : String → Option Json)
    (limit : Nat) : Result Json := do
  ensure (1024 ≤ limit ∧ limit ≤ Eef.Node.maxRetainedBytes)
    "Invalid pipeline resolution data budget"
  s.validate none
  let params ← s.boundParams
  let used ← params.encodedBytes limit
  let params ← resolveInputs results params (limit - used) s.inputs
  if isModel s.capability then
    validateModelLiterals params (s.capability == "vlm.analyze") false
  return params

end

end Eef.Node
