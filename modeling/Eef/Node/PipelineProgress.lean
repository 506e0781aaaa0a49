import Eef.Node.Admission

/-!
# Pipeline observations

`pipeline_progress.rs`, less its tables: the latest durable observation of a finite
pipeline. `PipelineProgress.validate` is what every reader demands of a stored one,
`confirms` binds it to a grant, `checkpoint` makes one. `fromJson_toJson` reads a
valid observation back from its stored text.
-/

namespace Eef.Node

open Eef.Lib

/-- `MAX_CHECKPOINT_BYTES`. -/
def maxCheckpointBytes : Nat := 2048

/-- `JOURNAL_RESERVATION`. -/
def journalReservation : Nat := 4096

/-- `Phase`. -/
inductive Phase where
  | pending
  | starting
  | completed
  | failed
  deriving DecidableEq, Repr

def Phase.name : Phase → String
  | .pending => "pending"
  | .starting => "starting"
  | .completed => "completed"
  | .failed => "failed"

def Phase.fromJson (j : Json) : Option Phase :=
  match j.asVariant with
  | some "pending" => some .pending
  | some "starting" => some .starting
  | some "completed" => some .completed
  | some "failed" => some .failed
  | _ => none

theorem Phase.fromJson_name (p : Phase) : Phase.fromJson (.str p.name) = some p := by
  cases p <;> rfl

/-- `PipelineProgress`. -/
structure PipelineProgress where
  schemaVersion : Nat
  sequence : Nat
  phase : Phase
  currentStep : String
  completedSteps : Nat
  totalSteps : Nat
  retainedEncodedBytes : Nat
  resolvedEncodedBytes : Nat
  recordedAtMs : Nat
  durable : Bool
  terminationConfirmed : Bool
  deriving DecidableEq, Repr

namespace PipelineProgress

/-- `serde_json::to_string(&checkpoint)`. -/
def toJson (p : PipelineProgress) : Json :=
  .obj [("schema_version", .nat p.schemaVersion), ("sequence", .nat p.sequence),
    ("phase", .str p.phase.name), ("current_step", .str p.currentStep),
    ("completed_steps", .nat p.completedSteps), ("total_steps", .nat p.totalSteps),
    ("retained_encoded_bytes", .nat p.retainedEncodedBytes),
    ("resolved_encoded_bytes", .nat p.resolvedEncodedBytes),
    ("recorded_at_ms", .nat p.recordedAtMs), ("durable", .bool p.durable),
    ("termination_confirmed", .bool p.terminationConfirmed)]

def fromJson (j : Json) : Option PipelineProgress := do
  let fs ← j.struct ["schema_version", "sequence", "phase", "current_step", "completed_steps",
    "total_steps", "retained_encoded_bytes", "resolved_encoded_bytes", "recorded_at_ms", "durable",
    "termination_confirmed"] 11
  let schemaVersion ← Json.field fs "schema_version" (Json.asUInt 32)
  let sequence ← Json.field fs "sequence" (Json.asUInt 64)
  let phase ← Json.field fs "phase" Phase.fromJson
  let currentStep ← Json.field fs "current_step" Json.asStr
  let completedSteps ← Json.field fs "completed_steps" (Json.asUInt 64)
  let totalSteps ← Json.field fs "total_steps" (Json.asUInt 64)
  let retainedEncodedBytes ← Json.field fs "retained_encoded_bytes" (Json.asUInt 64)
  let resolvedEncodedBytes ← Json.field fs "resolved_encoded_bytes" (Json.asUInt 64)
  let recordedAtMs ← Json.field fs "recorded_at_ms" (Json.asUInt 64)
  let durable ← Json.field fs "durable" Json.asBool
  let terminationConfirmed ← Json.field fs "termination_confirmed" Json.asBool
  return { schemaVersion, sequence, phase, currentStep, completedSteps, totalSteps,
           retainedEncodedBytes, resolvedEncodedBytes, recordedAtMs, durable,
           terminationConfirmed }

/-- The bounds of `PipelineProgress::validate`. -/
def bounded (p : PipelineProgress) : Prop :=
  p.schemaVersion = 1 ∧ p.durable = true ∧ p.terminationConfirmed = false
    ∧ (1 ≤ p.totalSteps ∧ p.totalSteps ≤ maxSteps) ∧ p.completedSteps ≤ p.totalSteps
    ∧ p.sequence ≤ 2 * p.totalSteps ∧ validStepId p.currentStep = true
    ∧ p.retainedEncodedBytes ≤ maxRetainedBytes ∧ p.resolvedEncodedBytes ≤ maxRetainedBytes
    ∧ p.recordedAtMs ≠ 0 ∧ p.recordedAtMs ≤ i64Max

instance (p : PipelineProgress) : Decidable p.bounded := inferInstanceAs (Decidable (_ ∧ _))

/-- The counters agree with the phase. -/
def consistent (p : PipelineProgress) : Prop :=
  match p.phase with
  | .pending => p.sequence = 0 ∧ p.completedSteps = 0 ∧ p.retainedEncodedBytes = 0
      ∧ p.resolvedEncodedBytes = 0
  | .starting => p.completedSteps < p.totalSteps ∧ p.sequence = 2 * p.completedSteps + 1
  | .completed => 0 < p.completedSteps ∧ p.sequence = 2 * p.completedSteps
      ∧ p.resolvedEncodedBytes = 0
  | .failed => p.completedSteps < p.totalSteps ∧ p.sequence = 2 * (p.completedSteps + 1)
      ∧ p.resolvedEncodedBytes = 0

instance (p : PipelineProgress) : Decidable p.consistent := by
  unfold consistent
  split <;> infer_instance

/-- `PipelineProgress::validate`. -/
def validate (p : PipelineProgress) : Result Unit := do
  ensure p.bounded "Invalid pipeline observation"
  ensure p.consistent "Inconsistent pipeline observation"

theorem validate_ok {p : PipelineProgress} {u : Unit} :
    p.validate = .ok u ↔ p.bounded ∧ p.consistent := by
  simp only [validate, bind_ok, ensure_ok, exists_and_left, exists_const]

/-- Moving a valid observation to another time keeps it valid. -/
theorem validate_at {p : PipelineProgress} (h : p.validate = .ok ()) {now : Nat} (h0 : now ≠ 0)
    (hmax : now ≤ i64Max) : { p with recordedAtMs := now }.validate = .ok () := by
  rw [validate_ok] at h ⊢
  obtain ⟨⟨h1, h2, h3, h4, h5, h6, h7, h8, h9, -, -⟩, hc⟩ := h
  exact ⟨⟨h1, h2, h3, h4, h5, h6, h7, h8, h9, h0, hmax⟩, hc⟩

/-- The step an observation is about. -/
def index (p : PipelineProgress) : Nat :=
  match p.phase with
  | .completed => p.completedSteps - 1
  | _ => p.completedSteps

/-- `PipelineProgress::confirms`. The source indexes the definition's steps
directly; validation keeps the index in range, save for a pending or starting
observation of no remaining step, which it excludes. -/
def confirms [F64] (p : PipelineProgress) (g : ExecutionGrant) : Bool :=
  match FinitePipeline.fromGrant g with
  | .error _ => false
  | .ok definition =>
    isOk p.validate && p.totalSteps == definition.steps.length
      && p.retainedEncodedBytes ≤ definition.maxRetainedBytes
      && p.resolvedEncodedBytes ≤ definition.maxRetainedBytes
      && match definition.steps[p.index]? with
        | some step => p.currentStep == step.id && (p.phase != .failed || step.isProcess)
        | none => false

/-- The observation `PipelineProgress::checkpoint` builds. -/
def observed (definition : FinitePipeline) (step : PipelineStep) (index : Nat) (phase : Phase)
    (retained resolved now : Nat) : PipelineProgress where
  schemaVersion := 1
  sequence :=
    match phase with
    | .pending => 0
    | .starting => 2 * index + 1
    | _ => 2 * index + 2
  phase := phase
  currentStep := step.id
  completedSteps := if phase = .completed then index + 1 else index
  totalSteps := definition.steps.length
  retainedEncodedBytes := retained
  resolvedEncodedBytes := resolved
  recordedAtMs := now
  durable := true
  terminationConfirmed := false

/-- `PipelineProgress::checkpoint`, with its reading of the clock. -/
def checkpoint [F64] (g : ExecutionGrant) (index : Nat) (phase : Phase) (retained resolved : Nat)
    (now : Nat) : Result PipelineProgress := do
  let definition ← FinitePipeline.fromGrant g
  let step ← context definition.steps[index]? "Pipeline observation step missing"
  let progress := observed definition step index phase retained resolved now
  ensure (progress.confirms g) "Pipeline observation scope changed"
  return progress

/-! ## Encoding -/

theorem fromJson_toJson {p : PipelineProgress} (h : p.validate = .ok ()) :
    fromJson p.toJson = some p := by
  obtain ⟨⟨h1, -, -, h4, h5, h6, -, h8, h9, -, h11⟩, -⟩ := validate_ok.mp h
  simp only [maxSteps, maxRetainedBytes, i64Max] at h4 h8 h9 h11
  rw [toJson, fromJson]
  refine Eq.trans (Json.struct_bind ?_ ?_) ?_
  · rfl
  · decide
  refine (Json.field_bind rfl (Json.asUInt_nat (by rw [h1]; decide))).trans ?_
  refine (Json.field_bind rfl (Json.asUInt_nat (by omega))).trans ?_
  refine (Json.field_bind rfl (Phase.fromJson_name p.phase)).trans ?_
  refine (Json.field_bind (a := p.currentStep) rfl rfl).trans ?_
  refine (Json.field_bind rfl (Json.asUInt_nat (by omega))).trans ?_
  refine (Json.field_bind rfl (Json.asUInt_nat (by omega))).trans ?_
  refine (Json.field_bind rfl (Json.asUInt_nat (by omega))).trans ?_
  refine (Json.field_bind rfl (Json.asUInt_nat (by omega))).trans ?_
  refine (Json.field_bind rfl (Json.asUInt_nat (by omega))).trans ?_
  refine (Json.field_bind (a := p.durable) rfl rfl).trans ?_
  refine (Json.field_bind (a := p.terminationConfirmed) rfl rfl).trans ?_
  rfl

theorem toJson_parses (p : PipelineProgress) : p.toJson.parses = true := by
  simp [Json.parses, Json.depth, Json.fieldsDepth, toJson, Json.nat, Json.recursionLimit]

end PipelineProgress

end Eef.Node
