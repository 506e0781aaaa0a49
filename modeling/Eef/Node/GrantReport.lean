import Eef.Node.PipelineRuntime

/-!
# Grant reports

`GrantReport` of `grants.rs`: how an execution ends, bound to the grant it was
for. `GrantReport.new` is the only constructor the node uses, `confirms` the check
every reader makes before it believes a report, and `completedOutcome` what the
runtime reports for an operation that returned.

`new_compound_confirms` reduces `confirms` on a fresh report of a compound grant to
what depends on the outcome: its error code, the size of its data and the evidence.
-/

namespace Eef.Node

open Eef.Lib

/-- `ReceiptState`. -/
inductive ReceiptState where
  | accepted
  | completed
  | unknown
  | rejected
  deriving DecidableEq, Repr

/-- The serialized name, also the text of the `state` column. -/
def ReceiptState.name : ReceiptState → String
  | .accepted => "accepted"
  | .completed => "completed"
  | .unknown => "unknown"
  | .rejected => "rejected"

def ReceiptState.fromJson (j : Json) : Option ReceiptState :=
  match j.asVariant with
  | some "accepted" => some .accepted
  | some "completed" => some .completed
  | some "unknown" => some .unknown
  | some "rejected" => some .rejected
  | _ => none

theorem ReceiptState.fromJson_name (s : ReceiptState) :
    ReceiptState.fromJson (.str s.name) = some s := by cases s <;> rfl

/-- `matches!(state, Completed | Unknown)`. -/
def ReceiptState.mayHaveStarted (s : ReceiptState) : Bool := s == .completed || s == .unknown

/-- `GrantReport`. -/
structure GrantReport where
  schemaVersion : Nat
  state : ReceiptState
  grantId : String
  grantSha256 : String
  issuerId : String
  sessionId : String
  executorNode : String
  jobId : String
  taskId : String
  attempt : Nat
  planSha256 : String
  accepted : Bool
  persisted : Bool
  executionMayHaveStarted : Bool
  success : Bool
  data : Json
  errorCode : Option String
  deriving DecidableEq, Repr

/-- `serde_json::to_string(report)`. -/
def GrantReport.toJson (r : GrantReport) : Json :=
  .obj [("schema_version", .nat r.schemaVersion), ("state", .str r.state.name),
    ("grant_id", .str r.grantId), ("grant_sha256", .str r.grantSha256),
    ("issuer_id", .str r.issuerId), ("session_id", .str r.sessionId),
    ("executor_node", .str r.executorNode), ("job_id", .str r.jobId), ("task_id", .str r.taskId),
    ("attempt", .nat r.attempt), ("plan_sha256", .str r.planSha256),
    ("accepted", .bool r.accepted), ("persisted", .bool r.persisted),
    ("execution_may_have_started", .bool r.executionMayHaveStarted),
    ("success", .bool r.success), ("data", r.data),
    ("error_code", Json.ofOption .str r.errorCode)]

def GrantReport.fromJson (j : Json) : Option GrantReport := do
  let fs ← j.struct ["schema_version", "state", "grant_id", "grant_sha256", "issuer_id",
    "session_id", "executor_node", "job_id", "task_id", "attempt", "plan_sha256", "accepted",
    "persisted", "execution_may_have_started", "success", "data", "error_code"] 17
  let schemaVersion ← Json.field fs "schema_version" (Json.asUInt 32)
  let state ← Json.field fs "state" ReceiptState.fromJson
  let grantId ← Json.field fs "grant_id" Json.asStr
  let grantSha256 ← Json.field fs "grant_sha256" Json.asStr
  let issuerId ← Json.field fs "issuer_id" Json.asStr
  let sessionId ← Json.field fs "session_id" Json.asStr
  let executorNode ← Json.field fs "executor_node" Json.asStr
  let jobId ← Json.field fs "job_id" Json.asStr
  let taskId ← Json.field fs "task_id" Json.asStr
  let attempt ← Json.field fs "attempt" (Json.asUInt 32)
  let planSha256 ← Json.field fs "plan_sha256" Json.asStr
  let accepted ← Json.field fs "accepted" Json.asBool
  let persisted ← Json.field fs "persisted" Json.asBool
  let executionMayHaveStarted ← Json.field fs "execution_may_have_started" Json.asBool
  let success ← Json.field fs "success" Json.asBool
  let data ← Json.field fs "data" some
  let errorCode ← Json.optField fs "error_code" Json.asStr
  return { schemaVersion, state, grantId, grantSha256, issuerId, sessionId, executorNode, jobId,
           taskId, attempt, planSha256, accepted, persisted, executionMayHaveStarted, success,
           data, errorCode }

/-- A report is its own stored text, read back. -/
theorem GrantReport.fromJson_toJson {r : GrantReport} (hv : r.schemaVersion < 2 ^ 32)
    (ha : r.attempt < 2 ^ 32) : GrantReport.fromJson r.toJson = some r := by
  rw [GrantReport.toJson, GrantReport.fromJson]
  refine Eq.trans (Json.struct_bind ?_ ?_) ?_
  · rfl
  · decide
  refine (Json.field_bind rfl (Json.asUInt_nat hv)).trans ?_
  refine (Json.field_bind rfl (ReceiptState.fromJson_name r.state)).trans ?_
  refine (Json.field_bind (a := r.grantId) rfl rfl).trans ?_
  refine (Json.field_bind (a := r.grantSha256) rfl rfl).trans ?_
  refine (Json.field_bind (a := r.issuerId) rfl rfl).trans ?_
  refine (Json.field_bind (a := r.sessionId) rfl rfl).trans ?_
  refine (Json.field_bind (a := r.executorNode) rfl rfl).trans ?_
  refine (Json.field_bind (a := r.jobId) rfl rfl).trans ?_
  refine (Json.field_bind (a := r.taskId) rfl rfl).trans ?_
  refine (Json.field_bind rfl (Json.asUInt_nat ha)).trans ?_
  refine (Json.field_bind (a := r.planSha256) rfl rfl).trans ?_
  refine (Json.field_bind (a := r.accepted) rfl rfl).trans ?_
  refine (Json.field_bind (a := r.persisted) rfl rfl).trans ?_
  refine (Json.field_bind (a := r.executionMayHaveStarted) rfl rfl).trans ?_
  refine (Json.field_bind (a := r.success) rfl rfl).trans ?_
  refine (Json.field_bind (a := r.data) rfl rfl).trans ?_
  refine (Json.optField_bind (Json.optField_str (o := r.errorCode) rfl)).trans ?_
  rfl

/-- A report nests its data one level deeper. -/
theorem GrantReport.toJson_depth (r : GrantReport) : r.toJson.depth = r.data.depth + 1 := by
  have he : Json.depth (Json.ofOption Json.str r.errorCode) = 0 := by cases r.errorCode <;> rfl
  simp [Json.depth, Json.fieldsDepth, GrantReport.toJson, Json.nat, he]

section
variable [Sha256]

/-- `GrantReport::new`. -/
def GrantReport.new (g : ExecutionGrant) (state : ReceiptState) (data : Json)
    (errorCode : Option String) : GrantReport where
  schemaVersion := 1
  state := state
  grantId := g.grantId
  grantSha256 := g.digest
  issuerId := g.issuerId
  sessionId := g.sessionId
  executorNode := g.executorNode
  jobId := g.jobId
  taskId := g.taskId
  attempt := g.attempt
  planSha256 := g.planSha256
  accepted := state != .rejected
  persisted := state != .rejected
  executionMayHaveStarted := state.mayHaveStarted
  success := state == .completed && errorCode.isNone
  data := data
  errorCode := errorCode

/-- The report names exactly this grant. -/
def GrantReport.names (r : GrantReport) (g : ExecutionGrant) : Prop :=
  r.schemaVersion = 1 ∧ r.grantId = g.grantId ∧ g.digest = r.grantSha256
    ∧ r.issuerId = g.issuerId ∧ r.sessionId = g.sessionId ∧ r.executorNode = g.executorNode
    ∧ r.jobId = g.jobId ∧ r.taskId = g.taskId ∧ r.attempt = g.attempt
    ∧ r.planSha256 = g.planSha256

instance (r : GrantReport) (g : ExecutionGrant) : Decidable (r.names g) :=
  inferInstanceAs (Decidable (_ ∧ _))

/-- The flags agree with the state. -/
def GrantReport.flagsAgree (r : GrantReport) : Prop :=
  r.accepted = (r.state != .rejected) ∧ (r.persisted = true → r.accepted = true)
    ∧ (r.state = .unknown ∨ r.persisted = r.accepted)
    ∧ r.executionMayHaveStarted = r.state.mayHaveStarted
    ∧ (r.success = true → r.state = .completed ∧ r.errorCode = none)
    ∧ (r.state = .accepted →
      r.persisted = true ∧ r.data.isNull = true ∧ r.success = false ∧ r.errorCode = none)

instance (r : GrantReport) : Decidable r.flagsAgree := inferInstanceAs (Decidable (_ ∧ _))

/-- A completed report that withholds its oversized output. -/
def GrantReport.withheld (r : GrantReport) : Prop :=
  r.data.isNull = true ∧ r.success = false ∧ r.errorCode = some "result_too_large"

instance (r : GrantReport) : Decidable r.withheld := inferInstanceAs (Decidable (_ ∧ _))

/-- The compound evidence test of `confirms`. -/
def GrantReport.compoundEvidence [F64] (r : GrantReport) (g : ExecutionGrant) : Prop :=
  match confirmedResult g r.data with
  | .ok success =>
    r.success = success
      ∧ r.errorCode = if success then none else some "pipeline_stage_unsuccessful"
  | .error _ => False

instance [F64] (r : GrantReport) (g : ExecutionGrant) : Decidable (r.compoundEvidence g) := by
  unfold GrantReport.compoundEvidence
  split <;> infer_instance

variable [F64] [PeerAdmission]

/-- `GrantReport::confirms`. -/
def GrantReport.confirms (r : GrantReport) (g : ExecutionGrant) : Prop :=
  r.names g ∧ r.flagsAgree
    ∧ ¬(r.success = true ∧ g.capability = "process.exec" ∧ g.action = "run"
      ∧ reportsFailure r.data = true)
    ∧ (isCompound g.capability = true → r.state = .completed →
      r.withheld ∨ r.compoundEvidence g)
    ∧ (g.capability = "peer.transfer" → r.state = .completed →
      r.withheld ∨ (r.success = true ∧ r.errorCode = none ∧ PeerAdmission.confirms g r.data))
    ∧ r.data.size ≤ g.limits.maxResultBytes
    ∧ (∀ code ∈ r.errorCode, identifier code = true)
    ∧ match r.state with
      | .rejected | .unknown =>
        r.success = false ∧ r.data.isNull = true ∧ r.errorCode.isSome = true
      | .completed => r.success = r.errorCode.isNone
      | .accepted => True

instance (r : GrantReport) (g : ExecutionGrant) : Decidable (r.confirms g) := by
  unfold GrantReport.confirms
  have : Decidable (match r.state with
      | .rejected | .unknown =>
        r.success = false ∧ r.data.isNull = true ∧ r.errorCode.isSome = true
      | .completed => r.success = r.errorCode.isNone
      | .accepted => True) := by
    split <;> infer_instance
  infer_instance

/-- `completed_outcome`. -/
def completedOutcome (g : ExecutionGrant) (data : Json) : GrantReport :=
  if g.capability = "peer.transfer" ∧ PeerAdmission.confirms g data = false then
    GrantReport.new g .unknown .null (some "peer_result_unconfirmed")
  else if isCompound g.capability then
    match confirmedResult g data with
    | .ok success =>
      GrantReport.new g .completed data
        (if success then none else some "pipeline_stage_unsuccessful")
    | .error _ => GrantReport.new g .unknown .null (some "pipeline_result_unconfirmed")
  else
    GrantReport.new g .completed data
      (if g.capability = "process.exec" ∧ g.action = "run" ∧ reportsFailure data then
        some "process_exit_unsuccessful" else none)

/-- The arm of `run_operation_with_clock` for an operation that returned. -/
def operationReport (g : ExecutionGrant) (data : Json) : GrantReport :=
  if data.size ≤ g.limits.maxResultBytes then completedOutcome g data
  else GrantReport.new g .completed .null (some "result_too_large")

/-- A completed compound report confirms its grant as soon as its data fits and its
evidence is accepted, or is withheld as too large. -/
theorem GrantReport.new_compound_confirms {g : ExecutionGrant} {data : Json}
    {errorCode : Option String} (hc : isCompound g.capability = true)
    (hsize : data.size ≤ g.limits.maxResultBytes)
    (hcode : ∀ code ∈ errorCode, identifier code = true)
    (hev : (GrantReport.new g .completed data errorCode).withheld ∨
      (GrantReport.new g .completed data errorCode).compoundEvidence g) :
    (GrantReport.new g .completed data errorCode).confirms g := by
  obtain ⟨hproc, hpeer⟩ := ne_of_isCompound hc
  refine ⟨⟨rfl, rfl, rfl, rfl, rfl, rfl, rfl, rfl, rfl, rfl⟩, ⟨rfl, ?_, Or.inr rfl, rfl, ?_, ?_⟩,
    fun h => hproc h.2.1, fun _ _ => hev, fun h => absurd h hpeer, hsize, hcode, ?_⟩
  · simp [GrantReport.new]
  · simp [GrantReport.new]
  · simp [GrantReport.new]
  · simp [GrantReport.new]

end

end Eef.Node
