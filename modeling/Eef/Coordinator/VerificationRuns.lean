import Eef.Lib.Table
import Eef.Lib.Run
import Eef.Coordinator.Review
import Eef.Coordinator.Verification

/-!
# Calls of the fixed model check

`observe_model_verification`, `model_verification_command` and `start_model_verification`. A call
fills its report on the way; an error ends it with the report as far as it is. Each read of the
store, each message and each reply is a moment of its own, and `Phase` is what a call does next.

The functions of the phases are those of the source between two such moments. Everybody else is
free: jobs may change and disappear at any time, and a reply may be anything.
-/

namespace Eef.Coordinator.Verification

open Eef.Lib
open Eef.Node hiding Definition
open Eef.Node.ModelVerification

/-! ## Intents -/

/-- `Intent`. -/
structure Intent where
  schemaVersion : Nat
  definition : ModelVerification.Definition
  coordinatorRuntimeId : String
  createdAtMs : Nat
  deriving DecidableEq, Repr

/-- `Intent::validate`. -/
def Intent.validate (i : Intent) : Result Unit := do
  i.definition.validate
  validateUuid i.coordinatorRuntimeId
  bailIf (i.schemaVersion ≠ 1 ∨ i.createdAtMs = 0)
    "Unsupported model-check intent; retain without replay"

/-- Derived `Serialize`. -/
def Intent.toJson (i : Intent) : Json :=
  .obj [("schema_version", .nat i.schemaVersion), ("definition", i.definition.toJson),
    ("coordinator_runtime_id", .str i.coordinatorRuntimeId),
    ("created_at_ms", .nat i.createdAtMs)]

/-- `MAX_RECORD_BYTES`. -/
def maxRecordBytes : Nat := 4096

/-- A row of `model_verification_intents`: what its text parses as, and its length. -/
structure IntentRow where
  sourceId : String
  length : Nat
  record : Option Intent
  deriving DecidableEq, Repr

/-- The rest of the store, as `reserve` reads it. -/
structure IntentQuota where
  used : Nat
  count : Nat
  maxBytes : Nat
  maxCount : Nat
  deriving DecidableEq, Repr

/-- `read`. -/
def readIntent [Sha256] (rows : List IntentRow) (node operation : String) :
    Result (Option ModelVerification.Definition) := do
  let source ← receiptId node operation "source" none
  match Table.find IntentRow.sourceId source rows with
  | none => .ok none
  | some row => do
    bailIf (maxRecordBytes < row.length) "Oversized model-check intent; retain without replay"
    let intent ← context row.record "Damaged or future model-check intent; retain without replay"
    intent.validate
    bailIf (intent.definition.nodeId ≠ node ∨ intent.definition.operationId ≠ operation)
      "Model-check intent row identity changed; retain without replay"
    return some intent.definition

/-- `reserve_model_verification_intent`. The primary key refuses a row that exists. -/
def reserve [F64] [Sha256] (rows : List IntentRow) (definition : ModelVerification.Definition) (runtime : String)
    (quota : IntentQuota) (now : Nat) : Result (List IntentRow × Bool) := do
  let intent : Intent := ⟨1, definition, runtime, now⟩
  intent.validate
  match ← readIntent rows definition.nodeId definition.operationId with
  | some existing => do
    bailIf (existing ≠ definition) "Retained model-check intent conflicts; no replacement or retry"
    return (rows, false)
  | none => do
    bailIf (maxRecordBytes < intent.toJson.size ∨ quota.maxCount ≤ quota.count)
      "Model-check intent history is full; no remote preparation requested"
    bailIf (quota.maxBytes - quota.used < intent.toJson.size)
      "Model-check intent storage is full; no remote preparation requested"
    let source ← definition.receipt "source" none
    bailIf ((Table.find IntentRow.sourceId source rows).isSome = true)
      "UNIQUE constraint failed: model_verification_intents.source_id"
    return (rows ++ [⟨source, intent.toJson.size, some intent⟩], true)

/-! ## Sources -/

/-- `request_submission::ConcreteInput`. -/
structure ConcreteInput where
  schemaVersion : Nat
  originalText : String
  title : String
  input : PlanInput
  deriving DecidableEq, Repr

/-- The text of a definition, read and written by `serde_json`, and `ConcreteInput::validate`. -/
class SourceText where
  parse : String → Option ModelVerification.Definition
  write : ModelVerification.Definition → String
  check : ConcreteInput → Result Unit

/-- `PREFIX`. -/
def sourcePrefix : String := "EEF model verification v1\n"

/-- `MAX_TOKENS`. -/
def maxTokens : Nat := 32

/-- The request of `Definition::source`. -/
def sourceInput [SourceText] (d : ModelVerification.Definition) : ConcreteInput where
  schemaVersion := 1
  originalText := sourcePrefix ++ SourceText.write d
  title := "Check the selected interpreter's inference"
  input :=
    { schemaVersion := 1
      template := "generate_text"
      params := .obj [("model_id", .str d.model.modelId),
        ("prompt", .str "Reply with a short greeting."), ("max_tokens", .nat maxTokens),
        ("temperature", .nat 0)]
      constraints := .obj [("node_id", .str d.nodeId), ("backend", .str d.model.backend.name),
        ("model_role", .str "request_interpreter")] }

/-- `Definition::source`. -/
def sourceRequest [Sha256] [SourceText] (d : ModelVerification.Definition) : Result ConcreteInput := do
  d.validate
  let operation ← d.receipt "source" none
  validateOperationId operation
  SourceText.check (sourceInput d)
  return sourceInput d

/-- `Definition::from_source`. -/
def fromSource [Sha256] [SourceText] (source : ConcreteInput) : Result ModelVerification.Definition := do
  ensure (sourcePrefix.toList <+: source.originalText.toList)
    "Not a fixed model verification source"
  let value ← context
    (SourceText.parse (String.ofList (source.originalText.toList.drop sourcePrefix.length)))
    "Damaged fixed model verification source"
  let request ← sourceRequest value
  bailIf (request ≠ source) "Model verification source changed or widened"
  return value

/-- The original text of a draft. -/
def originalText (draft : DraftRecord) : String :=
  (draft.document.index "original_text").asStr.getD ""

/-- `current().goal`. -/
def currentGoal (draft : DraftRecord) : String :=
  match draft.document.index "proposals" with
  | .arr proposals =>
    ((proposals.getLast?.getD .null |>.index "proposal" |>.index "goal").asStr).getD ""
  | _ => ""

/-- `concrete_input`. -/
def concreteInput (draft : DraftRecord) : Option PlanInput := do
  let value ← (draft.document.get? "concrete_input").filter (!·.isNull)
  let version ← (value.index "schema_version").asUInt 32
  let template ← (value.index "template").asStr
  return ⟨version, template, value.index "params", value.index "constraints"⟩

/-- `audio_source.is_some()`. -/
def audioSource (draft : DraftRecord) : Bool :=
  (draft.document.get? "audio_source").any (!·.isNull)

/-- `MAX_EXECUTION_MS`. -/
def maxExecutionMs : Nat := 30000

/-- `MAX_RESULT_BYTES`. -/
def maxResultBytes : Nat := 4096

section

variable [F64] [PeerAdmission] [Sha256] [Pairing] [Planner] [SourceText]

/-- The task and the binding of the compiled plan are those of one exact inference. -/
def exactTask (task : Task) (binding : PlannedBinding) (input : PlanInput)
    (definition : ModelVerification.Definition) (backend : String) : Prop :=
  task.capability = "llm.infer" ∧ task.action = "run" ∧ task.params = input.params ∧
    task.constraints = input.constraints ∧ task.dependencies = [] ∧ task.retryCount = 0 ∧
    task.retryDelayMs = 0 ∧ task.timeoutMs = maxExecutionMs ∧ binding.taskId = task.taskId ∧
    binding.nodeId = definition.nodeId ∧ binding.modelId = some definition.model.modelId ∧
    binding.backend = some backend ∧ binding.resourceId = none

instance (task : Task) (binding : PlannedBinding) (input : PlanInput) (definition : ModelVerification.Definition)
    (backend : String) : Decidable (exactTask task binding input definition backend) :=
  inferInstanceAs (Decidable (_ ∧ _))

/-- The checks of `fixed_source` on the compiled plan. -/
def fixedPlanning (p : Plan) (input : PlanInput) (definition : ModelVerification.Definition) : Result Unit :=
  match p.planning with
  | none => .ok ()
  | some planning => do
    bailIf (planning.input ≠ input ∨ p.tasks.length ≠ 1 ∨ planning.bindings.length ≠ 1 ∨
        planning.preparation.isSome = true)
      "Model-test concrete plan changed"
    let task ← context p.tasks[0]? "index out of bounds"
    let binding ← context planning.bindings[0]? "index out of bounds"
    let backend ← context (input.constraints.index "backend").asStr "Missing backend"
    ensure (exactTask task binding input definition backend)
      "Model-test task/binding widened beyond one exact inference"

/-- `fixed_source`. -/
def fixedSource (p : Plan) : Result ModelVerification.Definition := do
  p.validateReview
  let draft ← context p.requestReview "Missing model verification source"
  bailIf (draft.proposals.length ≠ 1 ∨ draft.answers ≠ [] ∨ audioSource draft = true)
    "Model verification source was revised or widened"
  let input ← context (concreteInput draft) "Missing fixed model input"
  let definition ← fromSource ⟨1, originalText draft, currentGoal draft, input⟩
  let origin ← context p.goal.requestContext "Missing model-test origin"
  let source ← definition.receipt "source" none
  bailIf (origin.originNode ≠ definition.nodeId ∨ origin.requestId ≠ source)
    "Model-test source origin/receipt changed"
  fixedPlanning p input definition
  return definition

/-- The jobs that came from the source receipt of a check. -/
def sources (jobs : List Plan) (node source : String) : List Plan :=
  jobs.filter fun p => p.goal.requestContext.any fun c => c.originNode = node ∧ c.requestId = source

/-- `model_verification_plan`. -/
def verificationPlan (jobs : List Plan) (node operation : String) : Result (Option Plan) := do
  let source ← receiptId node operation "source" none
  match sources jobs node source with
  | [] => .ok none
  | [p] => do
    let d ← fixedSource p
    bailIf (d.nodeId ≠ node ∨ d.operationId ≠ operation) "Model verification receipt conflicts"
    return some p
  | _ => .error "Ambiguous model verification receipt"

/-! ## The functions of the phases -/

/-- The command to approve the plan, as far as the approval is held against it. -/
structure Approve where
  id : String
  expectedRevision : Nat
  operationId : String
  planSha256 : String
  validForMs : Nat
  limits : GrantLimits
  deriving DecidableEq, Repr

/-- What a call does next. The definition is the one whose intent it committed. -/
inductive Phase where
  | intent
  | source
  | select
  | reserve (d : ModelVerification.Definition)
  | prepare (d : ModelVerification.Definition)
  | prepared (d : ModelVerification.Definition)
  | saved (d : ModelVerification.Definition) (reused : Bool)
  | approve (d : ModelVerification.Definition) (command : Approve)
  | approved (d : ModelVerification.Definition) (command : Approve)
  | check (d : ModelVerification.Definition) (command : Approve)
  | execute (d : ModelVerification.Definition)
  | executed (d : ModelVerification.Definition)
  | observe
  | observePlan (intent : Option ModelVerification.Definition)
  | observeResult (p : Plan) (attempt : GrantedAttempt)
  | done
  deriving DecidableEq, Repr

/-- A report after some steps, with what comes next or the error that ended the call. -/
abbrev Turn := Report × Result Phase

/-- The definition that a request asks for. -/
def Command.definition : Command → Option ModelVerification.Definition
  | .start definition _ => some definition
  | _ => none

/-- The report that a command starts from. -/
def Report.initial (runtime : String) (request : Request) (source : String) : Report where
  schemaVersion := 1
  reportType := "coordinator_model_verification"
  coordinatorRuntimeId := runtime
  nodeId := request.nodeId
  operationId := request.operationId
  sourceOperationId := source
  success := false
  state := .unconfirmed
  readinessIssue := none
  definition := none
  intentRetained := false
  jobId := none
  grantId := none
  executorSessionId := none
  evidenceSource := none
  sourcePreparationRequested := false
  ownerApprovalRequested := false
  executionRequested := false
  historical := request.command == .inspect
  outcomeUnknown := false
  inferenceReturnedText := false
  modelQualityApproved := false
  currentSetupVerified := false
  restartRequested := false
  automaticallyRetried := false
  note := Verification.note

/-- The report of a call that ended with an error. -/
def Report.failed (r : Report) : Report :=
  { r with
    state := .unconfirmed
    success := false
    inferenceReturnedText := false
    outcomeUnknown := true }

/-- The last lines of `observe_model_verification`. -/
def Report.observed (r : Report) : Report :=
  { r with
    inferenceReturnedText := r.state == .returnedText
    success := r.state.success
    outcomeUnknown := r.state == .unknown || r.state == .unconfirmed }

omit [F64] [PeerAdmission] [Sha256] [Pairing] [Planner] [SourceText] in
/-- After the first read of the intent. -/
def afterIntent (requested : Option ModelVerification.Definition) (found : Result (Option ModelVerification.Definition)) (r : Report) :
    Turn :=
  match found with
  | .error e => (r, .error e)
  | .ok none => (r, .ok .source)
  | .ok (some retained) =>
    if requested.any (· ≠ retained) then (r, .error "Retained model-check intent conflicts")
    else ({ r with historical := true }, .ok .observe)

/-- After the first read of the source. -/
def afterSource (requested : Option ModelVerification.Definition) (found : Result (Option Plan)) (r : Report) :
    Turn :=
  match found, requested with
  | .error e, _ => (r, .error e)
  | .ok none, some d => (r, .ok (.reserve d))
  | .ok none, none => (r, .ok .select)
  | .ok (some existing), some d =>
    match fixedSource existing with
    | .error e => (r, .error e)
    | .ok retained =>
      if retained ≠ d then (r, .error "Retained model-check intent conflicts")
      else ({ r with historical := true }, .ok .observe)
  | .ok (some _), none => ({ r with historical := true }, .ok .observe)

omit [F64] [PeerAdmission] [Sha256] [Pairing] [Planner] [SourceText] in
/-- After `selected_on`. -/
def afterSelect (selected : Except ReadinessIssue ModelVerification.Definition) (r : Report) : Turn :=
  match selected with
  | .ok d => (r, .ok (.reserve d))
  | .error issue =>
    ({ r with
      readinessIssue := some issue
      state := if issue.unconfirmed then .unconfirmed else .notReady
      outcomeUnknown := issue.unconfirmed }, .ok .done)

omit [F64] [PeerAdmission] [Sha256] [Pairing] [Planner] [SourceText] in
/-- After the attempt to commit the intent. -/
def afterReserve (d : ModelVerification.Definition) (committed : Result Bool) (r : Report) : Turn :=
  let r := { r with definition := some d }
  match committed with
  | .error e => (r, .error e)
  | .ok false => ({ r with historical := true }, .ok .observe)
  | .ok true =>
    ({ r with intentRetained := true, sourcePreparationRequested := true }, .ok (.prepare d))

/-- What the workflow reads of a preparation reply: `success`, whether it is confirmed, the
coordinator that the source reached, and `creation_reused`. -/
structure PrepareReply where
  success : Bool
  confirmed : Bool
  runtimeId : String
  creationReused : Bool
  deriving DecidableEq, Repr

omit [F64] [PeerAdmission] [Sha256] [Pairing] [Planner] [SourceText] in
/-- After the reply to the preparation, or without one. -/
def afterPrepared (runtime : String) (d : ModelVerification.Definition) (reply : Result PrepareReply) (r : Report) :
    Turn :=
  match reply with
  | .error e => (r, .error e)
  | .ok reply =>
    if reply.success = false ∨ reply.confirmed = false then
      (r, .error "Model-test preparation unconfirmed")
    else if reply.runtimeId ≠ runtime then
      (r, .error "Model-test source reached another coordinator")
    else (r, .ok (.saved d reply.creationReused))

/-- The approval that the workflow asks for. -/
def approveCommand (d : ModelVerification.Definition) (p : Plan) : Result Approve := do
  bailIf (p.status ≠ .awaitingApproval ∨ p.approval.isSome = true ∨ p.execution.isSome = true)
    "Fresh model-test plan is not awaiting owner approval"
  let planning ← context p.planning "Missing model-test plan"
  let operationId ← d.receipt "approval" (some p.planId)
  return ⟨p.planId, p.revision, operationId, planning.planSha256, 60000,
    ⟨maxExecutionMs, maxResultBytes⟩⟩

/-- The source that the preparation saved. -/
def savedSource (d : ModelVerification.Definition) (found : Result (Option Plan)) : Result Plan := do
  let plan ← found
  let p ← context plan "Model-test source missing"
  let retained ← fixedSource p
  bailIf (retained ≠ d) "Model-test source changed"
  return p

/-- After the read of the saved source. -/
def afterSaved (d : ModelVerification.Definition) (reused : Bool) (found : Result (Option Plan)) (r : Report) :
    Turn :=
  match savedSource d found with
  | .error e => (r, .error e)
  | .ok p =>
    let r := { r with jobId := some p.planId }
    if reused then
      ({ r with sourcePreparationRequested := false, historical := true }, .ok .observe)
    else
      match approveCommand d p with
      | .error e => (r, .error e)
      | .ok command => ({ r with ownerApprovalRequested := true }, .ok (.approve d command))

/-- `ApprovalRecord::confirms`, `active_at` and the other checks of the approved plan. -/
def approvedPlan (d : ModelVerification.Definition) (command : Approve) (p : Plan) (now : Nat) : Result Unit := do
  let approval ← context p.approval "Owner approval not retained"
  let retained ← fixedSource p
  bailIf (retained ≠ d ∨ ¬(approval.schemaVersion = 1 ∧ approval.workload = none ∧
      approval.delegation = none ∧ approval.operationId = command.operationId ∧
      approval.sourceRevision = command.expectedRevision ∧
      approval.planSha256 = command.planSha256 ∧ approval.validForMs = command.validForMs ∧
      approval.limits = command.limits) ∨
      ¬(p.status = .approved ∧ approval.approvedAtMs ≤ now ∧ now < approval.expiresAtMs) ∨
      p.execution.isSome = true)
    "Model-test approval changed"
  let _ ← d.receipt "execution" (some command.id)

/-- After the read of the approved plan. -/
def afterCheck (d : ModelVerification.Definition) (command : Approve) (found : Result Plan) (now : Nat)
    (r : Report) : Turn :=
  match found with
  | .error e => (r, .error e)
  | .ok p =>
    match approvedPlan d command p now with
    | .error e => (r, .error e)
    | .ok () => ({ r with executionRequested := true }, .ok (.execute d))

omit [F64] [PeerAdmission] [Sha256] [Pairing] [Planner] [SourceText] in
/-- After a command of the coordinator itself. -/
def afterCommand (result : Result Unit) (next : Phase) (r : Report) : Turn :=
  match result with
  | .error e => (r, .error e)
  | .ok () => (r, .ok next)

/-! ## Observation -/

omit [F64] [PeerAdmission] [Sha256] [Pairing] [Planner] [SourceText] in
/-- The first read of `observe_model_verification`. -/
def observeIntent (found : Result (Option ModelVerification.Definition)) (r : Report) : Turn :=
  match found with
  | .error e => (r, .error e)
  | .ok none => (r, .ok (.observePlan none))
  | .ok (some d) =>
    ({ r with intentRetained := true, definition := some d }, .ok (.observePlan (some d)))

omit [Sha256] [Pairing] [Planner] [SourceText] [F64] [PeerAdmission] in
/-- The state of a plan without a final report. -/
def planState : PlanStatus → State
  | .review => .incomplete
  | .awaitingApproval => .awaitingApproval
  | .approved => .approved
  | .running | .pausing | .stopping => .running
  | .failed | .cancelled => .failed
  | _ => .unknown

/-- `report_state`. -/
def reportState (g : ExecutionGrant) (retained : GrantReport) : Result State := do
  g.validate
  bailIf (¬retained.confirms g ∨ retained.state = .accepted)
    "Model-test final report does not confirm exact issuance"
  return match retained.state with
    | .completed =>
      if retained.success then
        if ((retained.data.index "content").asStr.any fun s =>
            !s.toList.all isWhitespace && s.utf8ByteSize ≤ maxResultBytes) then .returnedText
        else .noText
      else .failed
    | .rejected => .failed
    | .unknown | .accepted => .unknown

/-- Take the state of a final report over. -/
def withReport (g : ExecutionGrant) (retained : GrantReport) (evidence : Evidence) (r : Report) :
    Report × Result Unit :=
  match reportState g retained with
  | .error e => (r, .error e)
  | .ok state => ({ r with state, evidenceSource := some evidence }, .ok ())

/-- A definitive local report ends the observation; otherwise the node is asked. -/
def observeAttempt (p : Plan) (a : GrantedAttempt) (r : Report) : Turn :=
  let r := { r with grantId := some a.grant.grantId, executorSessionId := some a.grant.sessionId }
  match a.finalReport.filter fun f => f.state = .completed ∨ f.state = .rejected with
  | none => (r, .ok (.observeResult p a))
  | some f =>
    match withReport a.grant f .coordinatorJournal r with
    | (r, .error e) => (r, .error e)
    | (r, .ok ()) => (r.observed, .ok .done)

/-- The read of the source in `observe_model_verification`. -/
def observeSource (intent : Option ModelVerification.Definition) (found : Result (Option Plan)) (r : Report) : Turn :=
  match found with
  | .error e => (r, .error e)
  | .ok none =>
    ({ r with
      state := if intent.isSome then .unknown else .notFound
      success := false
      outcomeUnknown := intent.isSome }, .ok .done)
  | .ok (some p) =>
    match fixedSource p with
    | .error e => (r, .error e)
    | .ok d =>
      if intent.any (· ≠ d) then
        (r, .error "Retained model-check source conflicts with pre-preparation intent")
      else
        let r := { r with
          definition := some d
          jobId := some p.planId
          state := planState p.status }
        match p.execution.map ExecutionRecord.attempts with
        | none | some [] => (r.observed, .ok .done)
        | some [a] => observeAttempt p a r
        | some _ => (r, .error "Model-test history has multiple attempts")

/-- What the node retains of a result: nothing final, or a report, if it parses. -/
abbrev Retained := Option (Option GrantReport)

/-- The report of the node, if there is one. -/
def observeNode (a : GrantedAttempt) (result : Retained) (r : Report) : Turn :=
  match result with
  | none => (r.observed, .ok .done)
  | some none => (r, .error "Model-test result does not parse")
  | some (some retained) =>
    match withReport a.grant retained .nodeJournal r with
    | (r, .error e) => (r, .error e)
    | (r, .ok ()) => (r.observed, .ok .done)

/-- After `inspect_request_result`. -/
def observeResult (a : GrantedAttempt) (result : Result Retained) (r : Report) : Turn :=
  match a.finalReport with
  | none =>
    match result with
    | .error e => (r, .error e)
    | .ok result => observeNode a result r
  | some f =>
    match withReport a.grant f .coordinatorJournal r with
    | (r, .error e) => (r, .error e)
    | (r, .ok ()) =>
      match result with
      | .error _ => observeNode a none r
      | .ok result => observeNode a result r

/-! ## The coordinator -/

/-- What a call asks somebody else to do. -/
inductive Effect where
  | prepare
  | approve
  | execute
  deriving DecidableEq, Repr

/-- A request that a call sent. -/
structure Sent where
  effect : Effect
  key : String × String
  call : Nat
  deriving DecidableEq, Repr

/-- An intent that a call committed. -/
structure Commit where
  definition : ModelVerification.Definition
  call : Nat
  deriving DecidableEq, Repr

@[inherit_doc Sent]
def Commit.key (c : Commit) : String × String := (c.definition.nodeId, c.definition.operationId)

/-- What sent a call over to inspection: an intent or source that was there before its own, or,
after its own commit, a source that an earlier request had saved. -/
inductive Finding where
  | nothing
  | retained
  | reused
  deriving DecidableEq, Repr

/-- The first of two findings. -/
def Finding.or : Finding → Finding → Finding
  | .nothing, f => f
  | f, _ => f

/-- A call, with the report that it fills and what it found. -/
structure Call where
  id : Nat
  request : Request
  report : Report
  phase : Phase
  found : Finding
  deriving DecidableEq, Repr

/-- A report that a call built at its end. -/
structure Built where
  call : Nat
  request : Request
  report : Report
  found : Finding
  deriving DecidableEq, Repr

/-- A coordinator: the store, the slot of the workflow with its owner, and the calls under way.
What calls committed, sent, read and built is kept for the record. -/
structure Runtime where
  rows : List IntentRow
  jobs : List Plan
  runtime : String
  owner : Option Nat
  calls : List Call
  next : Nat
  commits : List Commit
  sent : List Sent
  reads : List (Nat × Plan)
  replies : List (Nat × GrantReport)
  built : List Built
  deriving DecidableEq, Repr

/-- A coordinator that opens an empty store. -/
def Runtime.opened (runtime : String) : Runtime :=
  ⟨[], [], runtime, none, [], 0, [], [], [], [], []⟩

omit [F64] [PeerAdmission] [Sha256] [Pairing] [Planner] [SourceText] in
/-- The slot after a call ended. -/
def release (owner : Option Nat) (call : Nat) : Option Nat :=
  owner.filter (· ≠ call)

/-- The call goes over to inspection because of what is retained. -/
def Phase.finds : Phase → Phase → Finding
  | .intent, .observe | .source, .observe | .reserve _, .observe => .retained
  | .saved _ true, .observe => .reused
  | _, _ => .nothing

/-- A call ends with its report. -/
def Runtime.finish (s : Runtime) (pre post : List Call) (c : Call) (r : Report) : Runtime :=
  { s with
    owner := release s.owner c.id
    calls := pre ++ post
    built := ⟨c.id, c.request, r, c.found⟩ :: s.built }

/-- A call takes its turn. -/
def Runtime.turn (s : Runtime) (pre post : List Call) (c : Call) : Turn → Runtime
  | (r, .error _) => s.finish pre post c r.failed
  | (r, .ok .done) => s.finish pre post c r
  | (r, .ok phase) =>
    { s with
      calls := pre ++ ⟨c.id, c.request, r, phase, c.found.or (c.phase.finds phase)⟩ :: post }

/-- A read of the store gives what is there, or fails. -/
def Reads {α : Type} (found actual : Result α) : Prop := found = actual ∨ ∃ e, found = .error e

/-- A definition that `selected_on` may return for a request. -/
def Selected (request : Request) (selected : Except ReadinessIssue ModelVerification.Definition) : Prop :=
  ∀ d, selected = .ok d →
    d.validate = .ok () ∧ d.nodeId = request.nodeId ∧ d.operationId = request.operationId

/-- The steps of a call `c`, which stands between the others. The flag is off where the store
fails. -/
inductive CallStep (s : Runtime) (pre post : List Call) (c : Call) :
    Phase → Bool → Runtime → Prop where
  | intent {found : Result (Option ModelVerification.Definition)}
      (h : Reads found (readIntent s.rows c.request.nodeId c.request.operationId)) :
      CallStep s pre post c .intent (isOk found)
        (s.turn pre post c (afterIntent c.request.command.definition found c.report))
  | source {found : Result (Option Plan)}
      (h : Reads found (verificationPlan s.jobs c.request.nodeId c.request.operationId)) :
      CallStep s pre post c .source (isOk found)
        (s.turn pre post c (afterSource c.request.command.definition found c.report))
  | select {selected : Except ReadinessIssue ModelVerification.Definition} (h : Selected c.request selected) :
      CallStep s pre post c .select true (s.turn pre post c (afterSelect selected c.report))
  | commit {d : ModelVerification.Definition} {quota : IntentQuota} {now : Nat} {rows : List IntentRow}
      (h : reserve s.rows d s.runtime quota now = .ok (rows, true)) :
      CallStep s pre post c (.reserve d) true
        ({ s with rows, commits := ⟨d, c.id⟩ :: s.commits }.turn pre post c
          (afterReserve d (.ok true) c.report))
  /-- The row is written, but the store reports an error. -/
  | uncertain {d : ModelVerification.Definition} {quota : IntentQuota} {now : Nat} {rows : List IntentRow}
      (e : String) (h : reserve s.rows d s.runtime quota now = .ok (rows, true)) :
      CallStep s pre post c (.reserve d) false
        ({ s with rows, commits := ⟨d, c.id⟩ :: s.commits }.turn pre post c
          (afterReserve d (.error e) c.report))
  | known {d : ModelVerification.Definition} {quota : IntentQuota} {now : Nat} {rows : List IntentRow}
      (h : reserve s.rows d s.runtime quota now = .ok (rows, false)) :
      CallStep s pre post c (.reserve d) true
        ({ s with rows }.turn pre post c (afterReserve d (.ok false) c.report))
  | refused {d : ModelVerification.Definition} {quota : IntentQuota} {now : Nat} {e : String}
      (hvalid : Intent.validate ⟨1, d, s.runtime, now⟩ = .ok ())
      (h : reserve s.rows d s.runtime quota now = .error e) :
      CallStep s pre post c (.reserve d) true
        (s.turn pre post c (afterReserve d (.error e) c.report))
  | unreserved {d : ModelVerification.Definition} (e : String) :
      CallStep s pre post c (.reserve d) false
        (s.turn pre post c (afterReserve d (.error e) c.report))
  | prepare {d : ModelVerification.Definition} :
      CallStep s pre post c (.prepare d) true
        ({ s with
          sent := ⟨.prepare, (d.nodeId, d.operationId), c.id⟩ :: s.sent }.turn pre post c
            (c.report, .ok (.prepared d)))
  | prepared {d : ModelVerification.Definition} (reply : Result PrepareReply) :
      CallStep s pre post c (.prepared d) true
        (s.turn pre post c (afterPrepared s.runtime d reply c.report))
  | saved {d : ModelVerification.Definition} {reused : Bool} {found : Result (Option Plan)}
      (h : Reads found (verificationPlan s.jobs d.nodeId d.operationId)) :
      CallStep s pre post c (.saved d reused) (isOk found)
        (s.turn pre post c (afterSaved d reused found c.report))
  | approve {d : ModelVerification.Definition} {command : Approve} :
      CallStep s pre post c (.approve d command) true
        ({ s with
          sent := ⟨.approve, (d.nodeId, d.operationId), c.id⟩ :: s.sent }.turn pre post c
            (c.report, .ok (.approved d command)))
  | approved {d : ModelVerification.Definition} {command : Approve} (result : Result Unit) :
      CallStep s pre post c (.approved d command) true
        (s.turn pre post c (afterCommand result (.check d command) c.report))
  | check {d : ModelVerification.Definition} {command : Approve} {found : Result Plan} (now : Nat)
      (h : ∀ p, found = .ok p → p ∈ s.jobs ∧ p.planId = command.id) :
      CallStep s pre post c (.check d command) (isOk found)
        (s.turn pre post c (afterCheck d command found now c.report))
  | execute {d : ModelVerification.Definition} :
      CallStep s pre post c (.execute d) true
        ({ s with
          sent := ⟨.execute, (d.nodeId, d.operationId), c.id⟩ :: s.sent }.turn pre post c
            (c.report, .ok (.executed d)))
  | executed {d : ModelVerification.Definition} (result : Result Unit) :
      CallStep s pre post c (.executed d) true
        (s.turn pre post c (afterCommand result .observe c.report))
  | observe {found : Result (Option ModelVerification.Definition)}
      (h : Reads found (readIntent s.rows c.request.nodeId c.request.operationId)) :
      CallStep s pre post c .observe (isOk found) (s.turn pre post c (observeIntent found c.report))
  | observePlan {intent : Option ModelVerification.Definition} {found : Result (Option Plan)}
      (h : Reads found (verificationPlan s.jobs c.request.nodeId c.request.operationId)) :
      CallStep s pre post c (.observePlan intent) (isOk found)
        ({ s with
          reads := (found.toOption.join.map fun p => (c.id, p)).toList ++ s.reads }.turn pre post c
            (observeSource intent found c.report))
  | observeResult {p : Plan} {a : GrantedAttempt} (result : Result Retained) :
      CallStep s pre post c (.observeResult p a) true
        ({ s with
          replies := (result.toOption.join.join.map fun f => (c.id, f)).toList ++
            s.replies }.turn pre post c (observeResult a result c.report))

/-- A request that the command accepts. -/
def Runtime.Accepts (s : Runtime) (request : Request) : Prop :=
  request.validate = .ok () ∧ request.expectedRuntimeId = s.runtime

/-- A call begins. -/
def Runtime.begin (s : Runtime) (request : Request) (source : String) (phase : Phase) : Runtime :=
  { s with
    calls := ⟨s.next, request, .initial s.runtime request source, phase, .nothing⟩ :: s.calls
    next := s.next + 1 }

/-- Request jobs have the id that `jobs::validate` admitted them under. -/
def Admitted (jobs : List Plan) : Prop :=
  ∀ p ∈ jobs, p.requestReview.isSome = true → draftId p.planId = true

/-- One step of the coordinator. -/
inductive Step : Runtime → Runtime → Prop where
  | call {s t : Runtime} {pre post : List Call} {c : Call} {ok : Bool}
      (hcalls : s.calls = pre ++ c :: post) (h : CallStep s pre post c c.phase ok t) : Step s t
  | inspect {s : Runtime} {request : Request} {source : String} (hreq : s.Accepts request)
      (hsource : receiptId request.nodeId request.operationId "source" none = .ok source)
      (hcommand : request.command = .inspect) : Step s (s.begin request source .observe)
  | start {s : Runtime} {request : Request} {source : String} (hreq : s.Accepts request)
      (hsource : receiptId request.nodeId request.operationId "source" none = .ok source)
      (hcommand : request.command ≠ .inspect) (hfree : s.owner = none) :
      Step s { s.begin request source .intent with owner := some s.next }
  /-- `try_lock` fails. -/
  | busy {s : Runtime} {request : Request} {source : String} (hreq : s.Accepts request)
      (hsource : receiptId request.nodeId request.operationId "source" none = .ok source)
      (hcommand : request.command ≠ .inspect) (hbusy : s.owner ≠ none) :
      Step s { s with
        next := s.next + 1
        built := ⟨s.next, request, (Report.initial s.runtime request source).failed, .nothing⟩ ::
          s.built }
  /-- The future of a call is dropped. -/
  | drop {s : Runtime} {pre post : List Call} {c : Call} (hcalls : s.calls = pre ++ c :: post) :
      Step s { s with calls := pre ++ post, owner := release s.owner c.id }
  /-- Everybody else works on the jobs. -/
  | jobs {s : Runtime} {jobs : List Plan} (h : Admitted jobs) : Step s { s with jobs }
  /-- The process ends, and another one opens the store. -/
  | restart {s : Runtime} (runtime : String) (hruntime : validateUuid runtime = .ok ()) :
      Step s { s with runtime, owner := none, calls := [] }

end

end Eef.Coordinator.Verification
