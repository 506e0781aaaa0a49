import Eef.Node.ModelVerification

/-!
# Reports of the fixed model check

`model_verification.rs` of the coordinator: what a request for a model check asks, what a report
says, and `confirmed`, the rules that a client holds a report against. The record that a check
was started at all is the intent of `model_verification_intents.rs`: it is committed before the
first remote request, and no path changes or deletes it.
-/

namespace Eef.Coordinator.Verification

open Eef.Lib Eef.Node Eef.Node.ModelVerification

/-- `State`. -/
inductive State where
  | notFound
  | notReady
  | incomplete
  | awaitingApproval
  | approved
  | running
  | returnedText
  | noText
  | failed
  | unknown
  | unconfirmed
  deriving DecidableEq, Repr

/-- `ReadinessIssue`. -/
inductive ReadinessIssue where
  | missingInterpreter
  | ambiguousInterpreter
  | applySavedInterpreter
  | runtimeUnavailable
  | executionTransportUnavailable
  | managementConsentRequired
  | setupApprovalRequired
  | noApprovedDefault
  | inspectModelSetup
  | setupUnconfirmed
  | permissionsUnconfirmed
  deriving DecidableEq, Repr

/-- `ReadinessIssue::unconfirmed`. -/
def ReadinessIssue.unconfirmed : ReadinessIssue → Bool
  | .setupUnconfirmed | .permissionsUnconfirmed => true
  | _ => false

/-- `Command`. -/
inductive Command where
  | startSelected (approveInference : Bool)
  | start (definition : Definition) (approveInference : Bool)
  | inspect
  deriving DecidableEq, Repr

/-- `Request`. -/
structure Request where
  schemaVersion : Nat
  expectedRuntimeId : String
  nodeId : String
  operationId : String
  command : Command
  deriving DecidableEq, Repr

/-- `Command` as far as `Request::validate` checks it. -/
def Command.validate (c : Command) (nodeId operationId : String) : Result Unit :=
  match c with
  | .startSelected approveInference => ensure approveInference "Explicit inference consent required"
  | .start definition approveInference => do
    definition.validate
    bailIf (approveInference = false ∨ definition.nodeId ≠ nodeId ∨
        definition.operationId ≠ operationId)
      "Explicit inference consent and exact model-check intent required"
  | .inspect => .ok ()

/-- `Request::validate`. -/
def Request.validate [Sha256] (r : Request) : Result Unit := do
  bailIf (r.schemaVersion ≠ 1) "Unsupported model verification schema"
  validateUuid r.expectedRuntimeId
  let _ ← receiptId r.nodeId r.operationId "source" none
  r.command.validate r.nodeId r.operationId

/-- `Evidence`. -/
inductive Evidence where
  | coordinatorJournal
  | nodeJournal
  deriving DecidableEq, Repr

/-- `NOTE`. -/
def note : String :=
  "Fixed, explicitly owner-approved inference check using the existing review and grant services. A returned-text result is historical operation evidence, not interpretation quality, a project-default approval, current residency or automatic onboarding. Receipt reuse only inspects retained history; no automatic replay, renewal, restart, download or permission change."

/-- `Report`. -/
structure Report where
  schemaVersion : Nat
  reportType : String
  coordinatorRuntimeId : String
  nodeId : String
  operationId : String
  sourceOperationId : String
  success : Bool
  state : State
  readinessIssue : Option ReadinessIssue
  definition : Option Definition
  intentRetained : Bool
  jobId : Option String
  grantId : Option String
  executorSessionId : Option String
  evidenceSource : Option Evidence
  sourcePreparationRequested : Bool
  ownerApprovalRequested : Bool
  executionRequested : Bool
  historical : Bool
  outcomeUnknown : Bool
  inferenceReturnedText : Bool
  modelQualityApproved : Bool
  currentSetupVerified : Bool
  restartRequested : Bool
  automaticallyRetried : Bool
  note : String
  deriving DecidableEq, Repr

/-- `success`. -/
def State.success : State → Bool
  | .incomplete | .awaitingApproval | .approved | .running | .returnedText => true
  | _ => false

/-- Some flag says that this call requested work. -/
def Report.requested (r : Report) : Bool :=
  r.sourcePreparationRequested || r.ownerApprovalRequested || r.executionRequested

/-- The rule of `confirmed` for readiness guidance. -/
def Report.guided (r : Report) (command : Command) : Bool :=
  match r.readinessIssue with
  | none => true
  | some issue =>
    (match command with
      | .startSelected _ => true
      | _ => false) &&
    !r.historical && r.definition.isNone && r.jobId.isNone && r.grantId.isNone &&
    r.executorSessionId.isNone && r.evidenceSource.isNone && !r.sourcePreparationRequested &&
    !r.ownerApprovalRequested && !r.executionRequested &&
    r.state == (if issue.unconfirmed then .unconfirmed else .notReady)

/-- The rule of `confirmed` for the definition of a report that is not historical. -/
def Report.current (r : Report) (command : Command) : Bool :=
  r.historical ||
    match command with
    | .start definition _ => r.definition.all (· == definition)
    | .startSelected _ => true
    | .inspect => false

/-- `confirmed`, of a report that parses. -/
def confirmed [Sha256] (r : Report) (request : Request) : Bool :=
  match receiptId request.nodeId request.operationId "source" none with
  | .error _ => false
  | .ok source =>
    isOk request.validate && r.schemaVersion == 1 &&
    r.reportType == "coordinator_model_verification" &&
    r.coordinatorRuntimeId == request.expectedRuntimeId && r.nodeId == request.nodeId &&
    r.operationId == request.operationId && r.sourceOperationId == source &&
    r.success == r.state.success &&
    r.guided request.command &&
    (r.state != .notReady || r.readinessIssue.isSome) &&
    r.inferenceReturnedText == (r.state == .returnedText) && !r.modelQualityApproved &&
    !r.currentSetupVerified && !r.restartRequested && !r.automaticallyRetried &&
    r.note == Verification.note &&
    (r.definition.all fun d => isOk d.validate && d.nodeId == r.nodeId &&
      d.operationId == r.operationId) &&
    ((r.state == .notFound || r.state == .notReady || r.state == .unconfirmed) ||
      (r.definition.isSome && (r.jobId.isSome || (r.state == .unknown && r.intentRetained)))) &&
    (!r.intentRetained || (r.definition.isSome && r.readinessIssue.isNone)) &&
    (r.state != .notFound || (r.definition.isNone && r.jobId.isNone && r.grantId.isNone &&
      r.executorSessionId.isNone && r.evidenceSource.isNone && !r.outcomeUnknown)) &&
    r.outcomeUnknown == (r.state == .unknown || r.state == .unconfirmed) &&
    r.grantId.isSome == r.executorSessionId.isSome &&
    (r.grantId.isNone || (r.jobId.isSome && r.definition.isSome)) &&
    (!(r.state == .returnedText || r.state == .noText) || r.grantId.isSome) &&
    (!(r.state == .returnedText || r.state == .noText) || r.evidenceSource.isSome) &&
    (r.evidenceSource.isNone || r.grantId.isSome) &&
    r.current request.command &&
    (r.jobId.all fun id => isOk (validateDraftId id)) &&
    (r.grantId.all fun id => isOk (validateUuid id)) &&
    (r.executorSessionId.all fun id => isOk (validateUuid id)) &&
    (!r.historical || !r.requested) &&
    (request.command != .inspect || !r.requested) &&
    (!r.inferenceReturnedText || (r.success && r.definition.isSome && r.jobId.isSome &&
      r.grantId.isSome && r.executorSessionId.isSome && !r.outcomeUnknown)) &&
    (!r.executionRequested || (r.ownerApprovalRequested && r.sourcePreparationRequested))

end Eef.Coordinator.Verification
