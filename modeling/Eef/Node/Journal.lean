import Eef.Lib.Table
import Eef.Node.GrantReport
import Eef.Node.PipelineProgress

/-!
# The grant journal and its readers

The tables of the node's SQLite journal and the readers that validate a retained
row before they believe it: `request_receipt.rs` (consumed receipts),
`request_result.rs` (retained results), the reading half of `pipeline_progress.rs`
and of `grant_stop.rs`.

A journal is its tables and the markers their presence depends on. Columns and
tables that only exist from some version on are `Option`s or flags, so a schema
check is a check here too. A text column holds the document it spells; integer
columns hold what the API writes, so they are natural numbers.
-/

namespace Eef.Node

open Eef.Lib

/-! ## Tables -/

/-- The `receipt_kind` column. -/
inductive ReceiptKind where
  | operation
  | workload
  deriving DecidableEq, Repr

/-- A row of `execution_receipts`. -/
structure ReceiptRow where
  issuerId : String
  jobId : String
  taskId : String
  attempt : Nat
  grantId : String
  grantDigest : String
  state : ReceiptState
  acceptedMs : Nat
  updatedMs : Nat
  maxResultBytes : Nat
  report : Option Json
  reportSha256 : Option String
  kind : ReceiptKind
  workloadDefinition : Option Json
  deriving DecidableEq, Repr

/-- A row of `execution_stop_requests`. -/
structure StopRow where
  grantId : String
  grantDigest : String
  issuerId : String
  sessionId : String
  nodeId : String
  jobId : String
  taskId : String
  attempt : Nat
  recordedMs : Nat
  receiptPreexisted : Bool
  deriving DecidableEq, Repr

/-- A row of `execution_pipeline_progress`. -/
structure ProgressRow where
  grantId : String
  grantDigest : String
  payload : Json
  payloadSha256 : String
  deriving DecidableEq, Repr

/-- A row of `execution_workload_event_state`. -/
structure EventStateRow where
  grantId : String
  grantDigest : String
  eventCount : Nat
  eventBytes : Nat
  reservedBytes : Nat
  prefixSha256 : String
  deriving DecidableEq, Repr

/-- A row of `execution_workload_events`. -/
structure EventRow where
  grantId : String
  sequence : Nat
  encodedBytes : Nat
  data : Json
  dataSha256 : String
  prefixSha256 : String
  deriving DecidableEq, Repr

/-- The two event tables, created together. -/
structure EventTables where
  states : List EventStateRow
  events : List EventRow
  deriving DecidableEq, Repr

/-- The journal file. `version` is `PRAGMA user_version`, `owner` the row of
`execution_receipt_owner`; `stops` and `progress` are the adjunct tables, present
with their version-1 marker or not at all. -/
structure Journal where
  version : Nat
  owner : Option String
  pageSize : Nat
  receipts : List ReceiptRow
  stops : Option (List StopRow)
  progress : Option (List ProgressRow)
  kindColumns : Bool
  eventTables : Option EventTables
  deriving DecidableEq, Repr

/-- A file SQLite has just created. -/
def Journal.empty (pageSize : Nat) : Journal where
  version := 0
  owner := none
  pageSize := pageSize
  receipts := []
  stops := none
  progress := none
  kindColumns := false
  eventTables := none

namespace Journal

/-- `SELECT .. FROM execution_receipts WHERE grant_id=?`. -/
def receipt (j : Journal) (id : String) : Option ReceiptRow :=
  Table.find ReceiptRow.grantId id j.receipts

/-- `SELECT .. FROM execution_stop_requests WHERE grant_id=?`. -/
def stop (j : Journal) (id : String) : Option StopRow :=
  j.stops.bind (Table.find StopRow.grantId id)

/-- `SELECT .. FROM execution_pipeline_progress WHERE grant_id=?`. -/
def observation (j : Journal) (id : String) : Option ProgressRow :=
  j.progress.bind (Table.find ProgressRow.grantId id)

/-! ## Schema and owner -/

/-- `workload::validate_schema`, with `event_journal::schema` at its end. -/
def validateSchema (j : Journal) : Result Unit := do
  let workloads := decide (j.version = 3 ∨ j.version = 4 ∨ j.version = 5)
  ensure (j.kindColumns = workloads)
    (if workloads then "Incomplete workload receipt schema; retained without repair"
      else "Unversioned workload receipt columns; retained without migration")
  ensure (j.eventTables.isSome = decide (j.version = 4 ∨ j.version = 5))
    "Workload event schema changed or downgraded; retained without repair"

/-- `request_receipt::validate_owner`. -/
def validateOwner (j : Journal) (node : String) : Result Unit := do
  let owner ← context j.owner "Query returned no rows"
  ensure ((1 ≤ j.version ∧ j.version ≤ 5) ∧ owner = node) "Receipt journal version/owner changed"
  j.validateSchema

/-- `workload::is_workload`. -/
def isWorkload (j : Journal) (id : String) : Result Bool := do
  j.validateSchema
  if j.version < 3 then return false
  match j.receipt id with
  | none => return false
  | some r =>
    match r.kind, r.workloadDefinition with
    | .operation, none => return false
    | .workload, some _ => return true
    | _, _ => .error "Damaged receipt kind or definition; retained without repair"

end Journal

/-! ## Consumed receipts -/

/-- `ConsumedReceipt`. -/
structure ConsumedReceipt where
  schemaVersion : Nat
  nodeId : String
  issuerId : String
  grantId : String
  grantSha256 : String
  jobId : String
  taskId : String
  attempt : Nat
  state : ReceiptState
  acceptedAtMs : Nat
  updatedAtMs : Nat
  pipelineProgress : Option PipelineProgress
  deriving DecidableEq, Repr

namespace ConsumedReceipt

/-- The bounds of `ConsumedReceipt::validate`. -/
def bounded (r : ConsumedReceipt) : Prop :=
  r.schemaVersion = 1 ∧ isNil r.grantId = false ∧ hexDigest r.issuerId ∧ hexDigest r.grantSha256
    ∧ (1 ≤ r.attempt ∧ r.attempt ≤ 11) ∧ r.state ≠ .rejected ∧ r.acceptedAtMs ≠ 0
    ∧ r.acceptedAtMs ≤ r.updatedAtMs ∧ r.updatedAtMs ≤ i64Max
    ∧ ∀ p ∈ r.pipelineProgress, isOk p.validate ∧ r.acceptedAtMs ≤ p.recordedAtMs
      ∧ p.recordedAtMs ≤ r.updatedAtMs

instance (r : ConsumedReceipt) : Decidable r.bounded := inferInstanceAs (Decidable (_ ∧ _))

/-- `ConsumedReceipt::validate`. -/
def validate (r : ConsumedReceipt) : Result Unit := do
  validateRemoteNodeId r.nodeId
  validateDraftId r.jobId
  validateDraftId r.taskId
  validateOperationId r.grantId
  ensure r.bounded "Damaged consumed receipt; retained without recovery or replay"

theorem validate_ok {r : ConsumedReceipt} {u : Unit} : r.validate = .ok u ↔
    remoteNodeId r.nodeId = true ∧ draftId r.jobId = true ∧ draftId r.taskId = true
      ∧ operationId r.grantId = true ∧ r.bounded := by
  simp only [validate, bind_ok, ensure_ok, validateRemoteNodeId_ok, validateDraftId_ok,
    validateOperationId_ok, exists_and_left, exists_const]

section
variable [F64] [PeerAdmission] [Sha256]

/-- `ConsumedReceipt::confirms`. -/
def confirms (r : ConsumedReceipt) (g : ExecutionGrant) : Bool :=
  isOk r.validate && isOk g.validate && r.nodeId == g.executorNode && r.issuerId == g.issuerId
    && r.grantId == g.grantId && r.jobId == g.jobId && r.taskId == g.taskId
    && r.attempt == g.attempt && g.digest == r.grantSha256
    && r.pipelineProgress.all (·.confirms g)

end

end ConsumedReceipt

section
variable [Sha256] [F64]

/-- `pipeline_progress::decode` of the joined row. -/
def decodeProgress (row : Option ProgressRow) (expected : String) :
    Result (Option PipelineProgress) := do
  match row with
  | none => return none
  | some p =>
    ensure (p.payload.size ≤ maxCheckpointBytes ∧ p.grantDigest = expected
      ∧ p.payloadSha256 = Sha256.raw p.payload)
      "Damaged pipeline observation; retained without repair"
    let checkpoint ← context (if p.payload.parses then PipelineProgress.fromJson p.payload else none)
      "Pipeline observation cannot be decoded"
    checkpoint.validate
    return some checkpoint

namespace Journal

/-- `request_receipt::read_consumed`. -/
def readConsumed (j : Journal) (node : String) (issuer : Option String) (id : String) :
    Result ConsumedReceipt := do
  validateOperationId id
  bailIf (issuer.any fun s => !hexDigest s) "Invalid receipt issuer"
  j.validateOwner node
  let row ← context ((j.receipt id).filter fun r => issuer.all (· == r.issuerId))
    "Consumed receipt unavailable for this issuer"
  let pipelineProgress ← decodeProgress (j.observation id) row.grantDigest
  let value : ConsumedReceipt :=
    { schemaVersion := 1, nodeId := node, issuerId := row.issuerId, grantId := id,
      grantSha256 := row.grantDigest, jobId := row.jobId, taskId := row.taskId,
      attempt := row.attempt, state := row.state, acceptedAtMs := row.acceptedMs,
      updatedAtMs := row.updatedMs, pipelineProgress }
  value.validate
  return value

end Journal

/-! ## Retained results -/

/-- The `availability` text of a retained result. -/
inductive Availability where
  | legacyMetadataOnly
  | noFinalCheckpoint
  | retainedFinalReport
  deriving DecidableEq, Repr

/-- `RetainedResult`. -/
structure RetainedResult where
  schemaVersion : Nat
  receipt : ConsumedReceipt
  maxResultBytes : Nat
  availability : Availability
  report : Option GrantReport
  reportSha256 : Option String
  deriving DecidableEq, Repr

namespace RetainedResult

/-- The final report is the one this receipt was for. -/
def reportMatches (s : RetainedResult) (r : GrantReport) : Prop :=
  s.availability = .retainedFinalReport
    ∧ (s.reportSha256.any fun sha => hexDigest sha && Sha256.definition r.toJson == sha) = true
    ∧ r.schemaVersion = 1 ∧ r.grantId = s.receipt.grantId ∧ r.grantSha256 = s.receipt.grantSha256
    ∧ r.issuerId = s.receipt.issuerId ∧ r.executorNode = s.receipt.nodeId
    ∧ r.jobId = s.receipt.jobId ∧ r.taskId = s.receipt.taskId ∧ r.attempt = s.receipt.attempt
    ∧ isNil r.sessionId = false ∧ hexDigest r.planSha256 = true ∧ r.accepted = true
    ∧ r.persisted = true ∧ r.executionMayHaveStarted = true
    ∧ (r.state = .completed ∨ r.state = .unknown)
    ∧ s.receipt.state = (if r.state = .completed then .completed else .unknown)
    ∧ r.success = (r.state == .completed && r.errorCode.isNone)
    ∧ (∀ code ∈ r.errorCode, identifier code = true)
    ∧ (r.state = .unknown → r.data.isNull = true ∧ r.errorCode.isSome = true)
    ∧ r.data.size ≤ s.maxResultBytes ∧ r.toJson.size ≤ s.maxResultBytes + reportHeadroom

instance (s : RetainedResult) (r : GrantReport) : Decidable (s.reportMatches r) :=
  inferInstanceAs (Decidable (_ ∧ _))

/-- `RetainedResult::validate`. -/
def validate (s : RetainedResult) : Result Unit := do
  s.receipt.validate
  ensure (s.schemaVersion = 1) "Unsupported retained result schema"
  if s.maxResultBytes = 0 then
    ensure (s.availability = .legacyMetadataOnly ∧ s.report = none ∧ s.reportSha256 = none)
      "Legacy receipt cannot claim retained output"
  else
    ensure (1024 ≤ s.maxResultBytes ∧ s.maxResultBytes ≤ 1024 * 1024)
      "Invalid retained result bound"
    if s.receipt.state = .accepted then
      ensure (s.availability = .noFinalCheckpoint ∧ s.report = none ∧ s.reportSha256 = none)
        "Pending/uncertain receipt cannot claim a final report"
    else
      let r ← context s.report "Final report unavailable"
      validateOperationId r.sessionId
      ensure (s.reportMatches r) "Damaged retained final report; no recovery or replay"

end RetainedResult

namespace Journal

/-- The report text a retained row shows: absent, or read if its size fits the
column bound of the query. -/
def storedReport (row : ReceiptRow) : Result (Option GrantReport) := do
  bailIf (row.report.any fun raw => decide (raw.size > row.maxResultBytes + reportHeadroom))
    "Retained report exceeds its stored bound"
  match row.report.filter fun raw => decide (raw.size ≤ 1024 * 1024 + reportHeadroom) with
  | none => return none
  | some raw =>
    let r ← context (if raw.parses then GrantReport.fromJson raw else none)
      "Retained report cannot be decoded"
    return some r

/-- The result `read_in_snapshot` puts together; before version 2 there is only the
receipt. -/
def retained (j : Journal) (receipt : ConsumedReceipt) (row : ReceiptRow) :
    Result RetainedResult :=
  if 2 ≤ j.version then do
    let report ← storedReport row
    return { schemaVersion := 1, receipt, maxResultBytes := row.maxResultBytes,
             availability :=
               if row.maxResultBytes = 0 then .legacyMetadataOnly
               else if receipt.state = .accepted then .noFinalCheckpoint
               else .retainedFinalReport,
             report, reportSha256 := row.reportSha256 }
  else
    .ok { schemaVersion := 1, receipt, maxResultBytes := 0,
          availability := .legacyMetadataOnly, report := none, reportSha256 := none }

/-- `request_result::read_in_snapshot`. -/
def readResult (j : Journal) (node : String) (issuer : Option String) (id : String) :
    Result RetainedResult := do
  let workload ← j.isWorkload id
  bailIf (workload = true) "Workload receipt requires typed workload inspection"
  let receipt ← j.readConsumed node issuer id
  let row ← context (j.receipt id) "Query returned no rows"
  let result ← j.retained receipt row
  result.validate
  return result

end Journal

end

/-! ## Stop evidence -/

/-- `stop::Report`. -/
structure StopReport where
  schemaVersion : Nat
  reportType : String
  grantId : String
  grantSha256 : String
  issuerId : String
  sessionId : String
  executorNode : String
  jobId : String
  taskId : String
  attempt : Nat
  recordedAtMs : Nat
  receiptPreexisted : Bool
  reused : Bool
  cancellationSignalled : Bool
  persisted : Bool
  stopRequested : Bool
  executionStopped : Bool
  externalEffectsStopped : Bool
  executionAuthorized : Bool
  automaticallyRetried : Bool
  deriving DecidableEq, Repr

/-- The report a retained row reads as. -/
def StopReport.ofRow (s : StopRow) : StopReport where
  schemaVersion := 1
  reportType := "grant_stop_receipt"
  grantId := s.grantId
  grantSha256 := s.grantDigest
  issuerId := s.issuerId
  sessionId := s.sessionId
  executorNode := s.nodeId
  jobId := s.jobId
  taskId := s.taskId
  attempt := s.attempt
  recordedAtMs := s.recordedMs
  receiptPreexisted := s.receiptPreexisted
  reused := true
  cancellationSignalled := false
  persisted := true
  stopRequested := true
  executionStopped := false
  externalEffectsStopped := false
  executionAuthorized := false
  automaticallyRetried := false

/-- `Report::identity_valid`. -/
def StopReport.identityValid (r : StopReport) : Bool :=
  operationId r.grantId && uuid r.sessionId && remoteNodeId r.executorNode && draftId r.jobId
    && draftId r.taskId && hexDigest r.grantSha256 && hexDigest r.issuerId
    && (1 ≤ r.attempt && r.attempt ≤ 11) && 0 < r.recordedAtMs && r.recordedAtMs ≤ i64Max

/-- `Report::confirms_scope`. -/
def StopReport.confirmsScope (r : StopReport) (s : Scope) : Bool :=
  r.identityValid && isOk s.validate && r.schemaVersion == 1
    && r.reportType == "grant_stop_receipt" && r.grantId == s.grantId && r.issuerId == s.issuerId
    && r.sessionId == s.sessionId && r.executorNode == s.executorNode && r.jobId == s.jobId
    && r.taskId == s.taskId && r.attempt == s.attempt && s.grantSha256 == r.grantSha256
    && r.persisted && r.stopRequested && !r.executionStopped && !r.externalEffectsStopped
    && !r.executionAuthorized && !r.automaticallyRetried

/-- Bytes of the text columns of a stop row. -/
def StopRow.textBytes (s : StopRow) : Nat :=
  s.grantId.utf8ByteSize + s.grantDigest.utf8ByteSize + s.issuerId.utf8ByteSize
    + s.sessionId.utf8ByteSize + s.nodeId.utf8ByteSize + s.jobId.utf8ByteSize
    + s.taskId.utf8ByteSize

namespace Journal

/-- `stop::read`. -/
def readStop (j : Journal) (id : String) : Result (Option StopReport) := do
  match j.stop id with
  | none => return none
  | some s =>
    ensure (1 ≤ s.textBytes ∧ s.textBytes ≤ 4096) "Damaged or oversized stop evidence"
    return some (StopReport.ofRow s)

/-- `stop::recorded_scope`. -/
def recordedScope (j : Journal) (s : Scope) : Result Bool := do
  match ← j.readStop s.grantId with
  | none => return false
  | some report =>
    ensure (report.confirmsScope s) "Stop evidence does not match the exact grant"
    return true

/-- The column test of `stop::validate_all`. -/
def stopColumns (s : StopRow) : Prop :=
  s.grantId.length = 36 ∧ s.grantDigest.length = 64 ∧ s.issuerId.length = 64
    ∧ s.sessionId.length = 36 ∧ s.nodeId.length ≤ 255 ∧ s.jobId.length = 32
    ∧ s.taskId.length = 32 ∧ (1 ≤ s.attempt ∧ s.attempt ≤ 11) ∧ 1 ≤ s.recordedMs

instance (s : StopRow) : Decidable (stopColumns s) := inferInstanceAs (Decidable (_ ∧ _))

variable [Sha256] [F64]

/-- One turn of the loop of `stop::validate_all`. -/
def validateStop (j : Journal) (node : String) (s : StopRow) : Result Unit := do
  let read ← j.readStop s.grantId
  let report ← context read "Stop evidence vanished"
  let receipt ← j.readConsumed node (some report.issuerId) s.grantId
  ensure (report.identityValid ∧ report.executorNode = node
    ∧ receipt.grantSha256 = report.grantSha256 ∧ receipt.jobId = report.jobId
    ∧ receipt.taskId = report.taskId ∧ receipt.attempt = report.attempt)
    "Stop evidence differs from consumption journal"

/-- `stop::validate_all`. -/
def validateStops (j : Journal) (node : String) : Result Unit := do
  match j.stops with
  | none => return ()
  | some stops =>
    ensure (∀ s ∈ stops, stopColumns s) "Damaged stop evidence; retained without repair"
    ensure ((stops.map StopRow.grantId).Nodup) "Stop evidence differs from consumption journal"
    each (j.validateStop node) stops

end Journal

end Eef.Node
