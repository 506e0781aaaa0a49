import Eef.Lib.Table
import Eef.Coordinator.Verification

/-!
# Consent to a model check after setup

`setup_model_check.rs` and `setup_model_check_store.rs`: one durable record for each operation
that an owner armed, and the four operations of the store on it. A record is inserted by `arm`
and only moves forward afterwards; `launch` is the claim that has to succeed before the check is
started, and `cancel` races with it for the record. A row is the text it holds: what it parses as
and how long it is.
-/

namespace Eef.Coordinator.SetupChecks

open Eef.Lib Eef.Node Eef.Node.ModelVerification

/-- `RECORD_BYTES`. -/
def recordBytes : Nat := 4096

/-- `MAX_WAIT_MS`. -/
def maxWaitMs : Nat := 300000

/-- `Definition`. -/
structure Definition where
  schemaVersion : Nat
  nodeId : String
  operationId : String
  model : ModelRef
  maxWaitMs : Nat
  deriving DecidableEq, Repr

namespace Definition

/-- `Definition::validate`. -/
def validate (d : Definition) : Result Unit := do
  validateRemoteNodeId d.nodeId
  validateUuid d.operationId
  ModelServer.Server.validateId d.model.modelId
  bailIf (d.schemaVersion ≠ 1 ∨ ¬(1000 ≤ d.maxWaitMs ∧ d.maxWaitMs ≤ SetupChecks.maxWaitMs))
    "Unsupported or unbounded setup model check"

/-- `Definition::id`. -/
def id [Sha256] (d : Definition) : Result String := do
  d.validate
  receiptId d.nodeId d.operationId "source" none

/-- Derived `Serialize`. -/
def toJson (d : Definition) : Json :=
  .obj [("schema_version", .nat d.schemaVersion), ("node_id", .str d.nodeId),
    ("operation_id", .str d.operationId), ("model", d.model.toJson),
    ("max_wait_ms", .nat d.maxWaitMs)]

end Definition

/-- `State`. `interrupted` is derived, never saved. -/
inductive State where
  | waiting
  | launching
  | finished
  | cancelled
  | expired
  | unknown
  | interrupted
  deriving DecidableEq, Repr

@[inherit_doc Definition.toJson]
def State.name : State → String
  | .waiting => "waiting"
  | .launching => "launching"
  | .finished => "finished"
  | .cancelled => "cancelled"
  | .expired => "expired"
  | .unknown => "unknown"
  | .interrupted => "interrupted"

/-- `matches!(state, State::Waiting | State::Launching)`. -/
def State.live : State → Bool
  | .waiting | .launching => true
  | _ => false

@[inherit_doc Definition.toJson]
def verificationName : Verification.State → String
  | .notFound => "not_found"
  | .notReady => "not_ready"
  | .incomplete => "incomplete"
  | .awaitingApproval => "awaiting_approval"
  | .approved => "approved"
  | .running => "running"
  | .returnedText => "returned_text"
  | .noText => "no_text"
  | .failed => "failed"
  | .unknown => "unknown"
  | .unconfirmed => "unconfirmed"

/-- `Outcome`. -/
structure Outcome where
  state : Verification.State
  nodeRuntimeId : Option String
  jobId : Option String
  grantId : Option String
  historical : Bool
  outcomeUnknown : Bool
  inferenceReturnedText : Bool
  deriving DecidableEq, Repr

namespace Outcome

/-- `Outcome::validate`. -/
def validate (o : Outcome) : Result Unit := do
  each validateUuid (o.nodeRuntimeId.toList ++ o.grantId.toList)
  each validateDraftId o.jobId.toList
  bailIf (¬(o.inferenceReturnedText = true ↔ o.state = .returnedText) ∨
      (o.inferenceReturnedText = true ∧ (o.outcomeUnknown = true ∨ o.nodeRuntimeId = none ∨
        o.jobId = none ∨ o.grantId = none)))
    "Unconfirmed setup check outcome"

/-- The outcome is known, and of a kind that finishes a check. -/
def definitive (o : Outcome) : Bool :=
  !o.outcomeUnknown && (o.state == .returnedText || o.state == .noText || o.state == .failed)

@[inherit_doc Definition.toJson]
def toJson (o : Outcome) : Json :=
  .obj [("state", .str (verificationName o.state)),
    ("node_runtime_id", .ofOption .str o.nodeRuntimeId), ("job_id", .ofOption .str o.jobId),
    ("grant_id", .ofOption .str o.grantId), ("historical", .bool o.historical),
    ("outcome_unknown", .bool o.outcomeUnknown),
    ("inference_returned_text", .bool o.inferenceReturnedText)]

end Outcome

/-- `Record`. -/
structure Record where
  schemaVersion : Nat
  definition : Definition
  coordinatorRuntimeId : String
  createdAtMs : Nat
  state : State
  outcome : Option Outcome
  deriving DecidableEq, Repr

namespace Record

/-- `Record::validate`. -/
def validate (r : Record) : Result Unit := do
  r.definition.validate
  validateUuid r.coordinatorRuntimeId
  bailIf (r.schemaVersion ≠ 1 ∨ r.createdAtMs = 0 ∨ r.state = .interrupted ∨
      (r.state = .finished ∧ r.outcome.all (fun o => !o.definitive) = true) ∨
      (r.outcome.isSome = true ∧ r.state ≠ .finished ∧ r.state ≠ .unknown))
    "Damaged or future setup check; retain without replay"
  each Outcome.validate r.outcome.toList

@[inherit_doc Definition.toJson]
def toJson (r : Record) : Json :=
  .obj [("schema_version", .nat r.schemaVersion), ("definition", r.definition.toJson),
    ("coordinator_runtime_id", .str r.coordinatorRuntimeId),
    ("created_at_ms", .nat r.createdAtMs), ("state", .str r.state.name),
    ("outcome", .ofOption Outcome.toJson r.outcome)]

/-- The check that a record is about. -/
def key (r : Record) : String × String := (r.definition.nodeId, r.definition.operationId)

end Record

/-! ## Requests and reports -/

/-- `Command`. -/
inductive Command where
  | arm (model : ModelRef) (maxWaitMs : Nat) (approveInference : Bool)
  | inspect
  | cancelWait
  deriving DecidableEq, Repr

/-- `matches!(command, Command::Arm { .. })`. -/
def Command.isArm : Command → Bool
  | .arm _ _ _ => true
  | _ => false

/-- `Request`. -/
structure Request where
  schemaVersion : Nat
  expectedRuntimeId : String
  nodeId : String
  operationId : String
  command : Command
  deriving DecidableEq, Repr

/-- `Request::definition`. -/
def Request.definition (r : Request) : Result Definition :=
  match r.command with
  | .arm model maxWaitMs _ => .ok ⟨1, r.nodeId, r.operationId, model, maxWaitMs⟩
  | _ => .error "Only arm defines setup-check consent"

/-- The check of an arm command in `Request::validate`. -/
def Request.validateCommand (r : Request) : Result Unit :=
  match r.command with
  | .arm _ _ approveInference => do
    ensure approveInference "Separate explicit inference consent is required"
    let definition ← r.definition
    definition.validate
  | _ => .ok ()

/-- `Request::validate`. -/
def Request.validate (r : Request) : Result Unit := do
  bailIf (r.schemaVersion ≠ 1) "Unsupported setup model check request"
  validateUuid r.expectedRuntimeId
  validateRemoteNodeId r.nodeId
  validateUuid r.operationId
  r.validateCommand

/-- `valid_reason`. -/
def validReason (reason : String) : Bool :=
  reason ∈ ["waiting_for_setup", "waiting_for_exact_model", "setup_unconfirmed",
    "permissions_unconfirmed", "management_consent_required", "awaiting_private_transport",
    "waiting_for_applied_selection", "waiting_for_runtime", "awaiting_setup_approval"]

/-- `reason`. -/
def reasonOf : Verification.ReadinessIssue → String
  | .setupUnconfirmed => "setup_unconfirmed"
  | .permissionsUnconfirmed => "permissions_unconfirmed"
  | .managementConsentRequired => "management_consent_required"
  | .executionTransportUnavailable => "awaiting_private_transport"
  | .applySavedInterpreter | .ambiguousInterpreter => "waiting_for_applied_selection"
  | .runtimeUnavailable => "waiting_for_runtime"
  | .setupApprovalRequired => "awaiting_setup_approval"
  | _ => "waiting_for_setup"

theorem validReason_reasonOf (issue : Verification.ReadinessIssue) :
    validReason (reasonOf issue) = true := by
  cases issue <;> decide

/-- `Report`. -/
structure Report where
  schemaVersion : Nat
  reportType : String
  coordinatorRuntimeId : String
  nodeId : String
  operationId : String
  command : Command
  success : Bool
  record : Option Record
  effectiveState : Option State
  workerActive : Bool
  waitingReason : Option String
  consentCreated : Bool
  waitingCancelled : Bool
  reused : Bool
  automaticallyRetried : Bool
  resumed : Bool
  modelSelectionChanged : Bool
  modelQualityApproved : Bool
  currentSetupVerified : Bool
  deriving DecidableEq, Repr

/-- `effective_state`. -/
def effectiveState (r : Record) (runtime : String) (active : Bool) : State :=
  if r.state = .waiting ∧ (active = false ∨ r.coordinatorRuntimeId ≠ runtime) then .interrupted
  else if r.state = .launching ∧ (active = false ∨ r.coordinatorRuntimeId ≠ runtime) then .unknown
  else r.state

/-- The rules of `confirmed` for the record of a report. -/
def Report.recordConfirmed (p : Report) (request : Request) : Option Record → Bool
  | none =>
    !request.command.isArm && p.effectiveState.isNone && p.waitingReason.isNone &&
      !p.workerActive && !p.consentCreated && !p.waitingCancelled && !p.reused
  | some record =>
    isOk record.validate && record.definition.nodeId == request.nodeId &&
      record.definition.operationId == request.operationId &&
      (!request.command.isArm || request.definition == .ok record.definition) &&
      p.effectiveState ==
        some (SetupChecks.effectiveState record request.expectedRuntimeId p.workerActive) &&
      (!p.workerActive || (record.coordinatorRuntimeId == request.expectedRuntimeId &&
        record.state.live)) &&
      (p.waitingReason.isNone || (p.workerActive && record.state == .waiting)) &&
      (!p.reused || request.command.isArm) &&
      (!request.command.isArm || p.consentCreated != p.reused) &&
      (!(p.workerActive && record.state == .waiting) || p.waitingReason.isSome) &&
      p.waitingReason.all validReason &&
      (!p.waitingCancelled || record.state == .cancelled) &&
      (!p.consentCreated || record.coordinatorRuntimeId == request.expectedRuntimeId)

/-- `confirmed`, of a report that parses. -/
def confirmed (p : Report) (request : Request) : Bool :=
  isOk request.validate && p.schemaVersion == 1 &&
    p.reportType == "coordinator_setup_model_check" &&
    p.coordinatorRuntimeId == request.expectedRuntimeId && p.nodeId == request.nodeId &&
    p.operationId == request.operationId && p.command == request.command && p.success &&
    !p.automaticallyRetried && !p.resumed && !p.modelSelectionChanged &&
    !p.modelQualityApproved && !p.currentSetupVerified &&
    (!p.consentCreated || request.command.isArm) &&
    (!p.waitingCancelled || request.command == .cancelWait) &&
    !(p.consentCreated && p.reused) && p.recordConfirmed request p.record

/-! ## The store -/

/-- A row: what its text parses as, the length of the text, and the bytes reserved for it. -/
structure Row where
  checkId : String
  length : Nat
  reserved : Nat
  recordJson : Option Record
  deriving DecidableEq, Repr

/-- The rest of the store, as `arm` reads it: the model check intent of the operation, the bytes
in use and the records counted, and the two bounds. -/
structure Quota where
  intent : Result (Option ModelVerification.Definition)
  used : Nat
  count : Nat
  maxBytes : Nat
  maxCount : Nat

section

variable [F64] [Sha256]

omit [F64] in
/-- `read`. -/
def read (rows : List Row) (node operation : String) : Result (Option Record) := do
  let id ← receiptId node operation "source" none
  match Table.find Row.checkId id rows with
  | none => .ok none
  | some row => do
    bailIf (¬(1 ≤ row.length ∧ row.length ≤ recordBytes) ∨ row.reserved ≠ recordBytes)
      "Unconfirmed setup check; retain without repair"
    let record ← context row.recordJson "Damaged or future setup check; retain without replay"
    record.validate
    let own ← record.definition.id
    bailIf (record.definition.nodeId ≠ node ∨ record.definition.operationId ≠ operation ∨ own ≠ id)
      "Setup-check row identity changed"
    return some record

/-- The row that `save` writes. -/
def Row.of (id : String) (record : Record) : Row :=
  ⟨id, record.toJson.size, recordBytes, some record⟩

/-- `save` with `insert`. The primary key refuses a row that exists. -/
def insert (rows : List Row) (record : Record) : Result (List Row) := do
  record.validate
  bailIf (recordBytes < record.toJson.size) "Setup-check record exceeds its reserved bound"
  let id ← record.definition.id
  bailIf ((Table.find Row.checkId id rows).isSome = true)
    "UNIQUE constraint failed: setup_model_checks.check_id"
  return rows ++ [Row.of id record]

/-- `save` without `insert`. -/
def save (rows : List Row) (record : Record) : Result (List Row) := do
  record.validate
  bailIf (recordBytes < record.toJson.size) "Setup-check record exceeds its reserved bound"
  let id ← record.definition.id
  ensure (∃ row ∈ rows, row.checkId = id ∧ row.reserved = recordBytes)
    "Setup-check update identity missing"
  return Table.update (fun row => row.checkId = id ∧ row.reserved = recordBytes)
    (fun row => { row with length := record.toJson.size, recordJson := some record }) rows

/-- `arm_setup_model_check`. -/
def arm (rows : List Row) (definition : Definition) (runtime : String) (quota : Quota)
    (now : Nat) : Result (List Row × Record × Bool) := do
  definition.validate
  validateUuid runtime
  match ← read rows definition.nodeId definition.operationId with
  | some record => do
    bailIf (record.definition ≠ definition) "Setup-check consent conflicts; no replacement or retry"
    return (rows, record, false)
  | none => do
    let intent ← quota.intent
    bailIf (intent.isSome = true)
      "Model-check history already exists; inspect it without arming new consent"
    bailIf (quota.maxCount ≤ quota.count ∨ quota.maxBytes - quota.used < recordBytes)
      "Setup-check history is full; no inference consent was saved"
    let record : Record := ⟨1, definition, runtime, now, .waiting, none⟩
    let rows ← insert rows record
    return (rows, record, true)

/-- The record of a worker: its own definition, under its own runtime. -/
def owned (rows : List Row) (definition : Definition) (runtime : String) : Result Record := do
  let found ← read rows definition.nodeId definition.operationId
  let record ← context found "Missing setup-check consent"
  bailIf (record.definition ≠ definition ∨ record.coordinatorRuntimeId ≠ runtime)
    "Setup-check owner changed"
  return record

/-- `launch_setup_model_check`. -/
def launch (rows : List Row) (definition : Definition) (runtime : String) :
    Result (List Row × Bool) := do
  let record ← owned rows definition runtime
  if record.state ≠ .waiting then
    return (rows, false)
  else do
    let rows ← save rows { record with state := .launching }
    return (rows, true)

/-- `cancel_setup_model_check_wait`. -/
def cancelWait (rows : List Row) (node operation : String) : Result (List Row × Bool) := do
  match ← read rows node operation with
  | none => return (rows, false)
  | some record =>
    if record.state ≠ .waiting then
      return (rows, false)
    else do
      let rows ← save rows { record with state := .cancelled }
      return (rows, true)

omit [F64] [Sha256] in
/-- The state that `finish_setup_model_check` saves, if it saves one. -/
def finishState (state : State) (outcome : Option Outcome) (timedOut : Bool) : Option State :=
  match state with
  | .waiting => some (if timedOut then .expired else .unknown)
  | .launching =>
    some (if outcome.any Outcome.definitive && !timedOut then .finished else .unknown)
  | _ => none

/-- `finish_setup_model_check`. -/
def finish (rows : List Row) (definition : Definition) (runtime : String)
    (outcome : Option Outcome) (timedOut : Bool) : Result (List Row) := do
  let record ← owned rows definition runtime
  match finishState record.state outcome timedOut with
  | none => return rows
  | some state => save rows { record with state, outcome }

/-! ## What the operations do -/

omit [F64] [Sha256] in
theorem Record.validate_definition {r : Record} (h : r.validate = .ok ()) :
    r.definition.validate = .ok () := by
  simp only [Record.validate, bind_ok] at h
  obtain ⟨_, hd, -⟩ := h
  exact hd

/-- The store holds `r` for the check `k`. -/
def Held (rows : List Row) (k : String × String) (r : Record) : Prop :=
  read rows k.1 k.2 = .ok (some r)

omit [F64] in
theorem held_iff {rows : List Row} {k : String × String} {r : Record} :
    Held rows k r ↔ ∃ id row, receiptId k.1 k.2 "source" none = .ok id ∧
      Table.find Row.checkId id rows = some row ∧ 1 ≤ row.length ∧ row.length ≤ recordBytes ∧
      row.reserved = recordBytes ∧ row.recordJson = some r ∧ r.validate = .ok () ∧ r.key = k := by
  simp only [Held, read, bind_ok]
  constructor
  · rintro ⟨id, hid, h⟩
    cases hf : Table.find Row.checkId id rows with
    | none =>
      rw [hf] at h
      cases h
    | some row =>
      rw [hf] at h
      simp only [bind_ok, bailIf_ok, context_ok, pure_ok, not_or, not_not, Option.some.injEq] at h
      obtain ⟨_, ⟨⟨hlo, hhi⟩, hreserved⟩, record, hrecord, _, hvalid, own, -, _, ⟨hnode, hop, -⟩,
        rfl⟩ := h
      exact ⟨id, row, hid, hf, hlo, hhi, hreserved, hrecord, hvalid, Prod.ext hnode hop⟩
  · rintro ⟨id, row, hid, hf, hlo, hhi, hreserved, hrecord, hvalid, rfl⟩
    refine ⟨id, hid, ?_⟩
    simp only [hf, bind_ok, bailIf_ok, context_ok, pure_ok, not_or, not_not, Option.some.injEq]
    refine ⟨(), ⟨⟨hlo, hhi⟩, hreserved⟩, r, hrecord, (), hvalid, id, ?_, (), ⟨rfl, rfl, rfl⟩, rfl⟩
    simp only [Definition.id, bind_ok]
    exact ⟨(), Record.validate_definition hvalid, hid⟩

omit [F64] in
theorem Held.validate {rows : List Row} {k : String × String} {r : Record} (h : Held rows k r) :
    r.validate = .ok () := by
  obtain ⟨_, _, _, _, _, _, _, _, hvalid, _⟩ := held_iff.mp h
  exact hvalid

omit [F64] in
theorem Held.key {rows : List Row} {k : String × String} {r : Record} (h : Held rows k r) :
    r.key = k := by
  obtain ⟨_, _, _, _, _, _, _, _, _, hkey⟩ := held_iff.mp h
  exact hkey

omit [F64] in
theorem Held.unique {rows : List Row} {k : String × String} {r r' : Record} (h : Held rows k r)
    (h' : Held rows k r') : r = r' := by
  rw [Held, h] at h'
  cases h'
  rfl

/-- The record of the check `k` becomes `r`, and no other record changes. -/
structure Changed (rows rows' : List Row) (k : String × String) (r : Record) : Prop where
  held : Held rows' k r
  others : ∀ k' q, k' ≠ k → Held rows k' q → Held rows' k' q

omit [Sha256] in
theorem toJson_size_pos (r : Record) : 1 ≤ r.toJson.size := by
  simp only [Record.toJson, Json.size]
  omega

/-- An update replaces the record of its own check. -/
theorem save_ok {rows rows' : List Row} {k : String × String} {r r' : Record}
    (hheld : Held rows k r) (hkey : r'.key = k) (h : save rows r' = .ok rows') :
    Changed rows rows' k r' := by
  simp only [save, bind_ok, bailIf_ok, ensure_ok, pure_ok, Nat.not_lt] at h
  obtain ⟨_, hvalid, _, hsize, id, hid, _, -, rfl⟩ := h
  obtain ⟨id', row, hid', hf, -, -, hreserved, hrecord, -, hrkey⟩ := held_iff.mp hheld
  have hidk : receiptId k.1 k.2 "source" none = .ok id := by
    simp only [Definition.id, bind_ok] at hid
    obtain ⟨_, -, hid⟩ := hid
    rw [← hkey]
    exact hid
  rw [hidk] at hid'
  cases hid'
  have hupdate := @Table.find_update Row String _ Row.checkId
    (fun row => row.checkId = id ∧ row.reserved = recordBytes)
    (fun row => { row with length := r'.toJson.size, recordJson := some r' }) fun _ => rfl
  refine ⟨?_, ?_⟩
  · refine held_iff.mpr ⟨id, { row with length := r'.toJson.size, recordJson := some r' }, hidk, ?_,
      toJson_size_pos r', hsize, hreserved, rfl, hvalid, hkey⟩
    rw [hupdate, hf]
    simp [(Table.find_some hf).2, hreserved]
  · intro k' q hne hq
    obtain ⟨id', row', hid', hf', hlo, hhi, hreserved', hrecord', hvalid', hkey'⟩ :=
      held_iff.mp hq
    refine held_iff.mpr ⟨id', row', hid', ?_, hlo, hhi, hreserved', hrecord', hvalid', hkey'⟩
    have hids : id' ≠ id := by
      rintro rfl
      rw [hf] at hf'
      cases hf'
      rw [hrecord] at hrecord'
      cases hrecord'
      exact hne (hkey'.symm.trans hrkey)
    rw [hupdate, hf']
    simp [(Table.find_some hf').2, hids]

theorem insert_ok {rows rows' : List Row} {r : Record} (h : insert rows r = .ok rows') :
    Changed rows rows' r.key r := by
  simp only [insert, bind_ok, bailIf_ok, pure_ok, Nat.not_lt, Bool.not_eq_true,
    Option.isSome_eq_false_iff, Option.isNone_iff_eq_none] at h
  obtain ⟨_, hvalid, _, hsize, id, hid, _, hnone, rfl⟩ := h
  have hidk : receiptId r.key.1 r.key.2 "source" none = .ok id := by
    simp only [Definition.id, bind_ok] at hid
    obtain ⟨_, -, hid⟩ := hid
    exact hid
  refine ⟨?_, ?_⟩
  · exact held_iff.mpr ⟨id, Row.of id r, hidk, Table.find_insert_self (r := Row.of id r) hnone,
      toJson_size_pos r, hsize, rfl, rfl, hvalid, rfl⟩
  · intro k' q _ hq
    obtain ⟨id', row', hid', hf', hrest⟩ := held_iff.mp hq
    refine held_iff.mpr ⟨id', row', hid', ?_, hrest⟩
    rw [Table.find_insert, hf', Option.some_or]

/-- A new consent is inserted waiting; a known one is only reported. -/
theorem arm_ok {rows rows' : List Row} {d : Definition} {runtime : String} {quota : Quota}
    {now : Nat} {r : Record} {created : Bool}
    (h : arm rows d runtime quota now = .ok (rows', r, created)) :
    (created = true ∧ read rows d.nodeId d.operationId = .ok none ∧
      r = ⟨1, d, runtime, now, .waiting, none⟩ ∧ Changed rows rows' r.key r) ∨
    (created = false ∧ rows' = rows ∧ Held rows r.key r ∧ r.definition = d) := by
  simp only [arm, bind_ok] at h
  obtain ⟨_, -, _, -, found, hread, h⟩ := h
  cases found with
  | some record =>
    simp only [bind_ok, bailIf_ok, pure_ok, not_not, Prod.mk.injEq] at h
    obtain ⟨_, hdef, rfl, rfl, rfl⟩ := h
    refine Or.inr ⟨rfl, rfl, ?_, hdef⟩
    rw [Record.key, hdef]
    exact hread
  | none =>
    simp only [bind_ok, bailIf_ok, pure_ok, Prod.mk.injEq] at h
    obtain ⟨_, -, _, -, _, -, rows'', hinsert, rfl, rfl, rfl⟩ := h
    exact Or.inl ⟨rfl, hread, rfl, insert_ok hinsert⟩

omit [F64] in
theorem owned_ok {rows : List Row} {d : Definition} {runtime : String} {r : Record}
    (h : owned rows d runtime = .ok r) :
    Held rows (d.nodeId, d.operationId) r ∧ r.definition = d ∧
      r.coordinatorRuntimeId = runtime := by
  simp only [owned, bind_ok, context_ok, bailIf_ok, pure_ok, not_or, not_not] at h
  obtain ⟨_, hread, record, rfl, _, ⟨hdef, hruntime⟩, rfl⟩ := h
  exact ⟨hread, hdef, hruntime⟩

/-- The claim of a launch. -/
theorem launch_ok {rows rows' : List Row} {d : Definition} {runtime : String} {claimed : Bool}
    (h : launch rows d runtime = .ok (rows', claimed)) :
    ∃ r, Held rows (d.nodeId, d.operationId) r ∧ r.definition = d ∧
      r.coordinatorRuntimeId = runtime ∧
      ((claimed = false ∧ rows' = rows ∧ r.state ≠ .waiting) ∨
        (claimed = true ∧ r.state = .waiting ∧
          Changed rows rows' (d.nodeId, d.operationId) { r with state := .launching })) := by
  simp only [launch, bind_ok] at h
  obtain ⟨r, howned, h⟩ := h
  obtain ⟨hheld, hdef, hruntime⟩ := owned_ok howned
  refine ⟨r, hheld, hdef, hruntime, ?_⟩
  split at h
  · rename_i hne
    simp only [pure_ok, Prod.mk.injEq] at h
    obtain ⟨rfl, rfl⟩ := h
    exact Or.inl ⟨rfl, rfl, hne⟩
  · rename_i hwaiting
    simp only [bind_ok, pure_ok, Prod.mk.injEq] at h
    obtain ⟨_, hsave, rfl, rfl⟩ := h
    exact Or.inr ⟨rfl, not_not.mp hwaiting, save_ok hheld hheld.key hsave⟩

theorem cancelWait_ok {rows rows' : List Row} {node operation : String} {cancelled : Bool}
    (h : cancelWait rows node operation = .ok (rows', cancelled)) :
    (cancelled = false ∧ rows' = rows) ∨
      (cancelled = true ∧ ∃ r, Held rows (node, operation) r ∧ r.state = .waiting ∧
        Changed rows rows' (node, operation) { r with state := .cancelled }) := by
  simp only [cancelWait, bind_ok] at h
  obtain ⟨found, hread, h⟩ := h
  cases found with
  | none =>
    simp only [pure_ok, Prod.mk.injEq] at h
    exact Or.inl ⟨h.2.symm, h.1.symm⟩
  | some r =>
    have hheld : Held rows (node, operation) r := hread
    simp only at h
    split at h
    · simp only [pure_ok, Prod.mk.injEq] at h
      exact Or.inl ⟨h.2.symm, h.1.symm⟩
    · rename_i hwaiting
      simp only [bind_ok, pure_ok, Prod.mk.injEq] at h
      obtain ⟨_, hsave, rfl, rfl⟩ := h
      exact Or.inr ⟨rfl, r, hheld, not_not.mp hwaiting, save_ok hheld hheld.key hsave⟩

theorem finish_ok {rows rows' : List Row} {d : Definition} {runtime : String}
    {outcome : Option Outcome} {timedOut : Bool}
    (h : finish rows d runtime outcome timedOut = .ok rows') :
    ∃ r, Held rows (d.nodeId, d.operationId) r ∧ r.definition = d ∧
      r.coordinatorRuntimeId = runtime ∧
      ((rows' = rows ∧ finishState r.state outcome timedOut = none) ∨
        ∃ state, finishState r.state outcome timedOut = some state ∧
          Changed rows rows' (d.nodeId, d.operationId) { r with state, outcome }) := by
  simp only [finish, bind_ok] at h
  obtain ⟨r, howned, h⟩ := h
  obtain ⟨hheld, hdef, hruntime⟩ := owned_ok howned
  refine ⟨r, hheld, hdef, hruntime, ?_⟩
  cases hstate : finishState r.state outcome timedOut with
  | none =>
    rw [hstate] at h
    simp only [pure_ok] at h
    exact Or.inl ⟨h.symm, rfl⟩
  | some state =>
    rw [hstate] at h
    exact Or.inr ⟨state, rfl, save_ok hheld hheld.key h⟩

/-! ## States only move forward -/

omit [F64] [Sha256] in
/-- The moves of a state. -/
inductive State.Moves : State → State → Prop where
  | claimed : Moves .waiting .launching
  | cancelled : Moves .waiting .cancelled
  | expired : Moves .waiting .expired
  | abandoned : Moves .waiting .unknown
  | finished : Moves .launching .finished
  | lost : Moves .launching .unknown

omit [F64] [Sha256] in
theorem finishState_moves {state next : State} {outcome : Option Outcome} {timedOut : Bool}
    (h : finishState state outcome timedOut = some next) : state.Moves next := by
  cases state with
  | waiting =>
    cases timedOut with
    | false =>
      cases h
      exact .abandoned
    | true =>
      cases h
      exact .expired
  | launching =>
    simp only [finishState, Option.some.injEq] at h
    split at h
    · cases h
      exact .finished
    · cases h
      exact .lost
  | finished | cancelled | expired | unknown | interrupted => cases h

/-- A record keeps its definition, its owner and its time; its state stays or makes one move. -/
structure Record.Moved (r r' : Record) : Prop where
  definition : r'.definition = r.definition
  runtime : r'.coordinatorRuntimeId = r.coordinatorRuntimeId
  created : r'.createdAtMs = r.createdAtMs
  state : r'.state = r.state ∨ r.state.Moves r'.state

omit [F64] [Sha256] in
theorem Record.Moved.refl (r : Record) : r.Moved r := ⟨rfl, rfl, rfl, Or.inl rfl⟩

/-- Records stay, and move forward by one at most. -/
def Kept (rows rows' : List Row) : Prop :=
  ∀ k r, Held rows k r → ∃ r', Held rows' k r' ∧ r.Moved r'

omit [F64] in
theorem Kept.refl (rows : List Row) : Kept rows rows := fun _ r h => ⟨r, h, Record.Moved.refl r⟩

omit [F64] in
/-- A change that moves its own record keeps the others. -/
theorem Changed.kept {rows rows' : List Row} {k : String × String} {r r' : Record}
    (h : Changed rows rows' k r') (hheld : Held rows k r) (hmoved : r.Moved r') :
    Kept rows rows' := by
  intro k' q hq
  by_cases hk : k' = k
  · subst hk
    have heq := hheld.unique hq
    subst heq
    exact ⟨r', h.held, hmoved⟩
  · exact ⟨q, h.others k' q hk hq, Record.Moved.refl q⟩

omit [F64] in
/-- A new record keeps all others. -/
theorem Changed.kept_new {rows rows' : List Row} {k : String × String} {r : Record}
    (h : Changed rows rows' k r) (hnone : ∀ q, ¬Held rows k q) : Kept rows rows' := by
  intro k' q hq
  refine ⟨q, h.others k' q ?_ hq, Record.Moved.refl q⟩
  rintro rfl
  exact hnone q hq

end

end Eef.Coordinator.SetupChecks
