import Eef.Node.Journal
import Eef.Node.Events

/-!
# Workload receipts and their event journal

The readers of `workload_receipts.rs`, `workload_event_journal.rs` and
`workload_completion.rs`: a consumed workload with its definition (`readCore`), its
counters (`eventState`), one retained event (`eventRow`), the whole prefix (`audit`)
and the final report (`decodeCompletion`, `auditPrefix`). `audit` re-reads every row
from the first; `append` only ever looks at the last one.
-/

namespace Eef.Node

open Eef.Lib

/-- `MIN_EVENT_BYTES`. -/
def minEventBytes : Nat := 128

/-- `ROW_HEADROOM`. -/
def rowHeadroom : Nat := 512

/-- `MAX_DEFINITION_BYTES` of `workload_receipts.rs`. -/
def maxWorkloadBytes : Nat := 64 * 1024

/-- `completion::Report`. -/
structure CompletionReport where
  schemaVersion : Nat
  grantSha256 : String
  adapterSha256 : String
  sourceObservations : Nat
  sourceFrames : Nat
  eventCount : Nat
  eventBytes : Nat
  eventPrefixSha256 : String
  leaseSequence : Nat
  recordedAtMs : Nat
  ownedProcessExitObserved : Bool
  physicalEffectsStopped : Bool
  deriving DecidableEq, Repr

/-- `workload::Receipt`. -/
structure WorkloadReceipt where
  schemaVersion : Nat
  receipt : ConsumedReceipt
  definition : WorkloadDefinition
  executionAuthorized : Bool
  restartAuthorized : Bool
  completion : Option CompletionReport
  deriving DecidableEq, Repr

/-- `event_journal::Record`. -/
structure EventRecord where
  schemaVersion : Nat
  leaseSequence : Nat
  recordedAtMs : Nat
  event : Event
  deriving DecidableEq, Repr

/-! ## Encoding -/

def CompletionReport.toJson (r : CompletionReport) : Json :=
  .obj [("schema_version", .nat r.schemaVersion), ("grant_sha256", .str r.grantSha256),
    ("adapter_sha256", .str r.adapterSha256), ("source_observations", .nat r.sourceObservations),
    ("source_frames", .nat r.sourceFrames), ("event_count", .nat r.eventCount),
    ("event_bytes", .nat r.eventBytes), ("event_prefix_sha256", .str r.eventPrefixSha256),
    ("lease_sequence", .nat r.leaseSequence), ("recorded_at_ms", .nat r.recordedAtMs),
    ("owned_process_exit_observed", .bool r.ownedProcessExitObserved),
    ("physical_effects_stopped", .bool r.physicalEffectsStopped)]

def CompletionReport.fromJson (j : Json) : Option CompletionReport := do
  let fs ← j.struct ["schema_version", "grant_sha256", "adapter_sha256", "source_observations",
    "source_frames", "event_count", "event_bytes", "event_prefix_sha256", "lease_sequence",
    "recorded_at_ms", "owned_process_exit_observed", "physical_effects_stopped"] 12
  let schemaVersion ← Json.field fs "schema_version" (Json.asUInt 32)
  let grantSha256 ← Json.field fs "grant_sha256" Json.asStr
  let adapterSha256 ← Json.field fs "adapter_sha256" Json.asStr
  let sourceObservations ← Json.field fs "source_observations" (Json.asUInt 64)
  let sourceFrames ← Json.field fs "source_frames" (Json.asUInt 64)
  let eventCount ← Json.field fs "event_count" (Json.asUInt 64)
  let eventBytes ← Json.field fs "event_bytes" (Json.asUInt 64)
  let eventPrefixSha256 ← Json.field fs "event_prefix_sha256" Json.asStr
  let leaseSequence ← Json.field fs "lease_sequence" (Json.asUInt 64)
  let recordedAtMs ← Json.field fs "recorded_at_ms" (Json.asUInt 64)
  let ownedProcessExitObserved ← Json.field fs "owned_process_exit_observed" Json.asBool
  let physicalEffectsStopped ← Json.field fs "physical_effects_stopped" Json.asBool
  return { schemaVersion, grantSha256, adapterSha256, sourceObservations, sourceFrames, eventCount,
           eventBytes, eventPrefixSha256, leaseSequence, recordedAtMs, ownedProcessExitObserved,
           physicalEffectsStopped }

def EventRecord.toJson (r : EventRecord) : Json :=
  .obj [("schema_version", .nat r.schemaVersion), ("lease_sequence", .nat r.leaseSequence),
    ("recorded_at_ms", .nat r.recordedAtMs), ("event", r.event.toJson)]

def EventRecord.fromJson (j : Json) : Option EventRecord := do
  let fs ← j.struct ["schema_version", "lease_sequence", "recorded_at_ms", "event"] 4
  let schemaVersion ← Json.field fs "schema_version" (Json.asUInt 32)
  let leaseSequence ← Json.field fs "lease_sequence" (Json.asUInt 64)
  let recordedAtMs ← Json.field fs "recorded_at_ms" (Json.asUInt 64)
  let event ← Json.field fs "event" Event.fromJson
  return { schemaVersion, leaseSequence, recordedAtMs, event }

/-- A record reads back from its stored text. -/
theorem EventRecord.fromJson_toJson [F64] {r : EventRecord} {d : WorkloadDefinition} (hd : d.Valid)
    (hversion : r.schemaVersion = 1) (hlease : r.leaseSequence ≤ u64Max)
    (hrecorded : r.recordedAtMs ≤ i64Max) (hevent : r.event.Valid d) :
    EventRecord.fromJson r.toJson = some r := by
  simp only [u64Max, i64Max] at hlease hrecorded
  rw [EventRecord.toJson, EventRecord.fromJson]
  refine Eq.trans (Json.struct_bind ?_ ?_) ?_
  · rfl
  · decide
  refine (Json.field_bind rfl (Json.asUInt_nat (by rw [hversion]; decide))).trans ?_
  refine (Json.field_bind rfl (Json.asUInt_nat (by omega))).trans ?_
  refine (Json.field_bind rfl (Json.asUInt_nat (by omega))).trans ?_
  refine (Json.field_bind rfl (Event.fromJson_toJson hd hevent)).trans ?_
  rfl

theorem EventRecord.toJson_parses (r : EventRecord) : r.toJson.parses = true := by
  have hactive : (Json.ofOption Json.bool r.event.active).depth = 0 := by
    cases r.event.active <;> rfl
  have hlevel : (Json.ofOption Json.nat r.event.level).depth = 0 := by
    cases r.event.level <;> rfl
  simp [Json.parses, Json.depth, Json.fieldsDepth, toJson, Event.toJson, Json.nat,
    Json.recursionLimit, hactive, hlevel]

/-- The envelope of a record stays within the row headroom. -/
theorem EventRecord.toJson_size [F64] {r : EventRecord} (hversion : r.schemaVersion = 1)
    (hlease : r.leaseSequence ≤ u64Max) (hrecorded : r.recordedAtMs ≤ i64Max) :
    r.toJson.size ≤ r.event.toJson.size + rowHeadroom := by
  simp only [u64Max, i64Max] at hlease hrecorded
  have h1 : Json.natSize r.leaseSequence ≤ 20 := Json.natSize_le_u64 (by omega)
  have h2 : Json.natSize r.recordedAtMs ≤ 20 := Json.natSize_le_u64 (by omega)
  have k1 : Json.strSize "schema_version" = 16 := by decide
  have k2 : Json.strSize "lease_sequence" = 16 := by decide
  have k3 : Json.strSize "recorded_at_ms" = 16 := by decide
  have k4 : Json.strSize "event" = 7 := by decide
  have k5 : Json.natSize 1 = 1 := by decide
  simp only [toJson, Json.size, Json.fieldsSize, Json.nat, Json.numSize, hversion, k1, k2, k3, k4,
    k5, rowHeadroom]
  omega

/-- A completion report of 64-bit counters reads back from its stored text. -/
theorem CompletionReport.fromJson_toJson {r : CompletionReport} (hversion : r.schemaVersion = 1)
    (hobservations : r.sourceObservations ≤ u64Max) (hframes : r.sourceFrames ≤ u64Max)
    (hcount : r.eventCount ≤ u64Max) (hbytes : r.eventBytes ≤ u64Max)
    (hlease : r.leaseSequence ≤ u64Max) (hrecorded : r.recordedAtMs ≤ i64Max) :
    CompletionReport.fromJson r.toJson = some r := by
  simp only [u64Max, i64Max] at *
  rw [CompletionReport.toJson, CompletionReport.fromJson]
  refine Eq.trans (Json.struct_bind ?_ ?_) ?_
  · rfl
  · decide
  refine (Json.field_bind rfl (Json.asUInt_nat (by rw [hversion]; decide))).trans ?_
  refine (Json.field_bind (a := r.grantSha256) rfl rfl).trans ?_
  refine (Json.field_bind (a := r.adapterSha256) rfl rfl).trans ?_
  refine (Json.field_bind rfl (Json.asUInt_nat (by omega))).trans ?_
  refine (Json.field_bind rfl (Json.asUInt_nat (by omega))).trans ?_
  refine (Json.field_bind rfl (Json.asUInt_nat (by omega))).trans ?_
  refine (Json.field_bind rfl (Json.asUInt_nat (by omega))).trans ?_
  refine (Json.field_bind (a := r.eventPrefixSha256) rfl rfl).trans ?_
  refine (Json.field_bind rfl (Json.asUInt_nat (by omega))).trans ?_
  refine (Json.field_bind rfl (Json.asUInt_nat (by omega))).trans ?_
  refine (Json.field_bind (a := r.ownedProcessExitObserved) rfl rfl).trans ?_
  refine (Json.field_bind (a := r.physicalEffectsStopped) rfl rfl).trans ?_
  rfl

theorem CompletionReport.toJson_parses (r : CompletionReport) : r.toJson.parses = true := by
  simp [Json.parses, Json.depth, Json.fieldsDepth, toJson, Json.nat, Json.recursionLimit]

section
variable [F64] [Sha256]

/-! ## Workload receipts -/

/-- `completion::Report::validate`. -/
def CompletionReport.validate (r : CompletionReport) (w : WorkloadReceipt) : Result Unit := do
  let scope ← w.definition.scope
  ensure (r.schemaVersion = 1 ∧ r.grantSha256 = scope.grantSha256
    ∧ r.adapterSha256 = w.definition.source.adapterSha256
    ∧ r.sourceObservations = w.definition.source.parameters.maxBlocks
    ∧ r.sourceFrames = r.sourceObservations * w.definition.source.parameters.blockFrames
    ∧ r.sourceFrames ≤ w.definition.limits.maxSourceFrames ∧ 0 < r.eventCount
    ∧ r.eventCount ≤ w.definition.events.maxEvents
    ∧ r.eventBytes ≤ w.definition.events.maxTotalBytes
    ∧ min (r.eventCount * 128) u64Max ≤ r.eventBytes ∧ hexDigest r.eventPrefixSha256
    ∧ 0 < r.leaseSequence ∧ r.ownedProcessExitObserved = true ∧ r.physicalEffectsStopped = false
    ∧ w.receipt.acceptedAtMs ≤ r.recordedAtMs ∧ r.recordedAtMs ≤ w.receipt.updatedAtMs)
    "Damaged workload completion evidence; retained without repair"

/-- The outcome of a workload agrees with its state. -/
def WorkloadReceipt.outcome (w : WorkloadReceipt) : Result Bool :=
  match w.completion, w.receipt.state with
  | none, .accepted | none, .unknown => .ok (w.schemaVersion == 2)
  | some report, .completed => do
    report.validate w
    return w.schemaVersion == 3
  | _, _ => .ok false

/-- `workload::Receipt::validate`. -/
def WorkloadReceipt.validate (w : WorkloadReceipt) : Result Unit := do
  w.receipt.validate
  let scope ← w.definition.scope
  let outcomeValid ← w.outcome
  ensure (outcomeValid = true ∧ w.executionAuthorized = false ∧ w.restartAuthorized = false
    ∧ w.receipt.nodeId = scope.executorNode ∧ w.receipt.issuerId = scope.issuerId
    ∧ w.receipt.grantId = scope.grantId ∧ w.receipt.grantSha256 = scope.grantSha256
    ∧ w.receipt.jobId = scope.jobId ∧ w.receipt.taskId = scope.taskId
    ∧ w.receipt.attempt = scope.attempt ∧ w.receipt.pipelineProgress = none)
    "Damaged workload consumption evidence; no recovery or replay"

namespace Journal

/-- `completion::decode`. -/
def decodeCompletion (j : Journal) (row : ReceiptRow) (state : ReceiptState) :
    Result (Option CompletionReport) := do
  if state ≠ .completed then
    ensure (row.report = none ∧ row.reportSha256 = none) "Unexpected workload final report"
    return none
  else
    ensure (j.version = 5 ∧ (row.report.any fun raw => decide (raw.size ≤ reportHeadroom)) = true)
      "Missing, oversized or downgraded workload completion report"
    let raw ← context row.report "Workload completion unavailable"
    let report ← context (if raw.parses then CompletionReport.fromJson raw else none)
      "Workload completion cannot be decoded"
    ensure (report.toJson = raw ∧ row.reportSha256 = some (Sha256.raw raw))
      "Workload completion checksum or canonical payload changed"
    return some report

/-- `workload::read_core`. -/
def readCore (j : Journal) (node : String) (issuer : Option String) (id : String) :
    Result WorkloadReceipt := do
  j.validateOwner node
  let workload ← j.isWorkload id
  ensure (workload = true) "Typed workload receipt unavailable"
  let receipt ← j.readConsumed node issuer id
  let row ← context (j.receipt id) "Query returned no rows"
  let raw ← context row.workloadDefinition "Workload definition unavailable"
  ensure (1 ≤ raw.size ∧ raw.size ≤ maxWorkloadBytes)
    "Damaged or oversized workload receipt; retained without repair"
  let definition ← context (if raw.parses then WorkloadDefinition.fromJson raw else none)
    "Workload definition cannot be decoded"
  ensure (definition.toJson = raw ∧ row.maxResultBytes = definition.events.maxTotalBytes)
    "Workload definition or reporting reservation changed"
  let completion ← j.decodeCompletion row receipt.state
  let result : WorkloadReceipt :=
    { schemaVersion := if completion.isSome then 3 else 2, receipt, definition,
      executionAuthorized := false, restartAuthorized := false, completion }
  result.validate
  return result

/-! ## Events -/

/-- `reservation`: conservative journal space for a workload's events. -/
def reservation (j : Journal) (d : WorkloadDefinition) : Result Nat := do
  ensure (0 < j.pageSize ∧ 2 ^ j.pageSize.log2 = j.pageSize) "Invalid journal page size"
  let rows := min d.events.maxEvents (d.events.maxTotalBytes / minEventBytes)
  let row := ((d.events.maxEventBytes + rowHeadroom + (j.pageSize - 1)) / j.pageSize + 8) * j.pageSize
  ensure (rows * row + 8 * j.pageSize ≤ u64Max) "Event reservation overflow"
  return rows * row + 8 * j.pageSize

/-- `seed`. -/
def eventSeed (d : WorkloadDefinition) : Result String := do
  let scope ← d.scope
  return Sha256.text scope.grantSha256

end Journal

/-- `next_prefix`. -/
def nextPrefixSha256 (previous rowHash : String) : String := Sha256.text (previous ++ rowHash)

/-- `event_journal::State`. -/
structure EventState where
  count : Nat
  bytes : Nat
  prefixSha256 : String
  deriving DecidableEq, Repr

/-- `event_journal::Row`. -/
structure RetainedEvent where
  record : EventRecord
  bytes : Nat
  checksum : String
  prefixSha256 : String
  deriving DecidableEq, Repr

namespace Journal

/-- `SELECT .. FROM execution_workload_event_state WHERE grant_id=?`. -/
def eventStateRow (j : Journal) (id : String) : Option EventStateRow :=
  j.eventTables.bind fun t => Table.find EventStateRow.grantId id t.states

/-- `SELECT .. FROM execution_workload_events WHERE grant_id=?`, in insertion order. -/
def eventRows (j : Journal) (id : String) : List EventRow :=
  ((j.eventTables.map EventTables.events).getD []).filter fun e => e.grantId = id

/-- `state`. -/
def eventState (j : Journal) (d : WorkloadDefinition) : Result EventState := do
  let row ← context (j.eventStateRow d.grantId) "Query returned no rows"
  ensure (row.grantDigest.utf8ByteSize = 64) "Invalid event scope digest size"
  ensure (row.prefixSha256.utf8ByteSize = 64) "Invalid event prefix digest size"
  let scope ← d.scope
  let reserved ← j.reservation d
  let seed ← eventSeed d
  ensure (row.grantDigest = scope.grantSha256 ∧ row.eventCount ≤ d.events.maxEvents
    ∧ row.eventBytes ≤ d.events.maxTotalBytes
    ∧ min (row.eventCount * minEventBytes) u64Max ≤ row.eventBytes
    ∧ row.reservedBytes = reserved ∧ hexDigest row.prefixSha256
    ∧ (row.eventCount ≠ 0 ∨ (row.eventBytes = 0 ∧ row.prefixSha256 = seed)))
    "Damaged workload event counters/reservation"
  return { count := row.eventCount, bytes := row.eventBytes, prefixSha256 := row.prefixSha256 }

/-- `row`. -/
def eventRow (j : Journal) (w : WorkloadReceipt) (sequence : Nat) : Result RetainedEvent := do
  let bound := w.definition.events.maxEventBytes + rowHeadroom
  let row ← context ((j.eventRows w.definition.grantId).find? fun e => e.sequence = sequence)
    "Query returned no rows"
  ensure (1 ≤ row.data.size ∧ row.data.size ≤ bound) "Oversized workload event row"
  ensure (row.dataSha256.utf8ByteSize = 64) "Invalid event checksum size"
  ensure (row.prefixSha256.utf8ByteSize = 64) "Invalid event prefix size"
  let record ← context (if row.data.parses then EventRecord.fromJson row.data else none)
    "Workload event cannot be decoded"
  record.event.validate w.definition
  ensure (record.schemaVersion = 1 ∧ 0 < record.leaseSequence ∧ record.event.sequence = sequence
    ∧ w.receipt.acceptedAtMs ≤ record.recordedAtMs ∧ record.recordedAtMs ≤ w.receipt.updatedAtMs
    ∧ record.toJson = row.data ∧ Sha256.raw row.data = row.dataSha256
    ∧ hexDigest row.prefixSha256
    ∧ (minEventBytes ≤ row.encodedBytes ∧ row.encodedBytes ≤ w.definition.events.maxEventBytes)
    ∧ record.event.toJson.size = row.encodedBytes) "Damaged workload event row"
  return { record, bytes := row.encodedBytes, checksum := row.dataSha256,
           prefixSha256 := row.prefixSha256 }

/-- The loop of `audit`: `remaining` rows from `sequence` on, with the record before
them, the digest chain and the bytes so far. -/
def auditFrom (j : Journal) (w : WorkloadReceipt) :
    (remaining sequence : Nat) → Option EventRecord → String → Nat → Result (String × Nat)
  | 0, _, _, chain, bytes => .ok (chain, bytes)
  | n + 1, sequence, previous, chain, bytes => do
    let row ← j.eventRow w sequence
    row.record.event.follows w.definition (previous.map EventRecord.event)
    ensure (∀ r ∈ previous, r.leaseSequence ≤ row.record.leaseSequence
      ∧ r.recordedAtMs ≤ row.record.recordedAtMs) "Workload event timing/lease prefix changed"
    let next := nextPrefixSha256 chain row.checksum
    ensure (next = row.prefixSha256) "Workload event checksum prefix changed"
    ensure (bytes + row.bytes ≤ u64Max) "Event size overflow"
    auditFrom j w n (sequence + 1) (some row.record) next (bytes + row.bytes)

/-- `completion_prefix`: count, bytes, digest chain, last event and its lease. -/
def completionPrefix (j : Journal) (w : WorkloadReceipt) :
    Result (Nat × Nat × String × Event × Nat) := do
  let saved ← j.eventState w.definition
  ensure (0 < saved.count) "Finished workload has no retained initial event"
  let last ← j.eventRow w saved.count
  ensure (last.prefixSha256 = saved.prefixSha256) "Finished workload event tail changed"
  return (saved.count, saved.bytes, saved.prefixSha256, last.record.event,
    last.record.leaseSequence)

/-- `completion::audit_prefix`. -/
def auditPrefix (j : Journal) (w : WorkloadReceipt) : Result Unit := do
  match w.completion with
  | none => return ()
  | some report =>
    let (count, bytes, chain, last, sequence) ← j.completionPrefix w
    ensure (report.eventCount = count ∧ report.eventBytes = bytes
      ∧ report.eventPrefixSha256 = chain ∧ last.sourceSequence ≤ report.sourceObservations
      ∧ last.sourceFrames ≤ report.sourceFrames ∧ sequence ≤ report.leaseSequence)
      "Workload completion differs from its retained event prefix"

/-- `event_journal::audit`. -/
def audit (j : Journal) (w : WorkloadReceipt) : Result Unit := do
  if j.version < 4 then return ()
  let saved ← j.eventState w.definition
  let rows := j.eventRows w.definition.grantId
  let total ← toI64 (rows.map EventRow.encodedBytes).sum
  ensure (rows.length = saved.count ∧ total = saved.bytes)
    "Workload event prefix cardinality changed"
  let seed ← eventSeed w.definition
  let (chain, bytes) ← j.auditFrom w saved.count 1 none seed 0
  ensure (chain = saved.prefixSha256 ∧ bytes = saved.bytes) "Workload event summary changed"
  j.auditPrefix w

/-- `workload::read`. -/
def readWorkload (j : Journal) (node : String) (issuer : Option String) (id : String) :
    Result WorkloadReceipt := do
  let result ← j.readCore node issuer id
  j.audit result
  return result

end Journal

end

namespace Journal

/-- `audit_orphans`. -/
def auditOrphans (j : Journal) : Result Unit := do
  if j.version < 4 then return ()
  let tables ← context j.eventTables "no such table: execution_workload_event_state"
  ensure ((∀ s ∈ tables.states, ∃ r ∈ j.receipts, r.grantId = s.grantId ∧ r.kind = .workload
      ∧ r.grantDigest = s.grantDigest)
    ∧ ∀ e ∈ tables.events, ∃ s ∈ tables.states, s.grantId = e.grantId)
    "Orphaned or cross-kind workload event evidence"

end Journal

end Eef.Node
