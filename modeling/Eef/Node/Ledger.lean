import Eef.Node.EventJournal
import Mathlib.Data.List.MinMax

/-!
# The grant ledger

`GrantLedger` of `grants.rs` with the operations other files add to it: `claim` and
`finish` (`grants.rs`), `recordPipelineProgress` (`pipeline_progress.rs`),
`consume`, `markWorkloadUnknown` (`workload_receipts.rs`), `append`
(`workload_event_journal.rs`), `save` (`workload_completion.rs`), `requestStopScope`,
`watchStopScope` and the drop of a watch (`grant_stop.rs`), and `open`.

Each operation holds the journal lock from its first statement to its return and
writes in one transaction. The transaction is a function `..Tx` that returns the
journal it would commit; `commit` publishes it, and an error before it leaves the
journal as it was. What an operation still checks after its commit follows in the
operation itself. `LedgerOp.run` is one step of the ledger under any operation.

Everything read from outside is an argument: the wall clock, `PRAGMA page_count`, the
instants and the authority state a lease check sees, the value of a stop receiver,
whether storage accepts the transaction.
-/

namespace Eef.Node

open Eef.Lib

/-- `GrantLedger`. `watchers` is the stop registry: the digest a watcher was
registered for and the value its receivers hold. -/
structure Ledger where
  nodeId : String
  policy : GrantPolicy
  journal : Journal
  watchers : List (String × String × Bool)
  deriving DecidableEq, Repr

/-- `usize::saturating_add` and `usize::saturating_mul`. -/
def satAdd (a b : Nat) : Nat := min (a + b) u64Max

@[inherit_doc satAdd]
def satMul (a b : Nat) : Nat := min (a * b) u64Max

/-- Whether storage accepts a transaction. -/
def storage (stored : Bool) : Result Unit := ensure (stored = true) "disk I/O error"

/-- `updated_ms=max(updated_ms,accepted_ms,?)`. -/
def ReceiptRow.touch (r : ReceiptRow) (now : Nat) : ReceiptRow :=
  { r with updatedMs := max (max r.updatedMs r.acceptedMs) now }

namespace Journal

/-! ## Statements -/

/-- The rows of one `(issuer_id, job_id, task_id)`. -/
def attempts (j : Journal) (s : Scope) : List ReceiptRow :=
  j.receipts.filter fun r => r.issuerId = s.issuerId ∧ r.jobId = s.jobId ∧ r.taskId = s.taskId

/-- `INSERT INTO execution_receipts`, under its two uniqueness constraints. -/
def insertReceipt (j : Journal) (r : ReceiptRow) : Result Journal := do
  ensure (∀ s ∈ j.receipts, s.grantId ≠ r.grantId)
    "UNIQUE constraint failed: execution_receipts.grant_id"
  ensure (∀ s ∈ j.receipts, ¬(s.issuerId = r.issuerId ∧ s.jobId = r.jobId ∧ s.taskId = r.taskId
    ∧ s.attempt = r.attempt)) "UNIQUE constraint failed: execution_receipts"
  return { j with receipts := j.receipts ++ [r] }

/-- `UPDATE execution_receipts .. WHERE`. -/
def updateReceipts (j : Journal) (p : ReceiptRow → Bool) (f : ReceiptRow → ReceiptRow) : Journal :=
  { j with receipts := Table.update p f j.receipts }

/-- `CREATE TABLE execution_pipeline_progress`, when it is missing. -/
def createProgress (j : Journal) : Journal := { j with progress := some (j.progress.getD []) }

/-- `INSERT INTO execution_pipeline_progress`. -/
def insertProgress (j : Journal) (p : ProgressRow) : Result Journal := do
  let rows ← context j.progress "Pipeline observation journal unavailable"
  ensure (∀ s ∈ rows, s.grantId ≠ p.grantId)
    "UNIQUE constraint failed: execution_pipeline_progress.grant_id"
  return { j with progress := some (rows ++ [p]) }

/-- `INSERT INTO execution_stop_requests`, after `stop::initialize`. -/
def insertStop (j : Journal) (s : StopRow) : Result Journal := do
  let rows := j.stops.getD []
  ensure (∀ t ∈ rows, t.grantId ≠ s.grantId)
    "UNIQUE constraint failed: execution_stop_requests.grant_id"
  return { j with stops := some (rows ++ [s]) }

/-- `INSERT INTO execution_workload_event_state`. -/
def insertEventState (j : Journal) (s : EventStateRow) : Result Journal := do
  let tables ← context j.eventTables "no such table: execution_workload_event_state"
  ensure (∀ t ∈ tables.states, t.grantId ≠ s.grantId)
    "UNIQUE constraint failed: execution_workload_event_state.grant_id"
  return { j with eventTables := some { tables with states := tables.states ++ [s] } }

/-- `INSERT INTO execution_workload_events`. -/
def insertEvent (j : Journal) (e : EventRow) : Result Journal := do
  let tables ← context j.eventTables "no such table: execution_workload_events"
  ensure (∀ t ∈ tables.events, ¬(t.grantId = e.grantId ∧ t.sequence = e.sequence))
    "UNIQUE constraint failed: execution_workload_events"
  return { j with eventTables := some { tables with events := tables.events ++ [e] } }

/-- `UPDATE execution_workload_event_state .. WHERE grant_id=?`. -/
def updateEventState (j : Journal) (id : String) (f : EventStateRow → EventStateRow) : Journal :=
  { j with eventTables := j.eventTables.map fun t =>
      { t with states := Table.update (fun s => s.grantId = id) f t.states } }

/-! ## Admission checks -/

/-- `check_attempt_slot`. -/
def checkAttemptSlot (j : Journal) (s : Scope) : Result Unit := do
  let recorded ← j.recordedScope s
  bailIf (recorded = true) "grant_stop_recorded"
  let previous := (j.attempts s).argmax ReceiptRow.attempt
  bailIf ((∃ r ∈ j.receipts, r.grantId = s.grantId)
    ∨ (previous.any fun p => decide (s.attempt ≤ p.attempt ∨ p.state ≠ .completed)) = true)
    "grant_attempt_replayed_or_unresolved"

/-- Space set aside for the report of every accepted receipt. -/
def reportsReserved (j : Journal) : Nat :=
  ((j.receipts.filter fun r => r.state = .accepted ∧ 0 < r.maxResultBytes).map fun r =>
    r.maxResultBytes + reportHeadroom + 4 * j.pageSize).sum

/-- Space set aside for the observations of accepted pipelines: one for each pair of
the join of the two tables. -/
def progressReserved (j : Journal) : Nat :=
  satMul (((j.progress.getD []).flatMap fun p => j.receipts.filter fun r =>
    r.grantId = p.grantId ∧ r.state = .accepted ∧ 0 < r.maxResultBytes).length) journalReservation

/-- Space set aside for the events of every accepted workload. -/
def eventsReserved (j : Journal) : Nat :=
  match j.eventTables with
  | none => 0
  | some t => (t.states.flatMap fun s =>
      (j.receipts.filter fun r => r.grantId = s.grantId ∧ r.state = .accepted).map fun _ =>
        s.reservedBytes).sum

/-- `event_journal::reserved`. -/
def eventReserved (j : Journal) : Result Nat := do
  j.validateSchema
  if j.version < 4 then return 0
  toI64 j.eventsReserved

/-- `check_receipt_budget`. -/
def checkReceiptBudget (j : Journal) (policy : GrantPolicy)
    (pages resultBytes definitionBytes : Nat) (pipeline : Bool) : Result Unit := do
  let reserved ← toI64 j.reportsReserved
  let events ← j.eventReserved
  let own := if pipeline then journalReservation else 0
  let total := satAdd (satAdd (satAdd (satAdd (satAdd (satAdd (satAdd (satAdd
    (satMul pages j.pageSize) reserved) j.progressReserved) events) resultBytes) definitionBytes)
    reportHeadroom) own) (4 * j.pageSize)
  bailIf (policy.maxReceipts ≤ j.receipts.length ∨ policy.maxJournalBytes < total)
    "grant_receipt_quota_full"

end Journal

/-- What `claim` reads from outside: `PRAGMA page_count`, the wall clock at the insert
and at the initial observation, and whether the transaction is stored. -/
structure ClaimReadings where
  pages : Nat
  now : Nat
  observed : Nat
  stored : Bool
  deriving DecidableEq, Repr

/-- What `consume_workload` reads from outside up to its commit. -/
structure ConsumeReadings where
  failedBefore : Bool
  firstInstant : Nat
  slotAvailable : Bool
  pages : Nat
  slotAcquired : Bool
  failedInside : Bool
  secondInstant : Nat
  now : Nat
  stored : Bool
  deriving DecidableEq, Repr

/-- What `append` reads from outside: the authority and the instant at its n-th lease
check, the stop receiver at its n-th look, and the wall clock. -/
structure AppendReadings where
  authority : Nat → Reporting × Nat
  stopped : Nat → Bool
  now : Nat
  stored : Bool

/-- What `save` reads from outside. -/
structure SaveReadings where
  stopped : Nat → Bool
  now : Nat
  stored : Bool

/-- What `request_stop_scope` reads from outside; `receivers` is whether a registered
watcher still has receivers. -/
structure StopReadings where
  pages : Nat
  now : Nat
  receivers : Bool
  stored : Bool
  deriving DecidableEq, Repr

/-- `AppendReceipt`. -/
structure AppendReceipt where
  sequence : Nat
  dataSha256 : String
  reused : Bool
  deriving DecidableEq, Repr

/-- `FinishBoundary`. -/
structure FinishBoundary where
  digest : String
  sequence : Nat
  finishedAt : Nat
  deadline : Nat
  deriving DecidableEq, Repr

/-- `completion::Evidence`. -/
structure Evidence where
  contract : Contract
  boundary : FinishBoundary
  adapterSha256 : String
  observations : Nat
  frames : Nat
  events : EventSeal
  deriving DecidableEq, Repr

/-- What `save` decided before its commit. -/
inductive Completion where
  | refused (reason : String)
  | completed (receipt : WorkloadReceipt)
  deriving DecidableEq, Repr

section
variable [F64] [Sha256] [PeerAdmission]

/-- `FinishBoundary::validate`. -/
def FinishBoundary.validate (b : FinishBoundary) (contract : Contract) : Result Unit := do
  let digest ← contract.digest
  ensure (b.digest = digest ∧ 0 < b.sequence ∧ b.finishedAt < b.deadline)
    "Finished workload boundary differs from its contract"

/-- `LeaseProof::initial_deadline`. -/
def LeaseProof.initialDeadline (p : LeaseProof) (contract : Contract) (policy : LeasePolicy)
    (now : Nat) : Result Nat := do
  contract.permitted policy
  let digest ← contract.digest
  ensure (p.sequence = 1 ∧ p.contractSha256 = digest) "Initial workload lease scope changed"
  ensure (now < min p.deadline p.sessionDeadline) "Initial workload lease expired"
  return min p.deadline p.sessionDeadline

namespace Journal

/-! ## Opening -/

/-- The column test of `GrantLedger::open`. -/
def receiptColumns (r : ReceiptRow) : Prop :=
  r.issuerId.length = 64 ∧ r.jobId.length = 32 ∧ r.taskId.length = 32
    ∧ (1 ≤ r.attempt ∧ r.attempt ≤ 11) ∧ r.grantId.length = 36 ∧ r.grantDigest.length = 64
    ∧ r.state ≠ .rejected

instance (r : ReceiptRow) : Decidable (receiptColumns r) := inferInstanceAs (Decidable (_ ∧ _))

/-- One turn of the validation loop of `GrantLedger::open`. -/
def readAny (j : Journal) (node id : String) : Result Unit := do
  let workload ← j.isWorkload id
  if workload then
    let _ ← j.readWorkload node none id
  else
    let _ ← j.readResult node none id

/-- `pipeline_progress::initialize` on an existing table. -/
def progressOwned (j : Journal) : Result Unit :=
  match j.progress with
  | none => .ok ()
  | some rows =>
    ensure ((rows.map ProgressRow.grantId).Nodup
      ∧ ∀ p ∈ rows, ∃ r ∈ j.receipts, r.grantId = p.grantId ∧ r.grantDigest = p.grantDigest)
      "Pipeline observation ownership changed"

/-- The creation of version 1, for a file without one. -/
def create (j : Journal) (node : String) : Result Journal :=
  if j.version = 0 then do
    bailIf (j.receipts ≠ []) "Unversioned grant receipts; retained for recovery"
    ensure (j.owner.getD node = node) "Grant journal belongs to a different node"
    return { j with owner := some node, version := 1 }
  else .ok j

end Journal

/-- `GrantLedger::open`. -/
def Ledger.open (j : Journal) (policy : GrantPolicy) (node : String) : Result Ledger := do
  policy.validate
  validateRemoteNodeId node
  ensure (j.version ≤ 5) "Unknown grant journal version; retained for recovery"
  j.validateSchema
  j.auditOrphans
  bailIf (j.progress.isSome ∧ j.version = 0)
    "Unversioned pipeline observation evidence; retained without initialization"
  bailIf (j.stops.isSome ∧ j.version = 0)
    "Unversioned stop evidence; retained without initialization"
  let j ← j.create node
  let owner ← context j.owner "Damaged grant journal owner; retained for recovery"
  ensure (owner = node) "Grant journal belongs to a different node"
  ensure (∀ r ∈ j.receipts, Journal.receiptColumns r)
    "Damaged grant receipts; retained for recovery"
  each (fun r => j.readAny node r.grantId) j.receipts
  j.validateStops node
  let j := if j.version < 2 then { j with version := 2 } else j
  j.progressOwned
  return { nodeId := node, policy, journal := j, watchers := [] }

namespace Ledger

/-- Publishes the journal of a transaction; an error leaves everything as it was. -/
def commit {α : Type} (l : Ledger) (tx : Result (Journal × α)) : Ledger × Result α :=
  match tx with
  | .ok (j, a) => ({ l with journal := j }, .ok a)
  | .error e => (l, .error e)

/-! ## Operations on grants -/

/-- The row `claim` inserts. -/
def claimedRow (g : ExecutionGrant) (now : Nat) : ReceiptRow where
  issuerId := g.issuerId
  jobId := g.jobId
  taskId := g.taskId
  attempt := g.attempt
  grantId := g.grantId
  grantDigest := g.digest
  state := .accepted
  acceptedMs := now
  updatedMs := now
  maxResultBytes := g.limits.maxResultBytes
  report := none
  reportSha256 := none
  kind := .operation
  workloadDefinition := none

/-- `pipeline_progress::initial`. -/
def initialProgress (j : Journal) (g : ExecutionGrant) (acceptedAt observed : Nat) :
    Result Journal :=
  if g.capability = "pipeline.run" then do
    let checkpoint ← PipelineProgress.checkpoint g 0 .pending 0 0 observed
    let payload := { checkpoint with recordedAtMs := acceptedAt }.toJson
    ensure (payload.size ≤ maxCheckpointBytes) "Pipeline observation exceeds its reservation"
    j.insertProgress
      { grantId := g.grantId, grantDigest := g.digest, payload, payloadSha256 := Sha256.raw payload }
  else .ok j

/-- The transaction of `GrantLedger::claim`. -/
def claimTx (l : Ledger) (g : ExecutionGrant) (r : ClaimReadings) : Result (Journal × Unit) := do
  g.validate
  bailIf (g.limits.maxResultBytes > l.policy.maxResultBytes
    ∨ g.limits.maxExecutionMs > l.policy.maxDurationMs) "grant_owner_limits_exceeded"
  ensure (g.executorNode = l.nodeId) "Grant journal owner mismatch"
  let scope ← Scope.fromGrant g
  l.journal.checkAttemptSlot scope
  let pipeline := decide (g.capability = "pipeline.run")
  let j := if pipeline then l.journal.createProgress else l.journal
  j.checkReceiptBudget l.policy r.pages g.limits.maxResultBytes 0 pipeline
  let now ← toI64 r.now
  let j ← j.insertReceipt (claimedRow g now)
  let j ← initialProgress j g now r.observed
  storage r.stored
  return (j, ())

/-- `GrantLedger::claim`. -/
def claim (l : Ledger) (g : ExecutionGrant) (r : ClaimReadings) : Ledger × Result Unit :=
  l.commit (l.claimTx g r)

/-- The `WHERE` of the two updates of `record_pipeline_progress`. -/
def observes (id digest : String) (o : ProgressRow) : Bool :=
  decide (o.grantId = id ∧ o.grantDigest = digest)

@[inherit_doc observes]
def acceptedAs (id digest : String) (r : ReceiptRow) : Bool :=
  decide (r.grantId = id ∧ r.grantDigest = digest ∧ r.state = .accepted)

/-- The transaction of `GrantLedger::record_pipeline_progress`. -/
def progressTx (l : Ledger) (g : ExecutionGrant) (checkpoint : PipelineProgress) (stored : Bool) :
    Result (Journal × PipelineProgress) := do
  ensure (checkpoint.confirms g ∧ checkpoint.phase ≠ .pending)
    "Invalid pipeline observation transition"
  let j := l.journal
  let receipt ← j.readConsumed l.nodeId (some g.issuerId) g.grantId
  ensure (receipt.confirms g ∧ receipt.state = .accepted) "Pipeline receipt is no longer accepted"
  let previous ← context receipt.pipelineProgress "Initial pipeline observation unavailable"
  bailIf (previous.phase = .failed
    ∨ (previous.phase = .completed ∧ previous.completedSteps = previous.totalSteps)
    ∨ checkpoint.sequence ≠ previous.sequence + 1 ∨ checkpoint.recordedAtMs < receipt.updatedAtMs)
    "Pipeline observation sequence or clock changed"
  let payload := checkpoint.toJson
  ensure (payload.size ≤ maxCheckpointBytes) "Pipeline observation exceeds its reservation"
  let rows ← context j.progress "no such table: execution_pipeline_progress"
  ensure (rows.countP (observes g.grantId receipt.grantSha256) = 1)
    "Pipeline observation ownership changed"
  let j := { j with progress := some (Table.update (observes g.grantId receipt.grantSha256)
    (fun o => { o with payload, payloadSha256 := Sha256.raw payload }) rows) }
  let now ← toI64 checkpoint.recordedAtMs
  ensure (j.receipts.countP (acceptedAs g.grantId receipt.grantSha256) = 1)
    "Pipeline receipt changed"
  storage stored
  return (j.updateReceipts (acceptedAs g.grantId receipt.grantSha256) fun r =>
    { r with updatedMs := now }, checkpoint)

/-- `GrantLedger::record_pipeline_progress`. -/
def recordPipelineProgress (l : Ledger) (g : ExecutionGrant) (checkpoint : PipelineProgress)
    (stored : Bool) : Ledger × Result PipelineProgress :=
  l.commit (l.progressTx g checkpoint stored)

/-- The `WHERE` of `finish`. -/
def awaitsReport (g : ExecutionGrant) (r : ReceiptRow) : Bool :=
  decide (r.grantId = g.grantId ∧ r.grantDigest = g.digest ∧ r.state = .accepted ∧ r.report = none
    ∧ r.reportSha256 = none ∧ r.maxResultBytes = g.limits.maxResultBytes)

/-- The `SET` of `finish`. -/
def finishedRow (report : GrantReport) (now : Nat) (r : ReceiptRow) : ReceiptRow :=
  { r.touch now with state := report.state, report := some report.toJson,
                     reportSha256 := some (Sha256.definition report.toJson) }

/-- The transaction of `GrantLedger::finish`. -/
def finishTx (l : Ledger) (g : ExecutionGrant) (report : GrantReport) (now : Nat) (stored : Bool) :
    Result (Journal × Unit) := do
  ensure (report.confirms g ∧ report.persisted = true) "Invalid final grant report"
  ensure (report.state = .completed ∨ report.state = .unknown) "Invalid terminal receipt"
  bailIf (report.toJson.size > satAdd g.limits.maxResultBytes reportHeadroom)
    "Retained report exceeds its reserved bound"
  let now ← toI64 now
  ensure (l.journal.receipts.countP (awaitsReport g) = 1) "Grant receipt changed before completion"
  storage stored
  return (l.journal.updateReceipts (awaitsReport g) (finishedRow report now), ())

/-- `GrantLedger::finish`. -/
def finish (l : Ledger) (g : ExecutionGrant) (report : GrantReport) (now : Nat) (stored : Bool) :
    Ledger × Result Unit :=
  l.commit (l.finishTx g report now stored)

/-! ## Workloads -/

end Ledger

namespace Journal

/-- `event_journal::initialize`. -/
def initializeEvents (j : Journal) (d : WorkloadDefinition) : Result Journal := do
  let scope ← d.scope
  let reserved ← j.reservation d
  let reserved ← toI64 reserved
  let seed ← eventSeed d
  j.insertEventState
    { grantId := scope.grantId, grantDigest := scope.grantSha256, eventCount := 0, eventBytes := 0,
      reservedBytes := reserved, prefixSha256 := seed }

/-- The initialization loop of `event_journal::upgrade`. -/
def initializeAll (node : String) : Journal → List String → Result Journal
  | j, [] => .ok j
  | j, id :: ids => do
    let w ← j.readCore node none id
    let j ← j.initializeEvents w.definition
    initializeAll node j ids

/-- `event_journal::upgrade`. -/
def upgradeEvents (j : Journal) (node : String) : Result Journal := do
  j.validateSchema
  if j.version = 4 ∨ j.version = 5 then return j
  ensure (j.version = 3) "Event journal requires validated workload consumption schema"
  let ids := (j.receipts.filter fun r => r.kind = .workload).map ReceiptRow.grantId
  each (fun id => do let _ ← j.readWorkload node none id) ids
  let j := { j with eventTables := some { states := [], events := [] }, version := 4 }
  let j ← initializeAll node j ids
  j.validateSchema
  return j

/-- `workload::upgrade`. -/
def upgrade (j : Journal) (node : String) : Result Journal := do
  j.validateOwner node
  if j.version = 3 ∨ j.version = 4 ∨ j.version = 5 then j.upgradeEvents node
  else
    ensure (j.version = 2) "Workload consumption requires the current grant journal"
    each (fun r => do let _ ← j.readResult node none r.grantId) j.receipts
    j.validateStops node
    let j := { j with kindColumns := true, version := 3 }
    j.validateSchema
    j.upgradeEvents node

/-- `completion::upgrade`. -/
def upgradeCompletion (j : Journal) (node : String) : Result Journal := do
  ensure (j.version = 4 ∨ j.version = 5) "Completion requires the current event journal"
  if j.version = 5 then return j
  each (fun r => j.readAny node r.grantId) j.receipts
  j.validateStops node
  let j := { j with version := 5 }
  j.validateSchema
  return j

/-- The `WHERE` of `uncertain`. -/
def openWorkload (s : Scope) (r : ReceiptRow) : Bool :=
  decide (r.grantId = s.grantId ∧ r.grantDigest = s.grantSha256 ∧ r.state = .accepted
    ∧ r.kind = .workload)

/-- `completion::uncertain`, and the update of `mark_workload_unknown`. -/
def uncertain (j : Journal) (s : Scope) (now : Nat) : Result Journal := do
  let now ← toI64 (max now 1)
  return j.updateReceipts (openWorkload s) fun r => { r.touch now with state := .unknown }

end Journal

namespace Ledger

/-- The row `consume_workload` inserts. -/
def consumedRow (d : WorkloadDefinition) (now : Nat) : ReceiptRow where
  issuerId := d.issuerId
  jobId := d.jobId
  taskId := d.taskId
  attempt := d.attempt
  grantId := d.grantId
  grantDigest := d.digest
  state := .accepted
  acceptedMs := now
  updatedMs := now
  maxResultBytes := d.events.maxTotalBytes
  report := none
  reportSha256 := none
  kind := .workload
  workloadDefinition := some d.toJson

/-- `GrantLedger::consume_workload` up to its commit. -/
def consumeTx (l : Ledger) (d : WorkloadDefinition) (policy : LeasePolicy) (initial : LeaseProof)
    (issuer session node : String) (r : ConsumeReadings) : Result (Journal × Contract) := do
  let contract ← d.leaseContract
  let _ ← Reporting.new contract
  bailIf (r.failedBefore = true)
    "Workload final reporting failed; restart and inspect the journal before admission"
  ensure (node = l.nodeId ∧ contract.scope.matchesSession issuer session node)
    "Workload consumption differs from pinned session/node"
  let _ ← initial.initialDeadline contract policy r.firstInstant
  bailIf (d.events.maxTotalBytes > l.policy.maxResultBytes) "grant_owner_limits_exceeded"
  ensure (r.slotAvailable = true) "Workload final reporting capacity is busy; no consumption"
  l.journal.checkAttemptSlot contract.scope
  let j ← l.journal.upgrade l.nodeId
  let reservation ← j.reservation d
  ensure (d.toJson.size + reservation ≤ u64Max) "Workload reservation overflow"
  j.checkReceiptBudget l.policy r.pages d.events.maxTotalBytes (d.toJson.size + reservation) false
  ensure (r.slotAcquired = true) "Workload final reporting capacity is busy; no consumption"
  bailIf (r.failedInside = true) "Workload final reporting failed before admission"
  let _ ← initial.initialDeadline contract policy r.secondInstant
  let now ← toI64 (max r.now 1)
  let j ← j.insertReceipt (consumedRow d now)
  let j ← j.initializeEvents d
  storage r.stored
  return (j, contract)

/-- The admission of `GrantLedger::consume_workload`. -/
def consume (l : Ledger) (d : WorkloadDefinition) (policy : LeasePolicy) (initial : LeaseProof)
    (issuer session node : String) (r : ConsumeReadings) : Ledger × Result Contract :=
  l.commit (l.consumeTx d policy initial issuer session node r)

/-- The transaction of `GrantLedger::mark_workload_unknown`. -/
def markUnknownTx (l : Ledger) (s : Scope) (now : Nat) (stored : Bool) : Result (Journal × Unit) := do
  let saved ← l.journal.readWorkload l.nodeId (some s.issuerId) s.grantId
  let scope ← saved.definition.scope
  ensure (scope = s) "Workload consumption scope changed"
  let j ← l.journal.uncertain s now
  storage stored
  return (j, ())

/-- `GrantLedger::mark_workload_unknown`. -/
def markWorkloadUnknown (l : Ledger) (s : Scope) (now : Nat) (stored : Bool) :
    Ledger × Result Unit :=
  l.commit (l.markUnknownTx s now stored)

/-- The retained tail a fresh event has to follow. -/
def appendTail (j : Journal) (w : WorkloadReceipt) (saved : EventState) (checkpoint : Checkpoint) :
    Result (Option Event) :=
  if saved.count = 0 then .ok none
  else do
    let row ← j.eventRow w saved.count
    ensure (row.prefixSha256 = saved.prefixSha256
      ∧ row.record.leaseSequence ≤ checkpoint.sequence) "Workload event tail changed"
    return some row.record.event

/-- The fresh branch of `append`: the record after the retained tail. -/
def appendRecord (j : Journal) (w : WorkloadReceipt) (saved : EventState) (event : Event)
    (checkpoint : Checkpoint) (now : Nat) : Result EventRecord := do
  let d := w.definition
  let previous ← appendTail j w saved checkpoint
  event.follows d previous
  ensure ((minEventBytes ≤ event.toJson.size ∧ event.toJson.size ≤ d.events.maxEventBytes)
    ∧ event.toJson.size ≤ d.events.maxTotalBytes - saved.bytes)
    "Workload event reporting budget exceeded"
  let record : EventRecord :=
    { schemaVersion := 1, leaseSequence := checkpoint.sequence,
      recordedAtMs := max now w.receipt.updatedAtMs, event }
  ensure (record.toJson.size ≤ d.events.maxEventBytes + rowHeadroom)
    "Workload event envelope oversized"
  return record

/-- The `WHERE` of the receipt update of `append`. -/
def acceptedId (id : String) (r : ReceiptRow) : Bool := decide (r.grantId = id ∧ r.state = .accepted)

/-- The three statements of a fresh `append`. -/
def appendWrite (j : Journal) (d : WorkloadDefinition) (saved : EventState) (record : EventRecord) :
    Result Journal := do
  let raw := record.toJson
  let chain := nextPrefixSha256 saved.prefixSha256 (Sha256.raw raw)
  let sequence ← toI64 record.event.sequence
  let bytes ← toI64 record.event.toJson.size
  let j ← j.insertEvent { grantId := d.grantId, sequence, encodedBytes := bytes, data := raw,
                          dataSha256 := Sha256.raw raw, prefixSha256 := chain }
  let total ← toI64 (saved.bytes + bytes)
  let j := j.updateEventState d.grantId fun s =>
    { s with eventCount := sequence, eventBytes := total, prefixSha256 := chain }
  let recorded ← toI64 record.recordedAtMs
  return j.updateReceipts (acceptedId d.grantId) fun r => r.touch recorded

/-- `event_journal::append` up to its commit. -/
def appendTx (l : Ledger) (d : WorkloadDefinition) (event : Event) (checkpoint : Checkpoint)
    (r : AppendReadings) : Result (Journal × AppendReceipt) := do
  let contract ← d.leaseContract
  let live := fun n => checkpoint.check (r.authority n).1 contract (r.authority n).2
  live 0
  ensure (r.stopped 0 = false) "Workload stop requested before event save"
  live 1
  live 2
  let j := l.journal
  let w ← j.readCore l.nodeId (some d.issuerId) d.grantId
  ensure (w.definition = d ∧ w.receipt.state = .accepted ∧ r.stopped 1 = false)
    "Workload changed or stopped before event save"
  let recorded ← j.recordedScope contract.scope
  ensure (recorded = false) "Workload changed or stopped before event save"
  let saved ← j.eventState d
  if event.sequence ≤ saved.count then
    j.audit w
    let old ← j.eventRow w event.sequence
    ensure (old.record.event = event) "Conflicting workload event sequence"
    live 3
    storage r.stored
    return (j, { sequence := event.sequence, dataSha256 := old.checksum, reused := true })
  else
    let record ← appendRecord j w saved event checkpoint r.now
    live 3
    ensure (r.stopped 2 = false) "Workload stop requested before event commit"
    let j ← appendWrite j d saved record
    live 4
    storage r.stored
    return (j, { sequence := event.sequence, dataSha256 := Sha256.raw record.toJson,
                 reused := false })

/-- What `append` still checks after its commit. -/
def appendAfter (l : Ledger) (d : WorkloadDefinition) (checkpoint : Checkpoint)
    (r : AppendReadings) (receipt : AppendReceipt) : Result AppendReceipt := do
  let contract ← d.leaseContract
  checkpoint.check (r.authority 5).1 contract (r.authority 5).2
  ensure (r.stopped 3 = false)
    (if receipt.reused then "Workload stopped during event read"
      else "Workload stopped during event commit")
  if receipt.reused then return receipt
  let recorded ← l.journal.recordedScope contract.scope
  ensure (recorded = false) "Workload stopped during event commit"
  return receipt

/-- `event_journal::append`. -/
def append (l : Ledger) (d : WorkloadDefinition) (event : Event) (checkpoint : Checkpoint)
    (r : AppendReadings) : Ledger × Result AppendReceipt :=
  match l.commit (l.appendTx d event checkpoint r) with
  | (l', .ok receipt) => (l', l'.appendAfter d checkpoint r receipt)
  | (l', .error e) => (l', .error e)

/-- `seen || stop::recorded_scope(..)?`, which reads nothing when `seen` holds. -/
def stopSeen (seen : Bool) (j : Journal) (s : Scope) : Result Bool :=
  if seen then .ok true else j.recordedScope s

/-- The receipt `save` completes a workload with. -/
def completedReceipt (w : WorkloadReceipt) (evidence : Evidence) (count bytes : Nat)
    (chain : String) (recorded : Nat) : WorkloadReceipt :=
  { w with
    schemaVersion := 3
    receipt := { w.receipt with state := .completed, updatedAtMs := recorded }
    completion := some
      { schemaVersion := 1, grantSha256 := evidence.contract.scope.grantSha256,
        adapterSha256 := evidence.adapterSha256, sourceObservations := evidence.observations,
        sourceFrames := evidence.frames, eventCount := count, eventBytes := bytes,
        eventPrefixSha256 := chain, leaseSequence := evidence.boundary.sequence,
        recordedAtMs := recorded, ownedProcessExitObserved := true,
        physicalEffectsStopped := false } }

/-- The `WHERE` of the update of `save`. -/
def awaitsCompletion (s : Scope) (r : ReceiptRow) : Bool :=
  decide (r.grantId = s.grantId ∧ r.grantDigest = s.grantSha256 ∧ r.state = .accepted
    ∧ r.kind = .workload ∧ r.report = none ∧ r.reportSha256 = none)

/-- The update `save` completes a row with. -/
def completeRow (j : Journal) (s : Scope) (recorded : Nat) (raw : Json) : Result Journal := do
  let recorded ← toI64 recorded
  ensure (j.receipts.countP (awaitsCompletion s) = 1)
    "Workload completion consumption changed before commit"
  return j.updateReceipts (awaitsCompletion s) fun r =>
    { r with state := .completed, updatedMs := recorded, report := some raw,
             reportSha256 := some (Sha256.raw raw) }

/-- The branch of `save` for a finished workload nobody stopped. -/
def completeTx (l : Ledger) (evidence : Evidence) (w : WorkloadReceipt) (r : SaveReadings) :
    Result (Journal × Completion) := do
  let scope := evidence.contract.scope
  let j := l.journal
  ensure (evidence.adapterSha256 = w.definition.source.adapterSha256
    ∧ evidence.observations = w.definition.source.parameters.maxBlocks
    ∧ evidence.frames = evidence.observations * w.definition.source.parameters.blockFrames)
    "Observed workload source differs from its consumed definition"
  let (count, bytes, chain, last, sequence) ← j.completionPrefix w
  ensure (evidence.events.confirms count bytes last ∧ sequence ≤ evidence.boundary.sequence)
    "Finished event prefix differs from filtered source"
  let j ← j.upgradeCompletion l.nodeId
  let recorded := max r.now w.receipt.updatedAtMs
  let done := completedReceipt w evidence count bytes chain recorded
  done.validate
  let report ← context done.completion "Workload completion unavailable"
  ensure (report.toJson.size ≤ reportHeadroom)
    "Workload completion exceeds reserved report headroom"
  let stopped ← stopSeen (r.stopped 1) j scope
  if stopped then
    let j ← j.uncertain scope r.now
    storage r.stored
    return (j, .refused "Workload stopped before completion commit; consumption remains uncertain")
  else
    let j ← completeRow j scope recorded report.toJson
    storage r.stored
    return (j, .completed done)

/-- `completion::save` up to its commit. -/
def saveTx (l : Ledger) (evidence : Evidence) (r : SaveReadings) :
    Result (Journal × Completion) := do
  evidence.boundary.validate evidence.contract
  let scope := evidence.contract.scope
  let w ← l.journal.readWorkload l.nodeId (some scope.issuerId) scope.grantId
  let saved ← w.definition.scope
  ensure (saved = scope) "Finished workload scope changed"
  let refused ← stopSeen (decide (w.receipt.state ≠ .accepted) || r.stopped 0) l.journal scope
  if refused then
    let j ← l.journal.uncertain scope r.now
    storage r.stored
    return (j, .refused "Workload completion refused; inspect the retained receipt")
  else l.completeTx evidence w r

/-- What `save` still checks after its commit. -/
def saveAfter (l : Ledger) (evidence : Evidence) (r : SaveReadings) :
    Completion → Result (Result WorkloadReceipt)
  | .refused reason => .ok (.error reason)
  | .completed w => do
    let stopped ← stopSeen (r.stopped 2) l.journal evidence.contract.scope
    if stopped then return .error "Stop raced with completion; inspect the retained receipt"
    else return .ok w

/-- `completion::save`. -/
def save (l : Ledger) (evidence : Evidence) (r : SaveReadings) :
    Ledger × Result (Result WorkloadReceipt) :=
  match l.commit (l.saveTx evidence r) with
  | (l', .ok outcome) => (l', l'.saveAfter evidence r outcome)
  | (l', .error e) => (l', .error e)

/-! ## Stops -/

/-- The row a stop consumes an unclaimed grant with. -/
def tombstone (s : Scope) (now : Nat) : ReceiptRow where
  issuerId := s.issuerId
  jobId := s.jobId
  taskId := s.taskId
  attempt := s.attempt
  grantId := s.grantId
  grantDigest := s.grantSha256
  state := .unknown
  acceptedMs := now
  updatedMs := now
  maxResultBytes := 0
  report := none
  reportSha256 := none
  kind := .operation
  workloadDefinition := none

/-- The stop row of a scope. -/
def stopRow (s : Scope) (now : Nat) (preexisted : Bool) : StopRow where
  grantId := s.grantId
  grantDigest := s.grantSha256
  issuerId := s.issuerId
  sessionId := s.sessionId
  nodeId := s.executorNode
  jobId := s.jobId
  taskId := s.taskId
  attempt := s.attempt
  recordedMs := now
  receiptPreexisted := preexisted

/-- The journal total `request_stop_scope` compares with the policy. Unlike
`check_receipt_budget`, it does not count the event reservations. -/
def stopTotal (j : Journal) (pages : Nat) : Result Nat := do
  let reserved ← toI64 j.reportsReserved
  return satAdd (satAdd (satAdd (satMul pages j.pageSize) reserved) j.progressReserved)
    (8 * j.pageSize)

/-- Consumes an unclaimed grant before admission can win. -/
def consumeUnclaimed (j : Journal) (s : Scope) (preexisted : Bool) (now : Nat) : Result Journal :=
  if preexisted then .ok j
  else do
    ensure (∀ e ∈ j.attempts s, e.attempt ≠ s.attempt) "Stop attempt slot belongs to another grant"
    j.insertReceipt (tombstone s now)

/-- The fresh branch of `request_stop_scope`. -/
def freshStopTx (l : Ledger) (s : Scope) (r : StopReadings) : Result (Journal × StopReport) := do
  let j := l.journal
  bailIf ((j.receipt s.grantId).any fun e => decide (e.grantDigest ≠ s.grantSha256))
    "Stop conflicts with consumed grant scope"
  let preexisted := (j.receipt s.grantId).isSome
  let total ← stopTotal j r.pages
  bailIf ((preexisted = false ∧ l.policy.maxReceipts ≤ j.receipts.length)
    ∨ l.policy.maxJournalBytes < total)
    "Stop journal quota exhausted; no durable stop confirmation"
  let now ← toI64 (max r.now 1)
  let j ← consumeUnclaimed j s preexisted now
  let j ← j.insertStop (stopRow s now preexisted)
  let read ← j.readStop s.grantId
  let report ← context read "Stop receipt unavailable"
  storage r.stored
  return (j, { report with reused := false })

/-- The transaction of `request_stop_scope`. -/
def stopTx (l : Ledger) (s : Scope) (issuer session node : String) (r : StopReadings) :
    Result (Journal × StopReport) := do
  s.validate
  ensure (node = l.nodeId ∧ s.matchesSession issuer session node)
    "Stop scope differs from pinned session"
  let read ← l.journal.readStop s.grantId
  match read with
  | some report =>
    ensure (report.confirmsScope s) "Stop conflicts with retained scope"
    storage r.stored
    return (l.journal, report)
  | none => l.freshStopTx s r

/-- The signal of `request_stop_scope`, still under the journal lock. -/
def signal (l : Ledger) (s : Scope) (r : StopReadings) (report : StopReport) :
    Ledger × Result StopReport :=
  match l.watchers.lookup s.grantId with
  | none =>
    (l, if report.confirmsScope s then .ok report else .error "Stop receipt failed confirmation")
  | some (expected, _) =>
    if expected = s.grantSha256 then
      let report := { report with cancellationSignalled := r.receivers }
      ({ l with watchers := Assoc.set s.grantId (expected, true) l.watchers },
        if report.confirmsScope s then .ok report else .error "Stop receipt failed confirmation")
    else (l, .error "Active stop scope differs")

/-- `GrantLedger::request_stop_scope`. -/
def requestStopScope (l : Ledger) (s : Scope) (issuer session node : String) (r : StopReadings) :
    Ledger × Result StopReport :=
  match l.commit (l.stopTx s issuer session node r) with
  | (l', .ok report) => l'.signal s r report
  | (l', .error e) => (l', .error e)

/-- `GrantLedger::watch_stop_scope`. -/
def watchStopScope (l : Ledger) (s : Scope) : Ledger × Result Unit :=
  match l.journal.recordedScope s with
  | .error e => (l, .error e)
  | .ok stopped =>
    if (l.watchers.lookup s.grantId).isSome then (l, .error "Grant already has a stop watcher")
    else ({ l with watchers := Assoc.set s.grantId (s.grantSha256, stopped) l.watchers }, .ok ())

/-- The drop of a `Watch`. -/
def unwatch (l : Ledger) (id : String) : Ledger :=
  { l with watchers := Assoc.erase id l.watchers }

end Ledger

/-! ## One step of a ledger -/

/-- A checkpoint some reporting authority handed out. -/
structure TakenCheckpoint where
  value : Checkpoint
  taken : ∃ (s : Reporting) (contract : Contract) (now : Nat),
    s.Issued ∧ s.checkpoint contract now = .ok value

omit [F64] [PeerAdmission] in
/-- A checkpoint is of a lease sequence from one on, in 64 bits. -/
theorem TakenCheckpoint.sequence_range (c : TakenCheckpoint) :
    0 < c.value.sequence ∧ c.value.sequence ≤ u64Max := by
  obtain ⟨s, contract, now, hs, h⟩ := c.taken
  simp only [Reporting.checkpoint, bind_ok, ensure_ok, context_ok, pure_ok] at h
  obtain ⟨_, _, _, ⟨-, hstart, -⟩, _, _, _, _, hv⟩ := h
  obtain ⟨w, hw, hseq⟩ := hs.window hstart
  rw [← hv]
  exact hseq ▸ ⟨hw.sequence_pos, hw.sequence_le⟩

/-- A call on the ledger, with everything it reads from outside. `reopen` is a new
`GrantLedger::open` of the same file. -/
inductive LedgerOp where
  | claim (g : ExecutionGrant) (r : ClaimReadings)
  | progress (g : ExecutionGrant) (checkpoint : PipelineProgress) (stored : Bool)
  | finish (g : ExecutionGrant) (report : GrantReport) (now : Nat) (stored : Bool)
  | consume (d : WorkloadDefinition) (policy : LeasePolicy) (initial : LeaseProof)
      (issuer session node : String) (r : ConsumeReadings)
  | append (d : WorkloadDefinition) (event : Event) (checkpoint : TakenCheckpoint)
      (r : AppendReadings)
  | save (evidence : Evidence) (r : SaveReadings)
  | markUnknown (s : Scope) (now : Nat) (stored : Bool)
  | stop (s : Scope) (issuer session node : String) (r : StopReadings)
  | watch (s : Scope)
  | unwatch (id : String)
  | reopen (policy : GrantPolicy) (node : String)

/-- The step a call makes: the ledger it leaves and whether it returned `Ok`. A failed
`reopen` leaves the file, and the ledger that has it open, alone. -/
def LedgerOp.run (op : LedgerOp) (l : Ledger) : Ledger × Bool :=
  match op with
  | .claim g r => (l.claim g r).map id isOk
  | .progress g checkpoint stored => (l.recordPipelineProgress g checkpoint stored).map id isOk
  | .finish g report now stored => (l.finish g report now stored).map id isOk
  | .consume d policy initial issuer session node r =>
    (l.consume d policy initial issuer session node r).map id isOk
  | .append d event checkpoint r => (l.append d event checkpoint.value r).map id isOk
  | .save evidence r => (l.save evidence r).map id isOk
  | .markUnknown s now stored => (l.markWorkloadUnknown s now stored).map id isOk
  | .stop s issuer session node r => (l.requestStopScope s issuer session node r).map id isOk
  | .watch s => (l.watchStopScope s).map id isOk
  | .unwatch id => (l.unwatch id, true)
  | .reopen policy node =>
    match Ledger.open l.journal policy node with
    | .ok l' => (l', true)
    | .error _ => (l, false)

/-- Some call takes the ledger from `l` to `l'`. -/
def LedgerStep (l l' : Ledger) : Prop := ∃ op : LedgerOp, l' = (op.run l).1

/-- The ledgers reached from an empty journal. -/
def Ledger.Reachable (l : Ledger) : Prop :=
  ∃ (pageSize : Nat) (policy : GrantPolicy) (node : String) (start : Ledger),
    Ledger.open (Journal.empty pageSize) policy node = .ok start ∧ Run LedgerStep start l

end

end Eef.Node
