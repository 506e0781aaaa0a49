import Eef.Lib.Chain
import Eef.Node.LedgerEffects

/-!
# The event log of a workload

`append` looks at the last row of a workload only, `audit` re-reads every row with
other code. What connects them is `EventLog`: the records a workload has accepted,
each one linked to the one before it, within the byte budget. `Journal.Holds` says
that the two event tables store exactly such a log: one row per record in order, and
the counters and the digest chain of the whole. From it every reader succeeds
(`Holds.eventState`, `Holds.eventRow`, `Holds.audit`, `Holds.completionPrefix`), and
the three statements of `append` lead from a log to the log with one more record
(`Holds.append`).
-/

namespace Eef.Node

open Eef.Lib

theorem hexDigest_size {s : String} (h : hexDigest s = true) : s.utf8ByteSize = 64 := by
  simp only [hexDigest, Bool.and_eq_true, beq_iff_eq] at h
  exact h.1

section
variable [F64]

/-- How a retained record follows the one before it. -/
structure EventRecord.Next (d : WorkloadDefinition) (previous : Option EventRecord)
    (r : EventRecord) : Prop where
  version : r.schemaVersion = 1
  lease_pos : 0 < r.leaseSequence
  lease_le : r.leaseSequence ≤ u64Max
  recorded_le : r.recordedAtMs ≤ i64Max
  valid : r.event.Valid d
  next : r.event.next d (previous.map EventRecord.event)
  ordered : ∀ p ∈ previous, p.leaseSequence ≤ r.leaseSequence ∧ p.recordedAtMs ≤ r.recordedAtMs
  size_le : r.event.toJson.size ≤ d.events.maxEventBytes

/-- The records of a workload, in order. -/
structure EventLog (d : WorkloadDefinition) where
  records : List EventRecord
  linked : Chain.Linked (EventRecord.Next d) none records
  bytes_le : (records.map fun r => r.event.toJson.size).sum ≤ d.events.maxTotalBytes

namespace EventLog

variable {d : WorkloadDefinition}

/-- The log of a workload that was just consumed. -/
def empty (d : WorkloadDefinition) : EventLog d := ⟨[], trivial, Nat.zero_le _⟩

/-- The bytes of the events. -/
def bytes (log : EventLog d) : Nat := (log.records.map fun r => r.event.toJson.size).sum

/-- The log with one more record. -/
def append (log : EventLog d) (r : EventRecord) (hr : r.Next d log.records.getLast?)
    (hbytes : log.bytes + r.event.toJson.size ≤ d.events.maxTotalBytes) : EventLog d where
  records := log.records ++ [r]
  linked := log.linked.append (by rwa [Option.or_none])
  bytes_le := by simpa [bytes] using hbytes

/-! ## Positions -/

/-- Linked records are numbered in order. -/
theorem linked_sequences {previous : Option EventRecord}
    {records : List EventRecord} (h : Chain.Linked (EventRecord.Next d) previous records) :
    records.map (fun r => r.event.sequence) =
      List.range' ((previous.elim 0 fun p => p.event.sequence) + 1) records.length := by
  induction records generalizing previous with
  | nil => rfl
  | cons r records ih =>
    have hr : r.event.sequence = (previous.elim 0 fun p => p.event.sequence) + 1 := by
      have hnext := h.1.next
      cases previous with
      | none => exact hnext.1
      | some p => exact hnext.1.2
    rw [List.map_cons, ih h.2, List.length_cons, List.range'_succ, hr]
    rw [show (some r).elim 0 (fun p => p.event.sequence) = r.event.sequence from rfl, hr]

theorem sequences (log : EventLog d) :
    log.records.map (fun r => r.event.sequence) = List.range' 1 log.records.length :=
  linked_sequences log.linked

/-- The record after `before` has the next number. -/
theorem sequence_at (log : EventLog d) {before after : List EventRecord} {r : EventRecord}
    (h : log.records = before ++ r :: after) : r.event.sequence = before.length + 1 := by
  have hseq := log.sequences
  rw [h] at hseq
  have hget := congrArg (fun l => l[before.length]?) hseq
  simp only [List.map_append, List.map_cons, List.length_append, List.length_cons] at hget
  rw [List.getElem?_append_right (by simp)] at hget
  simp only [List.length_map, Nat.sub_self, List.getElem?_cons_zero] at hget
  rw [List.getElem?_range' (by omega)] at hget
  simp only [Option.some.injEq] at hget
  omega

/-- The numbers before a record differ from its own. -/
theorem sequence_ne (log : EventLog d) {before after : List EventRecord} {r : EventRecord}
    (h : log.records = before ++ r :: after) :
    ∀ s ∈ before, s.event.sequence ≠ r.event.sequence := by
  intro s hs
  obtain ⟨i, j, rfl⟩ := List.append_of_mem hs
  have h1 := log.sequence_at h
  have hs : log.records = i ++ s :: (j ++ r :: after) := by rw [h]; simp
  have h2 := log.sequence_at hs
  rw [h1, h2]
  simp only [List.length_append, List.length_cons]
  omega

/-- There are at most as many records as the definition allows. -/
theorem length_le (log : EventLog d) : log.records.length ≤ d.events.maxEvents := by
  rcases List.eq_nil_or_concat log.records with h | ⟨before, r, h⟩
  · rw [h]
    exact Nat.zero_le _
  · have hlast : log.records = before ++ [r] := by simpa using h
    have hseq := log.sequence_at hlast
    have hle : r.event.sequence ≤ d.events.maxEvents :=
      log.linked.forall (P := fun r => r.event.sequence ≤ d.events.maxEvents)
        (fun _ _ h => h.valid.sequence_le) r (by rw [hlast]; simp)
    rw [hlast, List.length_append, List.length_singleton]
    omega

theorem length_bytes (log : EventLog d) :
    log.records.length * minEventBytes ≤ log.bytes := by
  unfold EventLog.bytes
  generalize log.records = records
  induction records with
  | nil => exact Nat.zero_le _
  | cons r records ih =>
    have := r.event.minBytes
    simp only [List.length_cons, List.map_cons, List.sum_cons, minEventBytes] at *
    omega

end EventLog

end

section
variable [F64] [Sha256] {d : WorkloadDefinition}

/-! ## How a log is stored -/

/-- The digest chain after a record. -/
def EventRecord.extend (chain : String) (r : EventRecord) : String :=
  nextPrefixSha256 chain (Sha256.raw r.toJson)

namespace EventLog

/-- The digest chain of the log. -/
def chain (log : EventLog d) : String :=
  Chain.fold EventRecord.extend (Sha256.text d.digest) log.records

/-- The counters row of the log. -/
def stateRow (log : EventLog d) (reserved : Nat) : EventStateRow where
  grantId := d.grantId
  grantDigest := d.digest
  eventCount := log.records.length
  eventBytes := log.bytes
  reservedBytes := reserved
  prefixSha256 := log.chain

/-- The rows the log is stored as. -/
def rows (log : EventLog d) : List EventRow :=
  Chain.rows EventRecord.extend (Ledger.eventRowOf d) (Sha256.text d.digest) log.records

theorem chain_digest (log : EventLog d) : hexDigest log.chain = true := by
  unfold EventLog.chain
  rcases List.eq_nil_or_concat log.records with h | ⟨before, r, h⟩
  · rw [h]
    exact Sha256.text_digest _
  · rw [h, List.concat_eq_append, Chain.fold_append]
    exact Sha256.text_digest _

end EventLog

/-! ## Readers of a stored log -/

/-- The event tables store exactly this log. -/
structure Journal.Holds (j : Journal) (log : EventLog d) : Prop where
  state : ∃ reserved, j.reservation d = .ok reserved
    ∧ j.eventStateRow d.grantId = some (log.stateRow reserved)
  events : j.eventRows d.grantId = log.rows

/-- What a receipt has to agree with for the readers of its log. -/
structure WorkloadReceipt.Covers (w : WorkloadReceipt) (log : EventLog d) : Prop where
  definition : w.definition = d
  times : ∀ r ∈ log.records, w.receipt.acceptedAtMs ≤ r.recordedAtMs
    ∧ r.recordedAtMs ≤ w.receipt.updatedAtMs

namespace Journal.Holds

variable {j : Journal} {log : EventLog d}

theorem eventState (h : j.Holds log) (hv : d.validate = .ok ()) : j.eventState d =
    .ok { count := log.records.length, bytes := log.bytes, prefixSha256 := log.chain } := by
  obtain ⟨reserved, hres, hrow⟩ := h.state
  have hdigest : hexDigest d.digest = true := Sha256.definition_digest _
  have hcount : min (log.records.length * minEventBytes) u64Max ≤ log.bytes :=
    (Nat.min_le_left _ _).trans log.length_bytes
  have hempty : log.records.length ≠ 0 ∨ log.bytes = 0 ∧ log.chain = Sha256.text d.digest := by
    rcases Nat.eq_zero_or_pos log.records.length with h0 | h0
    · have := List.length_eq_zero_iff.mp h0
      simp [EventLog.bytes, EventLog.chain, this]
    · exact .inl (by omega)
  simp only [Journal.eventState, eventSeed, bind_ok, context_ok, ensure_ok,
    WorkloadDefinition.scope_ok, pure_ok]
  exact ⟨_, hrow, (), hexDigest_size hdigest, (), hexDigest_size log.chain_digest, _, ⟨hv, rfl⟩,
    _, hres, _, ⟨_, ⟨hv, rfl⟩, rfl⟩, (), ⟨rfl, log.length_le, log.bytes_le, hcount, rfl,
      log.chain_digest, hempty⟩, rfl⟩

/-- The retained form of the record after `before`. -/
def retainedAfter (d : WorkloadDefinition) (before : List EventRecord) (r : EventRecord) :
    RetainedEvent where
  record := r
  bytes := r.event.toJson.size
  checksum := Sha256.raw r.toJson
  prefixSha256 := Chain.fold EventRecord.extend (Sha256.text d.digest) (before ++ [r])

theorem eventRow (h : j.Holds log) (hv : d.validate = .ok ()) {w : WorkloadReceipt}
    (hw : w.Covers log) {before after : List EventRecord} {r : EventRecord}
    (hlog : log.records = before ++ r :: after) :
    j.eventRow w (before.length + 1) = .ok (retainedAfter d before r) := by
  have hmem : r ∈ log.records := by simp [hlog]
  have hnext : ∃ previous, r.Next d previous :=
    log.linked.forall (P := fun r => ∃ previous, r.Next d previous)
      (fun previous _ h => ⟨previous, h⟩) r hmem
  obtain ⟨previous, hr⟩ := hnext
  have hfind : (j.eventRows d.grantId).find? (fun e => decide (e.sequence = before.length + 1)) =
      some (Ledger.eventRowOf d (Chain.fold EventRecord.extend (Sha256.text d.digest) before) r) := by
    rw [h.events, EventLog.rows, hlog, ← log.sequence_at hlog]
    exact Chain.find_rows (f := EventRow.sequence) (g := fun s : EventRecord => s.event.sequence)
      (fun _ _ => rfl) _ (log.sequence_ne hlog)
  have hfold : Chain.fold EventRecord.extend (Sha256.text d.digest) (before ++ [r]) =
      nextPrefixSha256 (Chain.fold EventRecord.extend (Sha256.text d.digest) before)
        (Sha256.raw r.toJson) := by
    rw [Chain.fold_append]
    rfl
  have henvelope := EventRecord.toJson_size hr.version hr.lease_le hr.recorded_le
  have hsize := hr.size_le
  have hpos : 1 ≤ r.toJson.size := by
    have : 2 ≤ r.toJson.size := by
      simp only [EventRecord.toJson, Json.size]
      omega
    omega
  have hdecode := EventRecord.fromJson_toJson (WorkloadDefinition.validate_valid hv) hr.version
    hr.lease_le hr.recorded_le hr.valid
  simp only [Journal.eventRow, bind_ok, context_ok, ensure_ok, Event.validate_ok, pure_ok,
    hw.definition]
  refine ⟨_, hfind, (), ⟨hpos, ?_⟩, (), hexDigest_size (Sha256.raw_digest _), (),
    hexDigest_size (Sha256.text_digest _), r, ?_, (), hr.valid, (), ⟨hr.version, hr.lease_pos,
      log.sequence_at hlog, (hw.times r hmem).1, (hw.times r hmem).2, rfl, rfl,
      Sha256.text_digest _, ⟨r.event.minBytes, hsize⟩, rfl⟩, ?_⟩
  · show r.toJson.size ≤ _
    omega
  · show (if r.toJson.parses = true then EventRecord.fromJson r.toJson else none) = some r
    rw [if_pos r.toJson_parses, hdecode]
  · rw [retainedAfter, hfold]
    rfl

/-- The loop of `audit` over the records after `before`. -/
theorem auditFrom (h : j.Holds log) (hv : d.validate = .ok ()) {w : WorkloadReceipt}
    (hw : w.Covers log) {before after : List EventRecord} (hlog : log.records = before ++ after)
    (hlinked : Chain.Linked (EventRecord.Next d) before.getLast? after) :
    j.auditFrom w after.length (before.length + 1) before.getLast?
        (Chain.fold EventRecord.extend (Sha256.text d.digest) before)
        (before.map fun r => r.event.toJson.size).sum =
      .ok (log.chain, log.bytes) := by
  induction after generalizing before with
  | nil =>
    rw [List.append_nil] at hlog
    rw [EventLog.chain, EventLog.bytes, hlog]
    rfl
  | cons r after ih =>
    have hrow := h.eventRow hv hw hlog
    have hsum : (before.map fun r => r.event.toJson.size).sum + r.event.toJson.size ≤ u64Max := by
      have hle := log.bytes_le
      have hmax := (WorkloadDefinition.validate_valid hv).totalBytes.2
      rw [hlog] at hle
      simp only [List.map_append, List.map_cons, List.sum_append, List.sum_cons] at hle
      simp only [u64Max]
      omega
    have hlog' : log.records = (before ++ [r]) ++ after := by simpa using hlog
    have hrest := ih hlog' (by simpa using hlinked.2)
    simp only [List.length_append, List.length_singleton, List.getLast?_concat, List.map_append,
      List.map_cons, List.map_nil, List.sum_append, List.sum_cons, List.sum_nil,
      Nat.add_zero] at hrest
    simp only [List.length_cons, Journal.auditFrom, bind_ok, ensure_ok, Event.follows_ok,
      hw.definition]
    refine ⟨_, hrow, (), ⟨hlinked.1.valid, hlinked.1.next⟩, (), hlinked.1.ordered, (), ?_, (), hsum,
      ?_⟩
    · rw [retainedAfter, Chain.fold_append]
      rfl
    · rw [Chain.fold_append] at hrest
      exact hrest

/-- A stored log passes the whole audit. -/
theorem audit (h : j.Holds log) (hv : d.validate = .ok ()) {w : WorkloadReceipt}
    (hw : w.Covers log) (hprogress : j.auditPrefix w = .ok ()) : j.audit w = .ok () := by
  unfold Journal.audit
  split
  · rfl
  · have hsum : ((j.eventRows d.grantId).map EventRow.encodedBytes).sum = log.bytes := by
      rw [h.events, EventLog.rows]
      exact congrArg List.sum (Chain.map_rows (f := EventRow.encodedBytes)
        (g := fun r : EventRecord => r.event.toJson.size) (fun _ _ => rfl) _ _)
    have hlength : (j.eventRows d.grantId).length = log.records.length := by
      rw [h.events, EventLog.rows, Chain.rows_length]
    have hle : log.bytes ≤ i64Max := by
      have := log.bytes_le
      have hmax := (WorkloadDefinition.validate_valid hv).totalBytes.2
      unfold EventLog.bytes
      simp only [i64Max]
      omega
    have hall : log.records = [] ++ log.records := rfl
    have hfrom := h.auditFrom hv hw hall log.linked
    simp only [bind_ok, toI64_ok, ensure_ok, hw.definition, eventSeed, WorkloadDefinition.scope_ok,
      pure_ok]
    exact ⟨_, h.eventState hv, _, ⟨hsum ▸ hle, rfl⟩, (), ⟨hlength, hsum⟩, _, ⟨_, ⟨hv, rfl⟩, rfl⟩, _,
      hfrom, (), ⟨rfl, rfl⟩, hprogress⟩

/-- The tail `completion_prefix` reads off a stored log. -/
theorem completionPrefix (h : j.Holds log) (hv : d.validate = .ok ()) {w : WorkloadReceipt}
    (hw : w.Covers log) {last : EventRecord} (hlast : log.records.getLast? = some last) :
    j.completionPrefix w = .ok (log.records.length, log.bytes, log.chain, last.event,
      last.leaseSequence) := by
  obtain ⟨before, hlog⟩ := List.getLast?_eq_some_iff.mp hlast
  have hrow := h.eventRow hv hw hlog
  have hlen : log.records.length = before.length + 1 := by rw [hlog, List.length_append]; rfl
  have hpos : 0 < log.records.length := by omega
  simp only [Journal.completionPrefix, bind_ok, ensure_ok, pure_ok, hw.definition]
  refine ⟨_, h.eventState hv, (), hpos, retainedAfter d before last, ?_, (), ?_, rfl⟩
  · rw [← hrow, ← hlen]
  · rw [EventLog.chain, hlog]
    rfl

end Journal.Holds

end

end Eef.Node
