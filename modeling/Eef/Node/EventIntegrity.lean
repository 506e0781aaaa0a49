import Eef.Node.WorkloadInv

/-!
# The event journal stays intact

`append` only reads the last row of a workload, `audit` all of them. Over every run the
tables of a consumed workload hold an `EventLog`, so after every call `audit` passes and
the counters are those of the rows; appending a stored event again finds the row it was
stored as. `event_journal_integrity` puts this together for an open workload.
-/

namespace Eef.Node

open Eef.Lib

section
variable [F64] [Sha256]

/-! ## A pending workload reads back -/

/-- The typed receipt of a workload's row. -/
def ReceiptRow.workload (r : ReceiptRow) (node : String) (d : WorkloadDefinition)
    (completion : Option CompletionReport) : WorkloadReceipt where
  schemaVersion := if completion.isSome then 3 else 2
  receipt := r.consumed node none
  definition := d
  executionAuthorized := false
  restartAuthorized := false
  completion := completion

variable {j : Journal} {r : ReceiptRow} {d : WorkloadDefinition} {log : EventLog d}

theorem WorkloadRow.covers (h : WorkloadRow j r d log) (node : String)
    (completion : Option CompletionReport) : (r.workload node d completion).Covers log :=
  ⟨rfl, h.times⟩

/-- The identity columns of a workload's row are those of its scope. -/
theorem WorkloadRow.of (h : WorkloadRow j r d log) : r.Of (d.identityScope d.digest) :=
  ⟨h.grantId, h.grantDigest, ReceiptRow.fixed_eq ReceiptRow.issuerId (fun _ => rfl) h.row,
    ReceiptRow.fixed_eq ReceiptRow.jobId (fun _ => rfl) h.row,
    ReceiptRow.fixed_eq ReceiptRow.taskId (fun _ => rfl) h.row,
    ReceiptRow.fixed_eq ReceiptRow.attempt (fun _ => rfl) h.row⟩

theorem WorkloadRow.scope_valid (h : WorkloadRow j r d log) : (d.identityScope d.digest).Valid :=
  h.valid.identity _ (Sha256.definition_digest _)

/-- No observation is kept for a workload. -/
theorem WorkloadsInv.observation_none (h : WorkloadsInv j)
    (hids : Table.Keyed ReceiptRow.grantId j.receipts) (hr : r ∈ j.receipts)
    (hkind : r.kind = .workload) : j.observation r.grantId = none := by
  cases hp : j.progress with
  | none => rw [Journal.observation, hp]; rfl
  | some rows =>
    rw [Journal.observation, hp]
    refine Table.find_none.mpr fun p hmem hid => ?_
    obtain ⟨r', hr', hid', hop⟩ := h.progress p (by rw [hp]; exact hmem)
    rw [hids.eq hr' hr (hid'.trans hid), hkind] at hop
    cases hop

/-- `read_core` returns the typed receipt of a workload's row, once its outcome passes. -/
theorem WorkloadRow.readCore (h : WorkloadRow j r d log) (hinv : WorkloadsInv j)
    (hids : Table.Keyed ReceiptRow.grantId j.receipts) (hr : r ∈ j.receipts)
    (hstate : r.state ≠ .rejected) {issuer : Option String} (hissuer : ∀ s ∈ issuer, s = d.issuerId)
    {completion : Option CompletionReport} (hc : j.decodeCompletion r r.state = .ok completion)
    (houtcome : (r.workload d.executorNode d completion).outcome = .ok true) :
    j.readCore d.executorNode issuer d.grantId = .ok (r.workload d.executorNode d completion) := by
  have hrow : j.receipt d.grantId = some r := by
    rw [← h.grantId]
    exact Table.find_of_mem hids hr
  have howner : j.validateOwner d.executorNode = .ok () := by
    have := hinv.version
    exact Journal.validateOwner_ok.mpr ⟨h.node, by omega, hinv.schema⟩
  have hversion : 3 ≤ j.version := by
    have hv := hinv.version
    have hne : j.version ≠ 2 := by
      intro h2
      have := hinv.legacy h2 r hr
      rw [h.kind] at this
      cases this
    omega
  have hscope := h.scope_valid
  have hof := h.of
  have hnone : ∀ p ∈ (none : Option PipelineProgress), p.validate = .ok () ∧
      r.acceptedMs ≤ p.recordedAtMs ∧ p.recordedAtMs ≤ r.updatedMs := by simp
  have hvalidate := hof.consumed_validate hscope hstate h.accepted_pos h.updated h.updated_le hnone
  have hid := hscope.grantId
  simp only [uuid, Bool.and_eq_true] at hid
  have hread : j.readConsumed d.executorNode issuer d.grantId =
      .ok (r.consumed d.executorNode none) := by
    refine Journal.readConsumed_ok.mpr ⟨hid.1, ?_, howner, r, none, hrow, ?_, ?_, hvalidate, rfl⟩
    · intro s hs
      rw [hissuer s hs]
      exact hscope.issuerId
    · intro s hs
      rw [hissuer s hs]
      exact hof.issuerId.symm
    · rw [← h.grantId, hinv.observation_none hids hr h.kind]
      rfl
  have hsize := h.valid.size
  have hpos : 1 ≤ d.toJson.size := by
    simp only [WorkloadDefinition.toJson, Json.size]
    omega
  refine Journal.readCore_ok.mpr ⟨howner, ?_, hread, r, d.toJson, hrow, h.definition, ⟨hpos, hsize⟩,
    d.toJson_parses, WorkloadDefinition.fromJson_toJson h.valid, rfl, ?_, hc, rfl, ?_⟩
  · exact Journal.isWorkload_ok.mpr ⟨hinv.schema, .inr (.inr ⟨r, hversion, hrow,
      .inr ⟨h.kind, by rw [h.definition]; rfl, rfl⟩⟩)⟩
  · exact ReceiptRow.fixed_eq ReceiptRow.maxResultBytes (fun _ => rfl) h.row
  · simp only [WorkloadReceipt.validate, bind_ok, ensure_ok, WorkloadDefinition.scope_ok]
    exact ⟨(), hvalidate, _, ⟨h.validate, rfl⟩, true, houtcome, rfl, rfl, rfl, rfl, hof.issuerId,
      hof.grantId, hof.grantDigest, hof.jobId, hof.taskId, hof.attempt, rfl⟩

/-- A pending workload reads back and passes its audit. -/
theorem WorkloadRow.read_pending (h : WorkloadRow j r d log) (hinv : WorkloadsInv j)
    (hids : Table.Keyed ReceiptRow.grantId j.receipts) (hr : r ∈ j.receipts)
    (hstate : r.state = .accepted ∨ r.state = .unknown)
    (hreport : r.report = none ∧ r.reportSha256 = none) {issuer : Option String}
    (hissuer : ∀ s ∈ issuer, s = d.issuerId) :
    j.readCore d.executorNode issuer d.grantId = .ok (r.workload d.executorNode d none)
      ∧ j.audit (r.workload d.executorNode d none) = .ok () := by
  have hc : j.decodeCompletion r r.state = .ok none := by
    rw [Journal.decodeCompletion, if_pos (by rcases hstate with hs | hs <;> rw [hs] <;> decide)]
    simp only [bind_ok, ensure_ok, pure_ok]
    exact ⟨(), hreport, trivial⟩
  refine ⟨h.readCore hinv hids hr (by rcases hstate with hs | hs <;> rw [hs] <;> decide) hissuer hc
    ?_, h.holds.audit h.validate (h.covers _ _) rfl⟩
  rcases hstate with hs | hs <;> simp [WorkloadReceipt.outcome, ReceiptRow.workload,
    ReceiptRow.consumed, hs]

/-! ## Open workloads -/

/-- `d` is a consumed workload that is still open. -/
def Journal.Live (j : Journal) (d : WorkloadDefinition) : Prop :=
  ∃ r raw, j.receipt d.grantId = some r ∧ r.workloadDefinition = some raw
    ∧ WorkloadDefinition.fromJson raw = some d ∧ r.state = .accepted

/-- The event journal of `d` passes its audit, and its counters and digest chain are
those of its rows. -/
structure Journal.Intact (j : Journal) (node : String) (d : WorkloadDefinition) : Prop where
  audit : ∃ w, j.readCore node (some d.issuerId) d.grantId = .ok w ∧ w.definition = d
    ∧ j.audit w = .ok ()
  counters : ∃ s, j.eventStateRow d.grantId = some s
    ∧ s.eventCount = (j.eventRows d.grantId).length
    ∧ s.eventBytes = ((j.eventRows d.grantId).map EventRow.encodedBytes).sum
    ∧ s.eventCount ≤ d.events.maxEvents ∧ s.eventBytes ≤ d.events.maxTotalBytes
    ∧ s.prefixSha256 = (j.eventRows d.grantId).foldl
        (fun chain e => nextPrefixSha256 chain e.dataSha256) (Sha256.text d.digest)

/-- The row of an open workload, with its log. -/
structure OpenRow (j : Journal) (r : ReceiptRow) (d : WorkloadDefinition) (log : EventLog d) :
    Prop extends WorkloadRow j r d log where
  mem : r ∈ j.receipts
  accepted : r.state = .accepted

theorem Journal.Live.openRow (h : j.Live d) (hinv : WorkloadsInv j) :
    ∃ r log, OpenRow j r d log := by
  obtain ⟨r, raw, hr, hraw, hfrom, hopen⟩ := h
  have hmem := (Table.find_some hr).1
  have hkind : r.kind = .workload := by
    cases hk : r.kind with
    | workload => rfl
    | operation =>
      rw [hinv.operations r hmem hk] at hraw
      cases hraw
  obtain ⟨d', log, hd⟩ := hinv.workloads r hmem hkind
  rw [hd.definition] at hraw
  cases hraw
  rw [WorkloadDefinition.fromJson_toJson hd.valid] at hfrom
  cases hfrom
  exact ⟨r, log, { hd with mem := hmem, accepted := hopen }⟩

namespace OpenRow

theorem live (h : OpenRow j r d log) (hids : Table.Keyed ReceiptRow.grantId j.receipts) :
    j.Live d := by
  refine ⟨r, d.toJson, ?_, h.definition, WorkloadDefinition.fromJson_toJson h.valid, h.accepted⟩
  rw [← h.grantId]
  exact Table.find_of_mem hids h.mem

theorem read (h : OpenRow j r d log) (hinv : WorkloadsInv j)
    (hids : Table.Keyed ReceiptRow.grantId j.receipts) :
    j.readCore d.executorNode (some d.issuerId) d.grantId = .ok (r.workload d.executorNode d none)
      ∧ j.audit (r.workload d.executorNode d none) = .ok () :=
  h.read_pending hinv hids h.mem (.inl h.accepted) (h.pending h.accepted) (by simp)

theorem intact (h : OpenRow j r d log) (hinv : WorkloadsInv j)
    (hids : Table.Keyed ReceiptRow.grantId j.receipts) : j.Intact d.executorNode d := by
  obtain ⟨hread, haudit⟩ := h.read hinv hids
  refine ⟨⟨_, hread, rfl, haudit⟩, ?_⟩
  obtain ⟨reserved, -, hstate⟩ := h.holds.state
  refine ⟨_, hstate, ?_, ?_, log.length_le, log.bytes_le, ?_⟩
  · rw [h.holds.events, EventLog.rows, Chain.rows_length]
    rfl
  · rw [h.holds.events, EventLog.rows]
    exact (congrArg List.sum (Chain.map_rows (f := EventRow.encodedBytes)
      (g := fun r : EventRecord => r.event.toJson.size) (fun _ _ => rfl) _ _)).symm
  · rw [h.holds.events, EventLog.rows]
    exact (Chain.fold_rows (f := EventRow.dataSha256) (g := fun r : EventRecord =>
      Sha256.raw r.toJson) (fun _ _ => rfl) (fun _ _ => rfl) _ _).symm

end OpenRow

end

/-! ## Appending to an open workload -/

section
variable [F64] [Sha256] [PeerAdmission]

/-- At every look of an `append` the lease is live and nothing is stopped, and storage
accepts the transaction. -/
structure AppendReadings.Live (r : AppendReadings) (checkpoint : Checkpoint)
    (d : WorkloadDefinition) : Prop where
  lease : ∀ n contract, d.leaseContract = .ok contract →
    checkpoint.check (r.authority n).1 contract (r.authority n).2 = .ok ()
  stopped : ∀ n, r.stopped n = false
  stored : r.stored = true

/-- Some call of `append` takes the ledger from `l` to `l'`. -/
def AppendStep (l l' : Ledger) : Prop :=
  ∃ (d : WorkloadDefinition) (event : Event) (checkpoint : TakenCheckpoint) (r : AppendReadings),
    l' = ((LedgerOp.append d event checkpoint r).run l).1

theorem appendStep (l : Ledger) (d : WorkloadDefinition) (event : Event)
    (checkpoint : TakenCheckpoint) (r : AppendReadings) :
    AppendStep l (l.append d event checkpoint.value r).1 :=
  ⟨d, event, checkpoint, r, rfl⟩

/-- An `append` keeps open workloads open. -/
theorem live_append {l l' : Ledger} {d : WorkloadDefinition} (h : l.journal.Live d)
    (hs : AppendStep l l') : l'.journal.Live d := by
  obtain ⟨d', event, checkpoint, r, rfl⟩ := hs
  rcases LedgerOp.run_journal (.append d' event checkpoint r) l with hj | hc
  · rw [hj]
    exact h
  generalize ((LedgerOp.append d' event checkpoint r).run l).1.journal = j' at hc ⊢
  cases hc with
  | append hc =>
    obtain ⟨w, saved, -, -, -, -, ⟨-, rfl, -⟩ | ⟨-, record, -, hw, -⟩⟩ := hc.writes
    · exact h
    · obtain ⟨-, -, t, -, -, rfl⟩ := Ledger.appendWrite_ok hw
      obtain ⟨row, raw, hrow, hraw, hfrom, hopen⟩ := h
      have hkey : ∀ e : ReceiptRow, (e.touch record.recordedAtMs).grantId = e.grantId := fun _ => rfl
      have hfind := Table.find_update (p := Ledger.acceptedId d'.grantId) hkey d.grantId
        l.journal.receipts
      rw [show Table.find ReceiptRow.grantId d.grantId l.journal.receipts = some row from hrow]
        at hfind
      simp only [Option.map_some] at hfind
      refine ⟨_, raw, hfind, ?_, hfrom, ?_⟩
      · split
        · exact hraw
        · exact hraw
      · split
        · exact hopen
        · exact hopen

omit [PeerAdmission] in
/-- Appending a stored event again finds the row it was stored as. -/
theorem append_stored {l : Ledger} (hl : LedgerInv l) {row : ReceiptRow} {d : WorkloadDefinition}
    {log : EventLog d} (hd : OpenRow l.journal row d log) {e : EventRow} {record : EventRecord}
    (he : e ∈ l.journal.eventRows d.grantId) (hrecord : EventRecord.fromJson e.data = some record)
    {checkpoint : Checkpoint} (r : AppendReadings) :
    (l.append d record.event checkpoint r).1 = l
    ∧ (∀ receipt, (l.append d record.event checkpoint r).2 = .ok receipt →
        receipt = { sequence := record.event.sequence, dataSha256 := e.dataSha256, reused := true })
    ∧ (r.Live checkpoint d → l.journal.stop d.grantId = none →
        (l.append d record.event checkpoint r).2 =
          .ok { sequence := record.event.sequence, dataSha256 := e.dataSha256, reused := true }) := by
  obtain ⟨hread, haudit⟩ := hd.read hl.workloads hl.receipts.ids
  have hnode : l.nodeId = d.executorNode := Option.some.inj (hl.owner.symm.trans hd.node)
  rw [← hnode] at hread haudit
  have hstate := hd.holds.eventState hd.validate
  rw [hd.holds.events] at he
  obtain ⟨before, stored, after, hlog, rfl⟩ := Chain.mem_rows he
  have hmem : stored ∈ log.records := by simp [hlog]
  obtain rfl : record = stored := by
    obtain ⟨previous, hnext⟩ := log.linked.forall (P := fun r => ∃ previous, r.Next d previous)
      (fun previous _ h => ⟨previous, h⟩) stored hmem
    have hback := EventRecord.fromJson_toJson hd.valid hnext.version hnext.lease_le
      hnext.recorded_le hnext.valid
    rw [Ledger.eventRowOf, hback] at hrecord
    exact (Option.some.inj hrecord).symm
  have hseq := log.sequence_at hlog
  have hrow := hd.holds.eventRow hd.validate (hd.covers l.nodeId none) hlog
  rw [← hseq] at hrow
  have hcount : record.event.sequence ≤ log.records.length := by
    rw [hseq, hlog]
    simp
  -- a transaction on this event can only be the reusing one
  have htx : ∀ p, l.appendTx d record.event checkpoint r = .ok p → p =
      (l.journal, { sequence := record.event.sequence, dataSha256 := Sha256.raw record.toJson,
                    reused := true }) := by
    rintro ⟨j', receipt⟩ hp
    obtain ⟨w, saved, hr, -, -, hs, hcase⟩ := (Ledger.appendTx_ok hp).writes
    rw [hread] at hr
    cases hr
    rw [hstate] at hs
    cases hs
    rcases hcase with ⟨-, rfl, old, -, hold, -, rfl⟩ | ⟨hlt, -⟩
    · rw [hrow] at hold
      cases hold
      rfl
    · exact absurd hcount (by simpa using hlt)
  refine ⟨?_, ?_, ?_⟩
  · unfold Ledger.append Ledger.commit
    cases hp : l.appendTx d record.event checkpoint r with
    | error msg => rfl
    | ok p => rw [htx p hp]
  · intro receipt hok
    unfold Ledger.append Ledger.commit at hok
    cases hp : l.appendTx d record.event checkpoint r with
    | error msg =>
      rw [hp] at hok
      cases hok
    | ok p =>
      rw [hp, htx p hp] at hok
      simp only [Ledger.appendAfter, bind_ok, ensure_ok, if_true, pure_ok] at hok
      obtain ⟨_, -, _, -, _, -, rfl⟩ := hok
      rfl
  · intro hlive hstop
    obtain ⟨contract, hcontract⟩ : ∃ contract, d.leaseContract = .ok contract :=
      ⟨_, WorkloadDefinition.leaseContract_ok.mpr ⟨hd.validate, rfl⟩⟩
    have hlease := fun n => hlive.lease n contract hcontract
    have hscope : contract.scope.grantId = d.grantId := by
      obtain ⟨-, rfl⟩ := WorkloadDefinition.leaseContract_ok.mp hcontract
      rfl
    have hok : l.appendTx d record.event checkpoint r = .ok (l.journal,
        { sequence := record.event.sequence, dataSha256 := Sha256.raw record.toJson,
          reused := true }) := by
      simp only [Ledger.appendTx, bind_ok, ensure_ok]
      refine ⟨contract, hcontract, (), hlease 0, (), hlive.stopped 0, (), hlease 1, (), hlease 2, _,
        hread, (), ⟨rfl, hd.accepted, hlive.stopped 1⟩, false,
        Journal.recordedScope_ok.mpr (.inl ⟨by rw [hscope]; exact hstop, rfl⟩), (), rfl, _, hstate, ?_⟩
      rw [if_pos hcount]
      simp only [bind_ok, ensure_ok, storage_ok, pure_ok]
      exact ⟨(), haudit, _, hrow, (), rfl, (), hlease 3, (), hlive.stored, rfl⟩
    unfold Ledger.append Ledger.commit
    rw [hok]
    simp only [Ledger.appendAfter, bind_ok, ensure_ok, if_true, pure_ok]
    exact ⟨contract, hcontract, (), hlease 5, (), hlive.stopped 3, rfl⟩

/-- The record a fresh `append` keeps. -/
def freshRecord (row : ReceiptRow) (event : Event) (checkpoint : Checkpoint) (r : AppendReadings) :
    EventRecord where
  schemaVersion := 1
  leaseSequence := checkpoint.sequence
  recordedAtMs := max r.now row.updatedMs
  event := event

omit [PeerAdmission] in
/-- The tail `append` reads is the last record of the log. -/
theorem appendTail_last {j : Journal} {row : ReceiptRow} {d : WorkloadDefinition} {log : EventLog d}
    (hd : OpenRow j row d log) {checkpoint : Checkpoint}
    (hlease : ∀ p ∈ log.records.getLast?, p.leaseSequence ≤ checkpoint.sequence) (node : String) :
    Ledger.appendTail j (row.workload node d none)
        { count := log.records.length, bytes := log.bytes, prefixSha256 := log.chain } checkpoint =
      .ok (log.records.getLast?.map EventRecord.event) := by
  unfold Ledger.appendTail
  rcases List.eq_nil_or_concat log.records with hnil | ⟨before, last, hlast⟩
  · rw [if_pos (by rw [hnil]; rfl), hnil]
    rfl
  · have hlog : log.records = before ++ [last] := by simpa using hlast
    have hrow := hd.holds.eventRow hd.validate (hd.covers node none) hlog
    have hlen : log.records.length = before.length + 1 := by rw [hlog, List.length_append]; rfl
    rw [hlog, List.getLast?_concat] at hlease
    rw [if_neg (by simp only; omega), hlog, List.getLast?_concat, ← hlog, hlen]
    simp only [bind_ok, ensure_ok, pure_ok]
    refine ⟨_, hrow, (), ⟨?_, hlease last rfl⟩, rfl⟩
    rw [EventLog.chain, hlog]
    rfl

omit [PeerAdmission] in
/-- A fresh event that follows the log and fits its budget is accepted and extends it. -/
theorem append_fresh {l : Ledger} (hl : LedgerInv l) {row : ReceiptRow} {d : WorkloadDefinition}
    {log : EventLog d} (hd : OpenRow l.journal row d log) {event : Event} {checkpoint : Checkpoint}
    {r : AppendReadings} (hlive : r.Live checkpoint d) (hstop : l.journal.stop d.grantId = none)
    (hclock : r.now ≤ i64Max) (hsequence : 0 < checkpoint.sequence ∧ checkpoint.sequence ≤ u64Max)
    (hlease : ∀ p ∈ log.records.getLast?, p.leaseSequence ≤ checkpoint.sequence)
    (hfollows : event.follows d (log.records.getLast?.map EventRecord.event) = .ok ())
    (hsize : event.toJson.size ≤ d.events.maxEventBytes)
    (htotal : log.bytes + event.toJson.size ≤ d.events.maxTotalBytes) :
    (l.append d event checkpoint r).2 = .ok
        { sequence := event.sequence, reused := false,
          dataSha256 := Sha256.raw (freshRecord row event checkpoint r).toJson }
    ∧ (l.append d event checkpoint r).1.journal.stop d.grantId = none
    ∧ ∃ log' : EventLog d, log'.records = log.records ++ [freshRecord row event checkpoint r]
      ∧ OpenRow (l.append d event checkpoint r).1.journal
          (row.touch (freshRecord row event checkpoint r).recordedAtMs) d log' := by
  obtain ⟨hread, -⟩ := hd.read hl.workloads hl.receipts.ids
  have hnode : l.nodeId = d.executorNode := Option.some.inj (hl.owner.symm.trans hd.node)
  rw [← hnode] at hread
  have hstate := hd.holds.eventState hd.validate
  obtain ⟨contract, hcontract⟩ : ∃ contract, d.leaseContract = .ok contract :=
    ⟨_, WorkloadDefinition.leaseContract_ok.mpr ⟨hd.validate, rfl⟩⟩
  have hscope : contract.scope.grantId = d.grantId := by
    obtain ⟨-, rfl⟩ := WorkloadDefinition.leaseContract_ok.mp hcontract
    rfl
  have hleases := fun n => hlive.lease n contract hcontract
  obtain ⟨hvalid, hnext⟩ := Event.follows_ok.mp hfollows
  have hmaxEvents := hd.valid.maxEvents.2
  have hmaxBytes := hd.valid.eventBytes.2
  have hmaxTotal := hd.valid.totalBytes.2
  have hrecorded : (freshRecord row event checkpoint r).recordedAtMs ≤ i64Max :=
    Nat.max_le.mpr ⟨hclock, hd.updated_le⟩
  have hlink : (freshRecord row event checkpoint r).Next d log.records.getLast? := by
    refine ⟨rfl, hsequence.1, hsequence.2, hrecorded, hvalid, hnext, ?_, hsize⟩
    intro p hp
    refine ⟨hlease p hp, ?_⟩
    have := (hd.times p (List.mem_of_getLast? hp)).2
    exact this.trans (Nat.le_max_right _ _)
  have hrecord : Ledger.appendRecord l.journal (row.workload l.nodeId d none)
      { count := log.records.length, bytes := log.bytes, prefixSha256 := log.chain } event
      checkpoint r.now = .ok (freshRecord row event checkpoint r) := by
    have henvelope := EventRecord.toJson_size (r := freshRecord row event checkpoint r) rfl
      hsequence.2 hrecorded
    simp only [Ledger.appendRecord, bind_ok, ensure_ok, pure_ok]
    refine ⟨_, appendTail_last hd hlease l.nodeId, (), hfollows, (),
      ⟨⟨event.minBytes, hsize⟩, ?_⟩, (), ?_, rfl⟩
    · show _ ≤ d.events.maxTotalBytes - log.bytes
      omega
    · exact henvelope.trans (Nat.add_le_add_right hsize _)
  have hlast : (log.append _ hlink htotal).records =
      log.records ++ [freshRecord row event checkpoint r] := rfl
  have hseq : event.sequence = log.records.length + 1 :=
    (log.append _ hlink htotal).sequence_at hlast
  obtain ⟨t, ht⟩ : ∃ t, l.journal.eventTables = some t := by
    obtain ⟨_, -, hs⟩ := hd.holds.state
    exact ⟨_, (Option.bind_eq_some_iff.mp hs).choose_spec.1⟩
  -- the sequence after the last one is not stored yet
  have hnew : ∀ u ∈ t.events, ¬(u.grantId = d.grantId ∧ u.sequence = event.sequence) := by
    rintro u hu ⟨hid, hsame⟩
    have hmem : u ∈ l.journal.eventRows d.grantId := by
      rw [Journal.eventRows_tables, Journal.tables_some ht]
      exact List.mem_filter.mpr ⟨hu, decide_eq_true hid⟩
    rw [hd.holds.events] at hmem
    obtain ⟨before, stored, after, hlog, rfl⟩ := Chain.mem_rows hmem
    have h1 : stored.event.sequence = event.sequence := hsame
    have h2 := log.sequence_at hlog
    have h3 : log.records.length = before.length + 1 + after.length := by
      rw [hlog, List.length_append, List.length_cons]
      omega
    omega
  obtain ⟨j', hwrite⟩ : ∃ j', Ledger.appendWrite l.journal d
      { count := log.records.length, bytes := log.bytes, prefixSha256 := log.chain }
      (freshRecord row event checkpoint r) = .ok j' := by
    have hle := hvalid.sequence_le
    simp only [Ledger.appendWrite, bind_ok, toI64_ok, pure_ok, Journal.insertEvent_ok]
    refine ⟨_, _, ⟨?_, rfl⟩, _, ⟨?_, rfl⟩, _, ⟨t, ht, hnew, rfl⟩, _, ⟨?_, rfl⟩, _, ⟨hrecorded, rfl⟩,
      rfl⟩
    · show event.sequence ≤ i64Max
      simp only [i64Max]
      omega
    · show event.toJson.size ≤ i64Max
      simp only [i64Max]
      omega
    · show log.bytes + event.toJson.size ≤ i64Max
      simp only [i64Max]
      omega
  have hrow := WorkloadsInv.append_row hd.toWorkloadRow hd.accepted hlink htotal
    (Nat.le_max_right _ _) hstate hwrite
  have hj' := (Ledger.appendWrite_ok hwrite).2.2
  have hstop' : j'.stop d.grantId = none := by
    obtain ⟨_, -, -, rfl⟩ := hj'
    exact hstop
  have htx : l.appendTx d event checkpoint r = .ok (j',
      { sequence := event.sequence, reused := false,
        dataSha256 := Sha256.raw (freshRecord row event checkpoint r).toJson }) := by
    simp only [Ledger.appendTx, bind_ok, ensure_ok]
    refine ⟨contract, hcontract, (), hleases 0, (), hlive.stopped 0, (), hleases 1, (), hleases 2, _,
      hread, (), ⟨rfl, hd.accepted, hlive.stopped 1⟩, false,
      Journal.recordedScope_ok.mpr (.inl ⟨by rw [hscope]; exact hstop, rfl⟩), (), rfl, _, hstate, ?_⟩
    rw [if_neg (by simp only; omega)]
    simp only [bind_ok, ensure_ok, storage_ok, pure_ok]
    exact ⟨_, hrecord, (), hleases 3, (), hlive.stopped 2, _, hwrite, (), hleases 4, (),
      hlive.stored, rfl⟩
  have hafter : Ledger.appendAfter { l with journal := j' } d checkpoint r
      { sequence := event.sequence, reused := false,
        dataSha256 := Sha256.raw (freshRecord row event checkpoint r).toJson } = .ok
      { sequence := event.sequence, reused := false,
        dataSha256 := Sha256.raw (freshRecord row event checkpoint r).toJson } := by
    simp only [Ledger.appendAfter, bind_ok, ensure_ok, Bool.false_eq_true, if_false, pure_ok]
    exact ⟨contract, hcontract, (), hleases 5, (), hlive.stopped 3, false,
      Journal.recordedScope_ok.mpr (.inl ⟨by rw [hscope]; exact hstop', rfl⟩), (), rfl, trivial⟩
  have happend : l.append d event checkpoint r = ({ l with journal := j' }, .ok
      { sequence := event.sequence, reused := false,
        dataSha256 := Sha256.raw (freshRecord row event checkpoint r).toJson }) := by
    simp only [Ledger.append, Ledger.commit, htx, hafter]
  rw [happend]
  refine ⟨rfl, hstop', log.append _ hlink htotal, rfl, { hrow with mem := ?_, accepted := hd.accepted }⟩
  obtain ⟨_, -, -, rfl⟩ := hj'
  refine Table.mem_update.mpr ⟨row, hd.mem, ?_⟩
  have hp : Ledger.acceptedId d.grantId row = true := decide_eq_true ⟨hd.grantId, hd.accepted⟩
  rw [if_pos hp]

/-- **The event journal stays intact.** For an open workload `d` of a reachable ledger and
after any run of `append` calls: the audit passes, the counters and the digest chain are
those of the stored rows and within the definition's limits; appending a stored event
again changes nothing and can only return the digest it was stored with, and does so
under a live lease without a stop; an `append` that fails before its commit leaves the
ledger as it was. -/
theorem event_journal_integrity {l : Ledger} (hl : l.Reachable) {d : WorkloadDefinition}
    (hd : l.journal.Live d) {l' : Ledger} (hrun : Run AppendStep l l') :
    l'.journal.Intact l'.nodeId d
    ∧ (∀ e ∈ l'.journal.eventRows d.grantId, ∀ record, EventRecord.fromJson e.data = some record →
      ∀ (checkpoint : TakenCheckpoint) (r : AppendReadings),
        (l'.append d record.event checkpoint.value r).1 = l'
        ∧ (∀ receipt, (l'.append d record.event checkpoint.value r).2 = .ok receipt → receipt =
            { sequence := record.event.sequence, dataSha256 := e.dataSha256, reused := true })
        ∧ (r.Live checkpoint.value d → l'.journal.stop d.grantId = none →
            (l'.append d record.event checkpoint.value r).2 = .ok
              { sequence := record.event.sequence, dataSha256 := e.dataSha256, reused := true }))
    ∧ ∀ (d' : WorkloadDefinition) (event : Event) (checkpoint : TakenCheckpoint)
        (r : AppendReadings) (msg : String),
        l'.appendTx d' event checkpoint.value r = .error msg →
          (l'.append d' event checkpoint.value r).1 = l' := by
  have hreach : l'.Reachable ∧ l'.journal.Live d := by
    refine @Run.invariant _ AppendStep (fun l => l.Reachable ∧ l.journal.Live d) ?_ _ _ ⟨hl, hd⟩ hrun
    rintro a b ⟨ha, hlive⟩ hstep
    refine ⟨?_, live_append hlive hstep⟩
    obtain ⟨d', event, checkpoint, r, rfl⟩ := hstep
    exact ha.step _
  have hinv := hreach.1.inv
  obtain ⟨row, log, hopen⟩ := hreach.2.openRow hinv.workloads
  have hnode : l'.nodeId = d.executorNode := Option.some.inj (hinv.owner.symm.trans hopen.node)
  refine ⟨?_, ?_, ?_⟩
  · rw [hnode]
    exact hopen.intact hinv.workloads hinv.receipts.ids
  · intro e he record hrecord checkpoint r
    exact append_stored hinv hopen he hrecord r
  · intro d' event checkpoint r msg herr
    unfold Ledger.append Ledger.commit
    rw [herr]

end

/-! The sample workload is consumed, and its first event is appended twice. -/

/-- The lease contract of the sample workload. -/
def workloadContract : Contract where
  schemaVersion := 2
  scope := sampleWorkload.identityScope
    "1e738231acd5f1455bb4d09eafaeca74beef0e2a3f21bf8e14dae3669b887f58"
  maxSessionMs := 60000
  maxLeaseMs := 30000

/-- Its first event. -/
def firstEvent : Event := ⟨2, .microphoneActivity, 1, 1, 160, 0, some false, some 12, false⟩

/-- SHA-256 on the documents, texts and strings of the run. -/
@[reducible]
def eventSha : Sha256 :=
  Sha256.table
    [(sampleWorkload.toJson, workloadContract.scope.grantSha256),
      (workloadContract.toJson, "2c0572fd49e276fe38b28812c478641694952ba3ca45b39a9d5a51978109cb12")]
    [(EventRecord.toJson ⟨1, 1, 2000, firstEvent⟩,
      "3afaf25b34c3ae4571c46a4d861722cfbca4e1680f4c5babf70e95235d820a92")]
    [(workloadContract.scope.grantSha256,
        "6a8f0b92fe61d7b2b372ca24ffae9a513942ec95b15d98554fbda57daa083087"),
      ("6a8f0b92fe61d7b2b372ca24ffae9a513942ec95b15d98554fbda57daa083087" ++
          "3afaf25b34c3ae4571c46a4d861722cfbca4e1680f4c5babf70e95235d820a92",
        "f02ab64c093f5d87f97c875044d92fdb59ac9dc1a5300e29f06d3bf93bc5dd62")]
    workloadContract.scope.grantSha256 (by decide) (by decide) (by decide) (by decide)

/-- A node that allows the session. -/
def workloadPolicy : LeasePolicy := ⟨true, 3600000, 30000⟩

/-- The first lease of the session. -/
def workloadProof : LeaseProof where
  contractSha256 := "2c0572fd49e276fe38b28812c478641694952ba3ca45b39a9d5a51978109cb12"
  sequence := 1
  deadline := millis 29696
  sessionDeadline := millis 59395

section
attribute [local instance] F64.bits PeerAdmission.never eventSha

/-- The consumption of the sample workload by its own session. -/
@[reducible]
def sampleConsume : LedgerOp :=
  .consume sampleWorkload workloadPolicy workloadProof sampleWorkload.issuerId
    sampleWorkload.sessionId sampleWorkload.executorNode
    ⟨false, millis 3, true, 3, true, false, millis 3, 1000, true⟩

/-- The ledger after it. -/
def workloadLedger : Ledger :=
  { openedLedger with
    journal := { openedLedger.journal with
      version := 4
      kindColumns := true
      receipts := [Ledger.consumedRow sampleWorkload 1000]
      eventTables := some ⟨[(EventLog.empty sampleWorkload).stateRow 180224], []⟩ } }

/-- The session's definition has the digest its contract names. -/
theorem workloadDigest_eq : sampleWorkload.digest = workloadContract.scope.grantSha256 := by
  decide +kernel

theorem workloadContract_eq : sampleWorkload.leaseContract = .ok workloadContract := by
  rw [WorkloadDefinition.leaseContract_ok, workloadDigest_eq]
  exact ⟨sampleWorkload_validate, rfl⟩

/-- What the proof opens, and the authority bound to it. -/
theorem workload_lease :
    workloadProof.initialDeadline workloadContract workloadPolicy (millis 3) = .ok (millis 29696)
    ∧ Reporting.new workloadContract = .ok ⟨workloadProof.contractSha256, false, false, 0, none⟩
    ∧ Window.new workloadContract workloadPolicy workloadProof (millis 3) =
      .ok ⟨workloadProof.contractSha256, 1, millis 29696, millis 59395⟩
    ∧ Reporting.bind ⟨workloadProof.contractSha256, false, false, 0, none⟩
        ⟨workloadProof.contractSha256, 1, millis 29696, millis 59395⟩ (millis 4) =
      .ok ⟨workloadProof.contractSha256, true, false, 1, some (millis 29696)⟩ := by
  decide +kernel

theorem sampleConsume_run : sampleConsume.run openedLedger = (workloadLedger, true) := by
  have hscope : sampleWorkload.scope = .ok workloadContract.scope := by
    rw [WorkloadDefinition.scope_ok, workloadDigest_eq]
    exact ⟨sampleWorkload_validate, rfl⟩
  have hlease := workload_lease.1
  have hslot : openedLedger.journal.checkAttemptSlot workloadContract.scope = .ok () := by decide
  have hupgrade : openedLedger.journal.upgrade "owner" = .ok { openedLedger.journal with
      version := 4, kindColumns := true, eventTables := some ⟨[], []⟩ } := by decide
  have hsize := (WorkloadDefinition.validate_valid sampleWorkload_validate).size
  have hbudget : ∀ n, n ≤ 64 * 1024 → Journal.checkReceiptBudget { openedLedger.journal with
      version := 4, kindColumns := true, eventTables := some ⟨[], []⟩ } GrantPolicy.default 3 1024
      (n + 180224) false = .ok () := by
    intro n hn
    simp only [Journal.checkReceiptBudget, bind_ok, bailIf_ok, toI64_ok]
    refine ⟨0, by decide, 0, by decide, ?_⟩
    simp [satAdd, satMul, Journal.progressReserved, openedLedger, Journal.empty, u64Max,
      reportHeadroom, GrantPolicy.default]
    omega
  have hnew := workload_lease.2.1
  have htx : openedLedger.consumeTx sampleWorkload workloadPolicy workloadProof
      sampleWorkload.issuerId sampleWorkload.sessionId sampleWorkload.executorNode
      ⟨false, millis 3, true, 3, true, false, millis 3, 1000, true⟩ =
      .ok (workloadLedger.journal, workloadContract) := by
    simp only [Ledger.consumeTx, bind_ok, ensure_ok, bailIf_ok, toI64_ok, storage_ok, pure_ok,
      Journal.insertReceipt_ok, Journal.initializeEvents, Journal.insertEventState_ok,
      Journal.eventSeed]
    refine ⟨_, workloadContract_eq, _, hnew, (), by simp, (), ⟨rfl, by decide⟩, _, hlease, (),
      by decide, (), trivial, (), hslot, _, hupgrade, 180224, by decide, (), ?_, (), hbudget _ hsize,
      (), trivial, (), by simp, _, hlease, 1000, ⟨by decide, rfl⟩, _, ⟨by simp [openedLedger,
      Journal.empty], by simp [openedLedger, Journal.empty], rfl⟩, _, ⟨_, hscope, 180224, by decide,
      180224, ⟨by decide, rfl⟩, _, ⟨_, hscope, rfl⟩, _, rfl, by simp, rfl⟩, (), trivial, ?_⟩
    · exact (Nat.add_le_add_right hsize _).trans (by decide)
    · simp [workloadLedger, EventLog.stateRow, EventLog.empty, EventLog.bytes, EventLog.chain,
        workloadDigest_eq, openedLedger, Journal.empty, workloadContract,
        WorkloadDefinition.identityScope]
  simp only [LedgerOp.run, Ledger.consume, htx]
  rfl

theorem workloadLedger_reachable : workloadLedger.Reachable := by
  have hopen : openedLedger.Reachable :=
    ⟨4096, GrantPolicy.default, "owner", openedLedger, rfl, .refl⟩
  have hstep := hopen.step sampleConsume
  rwa [sampleConsume_run] at hstep

/-- The authority the session's events are saved under. -/
def workloadAuthority : Reporting :=
  ⟨workloadProof.contractSha256, true, false, 1, some (millis 29696)⟩

theorem workloadAuthority_issued : workloadAuthority.Issued := by
  obtain ⟨-, hnew, hwindow, hbind⟩ := workload_lease
  exact .bind (.new hnew) (.new hwindow) hbind

/-- A checkpoint of that authority. -/
def workloadCheckpoint : TakenCheckpoint where
  value := ⟨workloadProof.contractSha256, 1, millis 29696⟩
  taken := ⟨workloadAuthority, workloadContract, millis 5, workloadAuthority_issued,
    by decide +kernel⟩

/-- Everything `append` reads of a live session. -/
def liveReadings : AppendReadings :=
  ⟨fun _ => (workloadAuthority, millis 6), fun _ => false, 2000, true⟩

/-- The sample workload is open, with no event yet. -/
theorem workloadLedger_open : OpenRow workloadLedger.journal (Ledger.consumedRow sampleWorkload 1000)
    sampleWorkload (EventLog.empty sampleWorkload) where
  validate := sampleWorkload_validate
  node := rfl
  row := rfl
  accepted_pos := by decide
  updated := Nat.le_refl _
  updated_le := by decide
  pending := fun _ => ⟨rfl, rfl⟩
  holds := ⟨⟨180224, by decide, rfl⟩, rfl⟩
  times := by simp [EventLog.empty]
  mem := List.mem_singleton_self _
  accepted := rfl

/-- The checkpoint holds a millisecond later, and the first event is one the log takes. -/
theorem firstEvent_checked :
    workloadCheckpoint.value.check workloadAuthority workloadContract (millis 6) = .ok ()
    ∧ firstEvent.follows sampleWorkload none = .ok () ∧ firstEvent.toJson.size ≤ 256
    ∧ EventRecord.fromJson (EventRecord.toJson ⟨1, 1, 2000, firstEvent⟩) =
      some ⟨1, 1, 2000, firstEvent⟩ := by
  decide +kernel

theorem liveReadings_live : liveReadings.Live workloadCheckpoint.value sampleWorkload := by
  refine ⟨fun n contract hcontract => ?_, fun _ => rfl, rfl⟩
  rw [workloadContract_eq] at hcontract
  cases hcontract
  exact firstEvent_checked.1

theorem event_journal_integrity_twice :
    (workloadLedger.append sampleWorkload firstEvent workloadCheckpoint.value liveReadings).2 =
      .ok ⟨firstEvent.sequence, Sha256.raw (EventRecord.toJson ⟨1, 1, 2000, firstEvent⟩), false⟩
    ∧ (workloadLedger.append sampleWorkload firstEvent workloadCheckpoint.value
        liveReadings).1.journal.Intact (workloadLedger.append sampleWorkload firstEvent
        workloadCheckpoint.value liveReadings).1.nodeId sampleWorkload
    ∧ ((workloadLedger.append sampleWorkload firstEvent workloadCheckpoint.value
        liveReadings).1.append sampleWorkload firstEvent workloadCheckpoint.value liveReadings).2 =
      .ok ⟨firstEvent.sequence, Sha256.raw (EventRecord.toJson ⟨1, 1, 2000, firstEvent⟩), true⟩ := by
  obtain ⟨-, hfollows, hsize, hrecord⟩ := firstEvent_checked
  have hfresh : freshRecord (Ledger.consumedRow sampleWorkload 1000) firstEvent
      workloadCheckpoint.value liveReadings = ⟨1, 1, 2000, firstEvent⟩ := rfl
  obtain ⟨hok, hstop, log', hlog, hopen⟩ := append_fresh workloadLedger_reachable.inv
    workloadLedger_open liveReadings_live rfl (by decide) (by decide) (by simp [EventLog.empty])
    hfollows hsize (by simp only [EventLog.empty, EventLog.bytes]; exact hsize.trans (by decide))
  rw [hfresh] at hok hlog
  obtain ⟨hintact, hagain, -⟩ := event_journal_integrity workloadLedger_reachable
    (workloadLedger_open.live (List.nodup_singleton _))
    (.single (appendStep workloadLedger sampleWorkload firstEvent workloadCheckpoint liveReadings))
  have hrow : Ledger.eventRowOf sampleWorkload (Sha256.text sampleWorkload.digest)
      ⟨1, 1, 2000, firstEvent⟩ ∈ (workloadLedger.append sampleWorkload firstEvent
      workloadCheckpoint.value liveReadings).1.journal.eventRows sampleWorkload.grantId := by
    have hevents := hopen.holds.events
    rw [EventLog.rows, hlog] at hevents
    rw [hevents]
    exact List.mem_singleton_self _
  have hreuse := (hagain _ hrow _ hrecord workloadCheckpoint liveReadings).2.2
  refine ⟨hok, ?_, ?_⟩
  · exact hintact
  · exact hreuse liveReadings_live hstop

end

end Eef.Node
