import Eef.Node.Readers
import Eef.Node.Replay

/-!
# Every consumed workload keeps its log

The invariant of the workload side of the journal, over every run of the ledger:
each row of kind `workload` is the row of a valid definition and the event tables hold
a log of that definition (`WorkloadRow`), nothing else is in the event tables, and no
observation belongs to a workload (`WorkloadsInv`).

Calls come in four shapes for it: they add an operation row, they add a workload, they
append one event, or they only revise rows (`ReceiptRow.Revises`). There is one lemma
for each, and `WorkloadsInv.step` sorts the calls.
-/

namespace Eef.Node

open Eef.Lib

/-- The columns of a row that no call changes. -/
def ReceiptRow.fixed (r : ReceiptRow) : ReceiptRow :=
  { r with state := .accepted, updatedMs := 0, report := none, reportSha256 := none }

theorem ReceiptRow.fixed_eq {β : Type} (f : ReceiptRow → β) (hf : ∀ r : ReceiptRow, f r.fixed = f r)
    {r r' : ReceiptRow} (h : r'.fixed = r.fixed) : f r' = f r := by
  rw [← hf r', h, hf]

/-- A later version of a row: only the outcome and the update time move. -/
structure ReceiptRow.Revises (r r' : ReceiptRow) : Prop where
  same : r'.fixed = r.fixed
  updated : r.updatedMs ≤ r'.updatedMs
  updated_le : r'.updatedMs ≤ i64Max
  pending : r'.state = .accepted →
    r.state = .accepted ∧ r'.report = r.report ∧ r'.reportSha256 = r.reportSha256

namespace ReceiptRow.Revises

variable {r r' : ReceiptRow}

theorem grantId (h : r.Revises r') : r'.grantId = r.grantId :=
  ReceiptRow.fixed_eq ReceiptRow.grantId (fun _ => rfl) h.same

theorem grantDigest (h : r.Revises r') : r'.grantDigest = r.grantDigest :=
  ReceiptRow.fixed_eq ReceiptRow.grantDigest (fun _ => rfl) h.same

theorem kind (h : r.Revises r') : r'.kind = r.kind :=
  ReceiptRow.fixed_eq ReceiptRow.kind (fun _ => rfl) h.same

theorem acceptedMs (h : r.Revises r') : r'.acceptedMs = r.acceptedMs :=
  ReceiptRow.fixed_eq ReceiptRow.acceptedMs (fun _ => rfl) h.same

theorem workloadDefinition (h : r.Revises r') : r'.workloadDefinition = r.workloadDefinition :=
  ReceiptRow.fixed_eq ReceiptRow.workloadDefinition (fun _ => rfl) h.same

end ReceiptRow.Revises

namespace Journal

/-- The event tables, empty before they are created. -/
def tables (j : Journal) : EventTables := j.eventTables.getD ⟨[], []⟩

theorem eventStateRow_tables (j : Journal) (id : String) :
    j.eventStateRow id = Table.find EventStateRow.grantId id j.tables.states := by
  unfold eventStateRow tables
  cases j.eventTables <;> rfl

theorem eventRows_tables (j : Journal) (id : String) :
    j.eventRows id = j.tables.events.filter fun e => decide (e.grantId = id) := by
  unfold eventRows tables
  cases j.eventTables <;> rfl

theorem tables_some {j : Journal} {t : EventTables} (h : j.eventTables = some t) : j.tables = t := by
  rw [tables, h]
  rfl

theorem reservation_eq {j j' : Journal} (h : j'.pageSize = j.pageSize) (d : WorkloadDefinition) :
    j'.reservation d = j.reservation d := by
  rw [reservation, reservation, h]

end Journal

section
variable [F64] [Sha256]

/-- The row of a consumed workload and the log it keeps. -/
structure WorkloadRow (j : Journal) (r : ReceiptRow) (d : WorkloadDefinition) (log : EventLog d) :
    Prop where
  validate : d.validate = .ok ()
  node : j.owner = some d.executorNode
  row : r.fixed = (Ledger.consumedRow d r.acceptedMs).fixed
  accepted_pos : 1 ≤ r.acceptedMs
  updated : r.acceptedMs ≤ r.updatedMs
  updated_le : r.updatedMs ≤ i64Max
  pending : r.state = .accepted → r.report = none ∧ r.reportSha256 = none
  holds : j.Holds log
  times : ∀ e ∈ log.records, r.acceptedMs ≤ e.recordedAtMs ∧ e.recordedAtMs ≤ r.updatedMs

/-- The workload side of a journal. -/
structure WorkloadsInv (j : Journal) : Prop where
  version : j.version = 2 ∨ j.version = 4 ∨ j.version = 5
  schema : j.validateSchema = .ok ()
  legacy : j.version = 2 → ∀ r ∈ j.receipts, r.kind = .operation
  operations : ∀ r ∈ j.receipts, r.kind = .operation → r.workloadDefinition = none
  workloads : ∀ r ∈ j.receipts, r.kind = .workload → ∃ d log, WorkloadRow j r d log
  states : ∀ s ∈ j.tables.states, ∃ r ∈ j.receipts,
    r.grantId = s.grantId ∧ r.kind = .workload ∧ r.grantDigest = s.grantDigest
  events : ∀ e ∈ j.tables.events, ∃ s ∈ j.tables.states, s.grantId = e.grantId
  progress : ∀ p ∈ j.progress.getD [], ∃ r ∈ j.receipts, r.grantId = p.grantId ∧ r.kind = .operation

namespace WorkloadRow

variable {j j' : Journal} {r r' : ReceiptRow} {d : WorkloadDefinition} {log : EventLog d}

theorem grantId (h : WorkloadRow j r d log) : r.grantId = d.grantId :=
  ReceiptRow.fixed_eq ReceiptRow.grantId (fun _ => rfl) h.row

theorem grantDigest (h : WorkloadRow j r d log) : r.grantDigest = d.digest :=
  ReceiptRow.fixed_eq ReceiptRow.grantDigest (fun _ => rfl) h.row

theorem kind (h : WorkloadRow j r d log) : r.kind = .workload :=
  ReceiptRow.fixed_eq ReceiptRow.kind (fun _ => rfl) h.row

theorem definition (h : WorkloadRow j r d log) : r.workloadDefinition = some d.toJson :=
  ReceiptRow.fixed_eq ReceiptRow.workloadDefinition (fun _ => rfl) h.row

theorem valid (h : WorkloadRow j r d log) : d.Valid := WorkloadDefinition.validate_valid h.validate

/-- The row keeps its log while its part of the event tables is left alone. -/
theorem revise (h : WorkloadRow j r d log) (hrow : r' = r ∨ r.Revises r')
    (howner : j'.owner = j.owner) (hpage : j'.pageSize = j.pageSize)
    (hstate : Table.find EventStateRow.grantId r.grantId j'.tables.states =
      Table.find EventStateRow.grantId r.grantId j.tables.states)
    (hevents : (j'.tables.events.filter fun e => decide (e.grantId = r.grantId)) =
      j.tables.events.filter fun e => decide (e.grantId = r.grantId)) :
    WorkloadRow j' r' d log := by
  have hholds : j'.Holds log := by
    obtain ⟨reserved, hres, hs⟩ := h.holds.state
    rw [h.grantId] at hstate hevents
    rw [← Journal.eventStateRow_tables, ← Journal.eventStateRow_tables] at hstate
    rw [← Journal.eventRows_tables, ← Journal.eventRows_tables] at hevents
    exact ⟨⟨reserved, (Journal.reservation_eq hpage d).trans hres, hstate.trans hs⟩,
      hevents.trans h.holds.events⟩
  have hnode := howner.trans h.node
  rcases hrow with rfl | hrev
  · exact ⟨h.validate, hnode, h.row, h.accepted_pos, h.updated, h.updated_le, h.pending, hholds,
      h.times⟩
  · have hacc := hrev.acceptedMs
    refine ⟨h.validate, hnode, ?_, hacc ▸ h.accepted_pos, hacc ▸ h.updated.trans hrev.updated,
      hrev.updated_le, ?_, hholds, ?_⟩
    · rw [hrev.same, hacc, h.row]
    · intro hopen
      obtain ⟨hopen, hreport, hsha⟩ := hrev.pending hopen
      rw [hreport, hsha]
      exact h.pending hopen
    · intro e he
      obtain ⟨h1, h2⟩ := h.times e he
      exact ⟨hacc ▸ h1, h2.trans hrev.updated⟩

end WorkloadRow

/-- Moving the update time of a workload's row forward, also to an outcome. -/
theorem WorkloadRow.touch {j : Journal} {r : ReceiptRow} {d : WorkloadDefinition}
    {log : EventLog d} (h : WorkloadRow j r d log) {now : Nat} (hnow : now ≤ i64Max) :
    r.updatedMs ≤ (r.touch now).updatedMs ∧ (r.touch now).updatedMs ≤ i64Max := by
  have h1 := h.updated
  have h2 := h.updated_le
  simp only [ReceiptRow.touch]
  omega

namespace WorkloadsInv

variable {j j' : Journal}

/-- Changing rows within their fixed columns keeps everything but the logs. -/
theorem update (h : WorkloadsInv j) {p : ReceiptRow → Bool} {f : ReceiptRow → ReceiptRow}
    (hrows : j'.receipts = Table.update p f j.receipts) (hfixed : ∀ r, (f r).fixed = r.fixed)
    (hversion : j'.version = j.version ∨ (j.version = 4 ∨ j.version = 5) ∧ j'.version = 5)
    (hkind : j'.kindColumns = j.kindColumns)
    (htables : j'.eventTables.isSome = j.eventTables.isSome)
    (hworkloads : ∀ r ∈ j.receipts, r.kind = .workload →
      ∃ d log, WorkloadRow j' (if p r then f r else r) d log)
    (hstates : ∀ s ∈ j'.tables.states, ∃ s₀ ∈ j.tables.states,
      s₀.grantId = s.grantId ∧ s₀.grantDigest = s.grantDigest)
    (hevents : ∀ e ∈ j'.tables.events, ∃ s ∈ j'.tables.states, s.grantId = e.grantId)
    (hprogress : ∀ q ∈ j'.progress.getD [], ∃ q₀ ∈ j.progress.getD [], q₀.grantId = q.grantId) :
    WorkloadsInv j' := by
  have hif : ∀ r : ReceiptRow, (if p r then f r else r).fixed = r.fixed := by
    intro r
    split
    · exact hfixed r
    · rfl
  have hback : ∀ r' ∈ j'.receipts, ∃ r ∈ j.receipts, r' = if p r then f r else r := by
    rw [hrows]
    exact fun r' hr' => Table.mem_update.mp hr'
  have hforth : ∀ r ∈ j.receipts, (if p r then f r else r) ∈ j'.receipts := by
    rw [hrows]
    exact fun r hr => Table.mem_update.mpr ⟨r, hr, rfl⟩
  have hschema := Journal.validateSchema_ok.mp h.schema
  refine ⟨?_, ?_, ?_, ?_, ?_, ?_, hevents, ?_⟩
  · have := h.version
    omega
  · rw [Journal.validateSchema_ok, hkind, htables, hschema.1, hschema.2]
    omega
  · intro hv r' hr'
    obtain ⟨r, hr, rfl⟩ := hback r' hr'
    rw [ReceiptRow.fixed_eq ReceiptRow.kind (fun _ => rfl) (hif r)]
    exact h.legacy (by omega) r hr
  · intro r' hr' hop
    obtain ⟨r, hr, rfl⟩ := hback r' hr'
    rw [ReceiptRow.fixed_eq ReceiptRow.kind (fun _ => rfl) (hif r)] at hop
    rw [ReceiptRow.fixed_eq ReceiptRow.workloadDefinition (fun _ => rfl) (hif r)]
    exact h.operations r hr hop
  · intro r' hr' hw
    obtain ⟨r, hr, rfl⟩ := hback r' hr'
    rw [ReceiptRow.fixed_eq ReceiptRow.kind (fun _ => rfl) (hif r)] at hw
    exact hworkloads r hr hw
  · intro s hs
    obtain ⟨s₀, hs₀, hid, hdigest⟩ := hstates s hs
    obtain ⟨r, hr, h1, h2, h3⟩ := h.states s₀ hs₀
    refine ⟨_, hforth r hr, ?_, ?_, ?_⟩
    · rw [ReceiptRow.fixed_eq ReceiptRow.grantId (fun _ => rfl) (hif r), h1, hid]
    · rw [ReceiptRow.fixed_eq ReceiptRow.kind (fun _ => rfl) (hif r), h2]
    · rw [ReceiptRow.fixed_eq ReceiptRow.grantDigest (fun _ => rfl) (hif r), h3, hdigest]
  · intro q hq
    obtain ⟨q₀, hq₀, hid⟩ := hprogress q hq
    obtain ⟨r, hr, h1, h2⟩ := h.progress q₀ hq₀
    refine ⟨_, hforth r hr, ?_, ?_⟩
    · rw [ReceiptRow.fixed_eq ReceiptRow.grantId (fun _ => rfl) (hif r), h1, hid]
    · rw [ReceiptRow.fixed_eq ReceiptRow.kind (fun _ => rfl) (hif r), h2]

/-- Revising rows, and raising version 4 to 5, keeps the invariant. -/
theorem revise (h : WorkloadsInv j) {p : ReceiptRow → Bool} {f : ReceiptRow → ReceiptRow}
    (hrows : j'.receipts = Table.update p f j.receipts) (hfixed : ∀ r, (f r).fixed = r.fixed)
    (hrevise : ∀ r ∈ j.receipts, ∀ d log, WorkloadRow j r d log → p r = true → r.Revises (f r))
    (hversion : j'.version = j.version ∨ (j.version = 4 ∨ j.version = 5) ∧ j'.version = 5)
    (howner : j'.owner = j.owner) (hpage : j'.pageSize = j.pageSize)
    (hkind : j'.kindColumns = j.kindColumns) (htables : j'.eventTables = j.eventTables)
    (hprogress : ∀ q ∈ j'.progress.getD [], ∃ q₀ ∈ j.progress.getD [], q₀.grantId = q.grantId) :
    WorkloadsInv j' := by
  have htab : j'.tables = j.tables := by rw [Journal.tables, htables, Journal.tables]
  refine h.update hrows hfixed hversion hkind (by rw [htables]) ?_ ?_ ?_ hprogress
  · intro r hr hw
    obtain ⟨d, log, hd⟩ := h.workloads r hr hw
    refine ⟨d, log, hd.revise ?_ howner hpage (by rw [htab]) (by rw [htab])⟩
    split
    · rename_i hp
      exact .inr (hrevise r hr d log hd hp)
    · exact .inl rfl
  · intro s hs
    exact ⟨s, htab ▸ hs, rfl, rfl⟩
  · rw [htab]
    exact h.events

/-- What is outside the receipts, the event tables and the observations does not matter. -/
theorem congr (h : WorkloadsInv j) (hrows : j'.receipts = j.receipts)
    (hversion : j'.version = j.version) (howner : j'.owner = j.owner)
    (hpage : j'.pageSize = j.pageSize) (hkind : j'.kindColumns = j.kindColumns)
    (htables : j'.eventTables = j.eventTables) (hprogress : j'.progress = j.progress) :
    WorkloadsInv j' := by
  refine h.revise (p := fun _ => false) (f := id) ?_ (fun _ => rfl) ?_ (.inl hversion) howner hpage
    hkind htables ?_
  · rw [hrows]
    simp [Table.update]
  · intro r hr d log hd hp
    cases hp
  · rw [hprogress]
    exact fun q hq => ⟨q, hq, rfl⟩

/-- Adding an operation row, with its first observation or without, keeps the invariant. -/
theorem insert (h : WorkloadsInv j) {r₀ : ReceiptRow} (hrows : j'.receipts = j.receipts ++ [r₀])
    (hkind₀ : r₀.kind = .operation) (hdef₀ : r₀.workloadDefinition = none)
    (hversion : j'.version = j.version) (howner : j'.owner = j.owner)
    (hpage : j'.pageSize = j.pageSize) (hkind : j'.kindColumns = j.kindColumns)
    (htables : j'.eventTables = j.eventTables)
    (hprogress : ∀ q ∈ j'.progress.getD [], q ∈ j.progress.getD [] ∨ q.grantId = r₀.grantId) :
    WorkloadsInv j' := by
  have hmem : ∀ r, r ∈ j'.receipts ↔ r ∈ j.receipts ∨ r = r₀ := by
    intro r
    rw [hrows, List.mem_append, List.mem_singleton]
  have htab : j'.tables = j.tables := by rw [Journal.tables, htables, Journal.tables]
  refine ⟨hversion ▸ h.version, ?_, ?_, ?_, ?_, ?_, ?_, ?_⟩
  · have := Journal.validateSchema_ok.mp h.schema
    rw [Journal.validateSchema_ok, hkind, htables, hversion]
    exact this
  · intro hv r hr
    rcases (hmem r).mp hr with hr | rfl
    · exact h.legacy (hversion ▸ hv) r hr
    · exact hkind₀
  · intro r hr hop
    rcases (hmem r).mp hr with hr | rfl
    · exact h.operations r hr hop
    · exact hdef₀
  · intro r hr hw
    rcases (hmem r).mp hr with hr | rfl
    · obtain ⟨d, log, hd⟩ := h.workloads r hr hw
      exact ⟨d, log, hd.revise (.inl rfl) howner hpage (by rw [htab]) (by rw [htab])⟩
    · rw [hkind₀] at hw
      cases hw
  · rw [htab]
    intro s hs
    obtain ⟨r, hr, hrest⟩ := h.states s hs
    exact ⟨r, (hmem r).mpr (.inl hr), hrest⟩
  · rw [htab]
    exact h.events
  · intro q hq
    rcases hprogress q hq with hq | hq
    · obtain ⟨r, hr, hrest⟩ := h.progress q hq
      exact ⟨r, (hmem r).mpr (.inl hr), hrest⟩
    · exact ⟨r₀, (hmem r₀).mpr (.inr rfl), hq.symm, hkind₀⟩

/-- The tables a consumed workload is entered into. -/
theorem consumed_tables {l : Ledger} (h : WorkloadsInv l.journal) {d : WorkloadDefinition}
    {r : ConsumeReadings} (hc : l.Consumed d r j') : ∃ reserved,
      l.journal.reservation d = .ok reserved ∧ (j'.version = 4 ∨ j'.version = 5)
      ∧ j'.owner = l.journal.owner ∧ j'.pageSize = l.journal.pageSize
      ∧ j'.progress = l.journal.progress ∧ j'.validateSchema = .ok ()
      ∧ j'.receipts = l.journal.receipts ++ [Ledger.consumedRow d (max r.now 1)]
      ∧ j'.tables = { l.journal.tables with
          states := l.journal.tables.states ++ [(EventLog.empty d).stateRow reserved] } := by
  obtain ⟨j₁, reserved, t, hup, hres, -, -, ht, -, rfl⟩ := hc.writes
  obtain ⟨hframe, hcase⟩ := Journal.upgrade_ok hup
  have hschema := Journal.validateSchema_ok.mp hframe.schema
  have htab : l.journal.tables = t ∧ (j₁.version = 4 ∨ j₁.version = 5) := by
    rcases hcase with ⟨hv, rfl⟩ | ⟨hv, hv', hnew⟩
    · exact ⟨Journal.tables_some ht, hv⟩
    · -- a reachable journal of version 2 has no workload, so its new tables are empty
      have hv2 : l.journal.version = 2 := by
        have := h.version
        omega
      have hnone : l.journal.eventTables = none := by
        have := (Journal.validateSchema_ok.mp h.schema).2
        rw [hv2] at this
        simpa using this
      have hempty := hnew (h.legacy hv2)
      rw [ht] at hempty
      cases hempty
      exact ⟨by rw [Journal.tables, hnone]; rfl, .inl hv'⟩
  refine ⟨reserved, ?_, htab.2, hframe.owner, hframe.pageSize, hframe.progress, ?_, rfl, ?_⟩
  · rw [← hres]
    exact (Journal.reservation_eq hframe.pageSize d).symm
  · rw [Journal.validateSchema_ok]
    refine ⟨hschema.1, ?_⟩
    rw [← hschema.2, ht]
    simp
  · rw [htab.1]
    rfl

/-- Nothing of a workload is in the event tables before it is consumed. -/
theorem unused_tables {l : Ledger} (h : WorkloadsInv l.journal) {d : WorkloadDefinition}
    (hnew : ∀ s ∈ l.journal.receipts, s.grantId ≠ d.grantId) :
    (∀ s ∈ l.journal.tables.states, s.grantId ≠ d.grantId)
      ∧ ∀ e ∈ l.journal.tables.events, e.grantId ≠ d.grantId := by
  have hstates : ∀ s ∈ l.journal.tables.states, s.grantId ≠ d.grantId := by
    intro s hs
    obtain ⟨e, he, hid, -⟩ := h.states s hs
    exact hid ▸ hnew e he
  refine ⟨hstates, ?_⟩
  intro e he
  obtain ⟨s, hs, hid⟩ := h.events e he
  exact hid ▸ hstates s hs

/-- The row a consumed workload starts with: its log is empty. -/
theorem consumed_row {l : Ledger} (h : WorkloadsInv l.journal)
    (howner : l.journal.owner = some l.nodeId) {d : WorkloadDefinition} {r : ConsumeReadings}
    (hc : l.Consumed d r j') :
    WorkloadRow j' (Ledger.consumedRow d (max r.now 1)) d (EventLog.empty d) := by
  obtain ⟨reserved, hres, -, hown, hpage, -, -, -, htab⟩ := h.consumed_tables hc
  obtain ⟨hstates, hevents⟩ := h.unused_tables hc.slot.unused
  refine ⟨hc.validate, ?_, rfl, Nat.le_max_right _ _, Nat.le_refl _, hc.now_le,
    fun _ => ⟨rfl, rfl⟩, ⟨⟨reserved, ?_, ?_⟩, ?_⟩, ?_⟩
  · rw [hown, howner, hc.node]
  · rw [Journal.reservation_eq hpage, hres]
  · rw [Journal.eventStateRow_tables, htab]
    have hnone := Table.find_none.mpr hstates
    exact Table.find_insert_self (r := (EventLog.empty d).stateRow reserved) hnone
  · rw [Journal.eventRows_tables, htab]
    rw [List.filter_eq_nil_iff.mpr (by simpa using hevents)]
    rfl
  · intro e he
    cases he

/-- Consuming a workload starts its log. -/
theorem consume {l : Ledger} (h : WorkloadsInv l.journal)
    (howner : l.journal.owner = some l.nodeId) {d : WorkloadDefinition} {r : ConsumeReadings}
    (hc : l.Consumed d r j') : WorkloadsInv j' := by
  have hrow := h.consumed_row howner hc
  obtain ⟨reserved, hres, hversion, hown, hpage, hprog, hschema, hrows, htab⟩ := h.consumed_tables hc
  have hnew : ∀ s ∈ l.journal.receipts, s.grantId ≠ d.grantId := hc.slot.unused
  have hmem : ∀ e, e ∈ j'.receipts ↔
      e ∈ l.journal.receipts ∨ e = Ledger.consumedRow d (max r.now 1) := by
    intro e
    rw [hrows, List.mem_append, List.mem_singleton]
  refine ⟨by omega, hschema, by omega, ?_, ?_, ?_, ?_, ?_⟩
  · intro e he hop
    rcases (hmem e).mp he with he | rfl
    · exact h.operations e he hop
    · cases hop
  · intro e he hw
    rcases (hmem e).mp he with he | rfl
    · obtain ⟨d', log, hd⟩ := h.workloads e he hw
      refine ⟨d', log, hd.revise (.inl rfl) hown hpage ?_ ?_⟩
      · rw [htab]
        exact Table.find_insert_of_ne (Ne.symm (hnew e he))
      · rw [htab]
    · exact ⟨d, _, hrow⟩
  · intro s hs
    rw [htab] at hs
    simp only [List.mem_append, List.mem_singleton] at hs
    rcases hs with hs | rfl
    · obtain ⟨e, he, hrest⟩ := h.states s hs
      exact ⟨e, (hmem e).mpr (.inl he), hrest⟩
    · exact ⟨_, (hmem _).mpr (.inr rfl), rfl, rfl, rfl⟩
  · intro e he
    rw [htab] at he ⊢
    obtain ⟨s, hs, hid⟩ := h.events e he
    exact ⟨s, List.mem_append_left _ hs, hid⟩
  · intro q hq
    rw [hprog] at hq
    obtain ⟨e, he, hrest⟩ := h.progress q hq
    exact ⟨e, (hmem e).mpr (.inl he), hrest⟩

/-- The row and the log behind a receipt that `read_core` returned. -/
theorem read_core (h : WorkloadsInv j) {node id : String} {issuer : Option String}
    {w : WorkloadReceipt} (hread : j.readCore node issuer id = .ok w) :
    ∃ r log, j.receipt id = some r ∧ WorkloadRow j r w.definition log
      ∧ w.receipt = r.consumed node w.receipt.pipelineProgress ∧ w.Covers log := by
  obtain ⟨-, -, hconsumed, r, raw, hr, hraw, -, -, hfrom, -⟩ := Journal.readCore_ok.mp hread
  obtain ⟨-, -, -, r', progress, hr', -, -, -, hw⟩ := Journal.readConsumed_ok.mp hconsumed
  obtain rfl : r' = r := by
    rw [hr] at hr'
    exact (Option.some.inj hr').symm
  have hmem := (Table.find_some hr).1
  have hkind : r'.kind = .workload := by
    cases hk : r'.kind with
    | workload => rfl
    | operation =>
      have := h.operations r' hmem hk
      rw [this] at hraw
      cases hraw
  obtain ⟨d, log, hd⟩ := h.workloads r' hmem hkind
  have hdef : d = w.definition := by
    rw [hd.definition] at hraw
    cases hraw
    rw [WorkloadDefinition.fromJson_toJson hd.valid] at hfrom
    exact Option.some.inj hfrom
  subst hdef
  refine ⟨r', log, hr, hd, by rw [hw]; rfl, rfl, ?_⟩
  rw [hw]
  exact hd.times

/-- The fresh record `append` writes is linked to the log. -/
theorem next_record {r : ReceiptRow} {w : WorkloadReceipt} {log : EventLog w.definition}
    (hd : WorkloadRow j r w.definition log) (hw : w.Covers log)
    {saved : EventState} (hsaved : j.eventState w.definition = .ok saved) {event : Event}
    {checkpoint : Checkpoint} {now : Nat} {record : EventRecord}
    (hf : Ledger.FreshRecord j w saved event checkpoint now record)
    (hlease : 0 < checkpoint.sequence ∧ checkpoint.sequence ≤ u64Max)
    (hle : record.recordedAtMs ≤ i64Max) : record.Next w.definition log.records.getLast? := by
  rw [hd.holds.eventState hd.validate] at hsaved
  cases hsaved
  obtain ⟨previous, hfollows, htail⟩ := hf.tail
  obtain ⟨hvalid, hnext⟩ := Event.follows_ok.mp hfollows
  have hrecord := hf.record_eq
  subst hrecord
  -- the row `append` looked at is the last record of the log
  have hlast : previous = log.records.getLast?.map EventRecord.event
      ∧ ∀ p ∈ log.records.getLast?, p.leaseSequence ≤ checkpoint.sequence
        ∧ p.recordedAtMs ≤ w.receipt.updatedAtMs := by
    rcases htail with ⟨h0, rfl⟩ | ⟨row, h0, hrow, -, hseq, rfl⟩
    · rw [List.length_eq_zero_iff.mp h0]
      exact ⟨rfl, by simp⟩
    · obtain ⟨before, last, hlog⟩ : ∃ before last, log.records = before ++ [last] := by
        rcases List.eq_nil_or_concat log.records with h | ⟨before, last, h⟩
        · exact absurd (by rw [h]; rfl) h0
        · exact ⟨before, last, by simpa using h⟩
      have hread := hd.holds.eventRow hd.validate hw hlog
      rw [hlog, List.length_append, List.length_singleton, hread] at hrow
      cases hrow
      rw [hlog, List.getLast?_concat]
      refine ⟨rfl, ?_⟩
      rintro p ⟨rfl⟩
      exact ⟨hseq, (hw.times last (by simp [hlog])).2⟩
  obtain ⟨rfl, hordered⟩ := hlast
  refine ⟨rfl, hlease.1, hlease.2, hle, hvalid, hnext, ?_, hf.size_le⟩
  intro p hp
  exact ⟨(hordered p hp).1, (hordered p hp).2.trans (Nat.le_max_right _ _)⟩

/-- The row of a workload after a fresh record: its log has one record more. -/
theorem append_row {r : ReceiptRow} {d : WorkloadDefinition} {log : EventLog d}
    (hd : WorkloadRow j r d log) (hopen : r.state = .accepted) {record : EventRecord}
    (hnext : record.Next d log.records.getLast?)
    (hbytes : log.bytes + record.event.toJson.size ≤ d.events.maxTotalBytes)
    (htime : r.updatedMs ≤ record.recordedAtMs) {saved : EventState}
    (hsaved : j.eventState d = .ok saved) (hwrite : Ledger.appendWrite j d saved record = .ok j') :
    WorkloadRow j' (r.touch record.recordedAtMs) d (log.append record hnext hbytes) := by
  rw [hd.holds.eventState hd.validate] at hsaved
  cases hsaved
  obtain ⟨hle, -, t, ht, -, rfl⟩ := Ledger.appendWrite_ok hwrite
  obtain ⟨reserved, hres, hrow⟩ := hd.holds.state
  have htouch : (r.touch record.recordedAtMs).updatedMs = record.recordedAtMs := by
    have := hd.updated
    simp only [ReceiptRow.touch]
    omega
  have hchain : (log.append record hnext hbytes).chain =
      nextPrefixSha256 log.chain (Sha256.raw record.toJson) := by
    rw [EventLog.chain, EventLog.append, Chain.fold_append]
    rfl
  refine ⟨hd.validate, hd.node, hd.row, hd.accepted_pos, ?_, ?_, fun _ => hd.pending hopen,
    ⟨⟨reserved, ?_, ?_⟩, ?_⟩, ?_⟩
  · rw [htouch]
    exact hd.updated.trans htime
  · rw [htouch]
    exact hle
  · rw [← hres]
    exact Journal.reservation_eq rfl d
  · rw [Journal.eventStateRow_tables, Journal.tables_some ht] at hrow
    have hlast : (log.append record hnext hbytes).records = log.records ++ [record] := rfl
    have hseq := (log.append record hnext hbytes).sequence_at hlast
    have hsum : (log.append record hnext hbytes).bytes = log.bytes + record.event.toJson.size := by
      simp [EventLog.bytes, EventLog.append]
    rw [Journal.eventStateRow_tables, Journal.tables_some rfl]
    refine Eq.trans (Table.find_update ?_ _ _) ?_
    · intro s
      rfl
    · rw [hrow]
      simp only [EventLog.stateRow, Option.map_some, decide_true, if_true, hchain, hsum, hseq]
      simp [EventLog.append]
  · have hevents := hd.holds.events
    rw [Journal.eventRows_tables, Journal.tables_some ht] at hevents
    rw [Journal.eventRows_tables, Journal.tables_some rfl, List.filter_append, hevents,
      EventLog.rows, EventLog.rows, EventLog.append, Chain.rows_append]
    simp [Ledger.eventRowOf, Chain.rows, EventLog.chain]
  · rw [htouch]
    intro e he
    rcases List.mem_append.mp he with he | he
    · exact ⟨(hd.times e he).1, (hd.times e he).2.trans htime⟩
    · rw [List.mem_singleton] at he
      subst he
      exact ⟨hd.updated.trans htime, Nat.le_refl _⟩

/-- Appending an event extends one log and leaves the others alone. -/
theorem append {l : Ledger} (h : WorkloadsInv l.journal)
    (hids : Table.Keyed ReceiptRow.grantId l.journal.receipts) {d : WorkloadDefinition}
    {event : Event} {checkpoint : Checkpoint} {r : AppendReadings} {receipt : AppendReceipt}
    (hlease : 0 < checkpoint.sequence ∧ checkpoint.sequence ≤ u64Max)
    (ha : l.Appended d event checkpoint r j' receipt) : WorkloadsInv j' := by
  obtain ⟨w, saved, hread, rfl, hacc, hsaved, ⟨-, rfl, -⟩ | ⟨-, record, hf, hwrite, -⟩⟩ := ha.writes
  · exact h
  obtain ⟨r₀, log, hr₀, hd, hw, hcov⟩ := h.read_core hread
  obtain ⟨hle, -, t, ht, -, hj'⟩ := Ledger.appendWrite_ok hwrite
  have hopen : r₀.state = .accepted := by
    rw [hw] at hacc
    exact hacc
  have hnext := next_record hd hcov hsaved hf hlease hle
  have hbytes : log.bytes + record.event.toJson.size ≤ w.definition.events.maxTotalBytes := by
    have htotal := hf.total_le
    rw [hd.holds.eventState hd.validate] at hsaved
    cases hsaved
    have := log.bytes_le
    have hb : log.bytes ≤ w.definition.events.maxTotalBytes := this
    rw [hf.record_eq]
    simp only at htotal ⊢
    omega
  have htime : r₀.updatedMs ≤ record.recordedAtMs := by
    rw [hf.record_eq, hw]
    exact Nat.le_max_right _ _
  have hrow := append_row hd hopen hnext hbytes htime hsaved hwrite
  have hbase : l.journal.tables = t := Journal.tables_some ht
  have htab := Journal.tables_some (congrArg Journal.eventTables hj')
  refine h.update (congrArg Journal.receipts hj') (fun _ => rfl) (.inl (by rw [hj'])) (by rw [hj'])
    (by rw [hj', ht]; rfl) ?_ ?_ ?_ ?_
  · intro e he hwork
    by_cases hid : e.grantId = w.definition.grantId
    · obtain rfl : e = r₀ := hids.eq he (Table.find_some hr₀).1 (hid.trans hd.grantId.symm)
      have hp : Ledger.acceptedId w.definition.grantId e = true := decide_eq_true ⟨hid, hopen⟩
      rw [if_pos hp]
      exact ⟨w.definition, _, hrow⟩
    · rw [if_neg (by simp [Ledger.acceptedId, hid])]
      obtain ⟨d', log', hd'⟩ := h.workloads e he hwork
      refine ⟨d', log', hd'.revise (.inl rfl) (by rw [hj']) (by rw [hj']) ?_ ?_⟩
      · rw [htab, hbase]
        refine Eq.trans (Table.find_update ?_ _ _) ?_
        · intro s
          rfl
        · cases hf : Table.find EventStateRow.grantId e.grantId t.states with
          | none => rfl
          | some s =>
            have := (Table.find_some hf).2
            simp [this, hid]
      · rw [htab, hbase, List.filter_append]
        simp [Ledger.eventRowOf, Ne.symm hid]
  · intro s hs
    rw [htab] at hs
    obtain ⟨s₀, hs₀, rfl⟩ := Table.mem_update.mp hs
    refine ⟨s₀, hbase ▸ hs₀, ?_, ?_⟩ <;> split <;> rfl
  · intro e he
    have hkeep : ∀ s ∈ t.states, ∃ s' ∈ j'.tables.states, s'.grantId = s.grantId := by
      intro s hs
      rw [htab]
      exact ⟨_, Table.mem_update.mpr ⟨s, hs, rfl⟩, by split <;> rfl⟩
    rw [htab] at he
    rcases List.mem_append.mp he with he | he
    · obtain ⟨s, hs, hid⟩ := h.events e (hbase ▸ he)
      obtain ⟨s', hs', hid'⟩ := hkeep s (hbase ▸ hs)
      exact ⟨s', hs', hid'.trans hid⟩
    · rw [List.mem_singleton] at he
      obtain ⟨reserved, -, hs⟩ := hd.holds.state
      rw [Journal.eventStateRow_tables, hbase] at hs
      obtain ⟨s', hs', hid'⟩ := hkeep _ (Table.find_some hs).1
      exact ⟨s', hs', by rw [hid', he]; rfl⟩
  · rw [hj']
    exact fun q hq => ⟨q, hq, rfl⟩

end WorkloadsInv

end

/-! ## Every call, every run -/

section
variable [F64] [Sha256] [PeerAdmission]

omit [PeerAdmission] in
/-- Marking a workload as unknown is a revision. -/
theorem uncertain_revises {j : Journal} {now : Nat} (hnow : now ≤ i64Max)
    {r : ReceiptRow} {d : WorkloadDefinition} {log : EventLog d} (hd : WorkloadRow j r d log) :
    r.Revises { r.touch now with state := .unknown } := by
  obtain ⟨h1, h2⟩ := hd.touch hnow
  refine ⟨rfl, h1, h2, ?_⟩
  intro h
  cases h

theorem WorkloadsInv.step {l : Ledger} (h : WorkloadsInv l.journal)
    (howner : l.journal.owner = some l.nodeId)
    (hids : Table.Keyed ReceiptRow.grantId l.journal.receipts) {op : LedgerOp} {j' : Journal}
    (hc : l.Commits op j') : WorkloadsInv j' := by
  have hsame : ∀ q ∈ l.journal.progress.getD [], ∃ q₀ ∈ l.journal.progress.getD [],
      q₀.grantId = q.grantId := fun q hq => ⟨q, hq, rfl⟩
  cases hc with
  | @claim g r _ hc =>
    have hf := hc.frame
    refine h.insert hf.receipts rfl rfl hf.version hf.owner hf.pageSize hf.kindColumns
      hf.eventTables ?_
    rcases hf.progress with ⟨-, hp⟩ | ⟨_, -, -, -, -, hp⟩
    · rw [hp]
      exact fun q hq => .inl hq
    · rw [hp]
      intro q hq
      rcases List.mem_append.mp hq with hq | hq
      · exact .inl hq
      · rw [List.mem_singleton] at hq
        exact .inr (by rw [hq]; rfl)
  | @progress g p stored _ hc =>
    obtain ⟨receipt, rows, hread, hle, hrows, -, rfl⟩ := hc.writes
    obtain ⟨-, -, -, row, _, hrow, -, -, -, rfl⟩ := Journal.readConsumed_ok.mp hread
    refine h.revise rfl (fun _ => rfl) ?_ (.inl rfl) rfl rfl rfl rfl ?_
    · intro r hr d log hd hp
      have hid := (of_decide_eq_true hp).1
      obtain rfl : r = row := hids.eq hr (Table.find_some hrow).1 (hid.trans
        (Table.find_some hrow).2.symm)
      exact ⟨rfl, hle, hc.recorded_le, fun ha => ⟨ha, rfl, rfl⟩⟩
    · intro q hq
      obtain ⟨q₀, hq₀, rfl⟩ := Table.mem_update.mp hq
      rw [hrows]
      exact ⟨q₀, hq₀, by split <;> rfl⟩
  | @finish g report now stored _ hc =>
    rw [hc.writes]
    refine h.revise rfl (fun _ => rfl) ?_ (.inl rfl) rfl rfl rfl rfl hsame
    intro r hr d log hd hp
    obtain ⟨h1, h2⟩ := hd.touch hc.now_le
    refine ⟨rfl, h1, h2, ?_⟩
    intro ha
    have hstate := hc.state
    rw [show report.state = .accepted from ha] at hstate
    rcases hstate with hstate | hstate <;> cases hstate
  | consume hc => exact h.consume howner hc
  | @append d event checkpoint r _ receipt hc =>
    exact h.append hids checkpoint.sequence_range hc
  | refused hj hle =>
    rcases hj with rfl | ⟨hv, rfl⟩
    · refine h.revise rfl (fun _ => rfl) ?_ (.inl rfl) rfl rfl rfl rfl hsame
      exact fun r hr d log hd hp => uncertain_revises hle hd
    · refine h.revise rfl (fun _ => rfl) ?_ (.inr ⟨hv, rfl⟩) rfl rfl rfl rfl hsame
      exact fun r hr d log hd hp => uncertain_revises hle hd
  | @save evidence r w _ hread hscope hc =>
    have hversion := hc.version
    have hle := hc.recorded_le
    obtain ⟨_, _, _, _, _, _, -, -, -, -, -, -, rfl⟩ := hc.writes
    refine h.revise rfl (fun _ => rfl) ?_ (.inr ⟨hversion, rfl⟩) rfl rfl rfl rfl hsame
    intro r' hr' d log hd hp
    simp only [Journal.readWorkload, bind_ok, pure_ok] at hread
    obtain ⟨w', hcore, -, -, rfl⟩ := hread
    obtain ⟨row, _, hrow, -, hw, -⟩ := h.read_core hcore
    have hid := (of_decide_eq_true hp).1
    obtain rfl : r' = row := hids.eq hr' (Table.find_some hrow).1 (hid.trans
      (Table.find_some hrow).2.symm)
    refine ⟨rfl, ?_, hle, ?_⟩
    · rw [hw]
      exact Nat.le_max_right _ _
    · intro ha
      cases ha
  | markUnknown hle =>
    refine h.revise rfl (fun _ => rfl) ?_ (.inl rfl) rfl rfl rfl rfl hsame
    exact fun r hr d log hd hp => uncertain_revises hle hd
  | stop hc =>
    rcases hc.writes with ⟨_, -, -, rfl⟩ | ⟨-, -, -, rfl⟩
    · exact h.congr rfl rfl rfl rfl rfl rfl rfl
    · exact h.insert rfl rfl rfl rfl rfl rfl rfl rfl fun q hq => .inl hq
  | reopen hc =>
    have hj := hc.journal
    rw [if_neg (by have := h.version; omega)] at hj
    rw [hj]
    exact h

/-- What every call keeps about a ledger. -/
structure LedgerInv (l : Ledger) : Prop where
  owner : l.journal.owner = some l.nodeId
  policy : l.policy.validate = .ok ()
  node : remoteNodeId l.nodeId = true
  receipts : ReceiptsInv l.journal.receipts
  workloads : WorkloadsInv l.journal

omit [F64] [Sha256] [PeerAdmission] in
theorem Ledger.commit_config {α : Type} (l : Ledger) (tx : Result (Journal × α)) :
    (l.commit tx).1.nodeId = l.nodeId ∧ (l.commit tx).1.policy = l.policy := by
  cases tx <;> exact ⟨rfl, rfl⟩

/-- Only a reopened ledger has another node or policy. -/
theorem LedgerOp.run_config (op : LedgerOp) (l : Ledger) :
    ((op.run l).1.nodeId = l.nodeId ∧ (op.run l).1.policy = l.policy) ∨
      ∃ policy node, op = .reopen policy node
        ∧ Ledger.open l.journal policy node = .ok (op.run l).1 := by
  cases op with
  | claim g r => exact .inl (l.commit_config _)
  | progress g p stored => exact .inl (l.commit_config _)
  | finish g report now stored => exact .inl (l.commit_config _)
  | consume d policy initial issuer session node r => exact .inl (l.commit_config _)
  | append d event checkpoint r =>
    refine .inl ?_
    have := l.commit_config (l.appendTx d event checkpoint.value r)
    simp only [LedgerOp.run, Ledger.append, Prod.map, id]
    split <;> simp_all
  | save evidence r =>
    refine .inl ?_
    have := l.commit_config (l.saveTx evidence r)
    simp only [LedgerOp.run, Ledger.save, Prod.map, id]
    split <;> simp_all
  | markUnknown s now stored => exact .inl (l.commit_config _)
  | stop s issuer session node r =>
    refine .inl ?_
    have := l.commit_config (l.stopTx s issuer session node r)
    simp only [LedgerOp.run, Ledger.requestStopScope, Ledger.signal, Prod.map, id]
    repeat' split
    all_goals simp_all
  | watch s =>
    refine .inl ?_
    simp only [LedgerOp.run, Ledger.watchStopScope, Prod.map, id]
    repeat' split
    all_goals exact ⟨rfl, rfl⟩
  | unwatch id => exact .inl ⟨rfl, rfl⟩
  | reopen policy node =>
    cases hopen : Ledger.open l.journal policy node with
    | ok l' => exact .inr ⟨policy, node, rfl, by simp only [LedgerOp.run, hopen]⟩
    | error e => exact .inl (by simp [LedgerOp.run, hopen])

/-- No call touches the owner row of an open journal. -/
theorem Ledger.Commits.owner {l : Ledger} {op : LedgerOp} {j' : Journal} (hc : l.Commits op j')
    (hversion : 2 ≤ l.journal.version) : j'.owner = l.journal.owner := by
  cases hc with
  | claim hc => exact hc.frame.owner
  | progress hc =>
    obtain ⟨_, _, -, -, -, -, rfl⟩ := hc.writes
    rfl
  | finish hc => rw [hc.writes]; rfl
  | consume hc =>
    obtain ⟨_, _, _, hup, -, -, -, -, -, rfl⟩ := hc.writes
    exact (Journal.upgrade_ok hup).1.owner
  | append hc =>
    obtain ⟨w, saved, -, -, -, -, ⟨-, rfl, -⟩ | ⟨-, record, -, hw, -⟩⟩ := hc.writes
    · rfl
    · obtain ⟨-, -, t, -, -, rfl⟩ := Ledger.appendWrite_ok hw
      rfl
  | refused hj hle => rcases hj with rfl | ⟨-, rfl⟩ <;> rfl
  | save hread hscope hc =>
    obtain ⟨_, _, _, _, _, _, -, -, -, -, -, -, rfl⟩ := hc.writes
    rfl
  | markUnknown hle => rfl
  | stop hc => rcases hc.writes with ⟨_, -, -, rfl⟩ | ⟨-, -, -, rfl⟩ <;> rfl
  | reopen hc =>
    have hj := hc.journal
    rw [if_neg (by omega)] at hj
    rw [hj]

theorem LedgerInv.step {l l' : Ledger} (h : LedgerInv l) (hs : LedgerStep l l') : LedgerInv l' := by
  obtain ⟨op, rfl⟩ := hs
  have hworkloads : WorkloadsInv (op.run l).1.journal := by
    rcases op.run_journal l with hj | hc
    · exact hj ▸ h.workloads
    · exact h.workloads.step h.owner h.receipts.ids hc
  have hreceipts : ReceiptsInv (op.run l).1.journal.receipts := by
    rcases op.run_journal l with hj | hc
    · exact hj ▸ h.receipts
    · exact h.receipts.step hc.receipts
  rcases op.run_config l with ⟨hnode, hpolicy⟩ | ⟨policy, node, rfl, hopen⟩
  · refine ⟨?_, hpolicy ▸ h.policy, hnode ▸ h.node, hreceipts, hworkloads⟩
    rw [hnode, ← h.owner]
    rcases op.run_journal l with hj | hc
    · rw [hj]
    · have := h.workloads.version
      exact hc.owner (by omega)
  · have ho := Ledger.open_ok hopen
    refine ⟨?_, ?_, ?_, hreceipts, hworkloads⟩
    · rw [ho.owner, ho.nodeId]
    · rw [ho.policy_eq]
      exact ho.policyValid
    · rw [ho.nodeId]
      exact ho.node_valid

omit [PeerAdmission] in
/-- The ledger a node opens on a new file. -/
theorem LedgerInv.opened {pageSize : Nat} {policy : GrantPolicy} {node : String} {l : Ledger}
    (hopen : Ledger.open (Journal.empty pageSize) policy node = .ok l) : LedgerInv l := by
  have ho := Ledger.open_ok hopen
  have hj := ho.journal
  rw [if_pos (show (Journal.empty pageSize).version < 2 from Nat.two_pos)] at hj
  obtain ⟨hversion, hkind, htables, -, hprogress⟩ := hj
  have hnone : l.journal.eventTables = none := htables
  have hrows : l.journal.receipts = [] := ho.receipts
  refine ⟨by rw [ho.owner, ho.nodeId], by rw [ho.policy_eq]; exact ho.policyValid,
    by rw [ho.nodeId]; exact ho.node_valid, by rw [hrows]; exact .nil, ?_⟩
  refine ⟨.inl hversion, ?_, ?_, ?_, ?_, ?_, ?_, ?_⟩
  · rw [Journal.validateSchema_ok, hkind, hnone, hversion]
    simp [Journal.empty]
  all_goals simp [hrows, Journal.tables, hnone, hprogress, Journal.empty]

theorem Ledger.Reachable.inv {l : Ledger} (h : l.Reachable) : LedgerInv l := by
  obtain ⟨pageSize, policy, node, start, hopen, hrun⟩ := h
  exact @Run.invariant _ _ LedgerInv (fun _ _ => LedgerInv.step) _ _ (.opened hopen) hrun

end

end Eef.Node
