import Eef.Node.Ledger

/-!
# What a committed transaction did

One inversion lemma for each transaction of the ledger: if it would commit, which
checks passed and which rows it wrote. Everything proved about runs of the ledger
goes through these; no later file unfolds a transaction.
-/

namespace Eef.Node

open Eef.Lib

namespace Journal

/-! ## Statements -/

theorem insertReceipt_ok {j j' : Journal} {r : ReceiptRow} : j.insertReceipt r = .ok j' ↔
    (∀ s ∈ j.receipts, s.grantId ≠ r.grantId)
    ∧ (∀ s ∈ j.receipts, ¬(s.issuerId = r.issuerId ∧ s.jobId = r.jobId ∧ s.taskId = r.taskId
        ∧ s.attempt = r.attempt))
    ∧ j' = { j with receipts := j.receipts ++ [r] } := by
  simp only [insertReceipt, bind_ok, ensure_ok, pure_ok, exists_and_left, exists_const,
    @eq_comm _ j']

theorem insertProgress_ok {j j' : Journal} {p : ProgressRow} : j.insertProgress p = .ok j' ↔
    ∃ rows, j.progress = some rows ∧ (∀ s ∈ rows, s.grantId ≠ p.grantId)
      ∧ j' = { j with progress := some (rows ++ [p]) } := by
  simp only [insertProgress, bind_ok, context_ok, ensure_ok, pure_ok, exists_and_left,
    exists_const, @eq_comm _ j']

theorem insertStop_ok {j j' : Journal} {s : StopRow} : j.insertStop s = .ok j' ↔
    (∀ t ∈ j.stops.getD [], t.grantId ≠ s.grantId)
      ∧ j' = { j with stops := some (j.stops.getD [] ++ [s]) } := by
  simp only [insertStop, bind_ok, ensure_ok, pure_ok, exists_and_left, exists_const,
    @eq_comm _ j']

theorem insertEventState_ok {j j' : Journal} {s : EventStateRow} : j.insertEventState s = .ok j' ↔
    ∃ t, j.eventTables = some t ∧ (∀ u ∈ t.states, u.grantId ≠ s.grantId)
      ∧ j' = { j with eventTables := some { t with states := t.states ++ [s] } } := by
  simp only [insertEventState, bind_ok, context_ok, ensure_ok, pure_ok, exists_and_left,
    exists_const, @eq_comm _ j']

theorem insertEvent_ok {j j' : Journal} {e : EventRow} : j.insertEvent e = .ok j' ↔
    ∃ t, j.eventTables = some t
      ∧ (∀ u ∈ t.events, ¬(u.grantId = e.grantId ∧ u.sequence = e.sequence))
      ∧ j' = { j with eventTables := some { t with events := t.events ++ [e] } } := by
  simp only [insertEvent, bind_ok, context_ok, ensure_ok, pure_ok, exists_and_left, exists_const,
    @eq_comm _ j']

/-! ## Stops recorded for a scope -/

theorem readStop_ok {j : Journal} {id : String} {o : Option StopReport} : j.readStop id = .ok o ↔
    (j.stop id = none ∧ o = none) ∨
      ∃ s, j.stop id = some s ∧ (1 ≤ s.textBytes ∧ s.textBytes ≤ 4096)
        ∧ o = some (StopReport.ofRow s) := by
  unfold readStop
  cases j.stop id with
  | none => simp [pure_ok, @eq_comm _ o]
  | some s =>
    simp only [bind_ok, ensure_ok, pure_ok, exists_and_left, exists_const, reduceCtorEq, false_and,
      Option.some.injEq, exists_eq_left', false_or, @eq_comm _ o]

theorem recordedScope_ok {j : Journal} {s : Scope} {b : Bool} : j.recordedScope s = .ok b ↔
    (j.stop s.grantId = none ∧ b = false) ∨
      ∃ t, j.stop s.grantId = some t ∧ (1 ≤ t.textBytes ∧ t.textBytes ≤ 4096)
        ∧ (StopReport.ofRow t).confirmsScope s = true ∧ b = true := by
  simp only [recordedScope, bind_ok, readStop_ok]
  constructor
  · rintro ⟨_, ⟨hn, rfl⟩ | ⟨t, ht, hb, rfl⟩, h⟩
    · exact .inl ⟨hn, (pure_ok.mp h).symm⟩
    · simp only [bind_ok, ensure_ok, pure_ok] at h
      obtain ⟨_, hc, rfl⟩ := h
      exact .inr ⟨t, ht, hb, hc, rfl⟩
  · rintro (⟨hn, rfl⟩ | ⟨t, ht, hb, hc, rfl⟩)
    · exact ⟨none, .inl ⟨hn, rfl⟩, rfl⟩
    · refine ⟨_, .inr ⟨t, ht, hb, rfl⟩, ?_⟩
      simp only [bind_ok, ensure_ok, pure_ok]
      exact ⟨(), hc, trivial⟩

/-- Only an unstopped grant reads as not recorded. -/
theorem recordedScope_false {j : Journal} {s : Scope} (h : j.recordedScope s = .ok false) :
    j.stop s.grantId = none := by
  rcases recordedScope_ok.mp h with ⟨hn, -⟩ | ⟨_, -, -, -, hb⟩
  · exact hn
  · cases hb

/-- What `check_attempt_slot` establishes: the grant is new and unstopped, and the
highest attempt of its task, if any, is lower and completed. -/
structure SlotFree (j : Journal) (s : Scope) : Prop where
  unstopped : j.stop s.grantId = none
  unused : ∀ r ∈ j.receipts, r.grantId ≠ s.grantId
  resolved : j.attempts s = [] ∨ ∃ b ∈ j.attempts s, (∀ r ∈ j.attempts s, r.attempt ≤ b.attempt)
    ∧ b.attempt < s.attempt ∧ b.state = .completed

theorem checkAttemptSlot_free {j : Journal} {s : Scope} (h : j.checkAttemptSlot s = .ok ()) :
    j.SlotFree s := by
  simp only [checkAttemptSlot, bind_ok, bailIf_ok] at h
  obtain ⟨recorded, hrec, _, hnot, hfree⟩ := h
  have hfalse : recorded = false := by simpa using hnot
  subst hfalse
  push Not at hfree
  refine ⟨recordedScope_false hrec, hfree.1, ?_⟩
  cases hmax : (j.attempts s).argmax ReceiptRow.attempt with
  | none => exact .inl (List.argmax_eq_none.mp hmax)
  | some b =>
    have hb := hfree.2
    rw [hmax] at hb
    simp only [Option.any_some, decide_eq_true_eq, ne_eq, not_or, not_le, not_not] at hb
    exact .inr ⟨b, List.argmax_mem hmax, fun r hr => List.le_of_mem_argmax hr hmax, hb⟩

theorem mem_attempts {j : Journal} {s : Scope} {r : ReceiptRow} : r ∈ j.attempts s ↔
    r ∈ j.receipts ∧ r.issuerId = s.issuerId ∧ r.jobId = s.jobId ∧ r.taskId = s.taskId := by
  simp [attempts]

end Journal

theorem Ledger.commit_fst {α : Type} {l : Ledger} {tx : Result (Journal × α)} :
    (l.commit tx).1 = l ∧ (∀ a, (l.commit tx).2 ≠ .ok a) ∨
      ∃ j a, tx = .ok (j, a) ∧ l.commit tx = ({ l with journal := j }, .ok a) := by
  cases tx with
  | error e => exact .inl ⟨rfl, fun _ h => by cases h⟩
  | ok p => exact .inr ⟨p.1, p.2, rfl, rfl⟩

theorem storage_ok {stored : Bool} {u : Unit} : storage stored = .ok u ↔ stored = true := ensure_ok

section
variable [F64] [Sha256] [PeerAdmission]

namespace Ledger

/-! ## Claims -/

/-- The journal `claim` checks its budget on: the observation table exists before it
for a finite pipeline. -/
def claimBase (l : Ledger) (g : ExecutionGrant) : Journal :=
  if decide (g.capability = "pipeline.run") then l.journal.createProgress else l.journal

/-- What a committed claim wrote. -/
structure Claimed (l : Ledger) (g : ExecutionGrant) (r : ClaimReadings) (j' : Journal) : Prop where
  valid : g.Valid
  node : g.executorNode = l.nodeId
  slot : l.journal.SlotFree g.scope
  budget : (l.claimBase g).checkReceiptBudget l.policy r.pages g.limits.maxResultBytes 0
    (decide (g.capability = "pipeline.run")) = .ok ()
  now_le : r.now ≤ i64Max
  slot_new : ∀ s ∈ l.journal.receipts, ¬(s.issuerId = g.issuerId ∧ s.jobId = g.jobId
    ∧ s.taskId = g.taskId ∧ s.attempt = g.attempt)
  writes : initialProgress { l.claimBase g with receipts := l.journal.receipts ++ [claimedRow g r.now] }
    g r.now r.observed = .ok j'

omit [F64] [Sha256] [PeerAdmission] in
@[simp]
theorem claimBase_receipts {l : Ledger} {g : ExecutionGrant} :
    (l.claimBase g).receipts = l.journal.receipts := by
  unfold claimBase
  split <;> rfl

theorem claimTx_ok {l : Ledger} {g : ExecutionGrant} {r : ClaimReadings} {j' : Journal} {u : Unit}
    (h : l.claimTx g r = .ok (j', u)) : l.Claimed g r j' := by
  simp only [claimTx, bind_ok, bailIf_ok, ensure_ok, ExecutionGrant.validate_ok, toI64_ok,
    storage_ok, pure_ok, Scope.fromGrant, Prod.mk.injEq] at h
  obtain ⟨_, hv, _, -, _, hn, _, ⟨_, -, rfl⟩, _, hslot, _, hbud, _, ⟨hle, rfl⟩, j₁, hins, j₂, hprog,
    _, -, rfl, -⟩ := h
  obtain ⟨-, hnew, rfl⟩ := Journal.insertReceipt_ok.mp hins
  refine ⟨hv, hn, Journal.checkAttemptSlot_free hslot, hbud, hle, ?_, ?_⟩
  · intro s hs
    refine hnew s ?_
    show s ∈ (l.claimBase g).receipts
    rwa [claimBase_receipts]
  · rw [← claimBase_receipts]
    exact hprog

/-- A claim adds one receipt and, for a finite pipeline, its first observation. -/
structure Claimed.Frame (l : Ledger) (g : ExecutionGrant) (r : ClaimReadings) (j' : Journal) :
    Prop where
  version : j'.version = l.journal.version
  owner : j'.owner = l.journal.owner
  pageSize : j'.pageSize = l.journal.pageSize
  receipts : j'.receipts = l.journal.receipts ++ [claimedRow g r.now]
  stops : j'.stops = l.journal.stops
  kindColumns : j'.kindColumns = l.journal.kindColumns
  eventTables : j'.eventTables = l.journal.eventTables
  progress : (g.capability ≠ "pipeline.run" ∧ j'.progress = l.journal.progress) ∨
    ∃ checkpoint, g.capability = "pipeline.run"
      ∧ PipelineProgress.checkpoint g 0 .pending 0 0 r.observed = .ok checkpoint
      ∧ { checkpoint with recordedAtMs := r.now }.toJson.size ≤ maxCheckpointBytes
      ∧ (∀ p ∈ l.journal.progress.getD [], p.grantId ≠ g.grantId)
      ∧ j'.progress = some (l.journal.progress.getD [] ++
          [{ grantId := g.grantId, grantDigest := g.digest,
             payload := { checkpoint with recordedAtMs := r.now }.toJson,
             payloadSha256 := Sha256.raw { checkpoint with recordedAtMs := r.now }.toJson }])

theorem Claimed.frame {l : Ledger} {g : ExecutionGrant} {r : ClaimReadings} {j' : Journal}
    (h : l.Claimed g r j') : Claimed.Frame l g r j' := by
  have hw := h.writes
  unfold initialProgress at hw
  by_cases hp : g.capability = "pipeline.run"
  · simp only [if_pos hp, bind_ok, ensure_ok, Journal.insertProgress_ok] at hw
    obtain ⟨checkpoint, hc, _, hsize, rows, hrows, hnew, rfl⟩ := hw
    have hbase : l.claimBase g = l.journal.createProgress := by simp [claimBase, hp]
    rw [hbase] at hrows ⊢
    cases hrows
    exact ⟨rfl, rfl, rfl, rfl, rfl, rfl, rfl, .inr ⟨checkpoint, hp, hc, hsize, hnew, rfl⟩⟩
  · rw [if_neg hp] at hw
    cases hw
    have hbase : l.claimBase g = l.journal := by simp [claimBase, hp]
    rw [hbase]
    exact ⟨rfl, rfl, rfl, rfl, rfl, rfl, rfl, .inl ⟨hp, rfl⟩⟩

/-! ## Observations and reports -/

/-- What a committed observation wrote. -/
structure Observed (l : Ledger) (g : ExecutionGrant) (p : PipelineProgress) (j' : Journal) :
    Prop where
  confirms : p.confirms g = true
  recorded_le : p.recordedAtMs ≤ i64Max
  size : p.toJson.size ≤ maxCheckpointBytes
  writes : ∃ receipt rows, l.journal.readConsumed l.nodeId (some g.issuerId) g.grantId = .ok receipt
    ∧ receipt.updatedAtMs ≤ p.recordedAtMs ∧ l.journal.progress = some rows
    ∧ rows.countP (observes g.grantId receipt.grantSha256) = 1
    ∧ j' = { l.journal with
        receipts := Table.update (acceptedAs g.grantId receipt.grantSha256)
          (fun r => { r with updatedMs := p.recordedAtMs }) l.journal.receipts
        progress := some (Table.update (observes g.grantId receipt.grantSha256)
          (fun o => { o with payload := p.toJson, payloadSha256 := Sha256.raw p.toJson }) rows) }

theorem progressTx_ok {l : Ledger} {g : ExecutionGrant} {p q : PipelineProgress} {stored : Bool}
    {j' : Journal} (h : l.progressTx g p stored = .ok (j', q)) : l.Observed g p j' := by
  simp only [progressTx, bind_ok, bailIf_ok, ensure_ok, context_ok, toI64_ok, storage_ok, pure_ok,
    Prod.mk.injEq] at h
  obtain ⟨_, ⟨hc, -⟩, receipt, hread, _, -, previous, -, _, hseq, _, hsize, rows, hrows, _, hcount,
    _, ⟨hle, rfl⟩, _, -, _, -, rfl, -⟩ := h
  push Not at hseq
  exact ⟨hc, hle, hsize, receipt, rows, hread, hseq.2.2.2, hrows, hcount, rfl⟩

/-- What a committed final report wrote. -/
structure Finished (l : Ledger) (g : ExecutionGrant) (report : GrantReport) (now : Nat)
    (j' : Journal) : Prop where
  confirms : report.confirms g
  persisted : report.persisted = true
  state : report.state = .completed ∨ report.state = .unknown
  size : report.toJson.size ≤ g.limits.maxResultBytes + reportHeadroom
  now_le : now ≤ i64Max
  one : l.journal.receipts.countP (awaitsReport g) = 1
  writes : j' = l.journal.updateReceipts (awaitsReport g) (finishedRow report now)

theorem finishTx_ok {l : Ledger} {g : ExecutionGrant} {report : GrantReport} {now : Nat}
    {stored : Bool} {j' : Journal} {u : Unit} (h : l.finishTx g report now stored = .ok (j', u)) :
    l.Finished g report now j' := by
  simp only [finishTx, bind_ok, bailIf_ok, ensure_ok, toI64_ok, storage_ok, pure_ok,
    Prod.mk.injEq] at h
  obtain ⟨_, ⟨hc, hp⟩, _, hs, _, hsize, _, ⟨hle, rfl⟩, _, hone, _, -, rfl, -⟩ := h
  refine ⟨hc, hp, hs, ?_, hle, hone, rfl⟩
  simp only [satAdd] at hsize
  omega

end Ledger

end

/-! ## Workloads -/

section
variable [F64] [Sha256]

namespace Journal

/-- What initializing a workload's events wrote. -/
theorem initializeEvents_ok {j j' : Journal} {d : WorkloadDefinition}
    (h : j.initializeEvents d = .ok j') : ∃ reserved t, j.reservation d = .ok reserved
      ∧ j.eventTables = some t ∧ (∀ u ∈ t.states, u.grantId ≠ d.grantId)
      ∧ j' = { j with eventTables := some { t with states := t.states ++
          [{ grantId := d.grantId, grantDigest := d.digest, eventCount := 0, eventBytes := 0,
             reservedBytes := reserved, prefixSha256 := Sha256.text d.digest }] } } := by
  simp only [initializeEvents, eventSeed, bind_ok, WorkloadDefinition.scope_ok, toI64_ok, pure_ok,
    insertEventState_ok] at h
  obtain ⟨_, ⟨-, rfl⟩, reserved, hres, _, ⟨-, rfl⟩, _, ⟨_, ⟨-, rfl⟩, rfl⟩, t, ht, hnew, rfl⟩ := h
  exact ⟨reserved, t, hres, ht, hnew, rfl⟩

/-- The tables an upgrade leaves alone, and the markers it may raise. -/
structure Upgraded (j j' : Journal) : Prop where
  owner : j'.owner = j.owner
  pageSize : j'.pageSize = j.pageSize
  receipts : j'.receipts = j.receipts
  stops : j'.stops = j.stops
  progress : j'.progress = j.progress
  events : ∀ id, j'.eventRows id = j.eventRows id
  schema : j'.validateSchema = .ok ()

omit [F64] [Sha256] in
theorem validateSchema_ok {j : Journal} {u : Unit} : j.validateSchema = .ok u ↔
    (j.kindColumns = true ↔ j.version = 3 ∨ j.version = 4 ∨ j.version = 5)
      ∧ (j.eventTables.isSome = true ↔ j.version = 4 ∨ j.version = 5) := by
  simp only [validateSchema, bind_ok, ensure_ok, exists_and_left, exists_const]
  refine and_congr ?_ ?_
  · rw [Bool.eq_iff_iff, decide_eq_true_eq]
  · rw [Bool.eq_iff_iff, decide_eq_true_eq]

theorem initializeAll_frame {node : String} : ∀ {ids : List String} {j j' : Journal},
    initializeAll node j ids = .ok j' → j'.owner = j.owner ∧ j'.pageSize = j.pageSize
      ∧ j'.receipts = j.receipts ∧ j'.stops = j.stops ∧ j'.progress = j.progress
      ∧ j'.version = j.version ∧ j'.kindColumns = j.kindColumns
      ∧ (∀ id, j'.eventRows id = j.eventRows id) ∧ (ids = [] → j' = j)
  | [], j, j', h => by
    cases h
    simp
  | id :: ids, j, j', h => by
    simp only [initializeAll, bind_ok] at h
    obtain ⟨w, -, j₁, hinit, hrest⟩ := h
    obtain ⟨_, t, -, ht, -, rfl⟩ := initializeEvents_ok hinit
    obtain ⟨h1, h2, h3, h4, h5, h6, h7, h8, -⟩ := initializeAll_frame hrest
    refine ⟨h1, h2, h3, h4, h5, h6, h7, ?_, by simp⟩
    intro id
    rw [h8 id]
    simp [eventRows, ht]

/-- An event upgrade does nothing from version 4 on. -/
theorem upgradeEvents_ok {j j' : Journal} {node : String} (h : j.upgradeEvents node = .ok j') :
    j.Upgraded j' ∧ ((j.version = 4 ∨ j.version = 5) ∧ j' = j ∨
      j.version = 3 ∧ j'.version = 4 ∧ j'.kindColumns = j.kindColumns
        ∧ ((∀ r ∈ j.receipts, r.kind = .operation) →
          j'.eventTables = some { states := [], events := [] })) := by
  simp only [upgradeEvents, bind_ok] at h
  obtain ⟨_, hschema, h⟩ := h
  split at h
  · rename_i hv
    cases pure_ok.mp h
    exact ⟨⟨rfl, rfl, rfl, rfl, rfl, fun _ => rfl, hschema⟩, .inl ⟨hv, rfl⟩⟩
  · simp only [bind_ok, ensure_ok, pure_ok] at h
    obtain ⟨_, hv, _, -, j₁, hall, _, hs, rfl⟩ := h
    obtain ⟨h1, h2, h3, h4, h5, h6, h7, hev, h8⟩ := initializeAll_frame hall
    -- before version 4 there are no event tables to lose
    have hnone : j.eventTables = none := by
      have := (validateSchema_ok.mp hschema).2
      rw [hv] at this
      simpa using this
    refine ⟨⟨h1, h2, h3, h4, h5, fun id => ?_, hs⟩, .inr ⟨hv, h6, h7, ?_⟩⟩
    · rw [hev id]
      simp [eventRows, hnone]
    intro hop
    have hnone : (j.receipts.filter fun r => r.kind = .workload) = [] := by
      simp only [List.filter_eq_nil_iff, decide_eq_true_eq]
      intro r hr
      rw [hop r hr]
      decide
    rw [h8 (by rw [hnone]; rfl)]

/-- `workload::upgrade` ends at version 4 or 5 and only adds tables and columns. -/
theorem upgrade_ok {j j' : Journal} {node : String} (h : j.upgrade node = .ok j') :
    j.Upgraded j' ∧ ((j.version = 4 ∨ j.version = 5) ∧ j' = j ∨
      (j.version = 2 ∨ j.version = 3) ∧ j'.version = 4
        ∧ ((∀ r ∈ j.receipts, r.kind = .operation) →
          j'.eventTables = some { states := [], events := [] })) := by
  simp only [upgrade, bind_ok] at h
  obtain ⟨_, -, h⟩ := h
  split at h
  · obtain ⟨hu, ⟨hv, rfl⟩ | ⟨hv, hv', -, ht⟩⟩ := upgradeEvents_ok h
    · exact ⟨hu, .inl ⟨hv, rfl⟩⟩
    · exact ⟨hu, .inr ⟨.inr hv, hv', ht⟩⟩
  · simp only [bind_ok, ensure_ok] at h
    obtain ⟨_, hv, _, -, _, -, _, -, h⟩ := h
    obtain ⟨⟨h1, h2, h3, h4, h5, h6, h7⟩, ⟨hv', -⟩ | ⟨-, hv', -, ht⟩⟩ := upgradeEvents_ok h
    · simp at hv'
    · exact ⟨⟨h1, h2, h3, h4, h5, h6, h7⟩, .inr ⟨.inl hv, hv', ht⟩⟩

/-- `completion::upgrade` only raises the version marker. -/
theorem upgradeCompletion_ok {j j' : Journal} {node : String}
    (h : j.upgradeCompletion node = .ok j') :
    (j.version = 4 ∨ j.version = 5) ∧ j' = { j with version := 5 } := by
  simp only [upgradeCompletion, bind_ok, ensure_ok] at h
  obtain ⟨_, hv, h⟩ := h
  split at h
  · rename_i h5
    cases pure_ok.mp h
    exact ⟨hv, by rw [← h5]⟩
  · simp only [bind_ok, pure_ok] at h
    obtain ⟨_, -, _, -, _, -, rfl⟩ := h
    exact ⟨hv, rfl⟩

omit [F64] [Sha256] in
theorem uncertain_ok {j j' : Journal} {s : Scope} {now : Nat} (h : j.uncertain s now = .ok j') :
    max now 1 ≤ i64Max ∧ j' = j.updateReceipts (openWorkload s) fun r =>
      { r.touch (max now 1) with state := .unknown } := by
  simp only [uncertain, bind_ok, toI64_ok, pure_ok] at h
  obtain ⟨_, ⟨hle, rfl⟩, rfl⟩ := h
  exact ⟨hle, rfl⟩

end Journal

namespace Ledger

/-- What a committed consumption wrote: the upgraded journal `j₁`, then the receipt and
the empty event state of the definition. -/
structure Consumed (l : Ledger) (d : WorkloadDefinition) (r : ConsumeReadings) (j' : Journal) :
    Prop where
  valid : d.Valid
  validate : d.validate = .ok ()
  node : d.executorNode = l.nodeId
  slot : l.journal.SlotFree (d.identityScope d.digest)
  bytes : d.events.maxTotalBytes ≤ l.policy.maxResultBytes
  now_le : max r.now 1 ≤ i64Max
  writes : ∃ j₁ reserved t, l.journal.upgrade l.nodeId = .ok j₁ ∧ j₁.reservation d = .ok reserved
    ∧ j₁.checkReceiptBudget l.policy r.pages d.events.maxTotalBytes
        (d.toJson.size + reserved) false = .ok ()
    ∧ (∀ s ∈ l.journal.receipts, ¬(s.issuerId = d.issuerId ∧ s.jobId = d.jobId
        ∧ s.taskId = d.taskId ∧ s.attempt = d.attempt))
    ∧ j₁.eventTables = some t ∧ (∀ u ∈ t.states, u.grantId ≠ d.grantId)
    ∧ j' = { j₁ with
        receipts := l.journal.receipts ++ [consumedRow d (max r.now 1)]
        eventTables := some { t with states := t.states ++
          [{ grantId := d.grantId, grantDigest := d.digest, eventCount := 0, eventBytes := 0,
             reservedBytes := reserved, prefixSha256 := Sha256.text d.digest }] } }

theorem consumeTx_ok {l : Ledger} {d : WorkloadDefinition} {policy : LeasePolicy}
    {initial : LeaseProof} {issuer session node : String} {r : ConsumeReadings} {j' : Journal}
    {c : Contract} (h : l.consumeTx d policy initial issuer session node r = .ok (j', c)) :
    l.Consumed d r j' := by
  simp only [consumeTx, bind_ok, bailIf_ok, ensure_ok, WorkloadDefinition.leaseContract_ok,
    toI64_ok, storage_ok, pure_ok, Prod.mk.injEq] at h
  obtain ⟨_, ⟨hv, rfl⟩, _, -, _, -, _, ⟨hnode, hsess⟩, _, -, _, hbytes, _, -, _, hslot, j₁, hup,
    reserved, hres, _, -, _, hbud, _, -, _, -, _, -, _, ⟨hle, rfl⟩, j₂, hins, j₃, hinit, _, -,
    rfl, -⟩ := h
  obtain ⟨-, hnew, rfl⟩ := Journal.insertReceipt_ok.mp hins
  obtain ⟨reserved', t, hres', ht, hfresh, rfl⟩ := Journal.initializeEvents_ok hinit
  have hsame : reserved' = reserved := by
    have := hres'.symm.trans (show _ = Except.ok reserved from hres)
    exact Except.ok.inj this
  subst hsame
  obtain ⟨hu, -⟩ := Journal.upgrade_ok hup
  have hexec : d.executorNode = l.nodeId := by
    simp only [Scope.matchesSession, WorkloadDefinition.identityScope, Bool.and_eq_true,
      beq_iff_eq] at hsess
    exact hsess.2.trans hnode
  refine ⟨WorkloadDefinition.validate_valid hv, hv, hexec, Journal.checkAttemptSlot_free hslot,
    by omega, hle, j₁, reserved', t, hup, hres, hbud, ?_, ht, hfresh, ?_⟩
  · rw [hu.receipts] at hnew
    exact hnew
  · rw [hu.receipts]

/-- What a committed `mark_workload_unknown` wrote. -/
theorem markUnknownTx_ok {l : Ledger} {s : Scope} {now : Nat} {stored : Bool} {j' : Journal}
    {u : Unit} (h : l.markUnknownTx s now stored = .ok (j', u)) :
    max now 1 ≤ i64Max ∧ j' = l.journal.updateReceipts (Journal.openWorkload s) fun r =>
      { r.touch (max now 1) with state := .unknown } := by
  simp only [markUnknownTx, bind_ok, storage_ok, pure_ok, Prod.mk.injEq] at h
  obtain ⟨_, -, _, -, _, -, _, hunc, _, -, rfl, -⟩ := h
  exact Journal.uncertain_ok hunc

/-! ## Events -/

/-- What a fresh `append` checked about the event and put into its record. -/
structure FreshRecord (j : Journal) (w : WorkloadReceipt) (saved : EventState) (event : Event)
    (checkpoint : Checkpoint) (now : Nat) (record : EventRecord) : Prop where
  tail : ∃ previous, event.follows w.definition previous = .ok ()
    ∧ (saved.count = 0 ∧ previous = none ∨
      ∃ row, saved.count ≠ 0 ∧ j.eventRow w saved.count = .ok row
        ∧ row.prefixSha256 = saved.prefixSha256 ∧ row.record.leaseSequence ≤ checkpoint.sequence
        ∧ previous = some row.record.event)
  size_ge : minEventBytes ≤ event.toJson.size
  size_le : event.toJson.size ≤ w.definition.events.maxEventBytes
  total_le : event.toJson.size ≤ w.definition.events.maxTotalBytes - saved.bytes
  envelope : record.toJson.size ≤ w.definition.events.maxEventBytes + rowHeadroom
  record_eq : record = { schemaVersion := 1, leaseSequence := checkpoint.sequence,
                         recordedAtMs := max now w.receipt.updatedAtMs, event }

theorem appendRecord_ok {j : Journal} {w : WorkloadReceipt} {saved : EventState} {event : Event}
    {checkpoint : Checkpoint} {now : Nat} {record : EventRecord}
    (h : appendRecord j w saved event checkpoint now = .ok record) :
    FreshRecord j w saved event checkpoint now record := by
  simp only [appendRecord, bind_ok, ensure_ok, pure_ok] at h
  obtain ⟨previous, hprev, _, hfol, _, ⟨⟨hge, hle⟩, htot⟩, _, henv, rfl⟩ := h
  refine ⟨⟨previous, hfol, ?_⟩, hge, hle, htot, henv, rfl⟩
  unfold appendTail at hprev
  split at hprev
  · rename_i h0
    cases hprev
    exact .inl ⟨h0, rfl⟩
  · rename_i h0
    simp only [bind_ok, ensure_ok, pure_ok] at hprev
    obtain ⟨row, hrow, _, ⟨hchain, hseq⟩, rfl⟩ := hprev
    exact .inr ⟨row, h0, hrow, hchain, hseq, rfl⟩

/-- The row a record is stored as, after the digest chain `chain`. -/
def eventRowOf (d : WorkloadDefinition) (chain : String) (record : EventRecord) : EventRow where
  grantId := d.grantId
  sequence := record.event.sequence
  encodedBytes := record.event.toJson.size
  data := record.toJson
  dataSha256 := Sha256.raw record.toJson
  prefixSha256 := nextPrefixSha256 chain (Sha256.raw record.toJson)

/-- What the three statements of a fresh `append` wrote. -/
theorem appendWrite_ok {j j' : Journal} {d : WorkloadDefinition} {saved : EventState}
    {record : EventRecord} (h : appendWrite j d saved record = .ok j') :
    record.recordedAtMs ≤ i64Max ∧ saved.bytes + record.event.toJson.size ≤ i64Max ∧
      ∃ t, j.eventTables = some t
        ∧ (∀ u ∈ t.events, ¬(u.grantId = d.grantId ∧ u.sequence = record.event.sequence))
        ∧ j' = { j with
            receipts := Table.update (acceptedId d.grantId)
              (fun r => r.touch record.recordedAtMs) j.receipts
            eventTables := some
              { states := Table.update (fun s => decide (s.grantId = d.grantId))
                  (fun s => { s with eventCount := record.event.sequence
                                     eventBytes := saved.bytes + record.event.toJson.size
                                     prefixSha256 := nextPrefixSha256 saved.prefixSha256
                                       (Sha256.raw record.toJson) }) t.states
                events := t.events ++ [eventRowOf d saved.prefixSha256 record] } } := by
  simp only [appendWrite, bind_ok, toI64_ok, pure_ok, Journal.insertEvent_ok] at h
  obtain ⟨_, ⟨-, rfl⟩, _, ⟨-, rfl⟩, _, ⟨t, ht, hnew, rfl⟩, _, ⟨htot, rfl⟩, _, ⟨hrec, rfl⟩, rfl⟩ := h
  exact ⟨hrec, htot, t, ht, hnew, rfl⟩

/-- What a committed `append` checked and wrote. -/
structure Appended (l : Ledger) (d : WorkloadDefinition) (event : Event) (checkpoint : Checkpoint)
    (r : AppendReadings) (j' : Journal) (receipt : AppendReceipt) : Prop where
  validate : d.validate = .ok ()
  unstopped : l.journal.stop d.grantId = none
  writes : ∃ w saved, l.journal.readCore l.nodeId (some d.issuerId) d.grantId = .ok w
    ∧ w.definition = d ∧ w.receipt.state = .accepted ∧ l.journal.eventState d = .ok saved
    ∧ ((event.sequence ≤ saved.count ∧ j' = l.journal ∧ ∃ old, l.journal.audit w = .ok ()
          ∧ l.journal.eventRow w event.sequence = .ok old ∧ old.record.event = event
          ∧ receipt = { sequence := event.sequence, dataSha256 := old.checksum, reused := true })
      ∨ (saved.count < event.sequence ∧ ∃ record,
          FreshRecord l.journal w saved event checkpoint r.now record
          ∧ appendWrite l.journal d saved record = .ok j'
          ∧ receipt = { sequence := event.sequence, dataSha256 := Sha256.raw record.toJson,
                        reused := false }))

theorem appendTx_ok {l : Ledger} {d : WorkloadDefinition} {event : Event} {checkpoint : Checkpoint}
    {r : AppendReadings} {j' : Journal} {receipt : AppendReceipt}
    (h : l.appendTx d event checkpoint r = .ok (j', receipt)) :
    l.Appended d event checkpoint r j' receipt := by
  simp only [appendTx, bind_ok, ensure_ok, WorkloadDefinition.leaseContract_ok] at h
  obtain ⟨_, ⟨hv, rfl⟩, _, -, _, -, _, -, _, -, w, hread, _, ⟨hdef, hacc, -⟩, recorded, hrec, _,
    hfalse, saved, hsaved, h⟩ := h
  subst hfalse
  refine ⟨hv, Journal.recordedScope_false hrec, w, saved, hread, hdef, hacc, hsaved, ?_⟩
  split at h
  · rename_i hle
    simp only [bind_ok, ensure_ok, storage_ok, pure_ok, Prod.mk.injEq] at h
    obtain ⟨_, haudit, old, hold, _, hsame, _, -, _, -, rfl, rfl⟩ := h
    exact .inl ⟨hle, rfl, old, haudit, hold, hsame, rfl⟩
  · rename_i hle
    simp only [bind_ok, ensure_ok, storage_ok, pure_ok, Prod.mk.injEq] at h
    obtain ⟨record, hrecord, _, -, _, -, j₁, hwrite, _, -, _, -, rfl, rfl⟩ := h
    exact .inr ⟨by omega, record, appendRecord_ok hrecord, hwrite, rfl⟩

/-! ## Completion -/

/-- What a committed completion checked and wrote. -/
structure Saved (l : Ledger) (evidence : Evidence) (w : WorkloadReceipt) (r : SaveReadings)
    (j' : Journal) : Prop where
  boundary : evidence.boundary.validate evidence.contract = .ok ()
  accepted : w.receipt.state = .accepted
  unstopped : l.journal.stop evidence.contract.scope.grantId = none
  version : l.journal.version = 4 ∨ l.journal.version = 5
  recorded_le : max r.now w.receipt.updatedAtMs ≤ i64Max
  writes : ∃ count bytes chain last sequence report,
    l.journal.completionPrefix w = .ok (count, bytes, chain, last, sequence)
    ∧ sequence ≤ evidence.boundary.sequence
    ∧ (completedReceipt w evidence count bytes chain (max r.now w.receipt.updatedAtMs)).validate
        = .ok ()
    ∧ (completedReceipt w evidence count bytes chain
        (max r.now w.receipt.updatedAtMs)).completion = some report
    ∧ report.toJson.size ≤ reportHeadroom
    ∧ l.journal.receipts.countP (awaitsCompletion evidence.contract.scope) = 1
    ∧ j' = { l.journal with
        version := 5
        receipts := Table.update (awaitsCompletion evidence.contract.scope)
          (fun e => { e with state := .completed, updatedMs := max r.now w.receipt.updatedAtMs,
                             report := some report.toJson,
                             reportSha256 := some (Sha256.raw report.toJson) })
          l.journal.receipts }

omit [F64] [Sha256] in
theorem stopSeen_false {seen : Bool} {j : Journal} {s : Scope}
    (h : stopSeen seen j s = .ok false) : seen = false ∧ j.stop s.grantId = none := by
  unfold stopSeen at h
  split at h
  · cases h
  · rename_i hs
    exact ⟨by simpa using hs, Journal.recordedScope_false h⟩

/-- A committed `save` either completed the workload or, when it was refused, marked
what was still accepted as unknown; the refusal may come after the version marker was
raised. -/
theorem saveTx_ok {l : Ledger} {evidence : Evidence} {r : SaveReadings} {j' : Journal}
    {c : Completion} (h : l.saveTx evidence r = .ok (j', c)) :
    ∃ w, l.journal.readWorkload l.nodeId (some evidence.contract.scope.issuerId)
        evidence.contract.scope.grantId = .ok w
      ∧ w.definition.scope = .ok evidence.contract.scope
      ∧ ((∃ j₁, (j₁ = l.journal ∨ (l.journal.version = 4 ∨ l.journal.version = 5)
              ∧ j₁ = { l.journal with version := 5 })
            ∧ max r.now 1 ≤ i64Max
            ∧ j' = j₁.updateReceipts (Journal.openWorkload evidence.contract.scope) fun e =>
                { e.touch (max r.now 1) with state := .unknown })
        ∨ l.Saved evidence w r j') := by
  simp only [saveTx, bind_ok, ensure_ok] at h
  obtain ⟨_, hb, w, hread, _, hscope, _, rfl, refused, href, h⟩ := h
  refine ⟨w, hread, hscope, ?_⟩
  split at h
  · simp only [bind_ok, storage_ok, pure_ok, Prod.mk.injEq] at h
    obtain ⟨j₁, hunc, _, -, rfl, -⟩ := h
    obtain ⟨hle, hj⟩ := Journal.uncertain_ok hunc
    exact .inl ⟨_, .inl rfl, hle, hj⟩
  · rename_i hnot
    have hfalse : refused = false := by simpa using hnot
    subst hfalse
    obtain ⟨hseen, hstop⟩ := stopSeen_false href
    simp only [Bool.or_eq_false_iff, decide_eq_false_iff_not, ne_eq, not_not] at hseen
    simp only [completeTx, bind_ok, ensure_ok, context_ok] at h
    obtain ⟨_, -, ⟨count, bytes, chain, last, sequence⟩, hpre, _, ⟨-, hseq⟩, j₁, hup, _, hval,
      report, hrep, _, hsize, stopped, -, h⟩ := h
    obtain ⟨hver, rfl⟩ := Journal.upgradeCompletion_ok hup
    split at h
    · simp only [bind_ok, storage_ok, pure_ok, Prod.mk.injEq] at h
      obtain ⟨j₂, hunc, _, -, rfl, -⟩ := h
      obtain ⟨hle, hj⟩ := Journal.uncertain_ok hunc
      exact .inl ⟨_, .inr ⟨hver, rfl⟩, hle, hj⟩
    · simp only [completeRow, bind_ok, ensure_ok, toI64_ok, storage_ok, pure_ok,
        Prod.mk.injEq] at h
      obtain ⟨_, ⟨_, ⟨hle, rfl⟩, _, hone, rfl⟩, _, -, rfl, -⟩ := h
      exact .inr ⟨hb, hseen.1, hstop, hver, hle, count, bytes, chain, last, sequence, report, hpre,
        hseq, hval, hrep, hsize, hone, rfl⟩

end Ledger

end

/-! ## Stops -/

namespace Ledger

/-- What a committed fresh stop checked and wrote: a tombstone unless the grant had a
receipt, then the stop row. -/
structure Stopped (l : Ledger) (s : Scope) (r : StopReadings) (j' : Journal) : Prop where
  valid : s.Valid
  node : s.executorNode = l.nodeId
  new : l.journal.stop s.grantId = none
  now_le : max r.now 1 ≤ i64Max
  total : ∃ total, stopTotal l.journal r.pages = .ok total ∧ total ≤ l.policy.maxJournalBytes
  writes : (∃ e, l.journal.receipt s.grantId = some e ∧ e.grantDigest = s.grantSha256
      ∧ j' = { l.journal with
          stops := some (l.journal.stops.getD [] ++ [stopRow s (max r.now 1) true]) })
    ∨ (l.journal.receipt s.grantId = none ∧ l.journal.receipts.length < l.policy.maxReceipts
      ∧ (∀ e ∈ l.journal.receipts, ¬(e.issuerId = s.issuerId ∧ e.jobId = s.jobId
        ∧ e.taskId = s.taskId ∧ e.attempt = s.attempt))
      ∧ j' = { l.journal with
          receipts := l.journal.receipts ++ [tombstone s (max r.now 1)]
          stops := some (l.journal.stops.getD [] ++ [stopRow s (max r.now 1) false]) })

theorem freshStopTx_ok {l : Ledger} {s : Scope} {r : StopReadings} {j' : Journal}
    {report : StopReport} (hv : s.Valid) (hn : s.executorNode = l.nodeId)
    (hnew : l.journal.stop s.grantId = none)
    (h : l.freshStopTx s r = .ok (j', report)) : l.Stopped s r j' := by
  simp only [freshStopTx, bind_ok, bailIf_ok, toI64_ok, storage_ok, pure_ok, context_ok,
    Journal.insertStop_ok, Prod.mk.injEq] at h
  obtain ⟨_, hdig, total, htotal, _, hquota, _, ⟨hle, rfl⟩, j₁, hj₁, _, ⟨-, rfl⟩, _, -, _, -, _, -,
    rfl, -⟩ := h
  push Not at hquota
  refine ⟨hv, hn, hnew, hle, ⟨total, htotal, hquota.2⟩, ?_⟩
  cases hrow : l.journal.receipt s.grantId with
  | some e =>
    rw [hrow] at hdig hj₁
    simp only [Option.any_some, decide_eq_true_eq, ne_eq, not_not] at hdig
    cases hj₁
    exact .inl ⟨e, rfl, hdig, rfl⟩
  | none =>
    rw [hrow] at hj₁ hquota
    simp only [consumeUnclaimed, Option.isSome_none, Bool.false_eq_true, if_false, bind_ok,
      ensure_ok, Journal.insertReceipt_ok] at hj₁
    obtain ⟨_, -, -, hslot, rfl⟩ := hj₁
    exact .inr ⟨rfl, hquota.1 rfl, hslot, rfl⟩

/-- A committed stop confirmed the retained one or recorded a fresh one. -/
theorem stopTx_ok {l : Ledger} {s : Scope} {issuer session node : String} {r : StopReadings}
    {j' : Journal} {report : StopReport}
    (h : l.stopTx s issuer session node r = .ok (j', report)) :
    (j' = l.journal ∧ ∃ t, l.journal.stop s.grantId = some t
      ∧ (StopReport.ofRow t).confirmsScope s = true) ∨ l.Stopped s r j' := by
  simp only [stopTx, bind_ok, ensure_ok, Scope.validate_ok] at h
  obtain ⟨_, hv, _, ⟨hnode, hsess⟩, read, hread, h⟩ := h
  rcases Journal.readStop_ok.mp hread with ⟨hnone, rfl⟩ | ⟨t, ht, -, rfl⟩
  · refine .inr (freshStopTx_ok hv ?_ hnone h)
    simp only [Scope.matchesSession, Bool.and_eq_true, beq_iff_eq] at hsess
    exact hsess.2.trans hnode
  · simp only [bind_ok, ensure_ok, storage_ok, pure_ok, Prod.mk.injEq] at h
    obtain ⟨_, hc, _, -, rfl, -⟩ := h
    exact .inl ⟨rfl, t, ht, hc⟩

end Ledger

/-! ## One step -/

section
variable [F64] [Sha256] [PeerAdmission]

/-- What a successful `open` returns. -/
structure Ledger.Opened (j : Journal) (policy : GrantPolicy) (node : String) (l : Ledger) :
    Prop where
  nodeId : l.nodeId = node
  policy_eq : l.policy = policy
  watchers : l.watchers = []
  policyValid : policy.validate = .ok ()
  node_valid : remoteNodeId node = true
  owner : l.journal.owner = some node
  receipts : l.journal.receipts = j.receipts
  pageSize : l.journal.pageSize = j.pageSize
  journal : if j.version < 2 then l.journal.version = 2 ∧ l.journal.kindColumns = j.kindColumns
      ∧ l.journal.eventTables = j.eventTables ∧ l.journal.stops = j.stops
      ∧ l.journal.progress = j.progress
    else l.journal = j
  schema : j.validateSchema = .ok ()

omit [PeerAdmission] in
theorem Ledger.open_ok {j : Journal} {policy : GrantPolicy} {node : String} {l : Ledger}
    (h : Ledger.open j policy node = .ok l) : Ledger.Opened j policy node l := by
  simp only [Ledger.open, bind_ok, ensure_ok, bailIf_ok, context_ok, validateRemoteNodeId_ok,
    pure_ok] at h
  obtain ⟨_, hpol, _, hnode, _, -, _, hschema, _, -, _, -, _, -, j₁, hcreate, owner, howner, _, rfl,
    _, -, _, -, _, -, _, -, rfl⟩ := h
  unfold Journal.create at hcreate
  by_cases h0 : j.version = 0
  · simp only [h0, if_true, bind_ok, bailIf_ok, ensure_ok, pure_ok] at hcreate
    obtain ⟨_, -, _, -, rfl⟩ := hcreate
    exact ⟨rfl, rfl, rfl, hpol, hnode, howner, rfl, rfl, by simp [h0], hschema⟩
  · rw [if_neg h0] at hcreate
    cases hcreate
    by_cases h2 : j.version < 2
    · simp only [h2, if_true]
      exact ⟨rfl, rfl, rfl, hpol, hnode, howner, rfl, rfl, by simp [h2], hschema⟩
    · simp only [h2, if_false]
      exact ⟨rfl, rfl, rfl, hpol, hnode, howner, rfl, rfl, by simp [h2], hschema⟩

/-- A call committed, leaving the journal `j'`. -/
inductive Ledger.Commits (l : Ledger) : LedgerOp → Journal → Prop where
  | claim {g : ExecutionGrant} {r : ClaimReadings} {j' : Journal} (h : l.Claimed g r j') :
      Commits l (.claim g r) j'
  | progress {g : ExecutionGrant} {p : PipelineProgress} {stored : Bool} {j' : Journal}
      (h : l.Observed g p j') : Commits l (.progress g p stored) j'
  | finish {g : ExecutionGrant} {report : GrantReport} {now : Nat} {stored : Bool} {j' : Journal}
      (h : l.Finished g report now j') : Commits l (.finish g report now stored) j'
  | consume {d : WorkloadDefinition} {policy : LeasePolicy} {initial : LeaseProof}
      {issuer session node : String} {r : ConsumeReadings} {j' : Journal} (h : l.Consumed d r j') :
      Commits l (.consume d policy initial issuer session node r) j'
  | append {d : WorkloadDefinition} {event : Event} {checkpoint : TakenCheckpoint}
      {r : AppendReadings} {j' : Journal} {receipt : AppendReceipt}
      (h : l.Appended d event checkpoint.value r j' receipt) :
      Commits l (.append d event checkpoint r) j'
  | refused {evidence : Evidence} {r : SaveReadings} {j₁ : Journal}
      (hj : j₁ = l.journal ∨ (l.journal.version = 4 ∨ l.journal.version = 5)
        ∧ j₁ = { l.journal with version := 5 }) (hle : max r.now 1 ≤ i64Max) :
      Commits l (.save evidence r) (j₁.updateReceipts (Journal.openWorkload evidence.contract.scope)
        fun e => { e.touch (max r.now 1) with state := .unknown })
  | save {evidence : Evidence} {r : SaveReadings} {w : WorkloadReceipt} {j' : Journal}
      (hread : l.journal.readWorkload l.nodeId (some evidence.contract.scope.issuerId)
        evidence.contract.scope.grantId = .ok w)
      (hscope : w.definition.scope = .ok evidence.contract.scope)
      (h : l.Saved evidence w r j') : Commits l (.save evidence r) j'
  | markUnknown {s : Scope} {now : Nat} {stored : Bool} (hle : max now 1 ≤ i64Max) :
      Commits l (.markUnknown s now stored) (l.journal.updateReceipts (Journal.openWorkload s)
        fun e => { e.touch (max now 1) with state := .unknown })
  | stop {s : Scope} {issuer session node : String} {r : StopReadings} {j' : Journal}
      (h : l.Stopped s r j') : Commits l (.stop s issuer session node r) j'
  | reopen {policy : GrantPolicy} {node : String} {l' : Ledger}
      (h : Ledger.Opened l.journal policy node l') : Commits l (.reopen policy node) l'.journal

/-- The journal after a call is the one before it, or the one the call committed. -/
theorem LedgerOp.run_journal (op : LedgerOp) (l : Ledger) :
    (op.run l).1.journal = l.journal ∨ l.Commits op (op.run l).1.journal := by
  have hcommit : ∀ {α : Type} (tx : Result (Journal × α)),
      (l.commit tx).1.journal = l.journal ∨ ∃ a, tx = .ok ((l.commit tx).1.journal, a) := by
    intro α tx
    cases tx with
    | error e => exact .inl rfl
    | ok p => exact .inr ⟨p.2, rfl⟩
  cases op with
  | claim g r =>
    rcases hcommit (l.claimTx g r) with h | ⟨_, h⟩
    · exact .inl h
    · exact .inr (.claim (Ledger.claimTx_ok h))
  | progress g p stored =>
    rcases hcommit (l.progressTx g p stored) with h | ⟨_, h⟩
    · exact .inl h
    · exact .inr (.progress (Ledger.progressTx_ok h))
  | finish g report now stored =>
    rcases hcommit (l.finishTx g report now stored) with h | ⟨_, h⟩
    · exact .inl h
    · exact .inr (.finish (Ledger.finishTx_ok h))
  | consume d policy initial issuer session node r =>
    rcases hcommit (l.consumeTx d policy initial issuer session node r) with h | ⟨_, h⟩
    · exact .inl h
    · exact .inr (.consume (Ledger.consumeTx_ok h))
  | append d event checkpoint r =>
    have hsame : (LedgerOp.run (.append d event checkpoint r) l).1
        = (l.commit (l.appendTx d event checkpoint.value r)).1 := by
      simp only [LedgerOp.run, Ledger.append, Prod.map, id]
      split <;> simp_all
    rw [hsame]
    rcases hcommit (l.appendTx d event checkpoint.value r) with h | ⟨_, h⟩
    · exact .inl h
    · exact .inr (.append (Ledger.appendTx_ok h))
  | save evidence r =>
    have hsame : (LedgerOp.run (.save evidence r) l).1 = (l.commit (l.saveTx evidence r)).1 := by
      simp only [LedgerOp.run, Ledger.save, Prod.map, id]
      split <;> simp_all
    rw [hsame]
    rcases hcommit (l.saveTx evidence r) with h | ⟨_, h⟩
    · exact .inl h
    · obtain ⟨w, hread, hscope, ⟨j₁, hj₁, hle, hj⟩ | hsaved⟩ := Ledger.saveTx_ok h
      · exact .inr (hj ▸ .refused hj₁ hle)
      · exact .inr (.save hread hscope hsaved)
  | markUnknown s now stored =>
    rcases hcommit (l.markUnknownTx s now stored) with h | ⟨_, h⟩
    · exact .inl h
    · obtain ⟨hle, hj⟩ := Ledger.markUnknownTx_ok h
      exact .inr (show l.Commits _ (l.commit (l.markUnknownTx s now stored)).1.journal from
        hj ▸ .markUnknown hle)
  | stop s issuer session node r =>
    have hsame : (LedgerOp.run (.stop s issuer session node r) l).1.journal
        = (l.commit (l.stopTx s issuer session node r)).1.journal := by
      simp only [LedgerOp.run, Ledger.requestStopScope, Ledger.signal, Prod.map, id]
      split
      · rename_i h
        rw [h]
        repeat' split
        all_goals rfl
      · rename_i h
        rw [h]
    rw [hsame]
    rcases hcommit (l.stopTx s issuer session node r) with h | ⟨_, h⟩
    · exact .inl h
    · rcases Ledger.stopTx_ok h with ⟨hj, -⟩ | hs
      · exact .inl hj
      · exact .inr (.stop hs)
  | watch s =>
    refine .inl ?_
    simp only [LedgerOp.run, Ledger.watchStopScope, Prod.map, id]
    repeat' split
    all_goals rfl
  | unwatch id => exact .inl rfl
  | reopen policy node =>
    simp only [LedgerOp.run]
    split
    · rename_i h
      exact .inr (.reopen (Ledger.open_ok h))
    · exact .inl rfl

end

end Eef.Node
