import Eef.Node.EventIntegrity
import Eef.Node.StopFence
import Mathlib.Algebra.Order.BigOperators.Group.List

/-!
# Journal space

Three calls insert rows: `claim`, `consume_workload` and a fresh `request_stop_scope`.
Each adds up what the file takes, what is promised to accepted receipts and what the
call itself needs, and compares the sum with `max_journal_bytes`. The sum is written
twice in the source, in `check_receipt_budget` and in `request_stop_scope`, and the
second copy leaves the event reservations out.

`LedgerOp.WithinBudget` is the sum over all promises. `journal_budget_iff` says when a
call keeps to it whatever the size of the file: always, unless it is a stop and some
accepted workload has events reserved. `stop_over_budget` is such a stop.
-/

namespace Eef.Node

open Eef.Lib

/-! ## Saturating sums -/

theorem satAdd_satAdd (a b c : Nat) : satAdd (satAdd a b) c = satAdd (a + b) c := by
  simp only [satAdd]
  omega

theorem satAdd_satMul (a b c : Nat) : satAdd (satMul a b) c = satAdd (a * b) c := by
  simp only [satAdd, satMul]
  omega

theorem satAdd_satMul_right (a b c : Nat) : satAdd a (satMul b c) = satAdd a (b * c) := by
  simp only [satAdd, satMul]
  omega

/-- Below the largest word a saturating sum is the sum. -/
theorem satAdd_le {a b m : Nat} (hm : m < u64Max) : satAdd a b ≤ m ↔ a + b ≤ m := by
  simp only [satAdd]
  omega

/-- The last whole number of pages that fits. -/
theorem exists_pages {size : Nat} (hsize : 0 < size) (room : Nat) :
    ∃ pages, pages * size ≤ room ∧ room < pages * size + size :=
  ⟨room / size, Nat.div_mul_le_self _ _, Nat.lt_div_mul_add hsize⟩

theorem exists_mem_of_sum_pos {l : List Nat} (h : 0 < l.sum) : ∃ n, n ∈ l := by
  cases l with
  | nil => cases h
  | cons n _ => exact ⟨n, List.mem_cons_self⟩

/-! ## What is promised -/

namespace Journal

/-- The accepted pipelines with an observation. -/
def pipelines (j : Journal) : Nat :=
  ((j.progress.getD []).flatMap fun p => j.receipts.filter fun r =>
    r.grantId = p.grantId ∧ r.state = .accepted ∧ 0 < r.maxResultBytes).length

/-- Everything promised to accepted receipts. -/
def outstanding (j : Journal) : Nat :=
  j.reportsReserved + j.pipelines * journalReservation + j.eventsReserved

theorem progressReserved_eq (j : Journal) :
    j.progressReserved = satMul j.pipelines journalReservation := rfl

theorem eventReserved_ok {j : Journal} {n : Nat} (h : j.eventReserved = .ok n) :
    n = j.eventsReserved := by
  simp only [eventReserved, bind_ok] at h
  obtain ⟨_, hschema, h⟩ := h
  split at h
  · rename_i hv
    -- before version 4 there are no event tables
    have hnone : j.eventTables = none := by
      have := (validateSchema_ok.mp hschema).2
      rw [← Option.not_isSome_iff_eq_none, this]
      omega
    rw [← pure_ok.mp h, eventsReserved, hnone]
  · exact (toI64_ok.mp h).2.symm

theorem checkReceiptBudget_le {j : Journal} {policy : GrantPolicy}
    {pages resultBytes definitionBytes : Nat} {pipeline : Bool}
    (hmax : policy.maxJournalBytes < u64Max)
    (h : j.checkReceiptBudget policy pages resultBytes definitionBytes pipeline = .ok ()) :
    pages * j.pageSize + j.outstanding + (resultBytes + definitionBytes + reportHeadroom
      + (if pipeline then journalReservation else 0) + 4 * j.pageSize) ≤ policy.maxJournalBytes := by
  simp only [checkReceiptBudget, bind_ok, bailIf_ok, toI64_ok] at h
  obtain ⟨_, ⟨-, rfl⟩, events, hevents, hbudget⟩ := h
  push Not at hbudget
  have hle := hbudget.2
  rw [eventReserved_ok hevents] at hle
  simp only [progressReserved_eq, satAdd_satAdd, satAdd_satMul, satAdd_satMul_right,
    satAdd_le hmax] at hle
  rw [outstanding]
  omega

end Journal

namespace Ledger

/-- What the stop's own copy of the sum compares. -/
theorem stopTotal_le {j : Journal} {pages total m : Nat} (hmax : m < u64Max)
    (h : stopTotal j pages = .ok total) : total ≤ m ↔
      pages * j.pageSize + (j.reportsReserved + j.pipelines * journalReservation) + 8 * j.pageSize
        ≤ m := by
  simp only [stopTotal, bind_ok, toI64_ok, pure_ok] at h
  obtain ⟨_, ⟨-, rfl⟩, rfl⟩ := h
  simp only [Journal.progressReserved_eq, satAdd_satAdd, satAdd_satMul, satAdd_satMul_right,
    satAdd_le hmax]
  omega

end Ledger

section
variable [F64] [Sha256]

omit [F64] [Sha256] in
theorem Journal.reservation_ok {j : Journal} {d : WorkloadDefinition} {n : Nat}
    (h : j.reservation d = .ok n) : 0 < j.pageSize ∧ 8 * j.pageSize ≤ n := by
  simp only [Journal.reservation, bind_ok, ensure_ok, pure_ok] at h
  obtain ⟨_, ⟨hpos, -⟩, _, -, rfl⟩ := h
  exact ⟨hpos, Nat.le_add_left _ _⟩

/-- An accepted workload has at least eight pages reserved. -/
theorem WorkloadsInv.eventsReserved_ge {j : Journal} (h : WorkloadsInv j)
    (hids : Table.Keyed ReceiptRow.grantId j.receipts) (hpos : 0 < j.eventsReserved) :
    0 < j.pageSize ∧ 8 * j.pageSize ≤ j.eventsReserved := by
  unfold Journal.eventsReserved at hpos ⊢
  cases ht : j.eventTables with
  | none => simp [ht] at hpos
  | some t =>
    simp only [ht] at hpos ⊢
    obtain ⟨n, hn⟩ := exists_mem_of_sum_pos hpos
    simp only [List.mem_flatMap, List.mem_map, List.mem_filter, decide_eq_true_eq] at hn
    obtain ⟨s, hs, r, ⟨hr, hid, hopen⟩, -⟩ := hn
    obtain ⟨r', hr', hid', hkind, -⟩ := h.states s (by rw [Journal.tables_some ht]; exact hs)
    obtain rfl : r' = r := hids.eq hr' hr (hid'.trans hid.symm)
    -- the row of the state table its log is kept in
    obtain ⟨d, log, hd⟩ := h.workloads r' hr hkind
    obtain ⟨reserved, hres, hfind⟩ := hd.holds.state
    rw [Journal.eventStateRow_tables, Journal.tables_some ht] at hfind
    obtain ⟨hmem, -⟩ := Table.find_some hfind
    obtain ⟨hpage, hge⟩ := Journal.reservation_ok hres
    refine ⟨hpage, hge.trans (List.le_sum_of_mem ?_)⟩
    simp only [List.mem_flatMap, List.mem_map, List.mem_filter, decide_eq_true_eq]
    exact ⟨_, hmem, r', ⟨hr, hd.grantId, hopen⟩, rfl⟩

end

/-! ## Calls that insert -/

section
variable [F64] [Sha256] [PeerAdmission]

namespace LedgerOp

/-- The page count a call reads. -/
def pages : LedgerOp → Nat
  | .claim _ r => r.pages
  | .consume _ _ _ _ _ _ r => r.pages
  | .stop _ _ _ _ r => r.pages
  | _ => 0

/-- The call on a file of another size. -/
def withPages (op : LedgerOp) (pages : Nat) : LedgerOp :=
  match op with
  | .claim g r => .claim g { r with pages }
  | .consume d policy initial issuer session node r =>
    .consume d policy initial issuer session node { r with pages }
  | .stop s issuer session node r => .stop s issuer session node { r with pages }
  | op => op

/-- The call is a stop. -/
def isStop : LedgerOp → Bool
  | .stop .. => true
  | _ => false

/-- What the call itself needs. -/
def cost (op : LedgerOp) (j : Journal) : Nat :=
  match op with
  | .claim g _ => g.limits.maxResultBytes + reportHeadroom
      + (if g.capability = "pipeline.run" then journalReservation else 0) + 4 * j.pageSize
  | .consume d _ _ _ _ _ _ => d.events.maxTotalBytes
      + (d.toJson.size + (j.reservation d).toOption.getD 0) + reportHeadroom + 4 * j.pageSize
  | .stop .. => 8 * j.pageSize
  | _ => 0

/-- The call succeeds and inserts a row. -/
def Inserts (op : LedgerOp) (l : Ledger) : Prop :=
  match op with
  | .claim g r => ((LedgerOp.claim g r).run l).2 = true
  | .consume d policy initial issuer session node r =>
    ((LedgerOp.consume d policy initial issuer session node r).run l).2 = true
  | .stop s issuer session node r =>
    ((LedgerOp.stop s issuer session node r).run l).2 = true ∧ l.journal.stop s.grantId = none
  | _ => False

/-- The file, everything promised and the call's own needs fit the policy. -/
def WithinBudget (op : LedgerOp) (l : Ledger) : Prop :=
  op.pages * l.journal.pageSize + l.journal.outstanding + op.cost l.journal
    ≤ l.policy.maxJournalBytes

end LedgerOp

omit [F64] [Sha256] [PeerAdmission] in
theorem Ledger.commit_isOk {α : Type} {l : Ledger} {tx : Result (Journal × α)}
    (h : isOk (l.commit tx).2 = true) : ∃ j a, tx = .ok (j, a) := by
  cases tx with
  | error e => cases h
  | ok p => exact ⟨p.1, p.2, rfl⟩

omit [F64] [Sha256] [PeerAdmission] in
theorem GrantPolicy.maxJournalBytes_lt {p : GrantPolicy} (h : p.validate = .ok ()) :
    p.maxJournalBytes < u64Max := by
  simp only [GrantPolicy.validate, ensure_ok] at h
  obtain ⟨-, ⟨-, hle⟩, -⟩ := h
  exact Nat.lt_of_le_of_lt hle (by decide)

/-- A committed claim keeps to the budget. -/
theorem Ledger.Claimed.within {l : Ledger} (hl : LedgerInv l) {g : ExecutionGrant}
    {r : ClaimReadings} {j' : Journal} (hc : l.Claimed g r j') :
    (LedgerOp.claim g r).WithinBudget l := by
  have hle := Journal.checkReceiptBudget_le (GrantPolicy.maxJournalBytes_lt hl.policy) hc.budget
  have hbase : (l.claimBase g).pageSize = l.journal.pageSize
      ∧ (l.claimBase g).outstanding = l.journal.outstanding := by
    unfold Ledger.claimBase
    split
    · exact ⟨rfl, rfl⟩
    · exact ⟨rfl, rfl⟩
  rw [hbase.1, hbase.2] at hle
  simp only [decide_eq_true_eq] at hle
  exact hle

omit [PeerAdmission] in
/-- A committed consumption keeps to the budget. -/
theorem Ledger.Consumed.within {l : Ledger} (hl : LedgerInv l) {d : WorkloadDefinition}
    {policy : LeasePolicy} {initial : LeaseProof} {issuer session node : String}
    {r : ConsumeReadings} {j' : Journal} (hc : l.Consumed d r j') :
    (LedgerOp.consume d policy initial issuer session node r).WithinBudget l := by
  obtain ⟨j₁, reserved, t, hup, hres, hbudget, -, -, -, -⟩ := hc.writes
  have hle := Journal.checkReceiptBudget_le (GrantPolicy.maxJournalBytes_lt hl.policy) hbudget
  obtain ⟨hu, hcase⟩ := Journal.upgrade_ok hup
  rw [Journal.reservation_eq hu.pageSize] at hres
  have hout : l.journal.outstanding ≤ j₁.outstanding := by
    have hreports : j₁.reportsReserved = l.journal.reportsReserved := by
      rw [Journal.reportsReserved, Journal.reportsReserved, hu.receipts, hu.pageSize]
    have hpipes : j₁.pipelines = l.journal.pipelines := by
      rw [Journal.pipelines, Journal.pipelines, hu.receipts, hu.progress]
    have hevents : l.journal.eventsReserved ≤ j₁.eventsReserved := by
      rcases hcase with ⟨-, rfl⟩ | ⟨hv, -, -⟩
      · exact Nat.le_refl _
      · have hnone : l.journal.eventTables = none := by
          have := (Journal.validateSchema_ok.mp hl.workloads.schema).2
          rw [← Option.not_isSome_iff_eq_none, this]
          omega
        rw [Journal.eventsReserved, hnone]
        exact Nat.zero_le _
    rw [Journal.outstanding, Journal.outstanding, hreports, hpipes]
    omega
  simp only [LedgerOp.WithinBudget, LedgerOp.pages, LedgerOp.cost, hres, Except.toOption,
    Option.getD_some]
  rw [hu.pageSize] at hle
  simp only [Bool.false_eq_true, if_false] at hle
  omega

omit [F64] [Sha256] [PeerAdmission] in
/-- The page count only enters a stop through the sum. -/
theorem Ledger.freshStopTx_pages {l : Ledger} {s : Scope} {r : StopReadings}
    {x : Journal × StopReport} (h : l.freshStopTx s r = .ok x) {pages total : Nat}
    (htotal : stopTotal l.journal pages = .ok total) (hle : total ≤ l.policy.maxJournalBytes) :
    l.freshStopTx s { r with pages } = .ok x := by
  simp only [freshStopTx, bind_ok, bailIf_ok] at h ⊢
  obtain ⟨_, hdigest, _, -, _, hquota, hrest⟩ := h
  refine ⟨(), hdigest, total, htotal, (), ?_, hrest⟩
  rintro (hfull | hlt)
  · exact hquota (.inl hfull)
  · omega

omit [F64] [Sha256] [PeerAdmission] in
theorem Ledger.stopTotal_exists {j : Journal} {pages total : Nat} (h : stopTotal j pages = .ok total)
    (pages' : Nat) : ∃ total', stopTotal j pages' = .ok total' := by
  simp only [stopTotal, bind_ok, toI64_ok, pure_ok] at h ⊢
  obtain ⟨_, hreserved, -⟩ := h
  exact ⟨_, _, hreserved, rfl⟩

/-- A successful fresh stop passed its own sum. -/
theorem LedgerOp.Inserts.stop_tx {l : Ledger} {s : Scope} {issuer session node : String}
    {r : StopReadings} (h : (LedgerOp.stop s issuer session node r).Inserts l) :
    ∃ j' report total, l.stopTx s issuer session node r = .ok (j', report)
      ∧ l.freshStopTx s r = .ok (j', report) ∧ Ledger.stopTotal l.journal r.pages = .ok total
      ∧ total ≤ l.policy.maxJournalBytes := by
  obtain ⟨hok, hnew⟩ := h
  cases htx : l.stopTx s issuer session node r with
  | error e => simp [LedgerOp.run, Ledger.requestStopScope, Ledger.commit, htx, isOk] at hok
  | ok x =>
    obtain ⟨j', report⟩ := x
    have hfresh : l.freshStopTx s r = .ok (j', report) := by
      simp only [Ledger.stopTx, bind_ok] at htx
      obtain ⟨_, -, _, -, read, hread, htx⟩ := htx
      rcases Journal.readStop_ok.mp hread with ⟨-, rfl⟩ | ⟨t, ht, -, -⟩
      · exact htx
      · rw [hnew] at ht
        cases ht
    rcases Ledger.stopTx_ok htx with ⟨-, t, ht, -⟩ | hs
    · rw [hnew] at ht
      cases ht
    · obtain ⟨total, htotal, hle⟩ := hs.total
      exact ⟨j', report, total, rfl, hfresh, htotal, hle⟩

/-- A fresh stop goes through on every file its own sum has room for. -/
theorem LedgerOp.Inserts.stop_pages {l : Ledger} {s : Scope} {issuer session node : String}
    {r : StopReadings} (h : (LedgerOp.stop s issuer session node r).Inserts l) {pages total : Nat}
    (htotal : Ledger.stopTotal l.journal pages = .ok total)
    (hle : total ≤ l.policy.maxJournalBytes) :
    (LedgerOp.stop s issuer session node { r with pages }).Inserts l := by
  obtain ⟨j', report, _, htx, hfresh, -, -⟩ := h.stop_tx
  obtain ⟨hok, hnew⟩ := h
  have htx' : l.stopTx s issuer session node { r with pages } = .ok (j', report) := by
    have hagain := Ledger.freshStopTx_pages hfresh htotal hle
    simp only [Ledger.stopTx, bind_ok] at htx ⊢
    obtain ⟨_, hvalid, _, hscope, read, hread, htx⟩ := htx
    refine ⟨(), hvalid, (), hscope, read, hread, ?_⟩
    rcases Journal.readStop_ok.mp hread with ⟨-, rfl⟩ | ⟨t, ht, -, -⟩
    · exact hagain
    · rw [hnew] at ht
      cases ht
  refine ⟨?_, hnew⟩
  simp only [LedgerOp.run, Ledger.requestStopScope, Ledger.commit, htx, htx'] at hok ⊢
  exact hok

/-- **The journal budget.** A call that inserts a row on a reachable ledger keeps to the
budget on a file of any size if and only if it is not a stop or no events are
reserved. -/
theorem journal_budget_iff {l : Ledger} (hl : l.Reachable) {op : LedgerOp}
    (hins : op.Inserts l) :
    (∀ pages, (op.withPages pages).Inserts l → (op.withPages pages).WithinBudget l) ↔
      (op.isStop = true → l.journal.eventsReserved = 0) := by
  have hinv := hl.inv
  cases op with
  | claim g r =>
    refine ⟨fun _ (h : false = true) => (nomatch h), fun _ pages h => ?_⟩
    obtain ⟨j', u, htx⟩ := Ledger.commit_isOk h
    exact (Ledger.claimTx_ok htx).within hinv
  | consume d policy initial issuer session node r =>
    refine ⟨fun _ (h : false = true) => (nomatch h), fun _ pages h => ?_⟩
    obtain ⟨j', c, htx⟩ := Ledger.commit_isOk h
    exact (Ledger.consumeTx_ok htx).within hinv
  | stop s issuer session node r =>
    have hmax := GrantPolicy.maxJournalBytes_lt hinv.policy
    constructor
    · intro hall _
      by_contra hne
      obtain ⟨hpage, hge⟩ := hinv.workloads.eventsReserved_ge hinv.receipts.ids
        (Nat.pos_of_ne_zero hne)
      obtain ⟨_, _, total, -, -, htotal, hle⟩ := hins.stop_tx
      rw [Ledger.stopTotal_le hmax htotal] at hle
      -- the largest file the stop's own sum has room for
      obtain ⟨pages, hfits, hfull⟩ := exists_pages hpage (l.policy.maxJournalBytes
        - (l.journal.reportsReserved + l.journal.pipelines * journalReservation)
        - 8 * l.journal.pageSize)
      obtain ⟨total', htotal'⟩ := Ledger.stopTotal_exists htotal pages
      have hover := hall pages (hins.stop_pages htotal' (by
        rw [Ledger.stopTotal_le hmax htotal']
        omega))
      simp only [LedgerOp.WithinBudget, LedgerOp.withPages, LedgerOp.pages, LedgerOp.cost,
        Journal.outstanding] at hover
      omega
    · intro hnone pages h
      obtain ⟨_, _, total, -, -, htotal, hle⟩ := h.stop_tx
      rw [Ledger.stopTotal_le hmax htotal] at hle
      simp only [LedgerOp.WithinBudget, LedgerOp.withPages, LedgerOp.pages, LedgerOp.cost,
        Journal.outstanding, hnone rfl]
      omega
  | progress g p stored => cases hins
  | finish g report now stored => cases hins
  | append d event checkpoint r => cases hins
  | save evidence r => cases hins
  | markUnknown s now stored => cases hins
  | watch s => cases hins
  | unwatch id => cases hins
  | reopen policy node => cases hins

end

/-! The sample workload is accepted and has 44 pages reserved for its events. Another
grant is stopped on a file that leaves less than that: the stop succeeds. -/

section
attribute [local instance] F64.bits PeerAdmission.never eventSha

/-- A stop of the sample grant on a file of 2000 pages. -/
@[reducible]
def tightStop : LedgerOp :=
  .stop sampleScope sampleScope.issuerId sampleScope.sessionId sampleScope.executorNode
    ⟨2000, 2000, true, true⟩

/-- The stop, which that ledger records. -/
theorem tightStop_inserts : tightStop.Inserts workloadLedger := ⟨by decide +kernel, rfl⟩

/-- That file has no page left for it, and the ledger has events to report. -/
theorem tightStop_over : workloadLedger.policy.maxJournalBytes
      < tightStop.pages * workloadLedger.journal.pageSize + workloadLedger.journal.outstanding
        + tightStop.cost workloadLedger.journal
    ∧ workloadLedger.journal.eventsReserved ≠ 0 := by
  decide +kernel

theorem stop_over_budget : workloadLedger.Reachable ∧ tightStop.Inserts workloadLedger
    ∧ ¬tightStop.WithinBudget workloadLedger := by
  refine ⟨workloadLedger_reachable, tightStop_inserts, ?_⟩
  unfold LedgerOp.WithinBudget
  exact not_le.mpr tightStop_over.1

theorem journal_budget_tight : ¬∀ pages, (tightStop.withPages pages).Inserts workloadLedger →
    (tightStop.withPages pages).WithinBudget workloadLedger := by
  rw [journal_budget_iff workloadLedger_reachable tightStop_inserts]
  exact fun h => tightStop_over.2 (h rfl)

end

end Eef.Node
