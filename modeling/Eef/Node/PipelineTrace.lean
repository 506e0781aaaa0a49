import Eef.Node.WorkloadInv

/-!
# The observations of one pipeline

What a consumed pipeline leaves behind is a trace: the observation its claim writes, then every
observation the ledger accepts for it. `Legal` is the shape such a trace has, and `Follows` the
one step that keeps it. The ledger checks neither: it compares a sequence number, a phase and a
count of steps, and `follows_iff` says that this is the same.

`Traced` is the invariant of a run that consumed the grant, under every call of the ledger: the
stored observation is the last of the trace, and while the receipt is accepted its update time is
that of the observation. `Traced.accepts` is the other direction: what may follow, no earlier, is
accepted.
-/

namespace Eef.Node

open Eef.Lib

/-! ## The shape of a trace -/

/-- The observations of the first `n` steps, each started and completed. -/
def rounds (n : Nat) : List (Phase × Nat) :=
  (List.range n).flatMap fun i => [(.starting, i), (.completed, i)]

/-- The traces of a pipeline of `total` steps. -/
inductive Legal (total : Nat) : List (Phase × Nat) → Prop
  | between (n : Nat) (h : n ≤ total) : Legal total ((.pending, 0) :: rounds n)
  | running (n : Nat) (h : n < total) :
      Legal total ((.pending, 0) :: rounds n ++ [(.starting, n)])
  | failed (n : Nat) (h : n < total) :
      Legal total ((.pending, 0) :: rounds n ++ [(.starting, n), (.failed, n)])

/-- What may come next. -/
inductive Follows (total : Nat) : Phase × Nat → Phase × Nat → Prop
  | first (h : 0 < total) : Follows total (.pending, 0) (.starting, 0)
  | completed (i : Nat) : Follows total (.starting, i) (.completed, i)
  | failed (i : Nat) : Follows total (.starting, i) (.failed, i)
  | next (i : Nat) (h : i + 1 < total) : Follows total (.completed, i) (.starting, i + 1)

theorem follows_cases {total : Nat} {a b : Phase} {i j : Nat} : Follows total (a, i) (b, j) ↔
    (a = .pending ∧ b = .starting ∧ i = 0 ∧ j = 0 ∧ 0 < total) ∨
    (a = .starting ∧ (b = .completed ∨ b = .failed) ∧ j = i) ∨
    (a = .completed ∧ b = .starting ∧ j = i + 1 ∧ i + 1 < total) := by
  constructor
  · intro h
    cases h with
    | first h => exact .inl ⟨rfl, rfl, rfl, rfl, h⟩
    | completed => exact .inr (.inl ⟨rfl, .inl rfl, rfl⟩)
    | failed => exact .inr (.inl ⟨rfl, .inr rfl, rfl⟩)
    | next _ h => exact .inr (.inr ⟨rfl, rfl, rfl, h⟩)
  · rintro (⟨rfl, rfl, rfl, rfl, h⟩ | ⟨rfl, rfl | rfl, rfl⟩ | ⟨rfl, rfl, rfl, h⟩)
    · exact .first h
    · exact .completed _
    · exact .failed _
    · exact .next _ h

theorem rounds_succ (n : Nat) : rounds (n + 1) = rounds n ++ [(.starting, n), (.completed, n)] := by
  unfold rounds
  rw [List.range_succ, List.flatMap_append]
  rfl

/-- The last observation after whole rounds. -/
theorem getLast?_rounds (n : Nat) : ((Phase.pending, 0) :: rounds n).getLast? =
    some (if n = 0 then (.pending, 0) else (.completed, n - 1)) := by
  cases n with
  | zero => rfl
  | succ n =>
    rw [rounds_succ, ← List.cons_append, List.getLast?_append, if_neg (Nat.succ_ne_zero n)]
    rfl

theorem Legal.head {total : Nat} {events : List (Phase × Nat)} (h : Legal total events) :
    events.head? = some (.pending, 0) := by
  cases h <;> rfl

/-- A legal trace stays legal under what may come next. -/
theorem Legal.snoc {total : Nat} {events : List (Phase × Nat)} {last event : Phase × Nat}
    (h : Legal total events) (hlast : events.getLast? = some last)
    (hnext : Follows total last event) : Legal total (events ++ [event]) := by
  cases h with
  | between n hn =>
    rw [getLast?_rounds] at hlast
    have hlast := Option.some.inj hlast
    by_cases h0 : n = 0
    · rw [if_pos h0] at hlast
      rw [← hlast] at hnext
      rw [h0]
      cases hnext with
      | first hpos => exact .running 0 hpos
    · rw [if_neg h0] at hlast
      rw [← hlast] at hnext
      have hn1 : n - 1 + 1 = n := by omega
      cases hnext with
      | next i hlt =>
        rw [hn1] at hlt ⊢
        exact .running n hlt
  | running n hn =>
    rw [List.getLast?_append] at hlast
    have hlast : (Phase.starting, n) = last := Option.some.inj hlast
    rw [← hlast] at hnext
    cases hnext with
    | completed i =>
      have hround := rounds_succ n
      have hlegal : Legal total _ := .between (n + 1) hn
      rw [hround] at hlegal
      rw [List.append_assoc]
      exact hlegal
    | failed i =>
      rw [List.append_assoc]
      exact .failed n hn
  | failed n hn =>
    rw [List.getLast?_append] at hlast
    have hlast : (Phase.failed, n) = last := Option.some.inj hlast
    rw [← hlast] at hnext
    cases hnext

namespace PipelineProgress

/-- What an observation says: its phase and the step it is about. -/
def event (p : PipelineProgress) : Phase × Nat := (p.phase, p.index)

/-- An observation that ends its pipeline: a failure, or the last completion. -/
def Ended (p : PipelineProgress) : Prop :=
  p.phase = .failed ∨ (p.phase = .completed ∧ p.completedSteps = p.totalSteps)

/-- The sequence check of the ledger is the order of the phases. -/
theorem follows_iff {p q : PipelineProgress} (hp : p.consistent) (hq : q.consistent)
    (hpos : 0 < q.totalSteps) (hle : q.completedSteps ≤ q.totalSteps)
    (htotal : p.totalSteps = q.totalSteps) : Follows q.totalSteps q.event p.event ↔
      ¬q.Ended ∧ p.phase ≠ .pending ∧ p.sequence = q.sequence + 1 := by
  unfold consistent at hp hq
  unfold event index Ended
  rw [follows_cases]
  cases hqp : q.phase <;> cases hpp : p.phase <;>
    simp only [hqp, hpp, reduceCtorEq, false_and, true_and, and_false, or_false, false_or, false_iff,
      or_self, ne_eq, not_true_eq_false, not_false_eq_true] at hp hq ⊢
  all_goals omega

end PipelineProgress

/-! ## What the other calls leave alone -/

/-- What a call about other things leaves of a grant's receipt and observation. -/
structure Left (id : String) (j j' : Journal) : Prop where
  row : ∀ r, j.receipt id = some r → r.kind = .operation → ∃ r', j'.receipt id = some r' ∧
    r'.fixed = r.fixed ∧ r.updatedMs ≤ r'.updatedMs ∧ (r'.state = .accepted → r' = r)
  observation : ∀ o, j.observation id = some o → j'.observation id = some o

namespace Left

variable {id : String} {j j' : Journal}

theorem refl (id : String) (j : Journal) : Left id j j :=
  ⟨fun r hr _ => ⟨r, hr, rfl, Nat.le_refl _, fun _ => rfl⟩, fun _ ho => ho⟩

/-- Adding rows changes nothing of what is there. -/
theorem insert {r₀ : ReceiptRow} (hrows : j'.receipts = j.receipts ++ [r₀])
    (hobs : ∀ o, j.observation id = some o → j'.observation id = some o) : Left id j j' := by
  refine ⟨fun r hr _ => ⟨r, ?_, rfl, Nat.le_refl _, fun _ => rfl⟩, hobs⟩
  unfold Journal.receipt at hr ⊢
  rw [hrows, Table.find_insert, hr, Option.some_or]

/-- Closing rows, none of them an open operation under this id, or closing it. -/
theorem update {p : ReceiptRow → Bool} {f : ReceiptRow → ReceiptRow}
    (hrows : j'.receipts = Table.update p f j.receipts) (hid : ∀ r, (f r).grantId = r.grantId)
    (hf : ∀ r ∈ j.receipts, r.grantId = id → r.kind = .operation → p r = true →
      (f r).fixed = r.fixed ∧ r.updatedMs ≤ (f r).updatedMs ∧ (f r).state ≠ .accepted)
    (hobs : j'.progress = j.progress) : Left id j j' := by
  refine ⟨fun r hr hkind => ?_, fun o ho => ?_⟩
  · obtain ⟨hmem, hkey⟩ := Table.find_some hr
    refine ⟨if p r then f r else r, ?_, ?_⟩
    · unfold Journal.receipt at hr ⊢
      rw [hrows, Table.find_update hid, hr, Option.map_some]
    · by_cases hp : p r = true
      · obtain ⟨hfixed, hle, hclosed⟩ := hf r hmem hkey hkind hp
        rw [if_pos hp]
        exact ⟨hfixed, hle, fun hopen => absurd hopen hclosed⟩
      · rw [if_neg hp]
        exact ⟨rfl, Nat.le_refl _, fun _ => rfl⟩
  · unfold Journal.observation at ho ⊢
    rw [hobs]
    exact ho

end Left

/-- The observations are unique by grant. -/
def Journal.ObservedOnce (j : Journal) : Prop :=
  Table.Keyed ProgressRow.grantId (j.progress.getD [])

theorem Journal.observation_table {j : Journal} {id : String} :
    j.observation id = Table.find ProgressRow.grantId id (j.progress.getD []) := by
  unfold Journal.observation
  cases j.progress <;> rfl

section
variable [F64] [Sha256] [PeerAdmission]

/-- A call that is not an observation of this grant leaves its receipt and observation, unless it
ends the grant. -/
theorem Ledger.Commits.leaves {l : Ledger} (hinv : LedgerInv l) {op : LedgerOp} {j' : Journal}
    (hc : l.Commits op j') {id : String}
    (hother : ∀ g p stored, op = .progress g p stored → g.grantId ≠ id) :
    Left id l.journal j' := by
  -- the workload statements select rows of the other kind
  have hworkload : ∀ {s : Scope} {r : ReceiptRow}, r.kind = .operation →
      Journal.openWorkload s r ≠ true := by
    intro s r hkind hp
    have hkind' := (of_decide_eq_true hp).2.2.2
    rw [hkind] at hkind'
    cases hkind'
  cases hc with
  | @claim g r _ hc =>
    have hf := hc.frame
    refine Left.insert hf.receipts fun o ho => ?_
    rw [Journal.observation_table] at ho ⊢
    rcases hf.progress with ⟨-, hp⟩ | ⟨_, -, -, -, -, hp⟩
    · rw [hp]
      exact ho
    · rw [hp, Option.getD_some, Table.find_insert, ho, Option.some_or]
  | @progress g p stored _ hc =>
    obtain ⟨receipt, rows, -, -, hrows, -, rfl⟩ := hc.writes
    have hne := hother g p stored rfl
    refine ⟨fun r hr hkind => ⟨r, ?_, rfl, Nat.le_refl _, fun _ => rfl⟩, fun o ho => ?_⟩
    · show Table.find ReceiptRow.grantId id (Table.update _ _ _) = some r
      refine (Table.find_update (fun _ => ?_) _ _).trans ?_
      · rfl
      have hr' : Table.find ReceiptRow.grantId id l.journal.receipts = some r := hr
      rw [hr', Option.map_some, if_neg]
      intro hp
      exact hne ((of_decide_eq_true hp).1.symm.trans (Table.find_some hr).2)
    · rw [Journal.observation_table] at ho ⊢
      rw [hrows, Option.getD_some] at ho
      show Table.find ProgressRow.grantId id (Table.update _ _ rows) = some o
      refine (Table.find_update (fun _ => ?_) _ _).trans ?_
      · rfl
      rw [ho, Option.map_some, if_neg]
      intro hp
      exact hne ((of_decide_eq_true hp).1.symm.trans (Table.find_some ho).2)
  | @finish g report now stored _ hc =>
    rw [hc.writes]
    refine Left.update rfl (fun _ => rfl) (fun r _ _ _ _ => ?_) rfl
    refine ⟨rfl, ?_, ?_⟩
    · show r.updatedMs ≤ max (max r.updatedMs r.acceptedMs) now
      omega
    · rcases hc.state with hs | hs
      · exact fun hopen => ReceiptState.noConfusion (hopen.symm.trans hs)
      · exact fun hopen => ReceiptState.noConfusion (hopen.symm.trans hs)
  | consume hc =>
    obtain ⟨j₁, _, _, hup, -, -, -, -, -, rfl⟩ := hc.writes
    have hprogress : j₁.progress = l.journal.progress := (Journal.upgrade_ok hup).1.progress
    refine Left.insert rfl fun o ho => ?_
    unfold Journal.observation at ho ⊢
    rw [hprogress]
    exact ho
  | @append d event checkpoint r _ receipt hc =>
    obtain ⟨w, saved, hread, hdef, -, -, ⟨-, rfl, -⟩ | ⟨-, record, -, hw, -⟩⟩ := hc.writes
    · exact .refl id _
    · obtain ⟨-, -, t, -, -, rfl⟩ := Ledger.appendWrite_ok hw
      obtain ⟨row, log, hrow, hd, -, -⟩ := hinv.workloads.read_core hread
      refine Left.update rfl (fun _ => rfl) ?_ rfl
      intro r hr _ hkind hp
      -- an event is of a workload
      have hsame : r = row := hinv.receipts.ids.eq hr (Table.find_some hrow).1
        ((of_decide_eq_true hp).1.trans (Table.find_some hrow).2.symm)
      rw [hsame, hd.kind] at hkind
      cases hkind
  | refused hj hle =>
    rcases hj with rfl | ⟨-, rfl⟩
    · exact Left.update rfl (fun _ => rfl) (fun r _ _ hkind hp => absurd hp (hworkload hkind)) rfl
    · exact Left.update rfl (fun _ => rfl) (fun r _ _ hkind hp => absurd hp (hworkload hkind)) rfl
  | save hread hscope hc =>
    obtain ⟨_, _, _, _, _, _, -, -, -, -, -, -, rfl⟩ := hc.writes
    refine Left.update rfl (fun _ => rfl) ?_ rfl
    intro r _ _ hkind hp
    have hkind' := (of_decide_eq_true hp).2.2.2.1
    rw [hkind] at hkind'
    cases hkind'
  | markUnknown hle =>
    exact Left.update rfl (fun _ => rfl) (fun r _ _ hkind hp => absurd hp (hworkload hkind)) rfl
  | stop hc =>
    rcases hc.writes with ⟨_, -, -, rfl⟩ | ⟨-, -, -, rfl⟩
    · exact ⟨fun r hr _ => ⟨r, hr, rfl, Nat.le_refl _, fun _ => rfl⟩, fun _ ho => ho⟩
    · exact Left.insert rfl fun o ho => ho
  | reopen hc =>
    have hj := hc.journal
    rw [if_neg (by have := hinv.workloads.version; omega)] at hj
    rw [hj]
    exact .refl id _

theorem Ledger.Commits.observedOnce {l : Ledger} (hinv : LedgerInv l) {op : LedgerOp}
    {j' : Journal} (hc : l.Commits op j') (h : l.journal.ObservedOnce) : j'.ObservedOnce := by
  have hkeep : ∀ {k : Journal}, k.progress = l.journal.progress → k.ObservedOnce := by
    intro k hk
    rw [Journal.ObservedOnce, hk]
    exact h
  cases hc with
  | claim hc =>
    rcases hc.frame.progress with ⟨-, hp⟩ | ⟨_, -, -, -, hnew, hp⟩
    · exact hkeep hp
    · rw [Journal.ObservedOnce, hp, Option.getD_some]
      exact Table.Keyed.insert h (Table.find_none.mpr hnew)
  | progress hc =>
    obtain ⟨receipt, rows, -, -, hrows, -, rfl⟩ := hc.writes
    have hrows' : Table.Keyed ProgressRow.grantId rows := by
      rw [Journal.ObservedOnce, hrows] at h
      exact h
    exact hrows'.update fun _ => rfl
  | finish hc =>
    rw [hc.writes]
    exact hkeep rfl
  | consume hc =>
    obtain ⟨j₁, _, _, hup, -, -, -, -, -, rfl⟩ := hc.writes
    exact hkeep (Journal.upgrade_ok hup).1.progress
  | append hc =>
    obtain ⟨w, saved, -, -, -, -, ⟨-, rfl, -⟩ | ⟨-, record, -, hw, -⟩⟩ := hc.writes
    · exact h
    · obtain ⟨-, -, t, -, -, rfl⟩ := Ledger.appendWrite_ok hw
      exact hkeep rfl
  | refused hj hle => rcases hj with rfl | ⟨-, rfl⟩ <;> exact hkeep rfl
  | save hread hscope hc =>
    obtain ⟨_, _, _, _, _, _, -, -, -, -, -, -, rfl⟩ := hc.writes
    exact hkeep rfl
  | markUnknown hle => exact hkeep rfl
  | stop hc => rcases hc.writes with ⟨_, -, -, rfl⟩ | ⟨-, -, -, rfl⟩ <;> exact hkeep rfl
  | reopen hc =>
    have hj := hc.journal
    rw [if_neg (by have := hinv.workloads.version; omega)] at hj
    exact hkeep (congrArg Journal.progress hj)

theorem Ledger.Reachable.observedOnce {l : Ledger} (h : l.Reachable) : l.journal.ObservedOnce := by
  obtain ⟨pageSize, policy, node, start, hopen, hrun⟩ := h
  have hstart : start.journal.ObservedOnce := by
    have hj := (Ledger.open_ok hopen).journal
    rw [if_pos (show (Journal.empty pageSize).version < 2 from Nat.two_pos)] at hj
    rw [Journal.ObservedOnce, hj.2.2.2.2]
    exact List.nodup_nil
  have hstep : ∀ l l' : Ledger, (LedgerInv l ∧ l.journal.ObservedOnce) → LedgerStep l l' →
      (LedgerInv l' ∧ l'.journal.ObservedOnce) := by
    intro l l' hl hs
    refine ⟨hl.1.step hs, ?_⟩
    obtain ⟨op, rfl⟩ := hs
    rcases op.run_journal l with hj | hc
    · rw [hj]
      exact hl.2
    · exact hc.observedOnce hl.1 hl.2
  exact (Run.invariant hstep ⟨.opened hopen, hstart⟩ hrun).2

end

/-! ## Runs that observe a pipeline -/

section
variable [F64] [Sha256] [PeerAdmission]

/-- The observation of the grant that a call adds: the checkpoint of an update that returned. -/
def LedgerOp.accepted (id : String) (l : Ledger) : LedgerOp → Option PipelineProgress
  | .progress g p stored =>
    if g.grantId = id then (l.recordPipelineProgress g p stored).2.toOption else none
  | _ => none

/-- An observation under the id and digest of a grant is of this very grant: receipts know a grant
by its digest only, and another grant with the same one would be a collision of SHA-256. -/
def LedgerOp.Faithful (g : ExecutionGrant) : LedgerOp → Prop
  | .progress g' _ _ => g'.grantId = g.grantId → g'.digest = g.digest → g' = g
  | _ => True

/-- The runs in which `g` was claimed, and the observations accepted for it since: the one its
claim wrote, at the time of the claim, and those of later updates, between any other calls. -/
inductive Observing (g : ExecutionGrant) : Ledger → List PipelineProgress → Prop
  | claimed {l : Ledger} {r : ClaimReadings} {first : PipelineProgress} (hl : l.Reachable)
      (hpipeline : g.capability = "pipeline.run") (hclaim : (l.claim g r).2 = .ok ())
      (hfirst : PipelineProgress.checkpoint g 0 .pending 0 0 r.observed = .ok first) :
      Observing g (l.claim g r).1 [{ first with recordedAtMs := r.now }]
  | call {l : Ledger} {trace : List PipelineProgress} (op : LedgerOp) (h : Observing g l trace)
      (hop : op.Faithful g) :
      Observing g (op.run l).1 (trace ++ (op.accepted g.grantId l).toList)

/-- The receipt of an accepted pipeline whose last observation is of time `now`. -/
def observedRow (g : ExecutionGrant) (acceptedAt now : Nat) : ReceiptRow :=
  { Ledger.claimedRow g acceptedAt with updatedMs := now }

/-- The stored form of an observation. -/
def observationRow (g : ExecutionGrant) (p : PipelineProgress) : ProgressRow where
  grantId := g.grantId
  grantDigest := g.digest
  payload := p.toJson
  payloadSha256 := Sha256.raw p.toJson

/-- The state of a run that consumed `g` at `acceptedAt` and accepted `trace` for it, `last` being
the last of it. -/
structure Traced (g : ExecutionGrant) (acceptedAt : Nat) (l : Ledger)
    (trace : List PipelineProgress) (last : PipelineProgress) : Prop where
  valid : g.Valid
  node : g.executorNode = l.nodeId
  reachable : l.Reachable
  since : acceptedAt ≤ last.recordedAtMs
  acceptedAt_le : acceptedAt ≤ i64Max
  legal : Legal last.totalSteps (trace.map PipelineProgress.event)
  head : trace.head?.map PipelineProgress.recordedAtMs = some acceptedAt
  getLast : trace.getLast? = some last
  about : ∀ p ∈ trace, ∃ now, { p with recordedAtMs := now }.confirms g = true
  confirms : acceptedAt ≠ 0 → last.confirms g = true
  size : last.toJson.size ≤ maxCheckpointBytes
  row : ∃ row, l.journal.receipt g.grantId = some row ∧
    row.fixed = (Ledger.claimedRow g acceptedAt).fixed ∧ last.recordedAtMs ≤ row.updatedMs ∧
    (row.state = .accepted → row = observedRow g acceptedAt last.recordedAtMs)
  stored : l.journal.observation g.grantId = some (observationRow g last)

/-- What `record_pipeline_progress` accepts. -/
structure AcceptsProgress (l : Ledger) (g : ExecutionGrant) (p : PipelineProgress)
    (receipt : ConsumedReceipt) (previous : PipelineProgress) (rows : List ProgressRow) : Prop where
  confirms : p.confirms g = true
  phase : p.phase ≠ .pending
  read : l.journal.readConsumed l.nodeId (some g.issuerId) g.grantId = .ok receipt
  receipt_confirms : receipt.confirms g = true
  state : receipt.state = .accepted
  receipt_progress : receipt.pipelineProgress = some previous
  running : ¬previous.Ended
  sequence : p.sequence = previous.sequence + 1
  clock : receipt.updatedAtMs ≤ p.recordedAtMs
  size : p.toJson.size ≤ maxCheckpointBytes
  table : l.journal.progress = some rows
  observation : rows.countP (Ledger.observes g.grantId receipt.grantSha256) = 1
  recorded_le : p.recordedAtMs ≤ i64Max
  row : l.journal.receipts.countP (Ledger.acceptedAs g.grantId receipt.grantSha256) = 1

theorem progressTx_accepts {l : Ledger} {g : ExecutionGrant} {p q : PipelineProgress}
    {stored : Bool} {j' : Journal} : l.progressTx g p stored = .ok (j', q) ↔
      stored = true ∧ q = p ∧ ∃ receipt previous rows, AcceptsProgress l g p receipt previous rows ∧
        j' = { l.journal with
          receipts := Table.update (Ledger.acceptedAs g.grantId receipt.grantSha256)
            (fun r => { r with updatedMs := p.recordedAtMs }) l.journal.receipts
          progress := some (Table.update (Ledger.observes g.grantId receipt.grantSha256)
            (fun o => { o with payload := p.toJson, payloadSha256 := Sha256.raw p.toJson }) rows) } := by
  simp only [Ledger.progressTx, bind_ok, bailIf_ok, ensure_ok, context_ok, toI64_ok, storage_ok,
    pure_ok, Prod.mk.injEq]
  constructor
  · rintro ⟨_, ⟨hc, hphase⟩, receipt, hread, _, ⟨hconf, hstate⟩, previous, hprev, _, hseq, _, hsize,
      rows, hrows, _, hcount, _, ⟨hle, rfl⟩, _, hrow, _, hstored, rfl, rfl⟩
    simp only [not_or, not_not, not_lt] at hseq
    refine ⟨hstored, rfl, receipt, previous, rows, ⟨hc, hphase, hread, hconf, hstate, hprev, ?_,
      hseq.2.2.1, hseq.2.2.2, hsize, hrows, hcount, hle, hrow⟩, rfl⟩
    rintro (hend | hend)
    · exact hseq.1 hend
    · exact hseq.2.1 hend
  · rintro ⟨hstored, rfl, receipt, previous, rows, h, rfl⟩
    refine ⟨(), ⟨h.confirms, h.phase⟩, receipt, h.read, (), ⟨h.receipt_confirms, h.state⟩,
      previous, h.receipt_progress, (), ?_, (), h.size, rows, h.table, (), h.observation, _, ⟨h.recorded_le, rfl⟩, (),
      h.row, (), hstored, rfl, rfl⟩
    simp only [not_or, not_not, not_lt]
    exact ⟨fun hend => h.running (.inl hend), fun hend => h.running (.inr hend), h.sequence, h.clock⟩

end

/-! ## The observations of a grant are about its steps -/

section
variable [F64]

/-- What a confirmed observation says about the definition of its grant. -/
structure PipelineProgress.Confirmed (definition : FinitePipeline) (p : PipelineProgress) : Prop where
  bounded : p.bounded
  consistent : p.consistent
  total : p.totalSteps = definition.steps.length
  retained : p.retainedEncodedBytes ≤ definition.maxRetainedBytes
  resolved : p.resolvedEncodedBytes ≤ definition.maxRetainedBytes
  step : ∃ step, definition.steps[p.index]? = some step ∧ p.currentStep = step.id ∧
    (p.phase = .failed → step.isProcess = true)

namespace PipelineProgress

theorem confirms_iff {p : PipelineProgress} {g : ExecutionGrant} : p.confirms g = true ↔
    ∃ definition, FinitePipeline.fromGrant g = .ok definition ∧ p.Confirmed definition := by
  unfold confirms
  cases hd : FinitePipeline.fromGrant g with
  | error e => simp
  | ok definition =>
    simp only [Except.ok.injEq, exists_eq_left', Bool.and_eq_true, beq_iff_eq, decide_eq_true_eq,
      isOk_unit, validate_ok]
    constructor
    · rintro ⟨⟨⟨⟨⟨hb, hc⟩, ht⟩, hret⟩, hres⟩, hstep⟩
      refine ⟨hb, hc, ht, hret, hres, ?_⟩
      cases hs : definition.steps[p.index]? with
      | none =>
        rw [hs] at hstep
        exact absurd hstep Bool.false_ne_true
      | some step =>
        rw [hs] at hstep
        simp only [Bool.and_eq_true, beq_iff_eq, Bool.or_eq_true, bne_iff_ne] at hstep
        exact ⟨step, rfl, hstep.1, fun hf => hstep.2.resolve_left fun hn => hn hf⟩
    · intro h
      obtain ⟨step, hs, hid, hfail⟩ := h.step
      refine ⟨⟨⟨⟨⟨h.bounded, h.consistent⟩, h.total⟩, h.retained⟩, h.resolved⟩, ?_⟩
      rw [hs]
      simp only [Bool.and_eq_true, beq_iff_eq, Bool.or_eq_true, bne_iff_ne]
      refine ⟨hid, ?_⟩
      by_cases hf : p.phase = .failed
      · exact .inr (hfail hf)
      · exact .inl hf

/-- An observation is confirmed at any other time of the clock. -/
theorem confirms_at {p : PipelineProgress} {g : ExecutionGrant} (h : p.confirms g = true) {now : Nat}
    (h0 : now ≠ 0) (hle : now ≤ i64Max) : { p with recordedAtMs := now }.confirms g = true := by
  obtain ⟨definition, hd, hc⟩ := confirms_iff.mp h
  have hv := validate_ok.mp (validate_at (validate_ok.mpr ⟨hc.bounded, hc.consistent⟩) h0 hle)
  exact confirms_iff.mpr ⟨definition, hd, hv.1, hv.2, hc.total, hc.retained, hc.resolved, hc.step⟩

theorem checkpoint_ok {g : ExecutionGrant} {index retained resolved now : Nat} {phase : Phase}
    {p : PipelineProgress} : checkpoint g index phase retained resolved now = .ok p ↔
      ∃ definition step, FinitePipeline.fromGrant g = .ok definition ∧
        definition.steps[index]? = some step ∧ p.confirms g = true ∧
        p = observed definition step index phase retained resolved now := by
  simp only [checkpoint, bind_ok, context_ok, ensure_ok, pure_ok]
  constructor
  · rintro ⟨definition, hd, step, hstep, _, hc, rfl⟩
    exact ⟨definition, step, hd, hstep, hc, rfl⟩
  · rintro ⟨definition, step, hd, hstep, hc, rfl⟩
    exact ⟨definition, hd, step, hstep, (), hc, rfl⟩

omit [F64] in
/-- A checkpoint is of the phase and the step it was made for. -/
theorem observed_event (definition : FinitePipeline) (step : PipelineStep)
    (index retained resolved now : Nat) (phase : Phase) :
    (observed definition step index phase retained resolved now).event = (phase, index) := by
  cases phase <;> rfl

end PipelineProgress

end

section
variable [F64] [Sha256] [PeerAdmission]

omit [PeerAdmission] in
/-- A valid observation reads back. -/
theorem decodeProgress_stored {g : ExecutionGrant} {p : PipelineProgress}
    (hv : p.validate = .ok ()) (hsize : p.toJson.size ≤ maxCheckpointBytes) :
    decodeProgress (some (observationRow g p)) g.digest = .ok (some p) := by
  simp only [decodeProgress, observationRow, PipelineProgress.toJson_parses,
    PipelineProgress.fromJson_toJson hv, if_true, bind_ok, ensure_ok, context_ok, pure_ok]
  exact ⟨(), ⟨hsize, trivial, trivial⟩, p, rfl, (), hv, rfl⟩

/-- No call moves a ledger to another node. -/
theorem LedgerInv.run_nodeId {l : Ledger} (h : LedgerInv l) (op : LedgerOp) :
    (op.run l).1.nodeId = l.nodeId := by
  rcases op.run_config l with ⟨hnode, -⟩ | ⟨policy, node, -, hopen⟩
  · exact hnode
  · have ho := Ledger.open_ok hopen
    have hj := ho.journal
    rw [if_neg (by have := h.workloads.version; omega)] at hj
    have howner := ho.owner
    rw [hj, h.owner] at howner
    rw [ho.nodeId]
    exact (Option.some.inj howner).symm

omit [F64] [Sha256] [PeerAdmission] in
theorem Ledger.commit_cases {α : Type} (l : Ledger) (tx : Result (Journal × α)) :
    (l.commit tx).1 = l ∧ (∀ a, (l.commit tx).2 ≠ .ok a) ∨
      ∃ j a, tx = .ok (j, a) ∧ l.commit tx = ({ l with journal := j }, .ok a) := Ledger.commit_fst

namespace Traced

variable {g : ExecutionGrant} {acceptedAt : Nat} {l : Ledger} {trace : List PipelineProgress}
  {last : PipelineProgress}

theorem claimed {r : ClaimReadings} {first : PipelineProgress} (hl : l.Reachable)
    (hpipeline : g.capability = "pipeline.run") (hclaim : (l.claim g r).2 = .ok ())
    (hfirst : PipelineProgress.checkpoint g 0 .pending 0 0 r.observed = .ok first) :
    Traced g r.now (l.claim g r).1 [{ first with recordedAtMs := r.now }]
      { first with recordedAtMs := r.now } := by
  rcases l.commit_cases (l.claimTx g r) with ⟨-, hne⟩ | ⟨j, _, htx, hrun⟩
  · exact absurd hclaim (hne _)
  have hc := Ledger.claimTx_ok htx
  have hf := hc.frame
  have hclaimed : (l.claim g r).1 = { l with journal := j } := congrArg Prod.fst hrun
  have hreach : (l.claim g r).1.Reachable := hl.step (.claim g r)
  obtain ⟨hcap, -⟩ | ⟨checkpoint, -, hcheck, hsize, hnew, hprogress⟩ := hf.progress
  · exact absurd hpipeline hcap
  obtain rfl : checkpoint = first := Except.ok.inj (hcheck.symm.trans hfirst)
  obtain ⟨definition, step, -, -, hconf, hobs⟩ := PipelineProgress.checkpoint_ok.mp hfirst
  have hevent : checkpoint.event = (.pending, 0) := by
    rw [hobs]
    exact PipelineProgress.observed_event ..
  rw [hclaimed] at hreach ⊢
  refine ⟨hc.valid, hc.node, hreach, Nat.le_refl _, hc.now_le, ?_, rfl, rfl, ?_, ?_, hsize, ?_, ?_⟩
  · show Legal _ [checkpoint.event]
    rw [hevent]
    exact .between 0 (Nat.zero_le _)
  · intro p hp
    rw [List.mem_singleton.mp hp]
    exact ⟨checkpoint.recordedAtMs, hconf⟩
  · exact fun h0 => PipelineProgress.confirms_at hconf h0 hc.now_le
  · refine ⟨Ledger.claimedRow g r.now, ?_, rfl, Nat.le_refl _, fun _ => rfl⟩
    show Table.find ReceiptRow.grantId _ j.receipts = _
    rw [hf.receipts]
    exact Table.find_insert_self (r := Ledger.claimedRow g r.now)
      (Table.find_none.mpr hc.slot.unused)
  · rw [Journal.observation_table]
    show Table.find ProgressRow.grantId _ (j.progress.getD []) = _
    rw [hprogress, Option.getD_some]
    exact Table.find_insert_self (r := observationRow g { checkpoint with recordedAtMs := r.now })
      (Table.find_none.mpr hnew)

/-- A call that is no observation of the grant keeps the trace. -/
theorem keep (h : Traced g acceptedAt l trace last) {l' : Ledger} (hreach : l'.Reachable)
    (hnode : l'.nodeId = l.nodeId) (hleft : Left g.grantId l.journal l'.journal) :
    Traced g acceptedAt l' trace last := by
  obtain ⟨row, hrow, hfixed, hle, hopen⟩ := h.row
  have hkind : row.kind = .operation :=
    ReceiptRow.fixed_eq ReceiptRow.kind (fun _ => rfl) hfixed
  obtain ⟨row', hrow', hfixed', hle', hopen'⟩ := hleft.row row hrow hkind
  refine ⟨h.valid, h.node.trans hnode.symm, hreach, h.since, h.acceptedAt_le, h.legal, h.head,
    h.getLast, h.about, h.confirms, h.size, ⟨row', hrow', hfixed'.trans hfixed, hle.trans hle', fun ha => ?_⟩,
    hleft.observation _ h.stored⟩
  have hsame := hopen' ha
  rw [hsame] at ha ⊢
  exact hopen ha

end Traced

namespace Traced

/-- What the receipt of a running pipeline reads as. -/
theorem read (h : Traced g acceptedAt l trace last) {receipt : ConsumedReceipt}
    (hread : l.journal.readConsumed l.nodeId (some g.issuerId) g.grantId = .ok receipt) :
    ∃ row, l.journal.receipt g.grantId = some row ∧ acceptedAt ≠ 0 ∧
      receipt = row.consumed l.nodeId (some last) ∧ receipt.grantSha256 = g.digest := by
  obtain ⟨row, hrow, hfixed, -, -⟩ := h.row
  obtain ⟨-, -, -, row', progress, hrow', -, hdecode, hvalid, hreceipt⟩ :=
    Journal.readConsumed_ok.mp hread
  obtain rfl : row = row' := Option.some.inj (hrow.symm.trans hrow')
  have hdigest : row.grantDigest = g.digest :=
    ReceiptRow.fixed_eq ReceiptRow.grantDigest (fun _ => rfl) hfixed
  have hat : row.acceptedMs = acceptedAt :=
    ReceiptRow.fixed_eq ReceiptRow.acceptedMs (fun _ => rfl) hfixed
  have hpos : acceptedAt ≠ 0 := by
    have hbounded := (ConsumedReceipt.validate_ok.mp hvalid).2.2.2.2
    rw [← hat]
    exact hbounded.2.2.2.2.2.2.1
  obtain ⟨definition, -, hc⟩ := PipelineProgress.confirms_iff.mp (h.confirms hpos)
  rw [h.stored, hdigest, decodeProgress_stored
    (PipelineProgress.validate_ok.mpr ⟨hc.bounded, hc.consistent⟩) h.size] at hdecode
  rw [← Except.ok.inj hdecode] at hreceipt
  exact ⟨row, hrow, hpos, hreceipt, by rw [hreceipt]; exact hdigest⟩

/-- What an accepted observation says about the last one, and about the receipt. -/
theorem accepted (h : Traced g acceptedAt l trace last) {p previous : PipelineProgress}
    {receipt : ConsumedReceipt} {rows : List ProgressRow}
    (ha : AcceptsProgress l g p receipt previous rows) :
    acceptedAt ≠ 0 ∧ previous = last ∧ receipt.grantSha256 = g.digest ∧
      l.journal.receipt g.grantId = some (observedRow g acceptedAt last.recordedAtMs) ∧
      last.recordedAtMs ≤ p.recordedAtMs := by
  obtain ⟨row, hrow, hpos, hreceipt, hsha⟩ := h.read ha.read
  obtain ⟨row', hrow', -, -, hopen⟩ := h.row
  obtain rfl : row = row' := Option.some.inj (hrow.symm.trans hrow')
  have hstate := ha.state
  have hprogress := ha.receipt_progress
  have hclock := ha.clock
  rw [hreceipt] at hstate hprogress hclock
  have hsame := hopen hstate
  rw [hsame] at hclock hrow
  exact ⟨hpos, (Option.some.inj hprogress).symm, hsha, hrow, hclock⟩

/-- An accepted observation extends the trace. -/
theorem extend (h : Traced g acceptedAt l trace last) {p previous : PipelineProgress}
    {receipt : ConsumedReceipt} {rows : List ProgressRow}
    (ha : AcceptsProgress l g p receipt previous rows) {l' : Ledger} (hreach : l'.Reachable)
    (hnode : l'.nodeId = l.nodeId)
    (hj : l'.journal = { l.journal with
      receipts := Table.update (Ledger.acceptedAs g.grantId receipt.grantSha256)
        (fun r => { r with updatedMs := p.recordedAtMs }) l.journal.receipts
      progress := some (Table.update (Ledger.observes g.grantId receipt.grantSha256)
        (fun o => { o with payload := p.toJson, payloadSha256 := Sha256.raw p.toJson }) rows) }) :
    Traced g acceptedAt l' (trace ++ [p]) p := by
  obtain ⟨hpos, rfl, hsha, hrow, hclock⟩ := h.accepted ha
  obtain ⟨definition, hd, hc⟩ := PipelineProgress.confirms_iff.mp ha.confirms
  obtain ⟨definition', hd', hc'⟩ := PipelineProgress.confirms_iff.mp (h.confirms hpos)
  obtain rfl : definition = definition' := Except.ok.inj (hd.symm.trans hd')
  have htotal : p.totalSteps = previous.totalSteps := hc.total.trans hc'.total.symm
  have hfollows := (PipelineProgress.follows_iff hc.consistent hc'.consistent
    hc'.bounded.2.2.2.1.1 hc'.bounded.2.2.2.2.1 htotal).mpr ⟨ha.running, ha.phase, ha.sequence⟩
  refine ⟨h.valid, h.node.trans hnode.symm, hreach, h.since.trans hclock, h.acceptedAt_le, ?_, ?_,
    List.getLast?_concat, ?_, fun _ => ha.confirms, ha.size, ?_, ?_⟩
  · rw [htotal, List.map_append]
    refine h.legal.snoc ?_ hfollows
    rw [List.getLast?_map, h.getLast]
    rfl
  · have hhead := h.head
    cases htrace : trace with
    | nil =>
      rw [htrace] at hhead
      exact absurd hhead.symm (Option.some_ne_none _)
    | cons first rest =>
      rw [htrace] at hhead
      exact hhead
  · intro q hq
    rcases List.mem_append.mp hq with hq | hq
    · exact h.about q hq
    · rw [List.mem_singleton.mp hq]
      exact ⟨p.recordedAtMs, ha.confirms⟩
  · refine ⟨observedRow g acceptedAt p.recordedAtMs, ?_, rfl, Nat.le_refl _, fun _ => rfl⟩
    rw [hj]
    refine (Table.find_update (fun _ => ?_) _ _).trans ?_
    · rfl
    have hrow' : Table.find ReceiptRow.grantId g.grantId l.journal.receipts
        = some (observedRow g acceptedAt previous.recordedAtMs) := hrow
    rw [hrow', hsha, Option.map_some, if_pos]
    · rfl
    · exact decide_eq_true ⟨rfl, rfl, rfl⟩
  · rw [hj, Journal.observation_table]
    refine (Table.find_update (fun _ => ?_) _ _).trans ?_
    · rfl
    have hstored := h.stored
    rw [Journal.observation_table, ha.table, Option.getD_some] at hstored
    rw [hstored, hsha, Option.map_some, if_pos]
    · rfl
    · exact decide_eq_true ⟨rfl, rfl⟩

/-- One call: the trace is extended by what it accepted. -/
theorem step (h : Traced g acceptedAt l trace last) (op : LedgerOp) (hop : op.Faithful g) :
    ∃ last', Traced g acceptedAt (op.run l).1 (trace ++ (op.accepted g.grantId l).toList) last' := by
  have hinv := h.reachable.inv
  have hreach := h.reachable.step op
  have hnode := hinv.run_nodeId op
  have hkept : (∀ g' p stored, op = .progress g' p stored → g'.grantId ≠ g.grantId) →
      Left g.grantId l.journal (op.run l).1.journal := by
    intro hother
    rcases op.run_journal l with hj | hc
    · rw [hj]
      exact .refl _ _
    · exact hc.leaves hinv hother
  have hnone : op.accepted g.grantId l = none → Left g.grantId l.journal (op.run l).1.journal →
      ∃ last', Traced g acceptedAt (op.run l).1 (trace ++ (op.accepted g.grantId l).toList) last' := by
    intro hacc hleft
    rw [hacc, Option.toList_none, List.append_nil]
    exact ⟨last, h.keep hreach hnode hleft⟩
  cases op with
  | progress g' p stored =>
    by_cases hid : g'.grantId = g.grantId
    · rcases l.commit_cases (l.progressTx g' p stored) with
        ⟨hsame, hne⟩ | ⟨j, q, htx, hrun⟩
      · refine hnone ?_ ?_
        · simp only [LedgerOp.accepted, if_pos hid, Ledger.recordPipelineProgress]
          cases hres : (l.commit (l.progressTx g' p stored)).2 with
          | error e => rfl
          | ok q => exact absurd hres (hne q)
        · show Left _ _ (l.commit (l.progressTx g' p stored)).1.journal
          rw [hsame]
          exact .refl _ _
      · obtain ⟨hstored, rfl, receipt, previous, rows, ha, hj⟩ := progressTx_accepts.mp htx
        have hdigest : g'.digest = g.digest := by
          have hread := ha.read
          obtain ⟨-, -, -, row, progress, hrow, -, -, -, hreceipt⟩ :=
            Journal.readConsumed_ok.mp hread
          rw [hid] at hrow
          obtain ⟨row', hrow', hfixed, -, -⟩ := h.row
          obtain rfl : row = row' := Option.some.inj (hrow.symm.trans hrow')
          have hconf := ha.receipt_confirms
          simp only [ConsumedReceipt.confirms, Bool.and_eq_true, beq_iff_eq] at hconf
          rw [hconf.1.2, hreceipt]
          exact ReceiptRow.fixed_eq ReceiptRow.grantDigest (fun _ => rfl) hfixed
        obtain rfl : g' = g := hop hid hdigest
        have hacc : LedgerOp.accepted g'.grantId l (.progress g' q stored) = some q := by
          simp only [LedgerOp.accepted, if_pos, Ledger.recordPipelineProgress, hrun]
          rfl
        rw [hacc]
        refine ⟨q, h.extend ha hreach hnode ?_⟩
        rw [← hj]
        show (l.commit (l.progressTx g' q stored)).1.journal = j
        rw [hrun]
    · refine hnone ?_ (hkept ?_)
      · simp only [LedgerOp.accepted, if_neg hid]
      · intro g'' p' stored' heq
        cases heq
        exact hid
  | _ =>
    refine hnone rfl (hkept ?_)
    intro g' p stored heq
    cases heq

end Traced

/-- Every run that observes a pipeline is traced. -/
theorem Observing.traced {g : ExecutionGrant} {l : Ledger} {trace : List PipelineProgress}
    (h : Observing g l trace) : ∃ acceptedAt last, Traced g acceptedAt l trace last := by
  induction h with
  | claimed hl hpipeline hclaim hfirst => exact ⟨_, _, .claimed hl hpipeline hclaim hfirst⟩
  | call op _ hop ih =>
    obtain ⟨acceptedAt, last, ht⟩ := ih
    obtain ⟨last', ht'⟩ := ht.step op hop
    exact ⟨acceptedAt, last', ht'⟩

end

/-! ## What may follow is accepted -/

section
variable [F64]

/-- A valid observation fits its row. -/
theorem PipelineProgress.size_le {p : PipelineProgress} (h : p.bounded) :
    p.toJson.size ≤ maxCheckpointBytes := by
  obtain ⟨hschema, -, -, htotal, hcompleted, hsequence, hstep, hretained, hresolved, -, hrecorded⟩ := h
  simp only [maxSteps, Eef.Node.maxRetainedBytes, i64Max] at htotal hretained hresolved hrecorded
  simp only [validStepId, Bool.and_eq_true, decide_eq_true_eq, List.all_eq_true] at hstep
  have t1 : Json.strSize p.currentStep ≤ 34 := strSize_identifier hstep.1.2 hstep.2
  have t2 : Json.strSize p.phase.name ≤ 11 := by cases p.phase <;> decide
  have n1 : Json.natSize p.schemaVersion ≤ 20 := Json.natSize_le_u64 (by omega)
  have n2 : Json.natSize p.sequence ≤ 20 := Json.natSize_le_u64 (by omega)
  have n3 : Json.natSize p.completedSteps ≤ 20 := Json.natSize_le_u64 (by omega)
  have n4 : Json.natSize p.totalSteps ≤ 20 := Json.natSize_le_u64 (by omega)
  have n5 : Json.natSize p.retainedEncodedBytes ≤ 20 := Json.natSize_le_u64 (by omega)
  have n6 : Json.natSize p.resolvedEncodedBytes ≤ 20 := Json.natSize_le_u64 (by omega)
  have n7 : Json.natSize p.recordedAtMs ≤ 20 := Json.natSize_le_u64 (by omega)
  have b1 : (Json.bool p.durable).size ≤ 5 := by cases p.durable <;> simp [Json.size]
  have b2 : (Json.bool p.terminationConfirmed).size ≤ 5 := by
    cases p.terminationConfirmed <;> simp [Json.size]
  have k1 : Json.strSize "schema_version" = 16 := by decide
  have k2 : Json.strSize "sequence" = 10 := by decide
  have k3 : Json.strSize "phase" = 7 := by decide
  have k4 : Json.strSize "current_step" = 14 := by decide
  have k5 : Json.strSize "completed_steps" = 17 := by decide
  have k6 : Json.strSize "total_steps" = 13 := by decide
  have k7 : Json.strSize "retained_encoded_bytes" = 24 := by decide
  have k8 : Json.strSize "resolved_encoded_bytes" = 24 := by decide
  have k9 : Json.strSize "recorded_at_ms" = 16 := by decide
  have k10 : Json.strSize "durable" = 9 := by decide
  have k11 : Json.strSize "termination_confirmed" = 23 := by decide
  rw [toJson, Json.size]
  simp only [Json.fieldsSize, k1, k2, k3, k4, k5, k6, k7, k8, k9, k10, k11]
  simp only [Json.nat, Json.size, Json.numSize, maxCheckpointBytes] at b1 b2 ⊢
  omega

end

section
variable [F64] [Sha256] [PeerAdmission]

namespace Traced

variable {g : ExecutionGrant} {acceptedAt : Nat} {l : Ledger} {trace : List PipelineProgress}
  {last : PipelineProgress}

/-- While the receipt is accepted it reads back, unless the clock stood at zero at the claim. -/
theorem reads (h : Traced g acceptedAt l trace last) (hpos : acceptedAt ≠ 0)
    (hrow : l.journal.receipt g.grantId = some (observedRow g acceptedAt last.recordedAtMs)) :
    l.journal.readConsumed l.nodeId (some g.issuerId) g.grantId =
      .ok ((observedRow g acceptedAt last.recordedAtMs).consumed l.nodeId (some last)) := by
  have hinv := h.reachable.inv
  obtain ⟨definition, -, hc⟩ := PipelineProgress.confirms_iff.mp (h.confirms hpos)
  have hvalid : last.validate = .ok () :=
    PipelineProgress.validate_ok.mpr ⟨hc.bounded, hc.consistent⟩
  have hid := h.valid.grantId
  simp only [uuid, Bool.and_eq_true, Bool.not_eq_true'] at hid
  have hversion := hinv.workloads.version
  refine Journal.readConsumed_ok.mpr ⟨hid.1, ?_, Journal.validateOwner_ok.mpr
    ⟨hinv.owner, by omega, hinv.workloads.schema⟩, _, some last, hrow, ?_, ?_, ?_, rfl⟩
  · intro s hs
    rw [← Option.some.inj hs]
    exact h.valid.issuer
  · intro s hs
    exact (Option.some.inj hs).symm
  · rw [h.stored]
    exact decodeProgress_stored hvalid h.size
  · rw [← h.node]
    refine ReceiptRow.Of.consumed_validate (s := g.scope) ⟨rfl, rfl, rfl, rfl, rfl, rfl⟩
      h.valid.scope_valid ReceiptState.noConfusion ?_ h.since hc.bounded.2.2.2.2.2.2.2.2.2.2 ?_
    · show 1 ≤ acceptedAt
      omega
    · intro p hp
      rw [← Option.some.inj hp]
      exact ⟨hvalid, h.since, Nat.le_refl _⟩

/-- What may follow the last observation, no earlier than it, is accepted. -/
theorem accepts (h : Traced g acceptedAt l trace last) (hpos : acceptedAt ≠ 0) {row : ReceiptRow}
    (hrow : l.journal.receipt g.grantId = some row) (hopen : row.state = .accepted)
    {p : PipelineProgress} (hp : p.confirms g = true)
    (hfollows : Follows last.totalSteps last.event p.event)
    (hclock : last.recordedAtMs ≤ p.recordedAtMs) :
    (l.recordPipelineProgress g p true).2 = .ok p := by
  obtain ⟨row', hrow', -, -, hsame⟩ := h.row
  obtain rfl : row = row' := Option.some.inj (hrow.symm.trans hrow')
  rw [hsame hopen] at hrow
  have hinv := h.reachable.inv
  have hread := h.reads hpos hrow
  obtain ⟨definition, hd, hc⟩ := PipelineProgress.confirms_iff.mp hp
  obtain ⟨definition', hd', hc'⟩ := PipelineProgress.confirms_iff.mp (h.confirms hpos)
  obtain rfl : definition = definition' := Except.ok.inj (hd.symm.trans hd')
  obtain ⟨hend, hphase, hseq⟩ := (PipelineProgress.follows_iff hc.consistent hc'.consistent
    hc'.bounded.2.2.2.1.1 hc'.bounded.2.2.2.2.1 (hc.total.trans hc'.total.symm)).mp hfollows
  have hmem := (Table.find_some hrow).1
  have hstored := h.stored
  cases hrows : l.journal.progress with
  | none =>
    rw [Journal.observation, hrows] at hstored
    exact absurd hstored.symm (Option.some_ne_none _)
  | some rows =>
    have honce := h.reachable.observedOnce
    rw [Journal.ObservedOnce, hrows, Option.getD_some] at honce
    rw [Journal.observation, hrows, Option.bind_some] at hstored
    have haccepts : AcceptsProgress l g p
        ((observedRow g acceptedAt last.recordedAtMs).consumed l.nodeId (some last)) last rows := by
      refine ⟨hp, hphase, hread, ?_, rfl, rfl, hend, hseq, hclock, p.size_le hc.bounded, hrows, ?_,
        hc.bounded.2.2.2.2.2.2.2.2.2.2, ?_⟩
      · have hvalid : ((observedRow g acceptedAt last.recordedAtMs).consumed l.nodeId
            (some last)).validate = .ok () := by
          obtain ⟨-, -, -, row, progress, -, -, -, hvalid, heq⟩ := Journal.readConsumed_ok.mp hread
          rw [heq]
          exact hvalid
        have hgrant : g.validate = .ok () := ExecutionGrant.validate_ok.mpr h.valid
        simp only [ConsumedReceipt.confirms, isOk_unit.mpr hvalid, isOk_unit.mpr hgrant,
          Bool.true_and, Bool.and_eq_true, beq_iff_eq]
        exact ⟨⟨⟨⟨⟨⟨⟨h.node.symm, rfl⟩, rfl⟩, rfl⟩, rfl⟩, rfl⟩, rfl⟩, h.confirms hpos⟩
      · refine Table.countP_keyed honce (Table.find_some hstored).1 ?_ fun s hs => ?_
        · exact decide_eq_true ⟨rfl, rfl⟩
        · exact (of_decide_eq_true hs).1
      · refine Table.countP_keyed hinv.receipts.ids hmem ?_ fun s hs => ?_
        · exact decide_eq_true ⟨rfl, rfl, rfl⟩
        · exact (of_decide_eq_true hs).1
    have htx := progressTx_accepts.mpr
      ⟨rfl, rfl, _, _, _, haccepts, rfl⟩
    rw [Ledger.recordPipelineProgress, htx]
    rfl

end Traced

end

end Eef.Node
