import Eef.Node.LedgerEffects

/-!
# No replay

Every way the ledger touches `execution_receipts` is one of four: nothing, an
admission, a stop's tombstone, or a revision of accepted rows (`ReceiptEffect`).
The invariant `ReceiptsInv` is about the rows of one task in order of their attempts:
below an admitted row there are only completed rows and tombstones. It makes the
highest-attempt test of `check_attempt_slot` sound although a stop may insert a
tombstone at any attempt: the row that test finds is completed, so it was admitted,
so everything below it is settled.

`ledger_no_replay` states what follows for every run.
-/

namespace Eef.Node

open Eef.Lib

/-- The task a row is an attempt of. -/
def ReceiptRow.task (r : ReceiptRow) : String × String × String := (r.issuerId, r.jobId, r.taskId)

@[inherit_doc ReceiptRow.task]
def Scope.task (s : Scope) : String × String × String := (s.issuerId, s.jobId, s.taskId)

/-- A row's later content: its identity is fixed, its state leaves `accepted` at most
once, and what it then reports is final. -/
structure ReceiptRow.Evolves (r r' : ReceiptRow) : Prop where
  grantId : r'.grantId = r.grantId
  grantDigest : r'.grantDigest = r.grantDigest
  task : r'.task = r.task
  attempt : r'.attempt = r.attempt
  maxResultBytes : r'.maxResultBytes = r.maxResultBytes
  state : r'.state = r.state ∨
    r.state = .accepted ∧ (r'.state = .completed ∨ r'.state = .unknown)
  final : r.state ≠ .accepted →
    r'.state = r.state ∧ r'.report = r.report ∧ r'.reportSha256 = r.reportSha256

theorem ReceiptRow.Evolves.refl (r : ReceiptRow) : r.Evolves r :=
  ⟨rfl, rfl, rfl, rfl, rfl, .inl rfl, fun _ => ⟨rfl, rfl, rfl⟩⟩

theorem ReceiptRow.Evolves.trans {a b c : ReceiptRow} (hab : a.Evolves b) (hbc : b.Evolves c) :
    a.Evolves c := by
  refine ⟨hbc.grantId.trans hab.grantId, hbc.grantDigest.trans hab.grantDigest,
    hbc.task.trans hab.task, hbc.attempt.trans hab.attempt,
    hbc.maxResultBytes.trans hab.maxResultBytes, ?_, ?_⟩
  · rcases hab.state with h | ⟨ha, hb⟩
    · rw [← h]
      exact hbc.state
    · have hne : b.state ≠ .accepted := by
        rcases hb with hb | hb <;> rw [hb] <;> decide
      rw [(hbc.final hne).1]
      exact .inr ⟨ha, hb⟩
  · intro ha
    obtain ⟨h1, h2, h3⟩ := hab.final ha
    obtain ⟨k1, k2, k3⟩ := hbc.final (h1 ▸ ha)
    exact ⟨k1.trans h1, k2.trans h2, k3.trans h3⟩

/-! ## The four effects -/

/-- What one call can do to the receipts. -/
inductive ReceiptEffect (rows : List ReceiptRow) : List ReceiptRow → Prop where
  | keep : ReceiptEffect rows rows
  | admitted {r : ReceiptRow} (id : ∀ s ∈ rows, s.grantId ≠ r.grantId)
      (slot : ∀ s ∈ rows, s.task = r.task → s.attempt ≠ r.attempt)
      (latest : (∀ s ∈ rows, s.task ≠ r.task) ∨ ∃ b ∈ rows, b.task = r.task
        ∧ (∀ s ∈ rows, s.task = r.task → s.attempt ≤ b.attempt) ∧ b.attempt < r.attempt
        ∧ b.state = .completed)
      (state : r.state = .accepted) (bytes : r.maxResultBytes ≠ 0) :
      ReceiptEffect rows (rows ++ [r])
  | tombstone {r : ReceiptRow} (id : ∀ s ∈ rows, s.grantId ≠ r.grantId)
      (slot : ∀ s ∈ rows, s.task = r.task → s.attempt ≠ r.attempt) (state : r.state = .unknown)
      (bytes : r.maxResultBytes = 0) : ReceiptEffect rows (rows ++ [r])
  | revise {p : ReceiptRow → Bool} {f : ReceiptRow → ReceiptRow}
      (accepted : ∀ r, p r = true → r.state = .accepted) (evolves : ∀ r, p r = true → r.Evolves (f r))
      (id : ∀ r, (f r).grantId = r.grantId) : ReceiptEffect rows (Table.update p f rows)

theorem Journal.SlotFree.latest {j : Journal} {s : Scope} (h : j.SlotFree s) :
    (∀ r ∈ j.receipts, r.task ≠ s.task) ∨ ∃ b ∈ j.receipts, b.task = s.task
      ∧ (∀ r ∈ j.receipts, r.task = s.task → r.attempt ≤ b.attempt) ∧ b.attempt < s.attempt
      ∧ b.state = .completed := by
  have hmem : ∀ {r : ReceiptRow}, r ∈ j.attempts s ↔ r ∈ j.receipts ∧ r.task = s.task := by
    intro r
    simp only [Journal.mem_attempts, ReceiptRow.task, Scope.task, Prod.mk.injEq]
  rcases h.resolved with hnil | ⟨b, hb, hmax, hlt, hdone⟩
  · refine .inl fun r hr ht => ?_
    have : r ∈ j.attempts s := hmem.mpr ⟨hr, ht⟩
    rw [hnil] at this
    cases this
  · obtain ⟨hb, ht⟩ := hmem.mp hb
    exact .inr ⟨b, hb, ht, fun r hr hr' => hmax r (hmem.mpr ⟨hr, hr'⟩), hlt, hdone⟩

/-- Marking a row as unknown keeps its identity. -/
theorem ReceiptRow.evolves_unknown {r : ReceiptRow} (h : r.state = .accepted) (now : Nat) :
    r.Evolves { r.touch now with state := .unknown } :=
  ⟨rfl, rfl, rfl, rfl, rfl, .inr ⟨h, .inr rfl⟩, fun hn => absurd h hn⟩

/-- Moving the update time of a row keeps everything else. -/
theorem ReceiptRow.evolves_updated (r : ReceiptRow) (now : Nat) :
    r.Evolves { r with updatedMs := now } :=
  ⟨rfl, rfl, rfl, rfl, rfl, .inl rfl, fun _ => ⟨rfl, rfl, rfl⟩⟩

theorem receiptEffect_uncertain (rows : List ReceiptRow) (s : Scope) (now : Nat) :
    ReceiptEffect rows (Table.update (Journal.openWorkload s)
      (fun e => { e.touch now with state := .unknown }) rows) := by
  have hacc : ∀ r, Journal.openWorkload s r = true → r.state = .accepted := by
    intro r hr
    exact (of_decide_eq_true hr).2.2.1
  exact .revise hacc (fun r hr => ReceiptRow.evolves_unknown (hacc r hr) now) fun r => rfl

section
variable [F64] [Sha256] [PeerAdmission]

open Ledger in
/-- Every committed call has one of the four effects. -/
theorem Ledger.Commits.receipts {l : Ledger} {op : LedgerOp} {j' : Journal}
    (h : l.Commits op j') : ReceiptEffect l.journal.receipts j'.receipts := by
  have task_ne : ∀ {r : ReceiptRow} {s : ReceiptRow}, ¬(s.issuerId = r.issuerId ∧ s.jobId = r.jobId
      ∧ s.taskId = r.taskId ∧ s.attempt = r.attempt) → s.task = r.task → s.attempt ≠ r.attempt := by
    intro r s hne ht ha
    simp only [ReceiptRow.task, Prod.mk.injEq] at ht
    exact hne ⟨ht.1, ht.2.1, ht.2.2, ha⟩
  cases h with
  | @claim g r _ h =>
    rw [h.frame.receipts]
    refine .admitted (r := claimedRow g r.now) h.slot.unused
      (fun s hs => task_ne (h.slot_new s hs)) h.slot.latest rfl ?_
    have := h.valid.maxResultBytes.1
    show g.limits.maxResultBytes ≠ 0
    omega
  | progress h =>
    obtain ⟨receipt, rows, -, -, -, -, rfl⟩ := h.writes
    exact .revise (fun r hr => (of_decide_eq_true hr).2.2)
      (fun r _ => ReceiptRow.evolves_updated r _) fun r => rfl
  | @finish g report now stored _ h =>
    rw [h.writes]
    have hacc : ∀ r, awaitsReport g r = true → r.state = .accepted :=
      fun r hr => (of_decide_eq_true hr).2.2.1
    refine .revise hacc (fun r hr => ?_) fun r => rfl
    exact ⟨rfl, rfl, rfl, rfl, rfl, .inr ⟨hacc r hr, h.state⟩, fun hn => absurd (hacc r hr) hn⟩
  | @consume d _ _ _ _ _ r _ h =>
    obtain ⟨j₁, reserved, t, -, -, -, hslot, -, -, rfl⟩ := h.writes
    refine .admitted (r := consumedRow d (max r.now 1)) h.slot.unused
      (fun s hs => task_ne (hslot s hs)) h.slot.latest rfl ?_
    have := h.valid.totalBytes.1
    show d.events.maxTotalBytes ≠ 0
    omega
  | append h =>
    obtain ⟨w, saved, -, -, -, -, ⟨-, rfl, -⟩ | ⟨-, record, -, hw, -⟩⟩ := h.writes
    · exact .keep
    · obtain ⟨-, -, t, -, -, rfl⟩ := appendWrite_ok hw
      exact .revise (fun r hr => (of_decide_eq_true hr).2)
        (fun r _ => ReceiptRow.evolves_updated r _) fun r => rfl
  | refused hj hle =>
    have hrows : ∀ {j₁ : Journal}, (j₁ = l.journal ∨ (l.journal.version = 4 ∨ l.journal.version = 5)
        ∧ j₁ = { l.journal with version := 5 }) → j₁.receipts = l.journal.receipts := by
      rintro j₁ (rfl | ⟨-, rfl⟩) <;> rfl
    show ReceiptEffect _ (Table.update _ _ _)
    rw [hrows hj]
    exact receiptEffect_uncertain _ _ _
  | @save evidence _ _ _ hread hscope h =>
    obtain ⟨count, bytes, chain, last, sequence, report, -, -, -, -, -, -, rfl⟩ := h.writes
    have hacc : ∀ r, awaitsCompletion evidence.contract.scope r = true → r.state = .accepted :=
      fun r hr => (of_decide_eq_true hr).2.2.1
    refine .revise hacc (fun r hr => ?_) fun r => rfl
    exact ⟨rfl, rfl, rfl, rfl, rfl, .inr ⟨hacc r hr, .inl rfl⟩, fun hn => absurd (hacc r hr) hn⟩
  | markUnknown hle => exact receiptEffect_uncertain _ _ _
  | @stop s _ _ _ r _ h =>
    obtain ⟨e, -, -, rfl⟩ | ⟨hnone, -, hslot, rfl⟩ := h.writes
    · exact .keep
    · exact .tombstone (r := tombstone s (max r.now 1)) (Table.find_none.mp hnone)
        (fun s hs => task_ne (hslot s hs)) rfl rfl
  | reopen h =>
    rw [h.receipts]
    exact .keep

end

/-! ## The invariant -/

/-- Below an admitted row of a task there are only completed rows and tombstones. -/
structure ReceiptsInv (rows : List ReceiptRow) : Prop where
  ids : Table.Keyed ReceiptRow.grantId rows
  slots : ∀ r ∈ rows, ∀ s ∈ rows, r.task = s.task → r.attempt = s.attempt → r = s
  tombstones : ∀ r ∈ rows, r.maxResultBytes = 0 → r.state = .unknown
  settled : ∀ r ∈ rows, ∀ s ∈ rows, r.task = s.task → r.attempt < s.attempt →
    s.maxResultBytes ≠ 0 → r.state = .completed ∨ r.maxResultBytes = 0

theorem ReceiptsInv.nil : ReceiptsInv [] :=
  ⟨List.nodup_nil, by simp, by simp, by simp⟩

/-- If the highest attempt of a task is completed, every attempt of it is completed or
a tombstone. -/
theorem ReceiptsInv.below_completed {rows : List ReceiptRow} (h : ReceiptsInv rows)
    {b : ReceiptRow} (hb : b ∈ rows) (hdone : b.state = .completed) {r : ReceiptRow} (hr : r ∈ rows)
    (ht : r.task = b.task) (hle : r.attempt ≤ b.attempt) :
    r.state = .completed ∨ r.maxResultBytes = 0 := by
  rcases Nat.lt_or_eq_of_le hle with hlt | heq
  · refine h.settled r hr b hb ht hlt fun h0 => ?_
    have := h.tombstones b hb h0
    rw [hdone] at this
    cases this
  · exact .inl (h.slots r hr b hb ht heq ▸ hdone)

theorem Table.Keyed.insert_row {rows : List ReceiptRow} (h : Table.Keyed ReceiptRow.grantId rows)
    {r : ReceiptRow} (hid : ∀ s ∈ rows, s.grantId ≠ r.grantId) :
    Table.Keyed ReceiptRow.grantId (rows ++ [r]) := h.insert (Table.find_none.mpr hid)

/-- A row whose slot is free keeps the slots unique. -/
theorem slots_insert {rows : List ReceiptRow} {r : ReceiptRow}
    (h : ∀ a ∈ rows, ∀ b ∈ rows, a.task = b.task → a.attempt = b.attempt → a = b)
    (slot : ∀ s ∈ rows, s.task = r.task → s.attempt ≠ r.attempt) :
    ∀ a ∈ rows ++ [r], ∀ b ∈ rows ++ [r], a.task = b.task → a.attempt = b.attempt → a = b := by
  intro a ha b hb ht hat
  simp only [List.mem_append, List.mem_singleton] at ha hb
  rcases ha with ha | rfl <;> rcases hb with hb | rfl
  · exact h a ha b hb ht hat
  · exact absurd hat (slot a ha ht)
  · exact absurd hat.symm (slot b hb ht.symm)
  · rfl

theorem ReceiptsInv.step {rows rows' : List ReceiptRow} (h : ReceiptsInv rows)
    (he : ReceiptEffect rows rows') : ReceiptsInv rows' := by
  cases he with
  | keep => exact h
  | @admitted r id slot latest state bytes =>
    refine ⟨Table.Keyed.insert_row h.ids id, slots_insert h.slots slot, ?_, ?_⟩
    · intro s hs h0
      simp only [List.mem_append, List.mem_singleton] at hs
      rcases hs with hs | rfl
      · exact h.tombstones s hs h0
      · exact absurd h0 bytes
    · intro a ha b hb ht hlt hadm
      simp only [List.mem_append, List.mem_singleton] at ha hb
      rcases ha with ha | rfl <;> rcases hb with hb | rfl
      · exact h.settled a ha b hb ht hlt hadm
      · -- the new row is above every row of its task, and the highest of those is completed
        rcases latest with hnone | ⟨top, htop, htask, hmax, -, hdone⟩
        · exact absurd ht (hnone a ha)
        · exact h.below_completed htop hdone ha (ht.trans htask.symm) (hmax a ha ht)
      · rcases latest with hnone | ⟨top, -, -, hmax, hbelow, -⟩
        · exact absurd ht.symm (hnone b hb)
        · have := hmax b hb ht.symm
          omega
      · omega
  | @tombstone r id slot state bytes =>
    refine ⟨Table.Keyed.insert_row h.ids id, slots_insert h.slots slot, ?_, ?_⟩
    · intro s hs h0
      simp only [List.mem_append, List.mem_singleton] at hs
      rcases hs with hs | rfl
      · exact h.tombstones s hs h0
      · exact state
    · intro a ha b hb ht hlt hadm
      simp only [List.mem_append, List.mem_singleton] at ha hb
      rcases hb with hb | rfl
      · rcases ha with ha | rfl
        · exact h.settled a ha b hb ht hlt hadm
        · exact .inr bytes
      · exact absurd bytes hadm
  | @revise p f accepted evolves id =>
    have hevo : ∀ s : ReceiptRow, s.Evolves (if p s then f s else s) := by
      intro s
      split
      · exact evolves s ‹_›
      · exact .refl s
    -- only accepted rows change, and an accepted row has no admitted row above it
    refine ⟨h.ids.update id, ?_, ?_, ?_⟩
    · intro a ha b hb ht hat
      obtain ⟨a₀, ha₀, rfl⟩ := Table.mem_update.mp ha
      obtain ⟨b₀, hb₀, rfl⟩ := Table.mem_update.mp hb
      rw [(hevo a₀).task, (hevo b₀).task] at ht
      rw [(hevo a₀).attempt, (hevo b₀).attempt] at hat
      rw [h.slots a₀ ha₀ b₀ hb₀ ht hat]
    · intro a ha h0
      obtain ⟨a₀, ha₀, rfl⟩ := Table.mem_update.mp ha
      rw [(hevo a₀).maxResultBytes] at h0
      have hunk := h.tombstones a₀ ha₀ h0
      rw [((hevo a₀).final (by rw [hunk]; decide)).1, hunk]
    · intro a ha b hb ht hlt hadm
      obtain ⟨a₀, ha₀, rfl⟩ := Table.mem_update.mp ha
      obtain ⟨b₀, hb₀, rfl⟩ := Table.mem_update.mp hb
      rw [(hevo a₀).task, (hevo b₀).task] at ht
      rw [(hevo a₀).attempt, (hevo b₀).attempt] at hlt
      rw [(hevo b₀).maxResultBytes] at hadm
      rw [(hevo a₀).maxResultBytes]
      rcases h.settled a₀ ha₀ b₀ hb₀ ht hlt hadm with hdone | h0
      · exact .inl (((hevo a₀).final (by rw [hdone]; decide)).1.trans hdone)
      · exact .inr h0

/-- Every row is still there after an effect, evolved. -/
theorem ReceiptEffect.evolves {rows rows' : List ReceiptRow} (he : ReceiptEffect rows rows')
    {r : ReceiptRow} (hr : r ∈ rows) : ∃ r' ∈ rows', r.Evolves r' := by
  cases he with
  | keep => exact ⟨r, hr, .refl r⟩
  | admitted => exact ⟨r, List.mem_append_left _ hr, .refl r⟩
  | tombstone => exact ⟨r, List.mem_append_left _ hr, .refl r⟩
  | @revise p f accepted evolves id =>
    refine ⟨_, Table.mem_update.mpr ⟨r, hr, rfl⟩, ?_⟩
    split
    · exact evolves r ‹_›
    · exact .refl r

/-! ## Runs -/

section
variable [F64] [Sha256] [PeerAdmission]

theorem LedgerOp.run_receipts (op : LedgerOp) (l : Ledger) :
    ReceiptEffect l.journal.receipts (op.run l).1.journal.receipts := by
  rcases op.run_journal l with h | h
  · rw [h]
    exact .keep
  · exact h.receipts

theorem receiptsInv_step {l l' : Ledger} (h : ReceiptsInv l.journal.receipts)
    (hs : LedgerStep l l') : ReceiptsInv l'.journal.receipts := by
  obtain ⟨op, rfl⟩ := hs
  exact h.step (op.run_receipts l)

theorem Ledger.Reachable.receiptsInv {l : Ledger} (h : l.Reachable) :
    ReceiptsInv l.journal.receipts := by
  obtain ⟨pageSize, policy, node, start, hopen, hrun⟩ := h
  have hstart : ReceiptsInv start.journal.receipts := by
    rw [(Ledger.open_ok hopen).receipts]
    exact .nil
  have hstep : ∀ l l' : Ledger, ReceiptsInv l.journal.receipts → LedgerStep l l' →
      ReceiptsInv l'.journal.receipts := fun _ _ => receiptsInv_step
  exact @Run.invariant _ _ (fun l => ReceiptsInv l.journal.receipts) hstep _ _ hstart hrun

theorem Ledger.Reachable.run {l l' : Ledger} (h : l.Reachable) (hr : Run LedgerStep l l') :
    l'.Reachable := by
  obtain ⟨pageSize, policy, node, start, hopen, hrun⟩ := h
  exact ⟨pageSize, policy, node, start, hopen, hrun.trans hr⟩

theorem Ledger.Reachable.step {l : Ledger} (h : l.Reachable) (op : LedgerOp) :
    (op.run l).1.Reachable := h.run (.single ⟨op, rfl⟩)

/-- Rows evolve along every run. -/
theorem run_evolves {l l' : Ledger} (h : Run LedgerStep l l') {r : ReceiptRow}
    (hr : r ∈ l.journal.receipts) : ∃ r' ∈ l'.journal.receipts, r.Evolves r' := by
  induction h with
  | refl => exact ⟨r, hr, .refl r⟩
  | tail _ hs ih =>
    obtain ⟨r₁, hr₁, h₁⟩ := ih
    obtain ⟨op, rfl⟩ := hs
    obtain ⟨r₂, hr₂, h₂⟩ := (op.run_receipts _).evolves hr₁
    exact ⟨r₂, hr₂, h₁.trans h₂⟩

/-- The scope a call asks to admit: `claim` and `consume_workload`. -/
def LedgerOp.admission : LedgerOp → Option Scope
  | .claim g _ => some g.scope
  | .consume d _ _ _ _ _ _ => some (d.identityScope d.digest)
  | _ => none

/-- A successful admission found its slot free and inserted an accepted row with space
for a result. -/
theorem LedgerOp.admission_ok {op : LedgerOp} {l : Ledger} {s : Scope}
    (ha : op.admission = some s) (hok : (op.run l).2 = true) : l.journal.SlotFree s ∧
      ∃ r ∈ (op.run l).1.journal.receipts, r.grantId = s.grantId ∧ r.task = s.task
        ∧ r.maxResultBytes ≠ 0 := by
  cases op with
  | claim g r =>
    cases ha
    cases htx : l.claimTx g r with
    | error e => simp [LedgerOp.run, Ledger.claim, Ledger.commit, htx, isOk] at hok
    | ok p =>
      obtain ⟨j', u⟩ := p
      have hc := Ledger.claimTx_ok htx
      have hj : (LedgerOp.run (.claim g r) l).1.journal = j' := by
        simp [LedgerOp.run, Ledger.claim, Ledger.commit, htx]
      refine ⟨hc.slot, Ledger.claimedRow g r.now, ?_, rfl, rfl, ?_⟩
      · rw [hj, hc.frame.receipts]
        simp
      · have := hc.valid.maxResultBytes.1
        show g.limits.maxResultBytes ≠ 0
        omega
  | consume d policy initial issuer session node r =>
    cases ha
    cases htx : l.consumeTx d policy initial issuer session node r with
    | error e => simp [LedgerOp.run, Ledger.consume, Ledger.commit, htx, isOk] at hok
    | ok p =>
      obtain ⟨j', u⟩ := p
      have hc := Ledger.consumeTx_ok htx
      have hj : (LedgerOp.run (.consume d policy initial issuer session node r) l).1.journal
          = j' := by
        simp [LedgerOp.run, Ledger.consume, Ledger.commit, htx]
      obtain ⟨j₁, reserved, t, -, -, -, -, -, -, rfl⟩ := hc.writes
      refine ⟨hc.slot, Ledger.consumedRow d (max r.now 1), ?_, rfl, rfl, ?_⟩
      · rw [hj]
        simp
      · have := hc.valid.totalBytes.1
        show d.events.maxTotalBytes ≠ 0
        omega
  | _ => cases ha

/-- An admitted row that is not completed keeps its task's slot taken. -/
theorem slot_taken {l : Ledger} (h : l.Reachable) {r : ReceiptRow} (hr : r ∈ l.journal.receipts)
    (hadm : r.maxResultBytes ≠ 0) (hopen : r.state ≠ .completed) {s : Scope} (ht : r.task = s.task) :
    ¬l.journal.SlotFree s := by
  intro hfree
  rcases hfree.latest with hnone | ⟨b, hb, hbt, hmax, -, hdone⟩
  · exact hnone r hr ht
  · rcases h.receiptsInv.below_completed hb hdone hr (ht.trans hbt.symm) (hmax r hr ht) with hd | h0
    · exact hopen hd
    · exact hadm h0

/-- **No replay.** In every ledger reached from an empty journal: each grant has one
row; along any further run a row keeps its digest, leaves `accepted` at most once and
then keeps its report; a task has at most one accepted row; and while an admitted
attempt is accepted or unknown, no admission for its task succeeds, whatever was
stopped, finished or reopened in between. -/
theorem ledger_no_replay {l l' : Ledger} (hl : l.Reachable) (hrun : Run LedgerStep l l') :
    (l.journal.receipts.map ReceiptRow.grantId).Nodup
    ∧ (∀ r ∈ l.journal.receipts, ∃ r' ∈ l'.journal.receipts, r.Evolves r')
    ∧ (∀ r ∈ l.journal.receipts, ∀ s ∈ l.journal.receipts, r.task = s.task →
        r.state = .accepted → s.state = .accepted → r = s)
    ∧ ∀ (op : LedgerOp) (s : Scope), op.admission = some s → (op.run l).2 = true →
        ∀ l₁, Run LedgerStep (op.run l).1 l₁ → ∀ r ∈ l₁.journal.receipts, r.grantId = s.grantId →
          r.state = .accepted ∨ r.state = .unknown →
          ∀ (op' : LedgerOp) (s' : Scope), op'.admission = some s' → s'.task = s.task →
            (op'.run l₁).2 = false := by
  have hinv := hl.receiptsInv
  refine ⟨hinv.ids, fun r hr => run_evolves hrun hr, ?_, ?_⟩
  · intro r hr s hs ht ha hb
    -- of two accepted attempts the lower one would be completed or a tombstone
    have noLower : ∀ a ∈ l.journal.receipts, ∀ b ∈ l.journal.receipts, a.task = b.task →
        a.state = .accepted → b.state = .accepted → ¬a.attempt < b.attempt := by
      intro a ha b hb ht hsa hsb hlt
      have hadm : b.maxResultBytes ≠ 0 := by
        intro h0
        have := hinv.tombstones b hb h0
        rw [hsb] at this
        cases this
      rcases hinv.settled a ha b hb ht hlt hadm with hd | h0
      · rw [hsa] at hd
        cases hd
      · have := hinv.tombstones a ha h0
        rw [hsa] at this
        cases this
    have h1 := noLower r hr s hs ht ha hb
    have h2 := noLower s hs r hr ht.symm hb ha
    exact hinv.slots r hr s hs ht (by omega)
  · intro op s ha hok l₁ hrun₁ r hr hid hstate op' s' ha' ht
    obtain ⟨-, r₀, hr₀, hid₀, ht₀, hadm₀⟩ := op.admission_ok ha hok
    have hreach : l₁.Reachable := (hl.step op).run hrun₁
    obtain ⟨r₁, hr₁, hevo⟩ := run_evolves hrun₁ hr₀
    have hsame : r₁ = r := by
      refine hreach.receiptsInv.ids.eq hr₁ hr ?_
      rw [hevo.grantId, hid₀, hid]
    subst hsame
    have hopen : r₁.state ≠ .completed := by
      rcases hstate with h | h <;> rw [h] <;> decide
    cases hok' : (op'.run l₁).2 with
    | false => rfl
    | true =>
      have hfree := (op'.admission_ok ha' hok').1
      refine absurd hfree (slot_taken hreach hr₁ ?_ hopen ?_)
      · rw [hevo.maxResultBytes]
        exact hadm₀
      · rw [hevo.task, ht₀, ht]

end

/-! A grant is claimed on a fresh journal, and its next attempt is refused while it
is open. -/

/-- The next attempt of the sample grant's task, under a new grant. -/
def retryGrant : ExecutionGrant :=
  { sampleGrant with grantId := "66666666-6666-4666-8666-666666666666", attempt := 2 }

/-- SHA-256 on the two grants. -/
@[reducible]
def replaySha : Sha256 :=
  Sha256.table [(sampleGrant.toJson, sampleScope.grantSha256),
      (retryGrant.toJson, "82379c9088a9914dbd72d67cbdeb620ee886b4f0a6442bfb437036097ce65b40")]
    [] [] sampleScope.grantSha256 sampleScope_grantSha256 (by decide) Sha256.no_rows Sha256.no_rows

/-- The ledger a node opens on a new file. -/
def openedLedger : Ledger :=
  ⟨"owner", GrantPolicy.default, { Journal.empty 4096 with version := 2, owner := some "owner" }, []⟩

/-- A clock and a page count for a claim. -/
def claimReadings : ClaimReadings := ⟨3, 1000, 1000, true⟩

/-- What opening the file and claiming the first grant come to. -/
theorem replay_checked :
    @Ledger.open F64.bits replaySha (Journal.empty 4096) GrantPolicy.default "owner" = .ok openedLedger
    ∧ (@LedgerOp.run F64.bits replaySha .never (@LedgerOp.claim replaySha sampleGrant claimReadings)
      openedLedger).2 = true
    ∧ @Ledger.claimedRow replaySha sampleGrant 1000 ∈ (@LedgerOp.run F64.bits replaySha .never
      (@LedgerOp.claim replaySha sampleGrant claimReadings) openedLedger).1.journal.receipts := by
  decide +kernel

theorem openedLedger_reachable : @Ledger.Reachable F64.bits replaySha .never openedLedger :=
  ⟨4096, GrantPolicy.default, "owner", openedLedger, replay_checked.1, .refl⟩

theorem ledger_no_replay_retry :
    (@LedgerOp.run F64.bits replaySha .never (@LedgerOp.claim replaySha retryGrant claimReadings)
      (@LedgerOp.run F64.bits replaySha .never (@LedgerOp.claim replaySha sampleGrant claimReadings)
        openedLedger).1).2 = false :=
  (@ledger_no_replay F64.bits replaySha .never openedLedger openedLedger openedLedger_reachable
    .refl).2.2.2 (@LedgerOp.claim replaySha sampleGrant claimReadings) _ rfl replay_checked.2.1 _
    .refl (@Ledger.claimedRow replaySha sampleGrant 1000) replay_checked.2.2 rfl (.inl rfl)
    (@LedgerOp.claim replaySha retryGrant claimReadings) _ rfl rfl

end Eef.Node
