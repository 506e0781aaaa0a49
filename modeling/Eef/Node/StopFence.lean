import Eef.Node.EventIntegrity

/-!
# The stop fence

`request_stop_scope` commits its row and signals the watcher under one hold of the
journal lock, `watch_stop_scope` reads the row and registers under the same lock, and
every admission, event and completion re-reads the row inside its own transaction. So
each call is one step, and the order of the steps is all that can vary.

Three invariants of runs carry `stop_fence`: a stop row stays (`run_stop`), a
registered watcher of a stopped scope holds `true` (`WatchInv`), and a stopped grant
gets no further event and no completion (`fence_step`).
-/

namespace Eef.Node

open Eef.Lib

section
variable [F64] [Sha256] [PeerAdmission]

/-! ## Stop rows stay -/

/-- Only a stop writes a stop row. -/
theorem Ledger.Commits.stop_or {l : Ledger} {op : LedgerOp} {j' : Journal} (h : l.Commits op j') :
    j'.stops = l.journal.stops ∨ ∃ s issuer session node r preexisted,
      op = .stop s issuer session node r ∧ l.journal.stop s.grantId = none
        ∧ j'.stops = some (l.journal.stops.getD [] ++
            [Ledger.stopRow s (max r.now 1) preexisted]) := by
  cases h with
  | claim h => exact .inl h.frame.stops
  | progress h =>
    obtain ⟨_, _, -, -, -, -, rfl⟩ := h.writes
    exact .inl rfl
  | finish h =>
    rw [h.writes]
    exact .inl rfl
  | consume h =>
    obtain ⟨j₁, reserved, t, hup, -, -, -, -, -, rfl⟩ := h.writes
    exact .inl (Journal.upgrade_ok hup).1.stops
  | append h =>
    obtain ⟨w, saved, -, -, -, -, ⟨-, rfl, -⟩ | ⟨-, record, -, hw, -⟩⟩ := h.writes
    · exact .inl rfl
    · obtain ⟨-, -, t, -, -, rfl⟩ := Ledger.appendWrite_ok hw
      exact .inl rfl
  | refused hj hle =>
    rcases hj with rfl | ⟨-, rfl⟩ <;> exact .inl rfl
  | save hread hscope h =>
    obtain ⟨_, _, _, _, _, _, -, -, -, -, -, -, rfl⟩ := h.writes
    exact .inl rfl
  | markUnknown hle => exact .inl rfl
  | @stop s issuer session node r _ h =>
    rcases h.writes with ⟨_, -, -, rfl⟩ | ⟨-, -, -, rfl⟩
    · exact .inr ⟨s, issuer, session, node, r, true, rfl, h.new, rfl⟩
    · exact .inr ⟨s, issuer, session, node, r, false, rfl, h.new, rfl⟩
  | reopen h =>
    have hj := h.journal
    split at hj
    · exact .inl hj.2.2.2.1
    · rw [hj]
      exact .inl rfl

omit [F64] [Sha256] [PeerAdmission] in
theorem stop_eq {j j' : Journal} (h : j'.stops = j.stops) (id : String) : j'.stop id = j.stop id := by
  rw [Journal.stop, Journal.stop, h]

omit [F64] [Sha256] [PeerAdmission] in
/-- Reading the stop of a grant after a stop row was added. -/
theorem stop_insert {j j' : Journal} {t : StopRow} (h : j'.stops = some (j.stops.getD [] ++ [t]))
    (id : String) :
    j'.stop id = (j.stop id).or (if t.grantId = id then some t else none) := by
  have hold : j.stop id = Table.find StopRow.grantId id (j.stops.getD []) := by
    unfold Journal.stop
    cases j.stops with
    | none => rfl
    | some rows => rfl
  rw [hold, Journal.stop, h]
  exact Table.find_insert id _ t

/-- A recorded stop is never changed. -/
theorem LedgerOp.run_stop {op : LedgerOp} {l : Ledger} {id : String} {t : StopRow}
    (h : l.journal.stop id = some t) : (op.run l).1.journal.stop id = some t := by
  rcases op.run_journal l with hj | hj
  · rw [hj, h]
  · rcases hj.stop_or with hs | ⟨s, _, _, _, r, preexisted, -, -, hs⟩
    · rw [stop_eq hs, h]
    · rw [stop_insert hs, h, Option.some_or]

theorem run_stop {l l' : Ledger} (hrun : Run LedgerStep l l') {id : String} {t : StopRow}
    (h : l.journal.stop id = some t) : l'.journal.stop id = some t := by
  induction hrun with
  | refl => exact h
  | tail _ hs ih =>
    obtain ⟨op, rfl⟩ := hs
    exact LedgerOp.run_stop ih

/-- A stop that returned `Ok` has committed the row of its exact scope. -/
theorem LedgerOp.stop_recorded {l : Ledger} {s : Scope} {issuer session node : String}
    {r : StopReadings} (hok : ((LedgerOp.stop s issuer session node r).run l).2 = true) :
    ∃ t, ((LedgerOp.stop s issuer session node r).run l).1.journal.stop s.grantId = some t
      ∧ t.grantDigest = s.grantSha256 := by
  cases htx : l.stopTx s issuer session node r with
  | error e =>
    simp [LedgerOp.run, Ledger.requestStopScope, Ledger.commit, htx, isOk] at hok
  | ok p =>
    obtain ⟨j', report⟩ := p
    have hj : ((LedgerOp.stop s issuer session node r).run l).1.journal = j' := by
      simp only [LedgerOp.run, Ledger.requestStopScope, Ledger.commit, htx, Ledger.signal,
        Prod.map, id]
      repeat' split
      all_goals rfl
    rw [hj]
    rcases Ledger.stopTx_ok htx with ⟨rfl, t, ht, hc⟩ | hs
    · refine ⟨t, ht, ?_⟩
      simp only [StopReport.confirmsScope, StopReport.ofRow, Bool.and_eq_true, beq_iff_eq] at hc
      exact hc.1.1.1.1.1.1.2.symm
    · have hnew := hs.new
      rcases hs.writes with ⟨_, -, -, rfl⟩ | ⟨-, -, -, rfl⟩
      · refine ⟨Ledger.stopRow s (max r.now 1) true, ?_, rfl⟩
        rw [stop_insert rfl, hnew]
        simp [Ledger.stopRow]
      · refine ⟨Ledger.stopRow s (max r.now 1) false, ?_, rfl⟩
        rw [stop_insert rfl, hnew]
        simp [Ledger.stopRow]

/-! ## Watchers hear of the stop -/

/-- A registered watcher of a stopped scope holds `true`. -/
def WatchInv (l : Ledger) : Prop :=
  ∀ id digest value, l.watchers.lookup id = some (digest, value) →
    ∀ t, l.journal.stop id = some t → t.grantDigest = digest → value = true

omit [F64] [Sha256] [PeerAdmission] in
theorem Ledger.commit_watchers {α : Type} (l : Ledger) (tx : Result (Journal × α)) :
    (l.commit tx).1.watchers = l.watchers := by
  cases tx <;> rfl

/-- The watchers only change when one is registered, dropped or signalled, or with a new
ledger. -/
theorem LedgerOp.run_watchers (op : LedgerOp) (l : Ledger) :
    (op.run l).1.watchers = l.watchers ∨ (∃ s, op = .watch s) ∨ (∃ id, op = .unwatch id)
      ∨ (∃ s issuer session node r, op = .stop s issuer session node r)
      ∨ ∃ policy node, op = .reopen policy node := by
  cases op with
  | claim g r => exact .inl (l.commit_watchers _)
  | progress g p stored => exact .inl (l.commit_watchers _)
  | finish g report now stored => exact .inl (l.commit_watchers _)
  | consume d policy initial issuer session node r => exact .inl (l.commit_watchers _)
  | append d event checkpoint r =>
    refine .inl ?_
    rw [← l.commit_watchers (l.appendTx d event checkpoint.value r)]
    simp only [LedgerOp.run, Ledger.append, Prod.map, id]
    split <;> simp_all
  | save evidence r =>
    refine .inl ?_
    rw [← l.commit_watchers (l.saveTx evidence r)]
    simp only [LedgerOp.run, Ledger.save, Prod.map, id]
    split <;> simp_all
  | markUnknown s now stored => exact .inl (l.commit_watchers _)
  | stop s issuer session node r => exact .inr (.inr (.inr (.inl ⟨_, _, _, _, _, rfl⟩)))
  | watch s => exact .inr (.inl ⟨s, rfl⟩)
  | unwatch id => exact .inr (.inr (.inl ⟨id, rfl⟩))
  | reopen policy node => exact .inr (.inr (.inr (.inr ⟨_, _, rfl⟩)))

/-- Outside a stop, no stop row appears. -/
theorem LedgerOp.run_stop_eq {op : LedgerOp} {l : Ledger}
    (hop : ∀ s issuer session node r, op ≠ .stop s issuer session node r) (id : String) :
    (op.run l).1.journal.stop id = l.journal.stop id := by
  rcases op.run_journal l with hj | hj
  · rw [hj]
  · rcases hj.stop_or with hs | ⟨s, issuer, session, node, r, _, rfl, -, -⟩
    · exact stop_eq hs id
    · exact absurd rfl (hop s issuer session node r)

omit [F64] [Sha256] [PeerAdmission] in
theorem watchInv_watch {l : Ledger} (h : WatchInv l) (s : Scope) : WatchInv (l.watchStopScope s).1 := by
  unfold Ledger.watchStopScope
  split
  · exact h
  · rename_i stopped hrec
    split
    · exact h
    · intro id digest value hlook t ht hd
      simp only [Assoc.lookup_set] at hlook
      split at hlook
      · rename_i hid
        cases hlook
        rcases Journal.recordedScope_ok.mp hrec with ⟨hnone, -⟩ | ⟨_, -, -, -, htrue⟩
        · rw [← hid] at hnone
          rw [hnone] at ht
          cases ht
        · exact htrue
      · exact h id digest value hlook t ht hd

omit [F64] [Sha256] [PeerAdmission] in
theorem watchInv_stop {l : Ledger} (h : WatchInv l) (s : Scope) (issuer session node : String)
    (r : StopReadings) : WatchInv (l.requestStopScope s issuer session node r).1 := by
  unfold Ledger.requestStopScope
  cases htx : l.stopTx s issuer session node r with
  | error e => exact h
  | ok p =>
    obtain ⟨j', report⟩ := p
    simp only [Ledger.commit, Ledger.signal]
    -- a stop of another grant leaves this watcher's row alone
    have hother : ∀ id, id ≠ s.grantId → j'.stop id = l.journal.stop id := by
      intro id hne
      rcases Ledger.stopTx_ok htx with ⟨rfl, -⟩ | hs
      · rfl
      · rcases hs.writes with ⟨_, -, -, rfl⟩ | ⟨-, -, -, rfl⟩ <;>
          rw [stop_insert rfl] <;> simp [Ledger.stopRow, Ne.symm hne]
    have hdigest : ∀ t, j'.stop s.grantId = some t → t.grantDigest = s.grantSha256 := by
      intro t ht
      rcases Ledger.stopTx_ok htx with ⟨rfl, t', ht', hc⟩ | hs
      · rw [ht'] at ht
        cases ht
        simp only [StopReport.confirmsScope, StopReport.ofRow, Bool.and_eq_true, beq_iff_eq] at hc
        exact hc.1.1.1.1.1.1.2.symm
      · have hnew := hs.new
        rcases hs.writes with ⟨_, -, -, rfl⟩ | ⟨-, -, -, rfl⟩ <;>
          · rw [stop_insert rfl, hnew] at ht
            simp only [Ledger.stopRow, Option.none_or, if_true, Option.some.injEq] at ht
            rw [← ht]
    split
    · rename_i hnone
      intro id digest value hlook t ht hd
      by_cases hid : id = s.grantId
      · rw [hid, hnone] at hlook
        cases hlook
      · exact h id digest value hlook t ((hother id hid).symm.trans ht) hd
    · rename_i expected old hsome
      split
      · intro id digest value hlook t ht hd
        simp only [Assoc.lookup_set] at hlook
        split at hlook
        · cases hlook
          rfl
        · rename_i hid
          exact h id digest value hlook t ((hother id hid).symm.trans ht) hd
      · rename_i hne
        intro id digest value hlook t ht hd
        by_cases hid : id = s.grantId
        · -- the watcher is of another definition under this grant
          subst hid
          rw [hsome] at hlook
          cases hlook
          exact absurd (hd.symm.trans (hdigest t ht)) hne
        · exact h id digest value hlook t ((hother id hid).symm.trans ht) hd

theorem watchInv_step {l l' : Ledger} (h : WatchInv l) (hs : LedgerStep l l') : WatchInv l' := by
  obtain ⟨op, rfl⟩ := hs
  rcases op.run_watchers l with hw | ⟨s, rfl⟩ | ⟨id, rfl⟩ | ⟨s, issuer, session, node, r, rfl⟩ |
    ⟨policy, node, rfl⟩
  · by_cases hop : ∃ s issuer session node r, op = .stop s issuer session node r
    · obtain ⟨s, issuer, session, node, r, rfl⟩ := hop
      exact watchInv_stop h s issuer session node r
    · push Not at hop
      intro id digest value hlook t ht hd
      rw [hw] at hlook
      exact h id digest value hlook t ((LedgerOp.run_stop_eq hop id).symm.trans ht) hd
  · exact watchInv_watch h s
  · intro id' digest value hlook t ht hd
    simp only [LedgerOp.run, Ledger.unwatch, Assoc.lookup_erase] at hlook
    split at hlook
    · cases hlook
    · exact h id' digest value hlook t ht hd
  · exact watchInv_stop h s issuer session node r
  · simp only [LedgerOp.run]
    split
    · rename_i l' hopen
      intro id digest value hlook
      rw [(Ledger.open_ok hopen).watchers] at hlook
      cases hlook
    · exact h

theorem Ledger.Reachable.watchInv {l : Ledger} (h : l.Reachable) : WatchInv l := by
  obtain ⟨pageSize, policy, node, start, hopen, hrun⟩ := h
  have hstart : WatchInv start := by
    intro id digest value hlook
    rw [(Ledger.open_ok hopen).watchers] at hlook
    cases hlook
  exact @Run.invariant _ _ WatchInv (fun _ _ => watchInv_step) _ _ hstart hrun

/-! ## A stopped workload stays silent -/

/-- The calls of the fence: every one but `finish`, which reports on operation grants. -/
def FenceStep (l l' : Ledger) : Prop :=
  ∃ op : LedgerOp, (∀ g report now stored, op ≠ .finish g report now stored) ∧ l' = (op.run l).1

theorem FenceStep.ledger {l l' : Ledger} (h : FenceStep l l') : LedgerStep l l' := by
  obtain ⟨op, -, rfl⟩ := h
  exact ⟨op, rfl⟩

/-- No call adds an event to a stopped grant. -/
theorem Ledger.Commits.eventRows {l : Ledger} {op : LedgerOp} {j' : Journal}
    (h : l.Commits op j') {id : String} (hstop : l.journal.stop id ≠ none) :
    j'.eventRows id = l.journal.eventRows id := by
  cases h with
  | claim h => rw [Journal.eventRows, h.frame.eventTables, Journal.eventRows]
  | progress h =>
    obtain ⟨_, _, -, -, -, -, rfl⟩ := h.writes
    rfl
  | finish h =>
    rw [h.writes]
    rfl
  | consume h =>
    obtain ⟨j₁, reserved, t, hup, -, -, -, ht, -, rfl⟩ := h.writes
    rw [← (Journal.upgrade_ok hup).1.events id]
    simp [Journal.eventRows, ht]
  | @append d event checkpoint r _ receipt h =>
    obtain ⟨w, saved, -, -, -, -, ⟨-, rfl, -⟩ | ⟨-, record, -, hw, -⟩⟩ := h.writes
    · rfl
    · obtain ⟨-, -, t, ht, -, rfl⟩ := Ledger.appendWrite_ok hw
      have hne : d.grantId ≠ id := by
        intro heq
        rw [← heq] at hstop
        exact hstop h.unstopped
      simp [Journal.eventRows, ht, Ledger.eventRowOf, hne]
  | refused hj hle => rcases hj with rfl | ⟨-, rfl⟩ <;> rfl
  | save hread hscope h =>
    obtain ⟨_, _, _, _, _, _, -, -, -, -, -, -, rfl⟩ := h.writes
    rfl
  | markUnknown hle => rfl
  | stop h => rcases h.writes with ⟨_, -, -, rfl⟩ | ⟨-, -, -, rfl⟩ <;> rfl
  | reopen h =>
    have hj := h.journal
    split at hj
    · rw [Journal.eventRows, hj.2.2.1, Journal.eventRows]
    · rw [hj]

/-- Outside `finish`, no call completes a stopped grant. -/
theorem Ledger.Commits.not_completed {l : Ledger} {op : LedgerOp} {j' : Journal}
    (h : l.Commits op j') (hop : ∀ g report now stored, op ≠ .finish g report now stored)
    {id : String} (hstop : l.journal.stop id ≠ none)
    (hopen : ∀ r ∈ l.journal.receipts, r.grantId = id → r.state ≠ .completed) :
    ∀ r ∈ j'.receipts, r.grantId = id → r.state ≠ .completed := by
  -- a revision that does not complete rows keeps them open
  have hrevise : ∀ (p : ReceiptRow → Bool) (f : ReceiptRow → ReceiptRow),
      (∀ r, (f r).grantId = r.grantId) →
      (∀ r, p r = true → r.grantId = id → r.state ≠ .completed → (f r).state ≠ .completed) →
      ∀ r ∈ Table.update p f l.journal.receipts, r.grantId = id → r.state ≠ .completed := by
    intro p f hid hf r hr hrid
    obtain ⟨r₀, hr₀, rfl⟩ := Table.mem_update.mp hr
    split at hrid
    · rename_i hp
      rw [hid] at hrid
      rw [if_pos hp]
      exact hf r₀ hp hrid (hopen r₀ hr₀ hrid)
    · rename_i hp
      rw [if_neg hp]
      exact hopen r₀ hr₀ hrid
  have hinsert : ∀ (r₀ : ReceiptRow), r₀.state ≠ .completed →
      ∀ r ∈ l.journal.receipts ++ [r₀], r.grantId = id → r.state ≠ .completed := by
    intro r₀ h₀ r hr hrid
    simp only [List.mem_append, List.mem_singleton] at hr
    rcases hr with hr | rfl
    · exact hopen r hr hrid
    · exact h₀
  cases h with
  | claim h =>
    rw [h.frame.receipts]
    exact hinsert _ (by simp [Ledger.claimedRow])
  | progress h =>
    obtain ⟨_, _, -, -, -, -, rfl⟩ := h.writes
    exact hrevise _ _ (fun _ => rfl) fun r _ _ h => h
  | @finish g report now stored => exact absurd rfl (hop g report now stored)
  | consume h =>
    obtain ⟨j₁, reserved, t, -, -, -, -, -, -, rfl⟩ := h.writes
    exact hinsert _ (by simp [Ledger.consumedRow])
  | append h =>
    obtain ⟨w, saved, -, -, -, -, ⟨-, rfl, -⟩ | ⟨-, record, -, hw, -⟩⟩ := h.writes
    · exact hopen
    · obtain ⟨-, -, t, -, -, rfl⟩ := Ledger.appendWrite_ok hw
      exact hrevise _ _ (fun _ => rfl) fun r _ _ h => h
  | refused hj hle =>
    rcases hj with rfl | ⟨-, rfl⟩ <;>
      exact hrevise _ _ (fun _ => rfl) fun r _ _ _ => by simp
  | save hread hscope h =>
    -- `save` completes only the unstopped grant it was for
    have hun := h.unstopped
    obtain ⟨_, _, _, _, _, _, -, -, -, -, -, -, rfl⟩ := h.writes
    refine hrevise _ _ (fun _ => rfl) fun r hp hrid _ => ?_
    have hsame := (of_decide_eq_true hp).1
    rw [← hsame, hrid] at hun
    exact absurd hun hstop
  | markUnknown hle => exact hrevise _ _ (fun _ => rfl) fun r _ _ _ => by simp
  | stop h =>
    rcases h.writes with ⟨_, -, -, rfl⟩ | ⟨-, -, -, rfl⟩
    · exact hopen
    · exact hinsert _ (by simp [Ledger.tombstone])
  | reopen h =>
    rw [h.receipts]
    exact hopen

/-- What a fenced step keeps about a stopped grant that is not completed. -/
theorem fence_step {l l' : Ledger} (hs : FenceStep l l') {id : String} {t : StopRow}
    (hstop : l.journal.stop id = some t)
    (hopen : ∀ r ∈ l.journal.receipts, r.grantId = id → r.state ≠ .completed) :
    l'.journal.eventRows id = l.journal.eventRows id
      ∧ ∀ r ∈ l'.journal.receipts, r.grantId = id → r.state ≠ .completed := by
  obtain ⟨op, hop, rfl⟩ := hs
  have hne : l.journal.stop id ≠ none := by simp [hstop]
  rcases op.run_journal l with hj | hj
  · rw [hj]
    exact ⟨rfl, hopen⟩
  · exact ⟨hj.eventRows hne, hj.not_completed hop hne hopen⟩

theorem fence_run {l l' : Ledger} (hrun : Run FenceStep l l') {id : String} {t : StopRow}
    (hstop : l.journal.stop id = some t)
    (hopen : ∀ r ∈ l.journal.receipts, r.grantId = id → r.state ≠ .completed) :
    l'.journal.stop id = some t ∧ l'.journal.eventRows id = l.journal.eventRows id
      ∧ ∀ r ∈ l'.journal.receipts, r.grantId = id → r.state ≠ .completed := by
  induction hrun with
  | refl => exact ⟨hstop, rfl, hopen⟩
  | tail _ hs ih =>
    obtain ⟨h1, h2, h3⟩ := ih
    obtain ⟨k2, k3⟩ := fence_step hs h1 h3
    obtain ⟨op, -, rfl⟩ := hs
    exact ⟨LedgerOp.run_stop h1, k2.trans h2, k3⟩

/-- **The stop fence.** For a scope `s` on a reachable ledger, over every interleaving:
once its stop row is committed, no admission of `s` succeeds; once a stop of `s` has
returned, a registered watcher of `s` holds `true`, whether it was registered before or
after; and if the grant of `s` is an accepted workload when its stop row is there, it
never gets another event and is never completed. -/
theorem stop_fence {l : Ledger} (hl : l.Reachable) (s : Scope) :
    ((l.journal.stop s.grantId).isSome = true → ∀ l', Run LedgerStep l l' →
      ∀ op : LedgerOp, op.admission = some s → (op.run l').2 = false)
    ∧ (∀ issuer session node r, ((LedgerOp.stop s issuer session node r).run l).2 = true →
      (((LedgerOp.stop s issuer session node r).run l).1.journal.stop s.grantId).isSome = true
      ∧ ∀ l', Run LedgerStep ((LedgerOp.stop s issuer session node r).run l).1 l' →
        ∀ value, l'.watchers.lookup s.grantId = some (s.grantSha256, value) → value = true)
    ∧ ((l.journal.stop s.grantId).isSome = true →
      ∀ e ∈ l.journal.receipts, e.grantId = s.grantId → e.kind = .workload → e.state = .accepted →
        ∀ l', Run FenceStep l l' →
          l'.journal.eventRows s.grantId = l.journal.eventRows s.grantId
            ∧ ∀ e' ∈ l'.journal.receipts, e'.grantId = s.grantId → e'.state ≠ .completed) := by
  refine ⟨?_, ?_, ?_⟩
  · intro hsome l' hrun op ha
    obtain ⟨t, ht⟩ := Option.isSome_iff_exists.mp hsome
    have ht' := run_stop hrun ht
    cases hok : (op.run l').2 with
    | false => rfl
    | true =>
      have := (op.admission_ok ha hok).1.unstopped
      rw [ht'] at this
      cases this
  · intro issuer session node r hok
    obtain ⟨t, ht, hd⟩ := LedgerOp.stop_recorded hok
    refine ⟨by rw [ht]; rfl, ?_⟩
    intro l' hrun value hlook
    exact ((hl.step _).run hrun).watchInv _ _ _ hlook t (run_stop hrun ht) hd
  · intro hsome e he hid hkind hacc l' hrun
    obtain ⟨t, ht⟩ := Option.isSome_iff_exists.mp hsome
    have hopen : ∀ r ∈ l.journal.receipts, r.grantId = s.grantId → r.state ≠ .completed := by
      intro r hr hrid
      rw [hl.receiptsInv.ids.eq hr he (hrid.trans hid.symm), hacc]
      decide
    exact (fence_run hrun ht hopen).2

end

/-! The sample workload is watched and then stopped: the watcher hears of it, the workload is not
consumed again, and its first event comes too late. -/

section
attribute [local instance] F64.bits PeerAdmission.never eventSha

/-- The consumed and watched workload. -/
def watchedLedger : Ledger := ((LedgerOp.watch workloadContract.scope).run workloadLedger).1

/-- The stop of the workload by its own issuer. -/
@[reducible]
def workloadStop : LedgerOp :=
  .stop workloadContract.scope sampleWorkload.issuerId sampleWorkload.sessionId
    sampleWorkload.executorNode ⟨4, 2000, true, true⟩

/-- The ledger after it. -/
def stoppedLedger : Ledger := (workloadStop.run watchedLedger).1

/-- Its first event, which a session that has not heard of the stop would save. -/
@[reducible]
def lateEvent : LedgerOp := .append sampleWorkload firstEvent workloadCheckpoint liveReadings

/-- The stop goes through, and leaves the workload accepted without an event. -/
theorem workload_stopped : (workloadStop.run watchedLedger).2 = true
    ∧ stoppedLedger.journal.eventRows sampleWorkload.grantId = []
    ∧ Ledger.consumedRow sampleWorkload 1000 ∈ stoppedLedger.journal.receipts := by
  decide +kernel

theorem stop_fence_watched :
    (workloadStop.run watchedLedger).2 = true
    ∧ (∀ value, stoppedLedger.watchers.lookup sampleWorkload.grantId
        = some (workloadContract.scope.grantSha256, value) → value = true)
    ∧ (sampleConsume.run stoppedLedger).2 = false
    ∧ (lateEvent.run stoppedLedger).1.journal.eventRows sampleWorkload.grantId = []
    ∧ ∀ r ∈ (lateEvent.run stoppedLedger).1.journal.receipts,
      r.grantId = sampleWorkload.grantId → r.state ≠ .completed := by
  obtain ⟨hstop, hsilent, hrow⟩ := workload_stopped
  have hwatched : watchedLedger.Reachable := workloadLedger_reachable.step _
  have hadmits : sampleConsume.admission = some workloadContract.scope := by
    show some (sampleWorkload.identityScope sampleWorkload.digest) = _
    rw [workloadDigest_eq]
    rfl
  have hlate : FenceStep stoppedLedger (lateEvent.run stoppedLedger).1 := by
    refine ⟨lateEvent, ?_, rfl⟩
    intro _ _ _ _ h
    cases h
  obtain ⟨hfound, hheard⟩ := (stop_fence hwatched workloadContract.scope).2.1 _ _ _ _ hstop
  obtain ⟨hadmission, -, hevents⟩ :=
    stop_fence (hwatched.step workloadStop) workloadContract.scope
  obtain ⟨hrows, hopen⟩ := hevents hfound _ hrow rfl rfl rfl _ (.single hlate)
  exact ⟨hstop, hheard _ .refl, hadmission hfound _ .refl sampleConsume hadmits,
    hrows.trans hsilent, hopen⟩

end

end Eef.Node
