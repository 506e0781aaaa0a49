import Eef.Node.PipelineEmission

/-!
# The clock of a running pipeline

A run that claims a pipeline and executes it (`Executing`) hands every observation to the ledger at
its own reading of the clock, which does not go back. `initial` takes the time of the claim for the
pending observation after it has checked it with another reading, so a claim that is made while the
clock reads zero leaves an observation that `validate` refuses: the receipt stays accepted, and none
of the observations of its run is.
-/

namespace Eef.Node

open Eef.Lib

section
variable [F64] [Sha256] [PeerAdmission]

/-- A run that claimed `g` when the clock read `claimedAt`, and executes it: the ledger, the last
reading of the clock, and the observations that are still to come. Any other calls come in between,
but none that observes this grant. -/
inductive Executing (g : ExecutionGrant) (admitted : Bool) (env : Nat → Stage) (claimedAt : Nat) :
    Ledger → Nat → List StageObservation → Prop
  | claimed {l : Ledger} {r : ClaimReadings} {first : PipelineProgress} (hl : l.Reachable)
      (hpipeline : g.capability = "pipeline.run") (hclaim : (l.claim g r).2 = .ok ())
      (hfirst : PipelineProgress.checkpoint g 0 .pending 0 0 r.observed = .ok first)
      (hnow : r.now = claimedAt) (hclock : r.now ≤ r.observed) :
      Executing g admitted env claimedAt (l.claim g r).1 r.observed
        (executeObservations admitted g env)
  | other {l : Ledger} {clock : Nat} {rest : List StageObservation} (op : LedgerOp)
      (h : Executing g admitted env claimedAt l clock rest)
      (hop : ∀ g' p stored, op = .progress g' p stored → g'.grantId ≠ g.grantId) :
      Executing g admitted env claimedAt (op.run l).1 clock rest
  | observed {l : Ledger} {clock now : Nat} {o : StageObservation} {rest : List StageObservation}
      {p : PipelineProgress} (h : Executing g admitted env claimedAt l clock (o :: rest))
      (hclock : clock ≤ now) (hmakes : o.Makes g now p)
      (haccepted : (l.recordPipelineProgress g p true).2 = .ok p) :
      Executing g admitted env claimedAt (l.recordPipelineProgress g p true).1 now rest

variable {g : ExecutionGrant} {admitted : Bool} {env : Nat → Stage} {claimedAt clock : Nat}
  {l : Ledger} {rest : List StageObservation}

/-- Such a run is one that observes the pipeline: what it accepted is the pending observation and
then, in order, what was made of the first observations of the loop. -/
theorem Executing.observing (h : Executing g admitted env claimedAt l clock rest) :
    ∃ first trace made, Observing g l (first :: trace) ∧ first.recordedAtMs = claimedAt ∧
      executeObservations admitted g env = made ++ rest ∧
      List.Forall₂ (fun o p => ∃ now, o.Makes g now p) made trace ∧
      ∀ q ∈ first :: trace, q.recordedAtMs ≤ clock := by
  induction h with
  | @claimed l r first hl hpipeline hclaim hfirst hnow hclock =>
    refine ⟨_, [], [], .claimed hl hpipeline hclaim hfirst, hnow, rfl, .nil, fun q hq => ?_⟩
    rw [List.mem_singleton.mp hq]
    exact hclock
  | @other l clock rest op _ hop ih =>
    obtain ⟨first, trace, made, hobs, hat, hsplit, hmade, hle⟩ := ih
    have hfaithful : op.Faithful g := by
      cases op with
      | progress g' p stored => exact fun heq _ => absurd heq (hop g' p stored rfl)
      | _ => trivial
    have hnone : op.accepted g.grantId l = none := by
      cases op with
      | progress g' p stored => exact if_neg (hop g' p stored rfl)
      | _ => rfl
    have hcall := hobs.call op hfaithful
    rw [hnone, Option.toList_none, List.append_nil] at hcall
    exact ⟨first, trace, made, hcall, hat, hsplit, hmade, hle⟩
  | @observed l clock now o rest p _ hclock hmakes haccepted ih =>
    obtain ⟨first, trace, made, hobs, hat, hsplit, hmade, hle⟩ := ih
    have hcall := hobs.call (.progress g p true) fun _ _ => rfl
    have hadded : LedgerOp.accepted g.grantId l (.progress g p true) = some p := by
      rw [LedgerOp.accepted, if_pos rfl, haccepted]
      rfl
    rw [hadded, Option.toList_some, List.cons_append] at hcall
    refine ⟨first, trace ++ [p], made ++ [o], hcall, hat, ?_, ?_, fun q hq => ?_⟩
    · rw [hsplit, List.append_assoc]
      rfl
    · exact List.rel_append hmade (.cons ⟨now, hmakes⟩ .nil)
    · rw [← List.cons_append] at hq
      rcases List.mem_append.mp hq with hq | hq
      · exact (hle q hq).trans hclock
      · obtain ⟨_, _, -, -, -, hobserved⟩ := PipelineProgress.checkpoint_ok.mp hmakes
        rw [List.mem_singleton.mp hq, hobserved]
        exact Nat.le_refl now

/-- **Pipeline progress is a legal trace.** The observations accepted for a finite pipeline, from
the one its claim wrote, are a prefix of its steps in order, each of them started and then completed
or failed; nothing is accepted after the one that ends it, and the receipt's time does not go back.
Of the runs that execute a pipeline under a clock that does not go back, those are never refused
an observation while the receipt is accepted whose clock did not read zero at the claim; the others
are refused every one. -/
theorem progress_legal {definition : FinitePipeline}
    (hd : FinitePipeline.fromGrant g = .ok definition) :
    (∀ l trace, Observing g l trace →
      LegalTrace definition trace ∧
      (∀ last, trace.getLast? = some last → last.Ended →
        ∀ p q stored, (l.recordPipelineProgress g p stored).2 ≠ .ok q) ∧
      ∀ (op : LedgerOp) (row : ReceiptRow), l.journal.receipt g.grantId = some row →
        ∃ row', (op.run l).1.journal.receipt g.grantId = some row' ∧
          row.updatedMs ≤ row'.updatedMs) ∧
    ∀ admitted env claimedAt l clock o rest,
      Executing g admitted env claimedAt l clock (o :: rest) →
      ∀ (now : Nat) (p : PipelineProgress) (row : ReceiptRow), clock ≤ now → o.Makes g now p →
        l.journal.receipt g.grantId = some row → row.state = .accepted →
        ((l.recordPipelineProgress g p true).2 = .ok p ↔ claimedAt ≠ 0) := by
  refine ⟨fun l trace h => ?_, ?_⟩
  · obtain ⟨acceptedAt, last, ht⟩ := h.traced
    refine ⟨ht.legalTrace hd, fun last' hlast hend p q stored => ?_, fun op row hrow => ?_⟩
    · obtain rfl : last = last' := Option.some.inj (ht.getLast.symm.trans hlast)
      exact ht.refuses hend p q stored
    · obtain ⟨row', hrow', hfixed, -, -⟩ := ht.row
      obtain rfl : row = row' := Option.some.inj (hrow.symm.trans hrow')
      exact ht.reachable.inv.run_updated op hrow
        (ReceiptRow.fixed_eq ReceiptRow.kind (fun _ => rfl) hfixed)
  · intro admitted env claimedAt l clock o rest h now p row hclock hmakes hrow hopen
    obtain ⟨first, trace, made, hobs, rfl, hsplit, hmade, hle⟩ := h.observing
    obtain ⟨acceptedAt, last, ht⟩ := hobs.traced
    have hat : first.recordedAtMs = acceptedAt := Option.some.inj ht.head
    rw [hat]
    exact ht.emitted hd hsplit hmade (fun q hq => (hle q hq).trans hclock) hmakes hrow hopen

end

/-! A pipeline of one native step is executed: at a clock that reads a time its first observation is
accepted, and at one that reads zero when the grant is claimed it is refused. -/

/-- A clock that begins to count between the claim and its observation. -/
def epochReadings : ClaimReadings := { claimReadings with now := 0 }

def epochLedger : Ledger :=
  (@Ledger.claim F64.bits replaySha .never openedLedger nativeGrant epochReadings).1

theorem epoch_refused :
    (@Ledger.claim F64.bits replaySha .never openedLedger nativeGrant epochReadings).2 = .ok () ∧
    epochLedger.journal.receipt nativeGrant.grantId
      = some (@Ledger.claimedRow replaySha nativeGrant 0) ∧
    isOk (@Ledger.recordPipelineProgress F64.bits replaySha .never epochLedger nativeGrant
      (nativeObservation .starting 24 1001) true).2 = false := by
  decide +kernel

theorem progress_legal_native :
    (@Ledger.recordPipelineProgress F64.bits replaySha .never nativeLedger nativeGrant
      (nativeObservation .starting 24 1001) true).2 = .ok (nativeObservation .starting 24 1001) := by
  obtain ⟨hd, hclaim, hfirst, hrun, hmade, hrow⟩ := native_observed
  have hstart := @Executing.claimed F64.bits replaySha .never nativeGrant true nativeEnv 1000
    openedLedger claimReadings _ openedLedger_reachable rfl hclaim hfirst rfl (Nat.le_refl _)
  rw [hrun] at hstart
  exact ((@progress_legal F64.bits replaySha .never nativeGrant nativePipeline hd).2 true nativeEnv
    1000 _ _ _ _ hstart 1001 _ _ (by decide) hmade hrow rfl).mpr (by decide)

/-- The clock read zero at the claim: the receipt is accepted, and the first observation of the run,
made when the clock has not gone back, is refused. -/
theorem epoch_claim_refused :
    ∃ l clock o rest p row,
      @Executing F64.bits replaySha .never nativeGrant true nativeEnv 0 l clock (o :: rest) ∧
      clock ≤ 1001 ∧ @StageObservation.Makes F64.bits o nativeGrant 1001 p ∧
      l.journal.receipt nativeGrant.grantId = some row ∧ row.state = .accepted ∧
      (@Ledger.recordPipelineProgress F64.bits replaySha .never l nativeGrant p true).2 ≠ .ok p := by
  obtain ⟨-, -, hfirst, hrun, hmade, -⟩ := native_observed
  obtain ⟨hclaim, hrow, hrefused⟩ := epoch_refused
  have hstart := @Executing.claimed F64.bits replaySha .never nativeGrant true nativeEnv 0
    openedLedger epochReadings _ openedLedger_reachable rfl hclaim hfirst rfl (Nat.zero_le _)
  rw [hrun] at hstart
  refine ⟨epochLedger, 1000, _, _, nativeObservation .starting 24 1001, _, hstart, by decide, hmade,
    hrow, rfl, fun h => ?_⟩
  rw [h] at hrefused
  cases hrefused

end Eef.Node
