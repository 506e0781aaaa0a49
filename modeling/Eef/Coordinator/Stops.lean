import Eef.Coordinator.Attempts

/-!
# Stops and interruption keep an execution valid

A stop request, its settlement, the closing of an interrupted plan and abandonment leave
the attempts as they are (`retag_executed`); interruption turns a live attempt into an
uncertain one (`interrupt_executed`). Settlement and interruption are shown for pairs as
well.
-/

namespace Eef.Coordinator

open Eef.Lib Eef.Node

namespace Plan

section
variable [F64] [PeerAdmission] [Sha256] [Pairing]

variable {p : Plan} {e : ExecutionRecord} {ap : ApprovalRecord} {pl : PlanningRecord}
  {dr : DraftRecord}

/-! ## Stop, settlement and abandonment -/

/-- The attempts stay, the plan gets another status and its waiting tasks are settled. -/
theorem retag_executed {paired : Bool} (h : p.Executed e ap pl dr paired) {c : Task → Task}
    (hc : Settling c) {status : PlanStatus}
    (hstatus : status = .running ∨ status = .stopping ∨ status = .completed ∨ status = .failed
      ∨ status = .interrupted ∨ status = .cancelled ∨ status = .abandoned)
    {q : Plan} {e' : ExecutionRecord} {now : Nat} {hist : List JobEvent}
    (hattempts : e'.attempts = e.attempts) (hschema : e'.schemaVersion = e.schemaVersion)
    (hcmd : e'.command = e.command) (hstart : e'.startedAtMs = e.startedAtMs)
    (hq : q = ({ p with execution := some e', tasks := p.tasks.map c, status := status } :
      Plan).stamped now hist)
    (hstop : StopKept e') (hpair : q.validatePair e' = .ok paired)
    (hrec : ∀ b ∈ e.attempts, q.validateRecovery e' b = .ok ())
    (hstates : q.statusFits e' paired) (habandon : q.validateAbandonment e' = .ok ()) :
    q.Executed e' ap pl dr paired := by
  have hget : ∀ (j : Nat) t', q.tasks[j]? = some t' → ∃ t, p.tasks[j]? = some t ∧ t' = c t := by
    intro j t' ht'
    rw [hq] at ht'
    simp only [stamped, List.getElem?_map] at ht'
    obtain ⟨t, ht, rfl⟩ := Option.map_eq_some_iff.1 ht'
    exact ⟨t, ht, rfl⟩
  have hdef : q.definition = p.definition := by
    have hfresh : Task.fresh ∘ c = Task.fresh := funext hc.fresh
    rw [hq]
    simp only [definition, stamped, List.map_map, hfresh]
  refine h.update hdef (by rw [hq]; exact Nat.le_succ _) hschema hcmd hstart (by rw [hattempts])
    ?_ (by rw [hq]; exact hstatus) hstop hpair ?_ ?_ (by rw [hattempts]; exact h.chain)
    (by rw [hattempts]; exact hrec) ?_ hstates habandon
  · intro j t t' ht ht' hsome
    obtain ⟨t1, h1, rfl⟩ := hget j t' ht'
    cases ht.symm.trans h1
    obtain ⟨b, hb⟩ := Option.isSome_iff_exists.1 hsome
    rw [hc.eq (h.tracks j t b ht hb).status.1]
    exact ⟨rfl, rfl⟩
  · intro j t' ht' hj
    obtain ⟨t, ht, rfl⟩ := hget j t' ht'
    rw [hattempts] at hj
    exact hc.unissued (h.unissued j t ht hj)
  · intro j t' b ht' hb
    obtain ⟨t, ht, rfl⟩ := hget j t' ht'
    rw [hattempts] at hb
    have htr := h.tracks j t b ht hb
    rw [hc.eq htr.status.1]
    exact htr
  · intro k v
    rw [hq]
    simp only [stamped, List.mem_map]
    rw [h.results k v]
    constructor
    · rintro ⟨t, ht, hid, hv⟩
      exact ⟨c t, ⟨t, ht, rfl⟩, (hc.taskId t).trans hid, (hc.result t).trans hv⟩
    · rintro ⟨_, ⟨t, ht, rfl⟩, hid, hv⟩
      exact ⟨t, ht, (hc.taskId t).symm.trans hid, (hc.result t).symm.trans hv⟩

/-- The tasks of a plan whose attempts all came to a known end are closed by cancelling
those that wait. -/
theorem Executed.closed_tasks {paired : Bool} (h : p.Executed e ap pl dr paired)
    (hlive : ∀ a ∈ e.attempts, a.state.live = false ∧ a.state ≠ .unknown) {t' : Task}
    (ht' : t' ∈ p.tasks.map Task.cancelled) :
    ¬(t'.status = .pending ∨ t'.status = .running ∨ t'.status = .interrupted) := by
  obtain ⟨t, ht, rfl⟩ := List.mem_map.1 ht'
  obtain ⟨j, hj⟩ := List.mem_iff_getElem?.1 ht
  cases hb : e.attempts[j]? with
  | none => simp [(Task.cancelled_unissued (h.unissued j t hj hb)).2]
  | some b =>
    obtain ⟨h1, -, -, h4, h5, -⟩ := (h.tracks j t b hj hb).status
    obtain ⟨hl, hu⟩ := hlive b (List.mem_of_getElem? hb)
    rw [Task.cancelled_eq h1]
    simp [h1, h4, h5, hl, hu]

/-- `settle_unissued_stop` of a stopping plan whose attempts all came to a known end. -/
theorem settleStop_executed {paired : Bool} (h : p.Executed e ap pl dr paired)
    (he : p.execution = some e) (hstopping : p.status = .stopping)
    (hlive : ∀ a ∈ e.attempts, a.state.live = false ∧ a.state ≠ .unknown) {q : Plan} {now : Nat}
    {hist : List JobEvent} (hq : q = p.settleStop.stamped now hist) :
    q.execution = some e ∧ q.Executed e ap pl dr paired := by
  have hq' : q = ({ p with
      execution := some e
      tasks := p.tasks.map Task.cancelled
      status := .cancelled } : Plan).stamped now hist := by
    rw [hq, ← he]
    rfl
  have hl : p.status.live = true := by rw [hstopping]; rfl
  have hnab := h.abandonment_none (ne_abandoned_of_live hl)
  refine ⟨by rw [hq']; rfl, retag_executed h settling_cancelled (by simp) rfl rfl rfl rfl hq' h.stop
    ?_ (fun b hb => validateRecovery_none (h.recovery_none hl hb)) ?_ ?_⟩
  · -- an issued pair without a live attempt would not be stopping
    have hdef : q.definition = p.definition := by
      have hfresh : Task.fresh ∘ Task.cancelled = Task.fresh := funext Task.cancelled_fresh
      rw [hq']
      simp only [definition, stamped, List.map_map, hfresh]
    have hpair := h.pair
    unfold validatePair at hpair ⊢
    rw [pairDefinition_of_definition hdef]
    cases hpeer : e.peer with
    | none => simpa only [hpeer] using hpair
    | some r =>
      simp only [hpeer, bind_ok, ensure_ok, validateJoint_ok, pure_ok] at hpair
      obtain ⟨_, -, _, -, _, -, _, ⟨-, -, -, hst⟩, -⟩ := hpair
      have hany : (e.attempts.any fun a => a.state.live) = false := by
        rw [List.any_eq_false]
        intro a ha
        simp [(hlive a ha).1]
      rw [hany, if_neg (by simp), hstopping] at hst
      rcases hst with hst | ⟨-, hst⟩
      · unfold pairOutcome at hst
        split at hst
        · cases hst
        · split at hst <;> cases hst
      · cases hst
  · refine ⟨fun _ a ha => (hlive a ha).1, ?_, ?_, ?_, ?_, ?_⟩
    · intro hst
      rw [hq'] at hst
      cases hst
    · intro hst
      rw [hq'] at hst
      cases hst
    · intro _ t' ht'
      rw [hq'] at ht'
      exact h.closed_tasks hlive ht'
    · intro _ hst
      rw [hq'] at hst
      cases hst
    · exact h.states.2.2.2.2.2
  · rw [hq']
    simp [validateAbandonment, hnab, ensure, stamped]

omit [Pairing] in
/-- A stop request is saved once, with a time the journal can store. -/
theorem StopKept.request (h : StopKept e) {now : Nat} (hnow : now ≤ i64Max)
    (hstart : e.startedAtMs ≤ i64Max) :
    StopKept { e with
      stopRequestedAtMs := some (e.stopRequestedAtMs.getD (max now e.startedAtMs)) } := by
  cases hr : e.stopRequestedAtMs with
  | none =>
    refine ⟨fun t ht => ?_, fun a ha stop hs => ?_⟩
    · cases ht
      simp only [Option.getD_none]
      omega
    · have := (h.delivered a ha stop hs).1
      rw [hr] at this
      cases this
  | some t =>
    refine ⟨fun t' ht' => ?_, fun a ha stop hs => ?_⟩
    · cases ht'
      exact h.requested t hr
    · have := h.delivered a ha stop hs
      rw [hr] at this
      exact this

/-- A stop of a plan that runs. -/
theorem stop_executed (h : p.Executed e ap pl dr false) (hlive : p.status.live = true)
    {q : Plan} {e' : ExecutionRecord} {t now : Nat} {hist : List JobEvent} (ht : t ≤ i64Max)
    (hstart : e.startedAtMs ≤ i64Max)
    (he' : e' = { e with
      stopRequestedAtMs := some (e.stopRequestedAtMs.getD (max t e.startedAtMs)) })
    (hq : q = ({ p with status := .stopping, execution := some e' } : Plan).stamped now hist) :
    q.Executed e' ap pl dr false := by
  subst he'
  have hq' : q = ({ p with
      execution := some { e with
        stopRequestedAtMs := some (e.stopRequestedAtMs.getD (max t e.startedAtMs)) }
      tasks := p.tasks.map id
      status := .stopping } : Plan).stamped now hist := by
    rw [hq, List.map_id]
  have hnab := h.abandonment_none (ne_abandoned_of_live hlive)
  refine retag_executed h settling_id (by simp) rfl rfl rfl rfl hq' (h.stop.request ht hstart)
    (h.unpaired (by rw [hq]; rfl) rfl)
    (fun b hb => validateRecovery_none (h.recovery_none hlive hb)) ?_ ?_
  · refine ⟨fun hst => ?_, fun hst => ?_, fun hst => ?_, fun hst => ?_, fun _ _ t' ht' => ?_,
      h.states.2.2.2.2.2⟩
    · rw [hq] at hst
      cases hst
    · rw [hq] at hst
      cases hst
    · rw [hq] at hst
      cases hst
    · rw [hq] at hst
      cases hst
    · rw [hq] at ht'
      exact h.states.2.2.2.2.1 rfl hlive t' ht'
  · rw [hq]
    simp [validateAbandonment, hnab, ensure, stamped]

omit [Pairing] in
/-- Retained evidence survives a later edit of a plan that stays settled. -/
theorem validateRecovery_later {q : Plan} {e' : ExecutionRecord} {b : GrantedAttempt}
    (h : p.validateRecovery e b = .ok ()) (hdef : q.definition = p.definition)
    (happroval : q.approval = p.approval) (he : p.execution = some e)
    (he' : q.execution = some e') (hattempts : e'.attempts = e.attempts)
    (hcmd : e'.command = e.command) (hnab : e'.abandonment = none)
    (hrev : p.revision ≤ q.revision) (hupdated : p.updatedAtMs ≤ q.updatedAtMs)
    (hstatus : ¬(q.status = .running ∨ q.status = .stopping ∨ q.status = .abandoned))
    (hall : b.recovery.isSome → (∀ t ∈ q.tasks, t.status = .completed) → q.status = .completed)
    (hany : b.recovery.isSome → (∃ t ∈ q.tasks, t.status = .failed) → q.status = .failed) :
    q.validateRecovery e' b = .ok () := by
  cases hr : b.recovery with
  | none => exact validateRecovery_none hr
  | some r =>
    simp only [validateRecovery, hr, bind_ok, ensure_ok] at h ⊢
    obtain ⟨_, hv, h1, h2, h3, h4, h5, h6, h7, h8, h9, -, h11, h12, h13, -, -, -⟩ := h
    have hused := operationUsed_of he he' hdef happroval hcmd (by rw [hattempts])
      r.command.operationId
    obtain ⟨hid, -, -, -⟩ := planning_of_definition hdef
    exact ⟨(), hv, h1, h2, by rw [hid, h3], h4, by rw [hcmd]; exact h5, by omega, h7, by omega,
      by rw [hused, h9], hnab, by rw [hattempts]; exact h11, h12, h13, hstatus,
      hall (by simp [hr]), hany (by simp [hr])⟩

/-- A stop of an interrupted plan nobody runs, with no uncertain attempt. -/
theorem close_executed (h : p.Executed e ap pl dr false) (he : p.execution = some e)
    (hint : p.status = .interrupted) (hknown : ∀ a ∈ e.attempts, a.state ≠ .unknown)
    {q : Plan} {e' : ExecutionRecord} {t now : Nat} {hist : List JobEvent} (ht : t ≤ i64Max)
    (hstart : e.startedAtMs ≤ i64Max) (hnow : p.updatedAtMs ≤ now)
    (he' : e' = { e with
      stopRequestedAtMs := some (e.stopRequestedAtMs.getD (max t e.startedAtMs)) })
    (hq : q = (({ p with status := .cancelled, execution := some e' } : Plan).cancelPending).stamped
      now hist) :
    q.Executed e' ap pl dr false := by
  subst he'
  have hnotlive : ∀ a ∈ e.attempts, a.state.live = false := h.states.1 (by rw [hint]; rfl)
  have hnab := h.abandonment_none (by rw [hint]; simp)
  have hfresh : Task.fresh ∘ Task.cancelled = Task.fresh := funext Task.cancelled_fresh
  have hdef : q.definition = p.definition := by
    rw [hq]
    simp only [definition, stamped, cancelPending, List.map_map, hfresh]
  have hqs : q.status = .cancelled := by rw [hq]; rfl
  refine retag_executed h settling_cancelled (by simp) rfl rfl rfl rfl hq
    (h.stop.request ht hstart) (h.unpaired hdef rfl) ?_ ?_ ?_
  · intro b hb
    have hrec := h.recovery b hb
    have hbounds : b.recovery.isSome → ¬(∀ t ∈ p.tasks, t.status = .completed)
        ∧ ¬(∃ t ∈ p.tasks, t.status = .failed) := by
      intro hsome
      obtain ⟨r, hr⟩ := Option.isSome_iff_exists.1 hsome
      simp only [validateRecovery, hr, bind_ok, ensure_ok] at hrec
      obtain ⟨_, -, -, -, -, -, -, -, -, -, -, -, -, -, -, -, hall, hany⟩ := hrec
      refine ⟨fun ha => ?_, fun ha => ?_⟩
      · have := hall ha
        rw [hint] at this
        cases this
      · have := hany ha
        rw [hint] at this
        cases this
    refine validateRecovery_later hrec hdef (by rw [hq]; rfl) he (by rw [hq]; rfl) rfl rfl hnab
      (by rw [hq]; exact Nat.le_succ _) (by rw [hq]; exact hnow) (by rw [hqs]; simp) ?_ ?_
    · intro hsome hall
      refine absurd (fun t0 ht0 => ?_) (hbounds hsome).1
      rw [hq] at hall
      have hc := hall _ (List.mem_map_of_mem ht0)
      unfold Task.cancelled at hc
      split at hc
      · cases hc
      · exact hc
    · rintro hsome ⟨t', ht', hf⟩
      rw [hq] at ht'
      obtain ⟨t0, ht0, rfl⟩ := List.mem_map.1 ht'
      refine absurd ⟨t0, ht0, ?_⟩ (hbounds hsome).2
      unfold Task.cancelled at hf
      split at hf
      · cases hf
      · exact hf
  · refine ⟨fun _ => hnotlive, ?_, ?_, ?_, ?_, h.states.2.2.2.2.2⟩
    · intro hst
      rw [hq] at hst
      cases hst
    · intro hst
      rw [hq] at hst
      cases hst
    · intro _ t' ht'
      rw [hq] at ht'
      exact h.closed_tasks (fun a ha => ⟨hnotlive a ha, hknown a ha⟩) ht'
    · intro _ hst
      rw [hq] at hst
      cases hst
  · simp [validateAbandonment, hnab, ensure, hqs]

/-- Tracking of an uncertain last attempt is given up. -/
theorem abandon_executed (h : p.Executed e ap pl dr false) (he : p.execution = some e)
    {i : Nat} {a : GrantedAttempt} {record : AbandonRecord} (hint : p.status = .interrupted)
    (ha : e.attempts[i]? = some a) (hstate : a.state = .unknown)
    (hvalid : record.command.validate = .ok ()) (hschema : record.schemaVersion = 1)
    (hid : record.command.id = p.planId) (hgrantId : record.command.grantId = a.grant.grantId)
    (hrev : p.revision = record.command.expectedRevision)
    (hissued : a.grant.issuedAtMs ≤ record.decidedAtMs)
    (hunused : p.operationUsed record.command.operationId = false) {q : Plan}
    {e' : ExecutionRecord} {now : Nat} {hist : List JobEvent} (hnow : record.decidedAtMs ≤ now)
    (he' : e' = { e with abandonment := some record })
    (hq : q = ({ ({ p with execution := some e' } : Plan).cancelPending with
      status := .abandoned } : Plan).stamped now hist) :
    q.Executed e' ap pl dr false := by
  subst he'
  have hsucc : ¬a.succeeded := fun hs => absurd (hstate.symm.trans hs.1) (by simp)
  have hlast := h.last_of_not_succeeded ha hsucc
  have hnotlive : ∀ b ∈ e.attempts, b.state.live = false := h.states.1 (by rw [hint]; rfl)
  have hfresh : Task.fresh ∘ Task.cancelled = Task.fresh := funext Task.cancelled_fresh
  have hdef : q.definition = p.definition := by
    rw [hq]
    simp only [definition, stamped, cancelPending, List.map_map, hfresh]
  have hqs : q.status = .abandoned := by rw [hq]; rfl
  have hexec : q.execution = some { e with abandonment := some record } := by rw [hq]; rfl
  have hused : q.operationUsed record.command.operationId = false := by
    rw [operationUsed_of he hexec hdef (by rw [hq]; rfl) rfl rfl, hunused]
  refine retag_executed h settling_cancelled (by simp) rfl rfl rfl rfl hq
    (h.stop.of_eq rfl rfl fun b hb => ⟨b, hb, rfl, rfl⟩) (h.unpaired hdef rfl) ?_ ?_ ?_
  · -- evidence would sit on the last attempt, which is uncertain
    intro b hb
    obtain ⟨j, hj⟩ := List.mem_iff_getElem?.1 hb
    cases hr : b.recovery with
    | none => exact validateRecovery_none hr
    | some r =>
      have hj' := h.recovery_last hj hr
      have hij : i = j := by omega
      subst hij
      cases ha.symm.trans hj
      have hrec := h.recovery a hb
      simp only [validateRecovery, hr, bind_ok, ensure_ok] at hrec
      obtain ⟨_, -, hc, -⟩ := hrec
      exact absurd (hstate.symm.trans hc) (by simp)
  · refine ⟨fun _ => hnotlive, ?_, ?_, ?_, ?_, h.states.2.2.2.2.2⟩
    · intro hst
      rw [hqs] at hst
      cases hst
    · intro hst
      rw [hqs] at hst
      cases hst
    · intro hst
      rw [hqs] at hst
      cases hst
    · intro _ hst
      rw [hqs] at hst
      cases hst
  · have hgetLast : e.attempts.getLast? = some a := by
      rw [List.getLast?_eq_getElem?, ← hlast, Nat.add_sub_cancel, ha]
    obtain ⟨t, ht⟩ := h.task_of ha
    have hstarted := (h.granted i t a ht ha).started
    simp only [validateAbandonment, bind_ok, ensure_ok, context_ok, hgetLast, Option.some.injEq,
      exists_eq_left']
    refine ⟨(), hvalid, hschema, hqs, ?_, hgrantId, ?_, ?_, hissued, ?_, ?_, hused, hstate, ?_⟩
    · rw [hid, hq]
      rfl
    · rw [← hrev]
      exact h.bounds.2.2.2.2.1
    · rw [hq, ← hrev]
      rfl
    · exact hstarted.trans hissued
    · rw [hq]
      exact hnow
    · intro t' ht'
      rw [hq] at ht'
      obtain ⟨t0, ht0, rfl⟩ := List.mem_map.1 ht'
      obtain ⟨j, hj⟩ := List.mem_iff_getElem?.1 ht0
      by_cases hij : i = j
      · subst hij
        cases ht.symm.trans hj
        have hst := (h.tracks i t a ht ha).status
        rw [Task.cancelled_eq hst.1, hst.2.2.2.2.1.2 hstate]
        simp
      · rcases h.other_task hlast hij hj with hcomp | hun
        · rw [Task.cancelled_eq (by simp [hcomp]), hcomp]
          simp
        · simp [(Task.cancelled_unissued hun).2]

/-! ## Interruption -/

omit [F64] [PeerAdmission] [Sha256] [Pairing] in
theorem interrupted_grant (a : GrantedAttempt) : a.interrupted.grant = a.grant := by
  unfold GrantedAttempt.interrupted
  split <;> rfl

omit [F64] [PeerAdmission] [Sha256] [Pairing] in
theorem interrupted_parts (a : GrantedAttempt) : a.interrupted.acknowledgement = a.acknowledgement
    ∧ a.interrupted.report = a.report ∧ a.interrupted.recovery = a.recovery
    ∧ a.interrupted.stop = a.stop ∧ a.interrupted.finalReport = a.finalReport
    ∧ a.interrupted.state.live = false := by
  unfold GrantedAttempt.interrupted
  split
  · exact ⟨rfl, rfl, rfl, rfl, rfl, rfl⟩
  · rename_i h
    exact ⟨rfl, rfl, rfl, rfl, rfl, by simpa using h⟩

omit [Pairing] in
/-- An interrupted task stands where its interrupted attempt stands. -/
theorem Tracks.interrupted {paired : Bool} {t : Task} {a : GrantedAttempt}
    (h : Tracks paired t a) : Tracks paired t.interrupted a.interrupted := by
  obtain ⟨h1, -, -, h4, -, -⟩ := h.status
  obtain ⟨s, r, hlife, hstatus, hresult⟩ := h.lifecycle
  by_cases hl : a.state.live = true
  · -- a live attempt has no report yet
    have hreport : a.report = none ∧ r = none := by
      simp only [AttemptState.live, Bool.or_eq_true, beq_iff_eq] at hl
      unfold GrantedAttempt.lifecycle at hlife
      rcases hl with hs | hs <;> simp only [hs] at hlife <;> split at hlife
      · rename_i hn
        cases hlife
        exact ⟨Option.isNone_iff_eq_none.1 hn.2, rfl⟩
      · cases hlife
      · rename_i hn
        cases hlife
        exact ⟨Option.isNone_iff_eq_none.1 hn.2, rfl⟩
      · cases hlife
    have ht : t.interrupted = { t with status := .interrupted } := if_pos (h4.2 hl)
    have ha : a.interrupted = { a with state := .unknown } := if_pos hl
    rw [ht, ha]
    refine ⟨h.reports, .interrupted, none, ?_, rfl, ?_⟩
    · simp [GrantedAttempt.lifecycle, hreport.1]
    · rw [hresult, hreport.2]
  · have ht : t.interrupted = t := if_neg fun hr => hl (h4.1 hr)
    have ha : a.interrupted = a := if_neg hl
    rw [ht, ha]
    exact h

/-- The runner of a plan is gone. -/
theorem interrupt_executed {paired : Bool} (h : p.Executed e ap pl dr paired)
    (hlive : p.status.live = true) {q : Plan} {e' : ExecutionRecord} {now : Nat}
    {hist : List JobEvent}
    (he' : e' = { e with attempts := e.attempts.map GrantedAttempt.interrupted
                         workload := e.workload.map WorkloadExecution.interrupted })
    (hq : q = ({ p with
      execution := some e'
      status := .interrupted
      tasks := p.tasks.map Task.interrupted } : Plan).stamped now hist) :
    q.Executed e' ap pl dr paired := by
  subst he'
  have hfresh : Task.fresh ∘ Task.interrupted = Task.fresh := funext Task.interrupted_fresh
  have hdef : q.definition = p.definition := by
    rw [hq]
    simp only [definition, stamped, List.map_map, hfresh]
  have hqs : q.status = .interrupted := by rw [hq]; rfl
  have hget : ∀ (j : Nat) t', q.tasks[j]? = some t' →
      ∃ t, p.tasks[j]? = some t ∧ t' = t.interrupted := by
    intro j t' ht'
    rw [hq] at ht'
    simp only [stamped, List.getElem?_map] at ht'
    obtain ⟨t, ht, rfl⟩ := Option.map_eq_some_iff.1 ht'
    exact ⟨t, ht, rfl⟩
  have hgetA : ∀ (j : Nat) b', (e.attempts.map GrantedAttempt.interrupted)[j]? = some b' →
      ∃ b, e.attempts[j]? = some b ∧ b' = b.interrupted := by
    intro j b' hb'
    rw [List.getElem?_map] at hb'
    obtain ⟨b, hb, rfl⟩ := Option.map_eq_some_iff.1 hb'
    exact ⟨b, hb, rfl⟩
  have hgrants : (e.attempts.map GrantedAttempt.interrupted).map (·.grant)
      = e.attempts.map (·.grant) := by
    rw [List.map_map]
    exact List.map_congr_left fun a _ => interrupted_grant a
  have hkeep : ∀ t : Task, t.interrupted.attempts = t.attempts
      ∧ t.interrupted.assignments = t.assignments ∧ t.interrupted.taskId = t.taskId
      ∧ t.interrupted.result = t.result := by
    intro t
    unfold Task.interrupted
    split <;> exact ⟨rfl, rfl, rfl, rfl⟩
  have hnotlive : ∀ b ∈ e.attempts.map GrantedAttempt.interrupted, b.state.live = false := by
    intro b hb
    obtain ⟨a, -, rfl⟩ := List.mem_map.1 hb
    exact (interrupted_parts a).2.2.2.2.2
  have hnab := h.abandonment_none (ne_abandoned_of_live hlive)
  refine h.update hdef (by rw [hq]; exact Nat.le_succ _) rfl rfl rfl hgrants ?_ (by rw [hqs]; simp)
    ?_ ?_ ?_ ?_ ?_ ?_ ?_ ?_ ?_
  · intro j t t' ht ht' _
    obtain ⟨t1, h1, rfl⟩ := hget j t' ht'
    cases ht.symm.trans h1
    exact ⟨(hkeep t).1, (hkeep t).2.1⟩
  · refine h.stop.of_eq rfl rfl fun b hb => ?_
    obtain ⟨a, ha, rfl⟩ := List.mem_map.1 hb
    exact ⟨a, ha, interrupted_grant a, (interrupted_parts a).2.2.2.1⟩
  · have hpair := h.pair
    unfold validatePair at hpair ⊢
    rw [pairDefinition_of_definition hdef]
    cases hpeer : e.peer with
    | none =>
      simp only [hpeer, bind_ok, ensure_ok, pure_ok] at hpair ⊢
      obtain ⟨b, hb, _, hcase, rfl⟩ := hpair
      exact ⟨b, hb, (), hcase.imp id fun hnil => by rw [hnil]; rfl, rfl⟩
    | some r =>
      simp only [hpeer, bind_ok, ensure_ok, validateJoint_ok, pure_ok] at hpair ⊢
      obtain ⟨b, hb, u1, hpd, u2, hvf, u3, ⟨hcontent, -, hrec, hst⟩, u4, hconf, rfl⟩ := hpair
      have hqap : q.approval = p.approval := by rw [hq]; rfl
      refine ⟨b, hb, (), hpd, u2, ?_, (), ⟨?_, hnab, ?_, ?_⟩, (), ?_, rfl⟩
      · rw [hgrants, validateFor_of_definition hdef hqap]
        exact hvf
      · unfold pairContent pairReports at hcontent ⊢
        have hreport : ((fun a : GrantedAttempt => a.report) ∘ GrantedAttempt.interrupted)
            = fun a => a.report := funext fun a => (interrupted_parts a).2.1
        rw [List.filterMap_map, hreport]
        exact hcontent
      · intro b' hb'
        obtain ⟨a, ha, rfl⟩ := List.mem_map.1 hb'
        rw [(interrupted_parts a).2.2.1]
        exact hrec a ha
      · have hany : ((e.attempts.map GrantedAttempt.interrupted).any fun a => a.state.live)
            = false := by
          rw [List.any_eq_false]
          intro a ha
          simp [hnotlive a ha]
        rw [hany, if_neg (by simp), hqs]
        -- a pair that runs has a live attempt, which is uncertain now
        have hsome : (e.attempts.any fun a => a.state.live) = true := by
          by_contra hno
          rw [Bool.not_eq_true] at hno
          rw [hno, if_neg (by simp)] at hst
          simp only [PlanStatus.live, Bool.or_eq_true, beq_iff_eq] at hlive
          rcases hst with hst | ⟨-, hst⟩
          · unfold pairOutcome at hst
            split at hst
            · rcases hlive with hl | hl <;> rw [hl] at hst <;> cases hst
            · split at hst <;> rcases hlive with hl | hl <;> rw [hl] at hst <;> cases hst
          · rcases hlive with hl | hl <;> rw [hl] at hst <;> cases hst
        obtain ⟨a, ha, hal⟩ := List.any_eq_true.1 hsome
        have hunknown : ((e.attempts.map GrantedAttempt.interrupted).any
            fun a => a.state == .unknown) = true := by
          refine List.any_eq_true.2 ⟨a.interrupted, List.mem_map_of_mem ha, ?_⟩
          simp [GrantedAttempt.interrupted, hal]
        left
        unfold pairOutcome
        rw [if_pos hunknown]
      · intro b' hb'
        obtain ⟨a, ha, rfl⟩ := List.mem_map.1 hb'
        rw [(interrupted_parts a).1, (interrupted_parts a).2.2.2.2.1, interrupted_grant]
        exact hconf a ha
  · intro j t' ht' hj
    obtain ⟨t, ht, rfl⟩ := hget j t' ht'
    have hun := h.unissued j t ht (by simpa using hj)
    have heq : t.interrupted = t := if_neg (by rcases hun.1 with hs | hs <;> simp [hs])
    rw [heq]
    exact hun
  · intro j t' b' ht' hb'
    obtain ⟨t, ht, rfl⟩ := hget j t' ht'
    obtain ⟨b, hb, rfl⟩ := hgetA j b' hb'
    exact (h.tracks j t b ht hb).interrupted
  · intro hp j b' hb' hlt
    obtain ⟨b, hb, rfl⟩ := hgetA j b' hb'
    have hs := h.chain hp j b hb (by simpa using hlt)
    have heq : b.interrupted = b := if_neg (by simp [not_live_of_succeeded hs])
    rw [heq]
    exact hs
  · intro b' hb'
    obtain ⟨a, ha, rfl⟩ := List.mem_map.1 hb'
    exact validateRecovery_none ((interrupted_parts a).2.2.1.trans (h.recovery_none hlive ha))
  · intro k v
    rw [hq]
    simp only [stamped, List.mem_map]
    rw [h.results k v]
    constructor
    · rintro ⟨t, ht, hid, hv⟩
      exact ⟨t.interrupted, ⟨t, ht, rfl⟩, (hkeep t).2.2.1.trans hid, (hkeep t).2.2.2.trans hv⟩
    · rintro ⟨_, ⟨t, ht, rfl⟩, hid, hv⟩
      exact ⟨t, ht, (hkeep t).2.2.1.symm.trans hid, (hkeep t).2.2.2.symm.trans hv⟩
  · refine ⟨fun _ => hnotlive, ?_, ?_, ?_, ?_, ?_⟩
    · intro hst
      rw [hqs] at hst
      cases hst
    · intro hst
      rw [hqs] at hst
      cases hst
    · intro hst
      rw [hqs] at hst
      cases hst
    · intro _ hst
      rw [hqs] at hst
      cases hst
    · have hzero : (e.attempts.map GrantedAttempt.interrupted).countP (fun a => a.state.live)
          = 0 := by
        rw [List.countP_eq_zero]
        intro a ha
        simp [hnotlive a ha]
      simp only [hzero]
      exact Nat.zero_le _
  · simp [validateAbandonment, hnab, ensure, hqs]

end

end Plan

end Eef.Coordinator
