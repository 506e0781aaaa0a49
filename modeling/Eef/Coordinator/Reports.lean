import Eef.Coordinator.Attempts

/-!
# Reports and recovery keep an execution valid

What `AttemptJournal::record` and `request_recovery::apply` leave of a plan that executes
by grants and is not a pair is, once stamped, `Executed` again (`accept_executed`,
`report_executed`, `recover_executed`).
-/

namespace Eef.Coordinator

open Eef.Lib Eef.Node

namespace Plan

section
variable [F64] [PeerAdmission] [Sha256] [Pairing]

variable {p : Plan} {e : ExecutionRecord} {ap : ApprovalRecord} {pl : PlanningRecord}
  {dr : DraftRecord}

/-! ## Reports -/

/-- An acceptance of the last attempt. -/
theorem accept_executed (h : p.Executed e ap pl dr false) {i : Nat} {a : GrantedAttempt}
    {r : GrantReport} (hlive : p.status.live = true) (ha : e.attempts[i]? = some a)
    (hstate : a.state = .issued) (hr : r.state = .accepted) (hconf : r.confirms a.grant) {q : Plan}
    {e' : ExecutionRecord} {now : Nat} {hist : List JobEvent}
    (he' : e' = { e with attempts := e.attempts.modify i (GrantedAttempt.accept r) })
    (hq : q = ({ p with execution := some e' } : Plan).stamped now hist) :
    q.Executed e' ap pl dr false := by
  subst he' hq
  have hsucc : ¬a.succeeded := fun hs => absurd (hstate.symm.trans hs.1) (by simp)
  have hlast := h.last_of_not_succeeded ha hsucc
  have hchain := chain_modify (f := GrantedAttempt.accept r) (h.chain rfl) hlast
  have hgrants := map_modify_of_eq GrantedAttempt.grant (f := GrantedAttempt.accept r) e.attempts i
    fun _ => rfl
  have hstops := mem_modify_stop e.attempts i (GrantedAttempt.accept r) (fun _ => rfl) fun _ => rfl
  refine h.update rfl (Nat.le_succ _) rfl rfl rfl hgrants (fun j t t' ht ht' _ => ?_) h.status_mem
    (h.stop.of_eq rfl rfl hstops) ?_ ?_ ?_ (fun _ => hchain) ?_ h.results ?_ ?_
  · cases ht.symm.trans ht'
    exact ⟨rfl, rfl⟩
  · exact h.unpaired rfl rfl
  · intro j t ht hj
    refine h.unissued j t ht ?_
    simpa [List.getElem?_modify] using hj
  · intro j t b ht hb
    rw [List.getElem?_modify] at hb
    obtain ⟨b0, hb0, rfl⟩ := Option.map_eq_some_iff.1 hb
    by_cases hij : i = j
    · subst hij
      cases ha.symm.trans hb0
      obtain ⟨s, o, hlife, hstatus, hresult⟩ := (h.tracks i t a ht ha).lifecycle
      have hreports := (h.tracks i t a ht ha).reports
      simp only [GrantedAttempt.lifecycle, hstate] at hlife
      split at hlife
      · rename_i hnone
        cases hlife
        refine ⟨⟨?_, ?_⟩, .running, none, ?_, hstatus, hresult⟩
        · simp [GrantedAttempt.accept, hr, hconf]
        · simpa [GrantedAttempt.accept] using hreports.2
        · simp [GrantedAttempt.accept, GrantedAttempt.lifecycle, hnone.2]
      · cases hlife
    · simpa [hij] using h.tracks j t b0 ht hb0
  · intro b hb
    obtain ⟨j, hj⟩ := List.mem_iff_getElem?.1 hb
    rw [List.getElem?_modify] at hj
    obtain ⟨b0, hb0, rfl⟩ := Option.map_eq_some_iff.1 hj
    have hnone := h.recovery_none hlive (List.mem_of_getElem? hb0)
    split <;> simp [validateRecovery, GrantedAttempt.accept, hnone]
  · refine ⟨fun hno => ?_, h.states.2.1, h.states.2.2.1, h.states.2.2.2.1, h.states.2.2.2.2.1,
      countP_live_le hchain⟩
    exact absurd (hlive.symm.trans hno) (by simp)
  · have hne : p.status ≠ .abandoned := ne_abandoned_of_live hlive
    simpa [validateAbandonment, h.abandonment_none hne, ensure, stamped] using hne

omit [F64] [PeerAdmission] [Sha256] [Pairing] in
/-- How a final report settles a plan that is not a pair. -/
theorem settleReport_cases {r : GrantReport}
    (hpeer : (p.execution.any fun e => e.peer.isSome) = false) :
    ∃ status c, Settling c ∧ p.settleReport r = { p with status := status, tasks := p.tasks.map c }
      ∧ ((r.state = .unknown ∧ status = .interrupted ∧ c = id)
        ∨ (r.state ≠ .unknown ∧ r.success = false ∧ status = .failed ∧ c = Task.cancelled)
        ∨ (r.state ≠ .unknown ∧ r.success = true ∧ p.status = .stopping ∧ status = .cancelled
          ∧ c = Task.cancelled)
        ∨ (r.state ≠ .unknown ∧ r.success = true ∧ (∀ t ∈ p.tasks, t.status = .completed)
          ∧ status = .completed ∧ c = id)
        ∨ (r.state ≠ .unknown ∧ r.success = true ∧ status = p.status ∧ c = id)) := by
  unfold settleReport
  rw [if_neg (by simp [hpeer])]
  split
  · rename_i h1
    exact ⟨_, id, settling_id, by rw [List.map_id], Or.inl ⟨h1, rfl, rfl⟩⟩
  · rename_i h1
    split
    · rename_i h2
      exact ⟨_, _, settling_cancelled, rfl, Or.inr (Or.inl ⟨h1, h2, rfl, rfl⟩)⟩
    · rename_i h2
      rw [Bool.not_eq_false] at h2
      split
      · rename_i h3
        exact ⟨_, _, settling_cancelled, rfl, Or.inr (Or.inr (Or.inl ⟨h1, h2, h3, rfl, rfl⟩))⟩
      · split
        · rename_i h4
          exact ⟨_, id, settling_id, by rw [List.map_id],
            Or.inr (Or.inr (Or.inr (Or.inl ⟨h1, h2, h4, rfl, rfl⟩)))⟩
        · exact ⟨_, id, settling_id, by rw [List.map_id],
            Or.inr (Or.inr (Or.inr (Or.inr ⟨h1, h2, rfl, rfl⟩)))⟩

omit [Pairing] in
/-- A final report leaves its attempt and its task where the report says. -/
theorem settle_tracks {paired : Bool} {t : Task} {a : GrantedAttempt} {r : GrantReport}
    (h : Tracks paired t a) (hrec : a.recovery = none) (hpeer : paired = false → e.peer = none)
    (hconf : r.confirms a.grant) (hallowed : finalAllowed e a r) :
    Tracks paired (t.settle (finalStatus r) (resultOf a.grant r)) (a.settle r) := by
  obtain ⟨s, o, hlife, -, -⟩ := h.lifecycle
  have hack := h.reports.1
  have hsuccess := hconf.2.2.2.2.2.2.2
  rcases hallowed with ⟨hs, hr⟩ | ⟨hsome, hs, hr⟩ | ⟨hs, hr | hr⟩
  · -- a refusal before acceptance
    simp only [GrantedAttempt.lifecycle, hs] at hlife
    split at hlife
    · rename_i hnone
      rw [hr] at hsuccess
      refine ⟨⟨hack, by simp [GrantedAttempt.settle, hconf, hr]⟩, .failed, some r, ?_, ?_, rfl⟩
      · simp [GrantedAttempt.lifecycle, GrantedAttempt.settle, finalState, hr, hnone.1]
      · simp [Task.settle, finalStatus, hr, hsuccess.1]
    · cases hlife
  · -- an end of a pair is lost before acceptance
    have hpaired : paired = true := by
      by_contra hp
      simp [hpeer (by simpa using hp)] at hsome
    refine ⟨⟨hack, by simp [GrantedAttempt.settle, hconf, hr]⟩, .interrupted, some r, ?_, ?_, rfl⟩
    · simp [GrantedAttempt.lifecycle, GrantedAttempt.settle, finalState, hr, hpaired]
    · simp [Task.settle, finalStatus, hr]
  · simp only [GrantedAttempt.lifecycle, hs] at hlife
    split at hlife
    · rename_i hnone
      refine ⟨⟨hack, by simp [GrantedAttempt.settle, hconf, hr]⟩,
        if r.success then .completed else .failed, some r, ?_, ?_, rfl⟩
      · simp [GrantedAttempt.lifecycle, GrantedAttempt.settle, GrantedAttempt.finalReport, hrec,
          finalState, hr, hnone.1]
      · simp [Task.settle, finalStatus, hr]
    · cases hlife
  · simp only [GrantedAttempt.lifecycle, hs] at hlife
    split at hlife
    · rename_i hnone
      refine ⟨⟨hack, by simp [GrantedAttempt.settle, hconf, hr]⟩, .interrupted, some r, ?_, ?_, rfl⟩
      · simp [GrantedAttempt.lifecycle, GrantedAttempt.settle, finalState, hr, hnone.1]
      · simp [Task.settle, finalStatus, hr]
    · cases hlife

omit [F64] [PeerAdmission] [Sha256] [Pairing] in
theorem finalState_not_live (s : ReceiptState) : (finalState s).live = false := by
  cases s <;> rfl

omit [F64] [PeerAdmission] [Sha256] [Pairing] in
theorem applyReport_eq (he : p.execution = some e) (i j : Nat) (g : ExecutionGrant)
    (r : GrantReport) : p.applyReport i j g r = { p with
      execution := some { e with attempts := e.attempts.modify i (GrantedAttempt.settle r) }
      tasks := p.tasks.modify j (Task.settle (finalStatus r) (resultOf g r))
      results := Assoc.set g.taskId (resultOf g r) p.results } := by
  simp only [applyReport, updateAttempt, he, Option.map_some]

/-- A final report of the last attempt. -/
theorem report_executed (h : p.Executed e ap pl dr false) (he : p.execution = some e)
    (hids : (p.tasks.map (·.taskId)).Nodup) {i : Nat} {a : GrantedAttempt} {r : GrantReport}
    (hlive : p.status.live = true) (ha : e.attempts[i]? = some a) (hconf : r.confirms a.grant)
    (hallowed : finalAllowed e a r) {q : Plan} {now : Nat} {hist : List JobEvent}
    (hq : q = ((p.applyReport i i a.grant r).settleReport r).stamped now hist) :
    q.execution = some { e with attempts := e.attempts.modify i (GrantedAttempt.settle r) } ∧
    q.Executed { e with attempts := e.attempts.modify i (GrantedAttempt.settle r) } ap pl dr
      false := by
  have hpeer : e.peer = none := (validatePair_false.1 h.pair).2
  have hsucc : ¬a.succeeded := by
    intro hs
    rcases hallowed with ⟨hst, -⟩ | ⟨-, hst, -⟩ | ⟨hst, -⟩ <;>
      exact absurd (hst.symm.trans hs.1) (by simp)
  have hlast := h.last_of_not_succeeded ha hsucc
  obtain ⟨t, ht⟩ := h.task_of ha
  have hnone := h.recovery_none hlive (List.mem_of_getElem? ha)
  have htr := settle_tracks (h.tracks i t a ht ha) hnone (fun _ => hpeer) hconf hallowed
  have hnotlive := h.not_live_modify (F := GrantedAttempt.settle r) ha hlast
    (finalState_not_live r.state)
  obtain ⟨status, c, hc, hsettle, hcase⟩ := settleReport_cases (p := p.applyReport i i a.grant r)
    (r := r) (by simp [applyReport_eq he, hpeer])
  rw [hsettle, applyReport_eq he] at hq
  simp only [applyReport_eq he] at hcase
  refine ⟨by rw [hq]; rfl, ?_⟩
  -- each task of the new plan: the settled one, or one that was completed or without attempt
  have htasks : ∀ t' ∈ q.tasks, t' = t.settle (finalStatus r) (resultOf a.grant r) ∨
      t'.status = .completed ∨ (t'.unissued ∧ ∃ t0 : Task, t0.unissued ∧ t' = c t0) := by
    intro t' ht'
    rw [hq] at ht'
    obtain ⟨j, hj⟩ := List.mem_iff_getElem?.1 ht'
    obtain ⟨t1, h1, rfl⟩ := Settling.getElem? hj
    by_cases hij : i = j
    · subst hij
      cases ht.symm.trans h1
      rw [if_pos rfl, hc.eq htr.status.1]
      exact Or.inl rfl
    · rw [if_neg hij]
      rcases h.other_task hlast hij h1 with hcomp | hun
      · rw [hc.eq (by simp [hcomp])]
        exact Or.inr (Or.inl hcomp)
      · exact Or.inr (Or.inr ⟨hc.unissued hun, t1, hun, rfl⟩)
  have hmem : t.settle (finalStatus r) (resultOf a.grant r) ∈ q.tasks := by
    rw [hq]
    refine List.mem_map.2 ⟨_, List.mem_iff_getElem?.2 ⟨i, ?_⟩, hc.eq htr.status.1⟩
    rw [List.getElem?_modify, ht]
    simp
  have hqs : q.status = status := by rw [hq]; rfl
  have hcount : (e.attempts.modify i (GrantedAttempt.settle r)).countP (fun a => a.state.live)
      ≤ 1 := countP_live_le (chain_modify (h.chain rfl) hlast)
  have hlive' : p.status = .running ∨ p.status = .stopping := by
    simpa [PlanStatus.live] using hlive
  have hstatus : status ≠ .abandoned ∧ (status = .running ∨ status = .stopping
      ∨ status = .completed ∨ status = .failed ∨ status = .interrupted ∨ status = .cancelled
      ∨ status = .abandoned) := by
    rcases hcase with ⟨-, rfl, -⟩ | ⟨-, -, rfl, -⟩ | ⟨-, -, -, rfl, -⟩ | ⟨-, -, -, rfl, -⟩ |
      ⟨-, -, rfl, -⟩
    · simp
    · simp
    · simp
    · simp
    · rcases hlive' with hl | hl <;> simp [hl]
  refine settle_executed (F := GrantedAttempt.settle r) h hids ha ht hlast (fun _ => rfl)
    (fun _ => rfl) htr hc hstatus.2 rfl hq ?_ ?_ ?_
  · intro b hb
    obtain ⟨j, hj⟩ := List.mem_iff_getElem?.1 hb
    rw [List.getElem?_modify] at hj
    obtain ⟨b0, hb0, rfl⟩ := Option.map_eq_some_iff.1 hj
    have hn := h.recovery_none hlive (List.mem_of_getElem? hb0)
    split <;> simp [validateRecovery, GrantedAttempt.settle, hn]
  · refine ⟨fun _ => hnotlive, ?_, ?_, ?_, ?_, hcount⟩
    · intro hcompleted t' ht'
      rw [hqs] at hcompleted
      rcases hcase with ⟨-, rfl, -⟩ | ⟨-, -, rfl, -⟩ | ⟨-, -, -, rfl, -⟩ | ⟨-, -, hall, -, rfl⟩ |
        ⟨-, -, rfl, -⟩
      · cases hcompleted
      · cases hcompleted
      · cases hcompleted
      · rw [hq] at ht'
        simp only [stamped, List.map_id] at ht'
        exact hall t' ht'
      · rcases hlive' with hl | hl <;> rw [hl] at hcompleted <;> cases hcompleted
    · intro hfailed
      rw [hqs] at hfailed
      rcases hcase with ⟨-, rfl, -⟩ | ⟨hr, hsuc, -, -⟩ | ⟨-, -, -, rfl, -⟩ | ⟨-, -, -, rfl, -⟩ |
        ⟨-, -, rfl, -⟩
      · cases hfailed
      · exact ⟨_, hmem, by simp [Task.settle, finalStatus, hr, hsuc]⟩
      · cases hfailed
      · cases hfailed
      · rcases hlive' with hl | hl <;> rw [hl] at hfailed <;> cases hfailed
    · intro hcancelled t' ht'
      rw [hqs] at hcancelled
      rcases hcase with ⟨-, rfl, -⟩ | ⟨-, -, rfl, -⟩ | ⟨hr, hsuc, -, -, rfl⟩ | ⟨-, -, -, rfl, -⟩ |
        ⟨-, -, rfl, -⟩
      · cases hcancelled
      · cases hcancelled
      · rcases htasks t' ht' with rfl | hcomp | ⟨-, t0, hun, rfl⟩
        · simp [Task.settle, finalStatus, hr, hsuc]
        · simp [hcomp]
        · simp [(Task.cancelled_unissued hun).2]
      · cases hcancelled
      · rcases hlive' with hl | hl <;> rw [hl] at hcancelled <;> cases hcancelled
    · intro _ hql t' ht'
      rw [hqs] at hql
      rcases hcase with ⟨-, rfl, -⟩ | ⟨-, -, rfl, -⟩ | ⟨-, -, -, rfl, -⟩ | ⟨-, -, -, rfl, -⟩ |
        ⟨hr, hsuc, -, -⟩
      · cases hql
      · cases hql
      · cases hql
      · cases hql
      · rcases htasks t' ht' with rfl | hcomp | ⟨hun, -⟩
        · simp [Task.settle, finalStatus, hr, hsuc]
        · simp [hcomp]
        · rcases hun.1 with hs | hs <;> simp [hs]
  · have hnab := h.abandonment_none (ne_abandoned_of_live hlive)
    simp [validateAbandonment, hnab, ensure, hqs, hstatus.1]

/-! ## Recovery -/

omit [F64] [PeerAdmission] [Sha256] [Pairing] in
theorem applyRecovery_eq (he : p.execution = some e) (i : Nat) (g : ExecutionGrant)
    (record : RecoveryRecord) (r : GrantReport) : p.applyRecovery i g record r = { p with
      execution := some { e with attempts := e.attempts.modify i (GrantedAttempt.reconcile record) }
      tasks := p.tasks.modify i
        (Task.settle (if r.success then .completed else .failed) (resultOf g r))
      results := Assoc.set g.taskId (resultOf g r) p.results } := by
  simp only [applyRecovery, updateAttempt, he, Option.map_some]

omit [F64] [PeerAdmission] [Sha256] [Pairing] in
/-- How retained evidence settles a plan. -/
theorem settleRecovery_cases (success : Bool) :
    ∃ status c, Settling c
      ∧ p.settleRecovery success = { p with status := status, tasks := p.tasks.map c }
      ∧ ((success = false ∧ status = .failed ∧ c = Task.cancelled)
        ∨ (success = true ∧ (∀ t ∈ p.tasks, t.status = .completed) ∧ status = .completed ∧ c = id)
        ∨ (success = true ∧ ¬(∀ t ∈ p.tasks, t.status = .completed) ∧ status = .interrupted
          ∧ c = id)) := by
  unfold settleRecovery
  split
  · rename_i h1
    exact ⟨_, _, settling_cancelled, rfl, Or.inl ⟨h1, rfl, rfl⟩⟩
  · rename_i h1
    rw [Bool.not_eq_false] at h1
    split
    · rename_i h2
      exact ⟨_, id, settling_id, by rw [List.map_id], Or.inr (Or.inl ⟨h1, h2, rfl, rfl⟩)⟩
    · rename_i h2
      exact ⟨_, id, settling_id, by rw [List.map_id], Or.inr (Or.inr ⟨h1, h2, rfl, rfl⟩)⟩

omit [Pairing] in
/-- Retained evidence leaves its attempt and its task where it says. -/
theorem reconcile_tracks {t : Task} {a : GrantedAttempt} {record : RecoveryRecord}
    {r : GrantReport} (h : Tracks false t a) (hr : record.result.report = some r)
    (hcompleted : r.state = .completed) :
    Tracks false (t.settle (if r.success then .completed else .failed) (resultOf a.grant r))
      (a.reconcile record) := by
  refine ⟨h.reports, if r.success then .completed else .failed, some r, ?_, rfl, rfl⟩
  simp [GrantedAttempt.lifecycle, GrantedAttempt.reconcile, GrantedAttempt.finalReport, hr,
    hcompleted]

/-- Retained evidence applied to the last attempt of an interrupted plan. -/
theorem recover_executed (h : p.Executed e ap pl dr false) (he : p.execution = some e)
    (hids : (p.tasks.map (·.taskId)).Nodup) {i : Nat} {a : GrantedAttempt} {record : RecoveryRecord} {r : GrantReport}
    (hint : p.status = .interrupted) (ha : e.attempts[i]? = some a)
    (hlast : i + 1 = e.attempts.length) (hstate : a.state = .unknown)
    (hvalid : record.validate = .ok ())
    (hconf : RetainedResult.confirms record.result a.grant = true)
    (hid : record.command.id = p.planId) (hgrantId : record.command.grantId = a.grant.grantId)
    (hrev : p.revision = record.command.expectedRevision)
    (hissued : a.grant.issuedAtMs ≤ record.decidedAtMs)
    (hunused : p.operationUsed record.command.operationId = false)
    (hr : record.result.report = some r) {q : Plan} {now : Nat} {hist : List JobEvent}
    (hnow : record.decidedAtMs ≤ now)
    (hq : q = ((p.applyRecovery i a.grant record r).settleRecovery r.success).stamped now hist) :
    q.execution = some { e with attempts := e.attempts.modify i (GrantedAttempt.reconcile record) }
    ∧ q.Executed { e with attempts := e.attempts.modify i (GrantedAttempt.reconcile record) }
      ap pl dr false := by
  obtain ⟨t, ht⟩ := h.task_of ha
  have hcompleted : r.state = .completed := by
    simp only [RecoveryRecord.validate, bind_ok, ensure_ok] at hvalid
    obtain ⟨_, -, _, -, hb⟩ := hvalid
    simpa [hr] using hb.2.2.2.2
  have htr := reconcile_tracks (h.tracks i t a ht ha) hr hcompleted
  have hnotlive := h.not_live_modify (F := GrantedAttempt.reconcile record) ha hlast rfl
  have hnab := h.abandonment_none (by rw [hint]; simp)
  obtain ⟨status, c, hc, hsettle, hcase⟩ := settleRecovery_cases
    (p := p.applyRecovery i a.grant record r) r.success
  rw [hsettle, applyRecovery_eq he] at hq
  simp only [applyRecovery_eq he] at hcase
  have hexec : q.execution = some { e with
      attempts := e.attempts.modify i (GrantedAttempt.reconcile record) } := by rw [hq]; rfl
  refine ⟨hexec, ?_⟩
  have hqs : q.status = status := by rw [hq]; rfl
  have hdef : q.definition = p.definition := by
    rw [hq]
    simp only [definition, stamped]
    rw [hc.definition]
  have hused : q.operationUsed record.command.operationId = false := by
    rw [operationUsed_of he hexec hdef (by rw [hq]; rfl) rfl
      (map_modify_of_eq GrantedAttempt.grant e.attempts i fun _ => rfl), hunused]
  have hmem : t.settle (if r.success then .completed else .failed) (resultOf a.grant r)
      ∈ q.tasks := by
    rw [hq]
    refine List.mem_map.2 ⟨_, List.mem_iff_getElem?.2 ⟨i, ?_⟩, hc.eq htr.status.1⟩
    rw [List.getElem?_modify, ht]
    simp
  -- no other task failed
  have hfailed : ∀ t' ∈ q.tasks, t'.status = .failed → r.success = false := by
    intro t' ht' hf
    rw [hq] at ht'
    obtain ⟨j, hj⟩ := List.mem_iff_getElem?.1 ht'
    obtain ⟨t1, h1, rfl⟩ := Settling.getElem? hj
    by_cases hij : i = j
    · subst hij
      cases ht.symm.trans h1
      rw [if_pos rfl, hc.eq htr.status.1] at hf
      by_contra hsuc
      simp [Task.settle, hsuc] at hf
    · rw [if_neg hij] at hf
      rcases h.other_task hlast hij h1 with hcomp | hun
      · rw [hc.eq (by simp [hcomp]), hcomp] at hf
        cases hf
      · rcases (hc.unissued hun).1 with hs | hs <;> rw [hs] at hf <;> cases hf
  refine settle_executed (F := GrantedAttempt.reconcile record) h hids ha ht hlast (fun _ => rfl)
    (fun _ => rfl) htr hc ?_ rfl hq ?_ ?_ ?_
  · rcases hcase with ⟨-, rfl, -⟩ | ⟨-, -, rfl, -⟩ | ⟨-, -, rfl, -⟩ <;> simp
  · intro b hb
    obtain ⟨j, hj⟩ := List.mem_iff_getElem?.1 hb
    rw [List.getElem?_modify] at hj
    obtain ⟨b0, hb0, rfl⟩ := Option.map_eq_some_iff.1 hj
    by_cases hij : i = j
    · subst hij
      cases ha.symm.trans hb0
      obtain ⟨s, o, hlife, -, -⟩ := (h.tracks i t a ht ha).lifecycle
      simp only [GrantedAttempt.lifecycle, hstate] at hlife
      split at hlife
      · rename_i hun
        simp only [if_pos, validateRecovery, GrantedAttempt.reconcile, bind_ok, ensure_ok]
        refine ⟨(), hvalid, rfl, hconf, ?_, hgrantId, ?_, ?_, hissued, ?_, hused, hnab, ?_, ?_, ?_,
          ?_, ?_, ?_⟩
        · rw [hid, hq]
          rfl
        · rw [← hrev]
          exact h.bounds.2.2.2.2.1
        · rw [hq, ← hrev]
          exact Nat.le_refl _
        · rw [hq]
          exact hnow
        · rw [List.getLast?_eq_getElem?, List.length_modify, ← hlast, Nat.add_sub_cancel,
            List.getElem?_modify_eq, ha]
          simp [GrantedAttempt.reconcile]
        · intro report hreport
          have hsaved : a.report = some report := hreport
          have hall := hun.1
          rw [hsaved] at hall
          simpa using hall
        · rintro ⟨hsome, hnone⟩
          rcases hun.2 with hn | hn | hn
          · exact absurd (show a.report.isSome = true from hsome) (by
              simp [Option.isNone_iff_eq_none.1 hn])
          · exact absurd hn (by
              simp [Option.isNone_iff_eq_none.1 (show a.acknowledgement.isNone = true from hnone)])
          · cases hn
        · rw [hqs]
          rcases hcase with ⟨-, rfl, -⟩ | ⟨-, -, rfl, -⟩ | ⟨-, -, rfl, -⟩ <;> simp
        · intro hall
          rw [hqs]
          rcases hcase with ⟨hsuc, -, -⟩ | ⟨-, -, rfl, -⟩ | ⟨-, hnot, -, rfl⟩
          · have := hall _ hmem
            simp [Task.settle, hsuc] at this
          · rfl
          · refine absurd ?_ hnot
            rw [hq] at hall
            simpa [stamped] using hall
        · rintro ⟨t', ht', hf⟩
          rw [hqs]
          have hsuc := hfailed t' ht' hf
          rcases hcase with ⟨-, rfl, -⟩ | ⟨hs, -⟩ | ⟨hs, -⟩
          · rfl
          · simp [hsuc] at hs
          · simp [hsuc] at hs
      · cases hlife
    · rw [if_neg hij]
      cases hb0r : b0.recovery with
      | none => simp [validateRecovery, hb0r]
      | some r0 => exact absurd (h.recovery_last hb0 hb0r) (by omega)
  · refine ⟨fun _ => hnotlive, ?_, ?_, ?_, ?_,
      countP_live_le (chain_modify (h.chain rfl) hlast)⟩
    · intro hst t' ht'
      rw [hqs] at hst
      rcases hcase with ⟨-, rfl, -⟩ | ⟨-, hall, -, rfl⟩ | ⟨-, -, rfl, -⟩
      · cases hst
      · rw [hq] at ht'
        simp only [stamped, List.map_id] at ht'
        exact hall t' ht'
      · cases hst
    · intro hst
      rw [hqs] at hst
      rcases hcase with ⟨hsuc, -, -⟩ | ⟨-, -, rfl, -⟩ | ⟨-, -, rfl, -⟩
      · exact ⟨_, hmem, by simp [Task.settle, hsuc]⟩
      · cases hst
      · cases hst
    · intro hst
      rw [hqs] at hst
      rcases hcase with ⟨-, rfl, -⟩ | ⟨-, -, rfl, -⟩ | ⟨-, -, rfl, -⟩ <;> cases hst
    · intro _ hst
      rw [hqs] at hst
      rcases hcase with ⟨-, rfl, -⟩ | ⟨-, -, rfl, -⟩ | ⟨-, -, rfl, -⟩ <;> cases hst
  · have hne : status ≠ .abandoned := by
      rcases hcase with ⟨-, rfl, -⟩ | ⟨-, -, rfl, -⟩ | ⟨-, -, rfl, -⟩ <;> simp
    simp [validateAbandonment, hnab, ensure, hqs, hne]

end

end Plan

end Eef.Coordinator
