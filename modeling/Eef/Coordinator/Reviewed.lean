import Eef.Coordinator.Tracking

/-!
# Reviewed execution, over whole runs

One lemma a move (`start_outcome`, `issue_outcome`, `record_outcome`, `cancel_outcome`,
`interrupt_outcome`, `recover_outcome`, `abandon_outcome`) shows what its closure leaves;
`commit_ok` is that none of it is refused, and `step_inv` that every step keeps the
invariant. `reviewed_execution` says what follows for every run.
-/

namespace Eef.Coordinator

open Eef.Lib Eef.Node

section
variable [F64] [PeerAdmission] [Sha256] [Pairing] [Planner]

namespace Tracked

variable {s : Tracked} {q : Plan} {saved : Nat}

/-! ## Start and issuance -/

theorem start_outcome {c : ExecuteCommand} {now : Nat} (h : s.Inv)
    (ht : s.Timed (.start c now) saved) (hc : s.closure (.start c now) = .ok (some q)) :
    s.Outcome (.start c now) q saved := by
  simp only [closure, Plan.start, bind_ok, bailIf_ok, ensure_ok, context_ok, pure_ok, exists_const,
    Option.some.injEq] at hc
  obtain ⟨-, q', ⟨_, hvalid, ap, hap, hfinite, ⟨hnone, hid, hrev, hsha, happroved, hactive⟩, rfl⟩,
    rfl⟩ := hc
  rw [not_or, not_not] at hfinite
  obtain ⟨pl, dr, hpl, hdr, hb, hva, -⟩ := Plan.planned_of_review h.retained h.reviewed
    (Or.inl (by simp [hap]))
  have hatt : s.plan.attempts = [] := by simp [Plan.attempts, hnone]
  have hnow := (ht.2.2 now rfl).2
  refine ⟨fun _ hfresh => ⟨?_, ?_, fun hist => ?_⟩, rfl, rfl, fun _ _ => rfl, fun _ => rfl, by simp, ?_,
    by simp [hatt], by simp [hatt], by simp [hatt], by rw [happroved]; rfl⟩
  · simp [Plan.preserveStop, Plan.deliveries, hatt, hnone, ensure, bind, Except.bind]
  · simp [Plan.preserveWorkload, Plan.workloadOf, hnone]
  · have hsource := Plan.sourceRevision_lt hva hap (by simp [hfinite.1, hfinite.2])
    simp only [Admissible, Plan.operationUsed, hnone, hap, hpl, hdr, Option.any_none,
      Option.any_some, Bool.or_eq_false_iff, beq_eq_false_iff_ne] at hfresh
    obtain ⟨⟨⟨-, h1⟩, h2⟩, h3, h4⟩ := hfresh
    refine Plan.review_of_execution h.retained hap hpl hdr rfl rfl (Nat.le_succ _)
      (by simp [Plan.stamped]) ((Plan.validateExecution_iff rfl (by simp) ?_).2
        ⟨false, ap, pl, dr, hap, hpl, hdr, ?_⟩)
    · exact hb.2.2.2.2.2.2.2.1
    · exact Plan.start_executed hnone hb happroved h.unpaired hvalid hid hrev hsha hsource hactive
        (Ne.symm h1) (Ne.symm h2) (by simpa using h3) (by simpa using h4) rfl rfl
  · intro e he
    cases he
    exact hnow

theorem issue_outcome {grantId session : String} {now : Nat} (h : s.Inv)
    (ht : s.Timed (.issue grantId session now) saved)
    (hfresh : s.Fresh (.issue grantId session now))
    (hc : s.closure (.issue grantId session now) = .ok (some q)) :
    s.Outcome (.issue grantId session now) q saved := by
  simp only [closure, Plan.issueNext, Plan.nextGrant, Plan.issue, bind_ok, bailIf_ok, ensure_ok,
    context_ok, pure_ok, exists_const, Option.some.injEq] at hc
  obtain ⟨q', ⟨g, ⟨e, he, ap, hap, hactive, sc, hscope, hover, _, hvalid, rfl⟩, paired, -, -,
    hrunning, e1, he1, t, htask, ⟨-, hpending, -, hpred⟩, rfl⟩, rfl⟩ := hc
  cases he.symm.trans he1
  have hatt : s.plan.attempts = e.attempts := by simp [Plan.attempts, he]
  rw [hatt] at htask hpred
  obtain ⟨hnow, hsaved⟩ := ht.2.2 now rfl
  have hstarted := h.started e he
  cases hw : e.workload with
  | some w =>
    obtain ⟨a, tp, task, -, -, h0, -, -, -, -, hfixed, -, -, -, -, hstates⟩ :=
      (Plan.validateWorkload_ok he hw).1 (Plan.workload_of_review h.retained h.reviewed he hw)
    rw [hfixed.1] at htask
    cases h0.symm.trans htask
    simp only [Plan.workloadStates] at hstates
    split at hstates <;> simp_all
  | none =>
    obtain ⟨ap', pl, dr, hap', hpl, hdr, hids, hx⟩ := h.executed he hw
    cases hap.symm.trans hap'
    simp only [Fresh, Plan.operationUsed, he, hap, hpl, hdr, Option.any_some, Bool.or_eq_false_iff,
      beq_eq_false_iff_ne, List.any_eq_false, beq_iff_eq] at hfresh
    obtain ⟨⟨⟨⟨hcommand, hgrants⟩, happroval⟩, hplanning⟩, -⟩ := hfresh
    have hexec := fun hist => Plan.issue_executed hx he hrunning htask hpred hvalid hscope rfl
      (by simp only; omega) hover rfl hgrants (Ne.symm hcommand) (Ne.symm happroval)
      (Ne.symm hplanning) rfl (rfl : (s.plan.appendAttempt _).stamped saved hist = _)
    have hqatt : ∀ g, (s.plan.appendAttempt g).attempts
        = e.attempts ++ [GrantedAttempt.ofGrant g] := by
      simp [Plan.attempts, Plan.appendAttempt, he]
    refine h.outcome he hw hap hpl hdr hids hx (hexec []).1 (fun hist => (hexec hist).2) ?_ rfl rfl
      hw rfl (fun _ => id) ?_ ht.1 h.running (fun _ hint => ?_) ?_ (fun _ => ?_)
      (fun i a a' ha ha' => ?_) (by rw [hrunning]; rfl)
    · simp only [Plan.definition, Plan.appendAttempt]
      rw [map_modify_of_eq Task.fresh (f := Task.assign _) s.plan.tasks _ fun _ => rfl]
    · rw [Plan.deliveries, Plan.deliveries, hqatt, hatt]
      simp [GrantedAttempt.ofGrant]
    · exact absurd (hrunning.symm.trans hint) (by simp)
    · simp
    · intro a ha
      obtain ⟨i, hi⟩ := List.mem_iff_getElem?.1 ha
      exact hx.all_succeeded (by rw [hrunning]; rfl) hpred i a hi
    · have hlt : i < e.attempts.length := (List.getElem?_eq_some_iff.1 ha).1
      rw [List.getElem?_append_left hlt, ha] at ha'
      cases ha'
      exact .stay _

/-! ## Reports -/

omit [F64] [PeerAdmission] [Sha256] [Pairing] [Planner] in
theorem not_terminal_of_live {st : PlanStatus} (h : st.live = true) : st.terminal = false := by
  cases st <;> simp_all [PlanStatus.live, PlanStatus.terminal]

omit [Planner] in
/-- What a report that is not a repetition does. -/
theorem record_ok {p : Plan} {grantId : String} {r : GrantReport}
    (h : p.record grantId r = .ok (some q)) :
    ∃ e i a, p.execution = some e ∧ e.attempts[i]? = some a ∧ r.confirms a.grant
      ∧ p.status.live = true
      ∧ ((r.state = .accepted ∧ a.state = .issued
          ∧ q = p.updateAttempt i (GrantedAttempt.accept r))
        ∨ (Plan.finalAllowed e a r
          ∧ ∃ j, (p.tasks.findIdx? fun t => t.taskId == a.grant.taskId) = some j
            ∧ q = (p.applyReport i j a.grant r).settleReport r)) := by
  simp only [Plan.record, bind_ok, context_ok, ensure_ok, exists_const] at h
  obtain ⟨e, he, i, -, a, ha, hconf, -, h⟩ := h
  split at h
  · cases h
  · simp only [bind_ok, ensure_ok, exists_const] at h
    obtain ⟨hlive, h⟩ := h
    refine ⟨e, i, a, he, ha, hconf, hlive, ?_⟩
    split at h
    · rename_i hr
      simp only [bind_ok, ensure_ok, exists_const, pure_ok, Option.some.injEq] at h
      obtain ⟨hs, rfl⟩ := h
      exact Or.inl ⟨hr, hs, rfl⟩
    · simp only [bind_ok, ensure_ok, exists_const, context_ok, pure_ok, Option.some.injEq] at h
      obtain ⟨hf, j, hj, rfl⟩ := h
      exact Or.inr ⟨hf, j, hj, rfl⟩

omit [Planner] in
/-- The task a report settles is the one its attempt was issued for. -/
theorem task_of_report {p : Plan} {e : ExecutionRecord} {ap : ApprovalRecord}
    {pl : PlanningRecord} {dr : DraftRecord} {paired : Bool} (hx : p.Executed e ap pl dr paired)
    (hids : (p.tasks.map (·.taskId)).Nodup) {i j : Nat} {a : GrantedAttempt}
    (ha : e.attempts[i]? = some a)
    (hj : (p.tasks.findIdx? fun t => t.taskId == a.grant.taskId) = some j) : j = i := by
  obtain ⟨t, ht⟩ := hx.task_of ha
  have hid := (hx.granted i t a ht ha).taskId ht
  obtain ⟨hlt, hb, -⟩ := List.findIdx?_eq_some_iff_getElem.1 hj
  have hi : (p.tasks.map (·.taskId))[i]? = some a.grant.taskId := by
    rw [List.getElem?_map, ht, Option.map_some, hid]
  have hj' : (p.tasks.map (·.taskId))[j]? = some a.grant.taskId := by
    rw [List.getElem?_map, List.getElem?_eq_getElem hlt, Option.map_some]
    exact congrArg some (by simpa using hb)
  have hlt' : j < (p.tasks.map (·.taskId)).length := by simpa using hlt
  exact (List.getElem?_inj hlt' hids).1 (hj'.trans hi.symm)

theorem record_outcome {grantId : String} {r : GrantReport} (h : s.Inv)
    (ht : s.Timed (.record grantId r) saved)
    (hc : s.closure (.record grantId r) = .ok (some q)) :
    s.Outcome (.record grantId r) q saved := by
  obtain ⟨e, i, a, he, ha, hconf, hlive, hcase⟩ := record_ok hc
  have hrunner := fun hrev => h.running hrev (PlanStatus.active_of_live hlive)
  have hnotdone := not_terminal_of_live hlive
  have hw := h.workload_none he (List.mem_of_getElem? ha)
  obtain ⟨ap, pl, dr, hap, hpl, hdr, hids, hx⟩ := h.executed he hw
  rcases hcase with ⟨hr, hstate, rfl⟩ | ⟨hallowed, j, hj, rfl⟩
  · have heq : s.plan.updateAttempt i (GrantedAttempt.accept r) = { s.plan with
        execution := some { e with attempts := e.attempts.modify i (GrantedAttempt.accept r) } } := by
      simp only [Plan.updateAttempt, he, Option.map_some]
    refine h.outcome_modify he hw hap hpl hdr hids hx ha (F := GrantedAttempt.accept r)
      (fun _ => rfl) (fun _ => rfl) rfl heq
      (fun hist => ?_) rfl ht.1 (fun hrev _ => hrunner hrev) ?_ ?_ hnotdone
    · rw [heq]
      exact Plan.accept_executed hx hlive ha hstate hr hconf rfl rfl
    · intro _ hint
      rw [hint] at hlive
      cases hlive
    · rw [hstate]
      exact .accept
  · cases task_of_report hx hids ha hj
    have hpeer : e.peer = none := (Plan.validatePair_false.1 hx.pair).2
    obtain ⟨status, c, hc, hsettle, hcase⟩ := Plan.settleReport_cases
      (p := s.plan.applyReport i i a.grant r) (r := r) (by simp [Plan.applyReport_eq he, hpeer])
    have hexec := fun hist => Plan.report_executed hx he hids hlive ha hconf hallowed
      (rfl : ((s.plan.applyReport i i a.grant r).settleReport r).stamped saved hist = _)
    rw [hsettle, Plan.applyReport_eq he] at hexec ⊢
    refine h.outcome_modify he hw hap hpl hdr hids hx ha (F := GrantedAttempt.settle r)
      (fun _ => rfl) (fun _ => rfl) rfl rfl (fun hist => (hexec hist).2) (hc.definition _) ht.1
      (fun hrev _ => hrunner hrev) ?_ ?_ hnotdone
    · intro _ hint
      rw [Plan.applyReport_eq he] at hcase
      rcases hcase with ⟨hu, -, -⟩ | ⟨-, -, hst, -⟩ | ⟨-, -, -, hst, -⟩ | ⟨-, -, -, hst, -⟩
        | ⟨-, -, hst, -⟩
      · simp only [GrantedAttempt.settle, hu, finalState]
      · exact absurd (hst.symm.trans hint) (by simp)
      · exact absurd (hst.symm.trans hint) (by simp)
      · exact absurd (hst.symm.trans hint) (by simp)
      · rw [hst.symm.trans hint] at hlive
        cases hlive
    · rcases hallowed with ⟨hs, hr⟩ | ⟨hp, -, -⟩ | ⟨hs, hr | hr⟩
      · simp only [GrantedAttempt.settle, hs, hr, finalState]
        exact .reject
      · rw [hpeer] at hp
        cases hp
      · simp only [GrantedAttempt.settle, hs, hr, finalState]
        exact .complete
      · simp only [GrantedAttempt.settle, hs, hr, finalState]
        exact .loseAccepted

/-! ## Stop and interruption -/

omit [F64] [PeerAdmission] [Sha256] [Pairing] [Planner] in
/-- What interruption leaves of the plan and its attempts. -/
theorem interrupt_parts {p : Plan} {e : ExecutionRecord} (he : p.execution = some e) :
    p.interrupt.status.active = false ∧ p.interrupt.revision = p.revision
      ∧ ∃ e', p.interrupt.execution = some e' ∧ e'.startedAtMs = e.startedAtMs
        ∧ (e'.attempts = e.attempts ∨ e'.attempts = e.attempts.map GrantedAttempt.interrupted) := by
  unfold Plan.interrupt
  split
  · split
    · exact ⟨rfl, rfl, e, he, rfl, Or.inl rfl⟩
    · refine ⟨rfl, rfl, { e with attempts := e.attempts.map GrantedAttempt.interrupted,
                                 workload := e.workload.map WorkloadExecution.interrupted }, ?_⟩
      exact ⟨by rw [he]; rfl, rfl, Or.inr rfl⟩
  · rename_i hactive
    exact ⟨by simpa using hactive, rfl, e, he, rfl, Or.inl rfl⟩

omit [F64] [PeerAdmission] [Sha256] [Pairing] [Planner] in
theorem interrupted_move (recovering : Bool) (a : GrantedAttempt) :
    AttemptMove recovering a.state a.interrupted.state := by
  unfold GrantedAttempt.interrupted
  split
  · rename_i hlive
    simp only [AttemptState.live, Bool.or_eq_true, beq_iff_eq] at hlive
    rcases hlive with hs | hs
    · rw [hs]
      exact .lose
    · rw [hs]
      exact .loseAccepted
  · exact .stay _

theorem interrupt_outcome (h : s.Inv) (ht : s.Timed .interrupt saved)
    (hc : s.closure .interrupt = .ok (some q)) : s.Outcome .interrupt q saved := by
  rw [closure] at hc
  split at hc
  swap
  · cases hc
  rename_i hactive
  cases hc
  obtain ⟨e, he⟩ := Plan.execution_of_active h.retained h.reviewed hactive
  obtain ⟨hidle, hrev, e', he', hstart, hatt⟩ := interrupt_parts he
  have hp : s.plan.attempts = e.attempts := by simp [Plan.attempts, he]
  have hq : s.plan.interrupt.attempts = e'.attempts := by simp [Plan.attempts, he']
  refine ⟨fun _ _ => Plan.interrupt_saves h.retained h.reviewed hactive saved,
    s.plan.definition_interrupt, hrev, fun _ ha => ?_, by simp [Move.runnerAfter],
    by simp [Move.runnerAfter],
    fun x hx => ?_, ?_, fun hlt => ?_, fun i a a' ha ha' => ?_, ?_⟩
  · rw [hidle] at ha
    cases ha
  · rw [he'] at hx
    cases hx
    have := h.started e he
    have := ht.1
    omega
  · rw [hp, hq]
    rcases hatt with hatt | hatt
    · simp only [hatt, List.prefix_rfl]
    · rw [hatt, List.map_map]
      have hgrants : e.attempts.map (GrantedAttempt.grant ∘ GrantedAttempt.interrupted)
          = e.attempts.map (·.grant) := List.map_congr_left fun a _ => Plan.interrupted_grant a
      simp only [hgrants, List.prefix_rfl]
  · rw [hp, hq] at hlt
    rcases hatt with hatt | hatt <;> simp [hatt] at hlt
  · rw [hp] at ha
    rw [hq] at ha'
    rcases hatt with hatt | hatt
    · rw [hatt, ha] at ha'
      cases ha'
      exact .stay _
    · rw [hatt, List.getElem?_map, ha] at ha'
      cases ha'
      exact interrupted_move _ a
  · revert hactive
    cases s.plan.status <;> simp [PlanStatus.active, PlanStatus.terminal]

omit [F64] [PeerAdmission] [Sha256] [Pairing] [Planner] in
/-- What a stop request does. -/
theorem cancel_ok {p : Plan} {runner : Bool} {now : Nat} (h : p.cancel runner now = .ok q) :
    (∀ a ∈ p.attempts, a.state ≠ .unknown)
      ∧ ¬(p.status = .completed ∨ p.status = .failed ∨ p.status = .cancelled)
      ∧ ∃ q0 : Plan, q0 = { p with
          status := if runner then .stopping else .cancelled
          execution := p.execution.map fun e => { e with
            stopRequestedAtMs := some (e.stopRequestedAtMs.getD (max now e.startedAtMs)) } }
        ∧ q = if runner then q0 else q0.cancelPending := by
  simp only [Plan.cancel, bind_ok, bailIf_ok, pure_ok, exists_const] at h
  obtain ⟨hknown, hopen, rfl⟩ := h
  refine ⟨fun a ha hs => hknown ?_, hopen, _, rfl, rfl⟩
  rw [List.any_eq_true]
  exact ⟨a, ha, by simp [hs]⟩

/-- A plan that was not started is closed by a stop. -/
theorem close_review {p : Plan} (h : p.validateReview = .ok ())
    (hreviewed : p.requestReview.isSome = true) (he : p.execution = none)
    (hopen : p.status ≠ .cancelled) (saved : Nat) (hist : List JobEvent) {q : Plan}
    (hq : q = ({ p with status := .cancelled } : Plan).cancelPending.stamped saved hist) :
    q.validateReview = .ok () := by
  have hfresh : Task.fresh ∘ Task.cancelled = Task.fresh := funext Task.cancelled_fresh
  have hdef : q.definition = p.definition := by
    rw [hq]
    simp only [Plan.definition, Plan.stamped, Plan.cancelPending, List.map_map, hfresh]
  have hrev : q.revision = p.revision + 1 := by rw [hq]; rfl
  have hexec : q.execution = none := by rw [hq]; exact he
  have hqs : q.status = .cancelled := by rw [hq]; rfl
  have hres : q.results = p.results := by rw [hq]; rfl
  have happroval : q.approval = p.approval := by rw [hq]; rfl
  have htasks : q.tasks = p.tasks.map Task.cancelled := by rw [hq]; rfl
  obtain ⟨-, -, hplanning, hreview⟩ := Plan.planning_of_definition hdef
  obtain ⟨dr, hdr⟩ := Option.isSome_iff_exists.1 hreviewed
  cases hpl : p.planning with
  | none =>
    obtain ⟨h1, h2, h3, b1, -, -, b4⟩ := (Plan.validateReview_unplanned hpl hdr).1 h
    refine (Plan.validateReview_unplanned (hplanning.trans hpl) (hreview.trans hdr)).2
      ⟨hdef ▸ h1, fun r hr => ?_, by rw [hres]; exact fun hn => h3 ⟨he, hn.2⟩,
        happroval.trans b1, hexec, Or.inr hqs, by rw [htasks, b4]; rfl⟩
    have := h2 r hr
    omega
  | some pl =>
    obtain ⟨h1, h2, h3, ⟨b1, b2, -, b4, b5, b6, b7, b8, b9⟩, hva, -⟩ :=
      (Plan.validateReview_planned hpl hdr).1 h
    have hlen := Plan.length_eq_of_definition hdef
    refine (Plan.validateReview_planned (hplanning.trans hpl) (hreview.trans hdr)).2
      ⟨hdef ▸ h1, fun r hr => ?_, by rw [hres]; exact fun hn => h3 ⟨he, hn.2⟩, ?_, ?_, ?_⟩
    · have := h2 r hr
      omega
    · refine ⟨b1, by omega, fun _ => Or.inr (Or.inr hqs), ?_, by omega, by omega,
        fun _ => hres.trans (b7 he), by rw [Plan.taskIds_eq_of_definition hdef]; exact b8, ?_⟩
      · rw [htasks]
        simpa using b4
      · intro _ t' ht'
        rw [htasks] at ht'
        obtain ⟨t, ht, rfl⟩ := List.mem_map.1 ht'
        obtain ⟨c1, c2, c3, c4⟩ := b9 he t ht
        rw [if_neg hopen] at c4
        rw [hqs, if_pos rfl]
        simp only [Task.cancelled, c4, if_true]
        exact ⟨c1, c2, c3, trivial⟩
    · cases hap : p.approval with
      | none =>
        rw [Plan.validateApproval, happroval, hap]
        simp only [ensure_ok]
        rw [hqs]
        simp
      | some ap =>
        exact Plan.validateApproval_update hva hap hdef (happroval.trans hap) (by omega)
          fun _ => Or.inr hqs
    · simp [Plan.validateExecution, Plan.validateStop, hexec]

/-- A stop of a plan that executes by grants is saved. -/
theorem cancel_saves {now : Nat} {e : ExecutionRecord} (h : s.Inv)
    (hrev : s.plan.revision < u64Max) (ht : s.Timed (.cancel now) saved) (he : s.plan.execution = some e) (hw : e.workload = none)
    (hc : s.plan.cancel s.runner now = .ok q) (hdef : q.definition = s.plan.definition) :
    Plan.preserveStop s.plan q = .ok () ∧ Plan.preserveWorkload s.plan q = .ok ()
      ∧ ∀ hist, (q.stamped saved hist).validateReview = .ok () := by
  obtain ⟨hknown, hopen, q0, hq0, hq⟩ := cancel_ok hc
  obtain ⟨ap, pl, dr, hap, hpl, hdr, hids, hx⟩ := h.executed he hw
  have hatt : s.plan.attempts = e.attempts := by simp [Plan.attempts, he]
  rw [hatt] at hknown
  have hnow : now ≤ i64Max := (ht.2.2 now rfl).2.trans ht.2.1
  have hstart : e.startedAtMs ≤ i64Max := (h.started e he).trans h.storable
  have hstatus : s.plan.status.live = true ∨ s.plan.status = .interrupted := by
    have hmem := hx.status_mem
    have hab : s.plan.status ≠ .abandoned := by
      intro hs
      obtain ⟨a, ha, hu⟩ := hx.unknown_of_abandoned hs
      exact hknown a ha hu
    revert hmem hopen hab
    cases s.plan.status <;> simp [PlanStatus.live]
  rw [he, Option.map_some] at hq0
  have hstop : ∀ t ∈ e.stopRequestedAtMs,
      some (e.stopRequestedAtMs.getD (max now e.startedAtMs)) = some t := by
    intro t ht
    rw [Option.mem_def] at ht
    rw [ht, Option.getD_some]
  cases hr : s.runner with
  | true =>
    have hlive : s.plan.status.live = true := by
      refine hstatus.resolve_right fun hint => ?_
      obtain ⟨a, ha, hu⟩ := h.uncertain hr hint
      exact hknown a (hatt ▸ ha) hu
    rw [hr, if_pos rfl] at hq hq0
    subst hq hq0
    exact Plan.saves_of_execution h.retained he hw hap hpl hdr hids hx rfl
      (fun hist => Plan.stop_executed hx hlive hnow hstart rfl rfl) hdef rfl rfl hw hstop
      (by simp [Plan.deliveries, Plan.attempts, he])
  | false =>
    have hint : s.plan.status = .interrupted := by
      refine hstatus.resolve_left fun hlive => ?_
      have := h.running hrev (PlanStatus.active_of_live hlive)
      rw [hr] at this
      cases this
    rw [hr, if_neg (by simp)] at hq hq0
    subst hq hq0
    exact Plan.saves_of_execution h.retained he hw hap hpl hdr hids hx rfl
      (fun hist => Plan.close_executed hx he hint hknown hnow hstart (h.updated.trans ht.1) rfl rfl)
      hdef rfl rfl hw hstop (by simp [Plan.deliveries, Plan.attempts, Plan.cancelPending, he])

theorem cancel_outcome {now : Nat} (h : s.Inv) (ht : s.Timed (.cancel now) saved)
    (hc : s.closure (.cancel now) = .ok (some q)) : s.Outcome (.cancel now) q saved := by
  simp only [closure, bind_ok, pure_ok, Option.some.injEq] at hc
  obtain ⟨q', hc, rfl⟩ := hc
  obtain ⟨hknown, hopen, q0, hq0, hq⟩ := cancel_ok hc
  have hfresh : Task.fresh ∘ Task.cancelled = Task.fresh := funext Task.cancelled_fresh
  have hdef : q'.definition = s.plan.definition := by
    rw [hq, hq0]
    split
    · rfl
    · simp only [Plan.definition, Plan.cancelPending, List.map_map, hfresh]
  have hexec : q'.execution = s.plan.execution.map fun e => { e with
      stopRequestedAtMs := some (e.stopRequestedAtMs.getD (max now e.startedAtMs)) } := by
    rw [hq, hq0]
    split <;> rfl
  have hstatus : q'.status = if s.runner then .stopping else .cancelled := by
    rw [hq, hq0]
    split <;> rfl
  have hatt : q'.attempts = s.plan.attempts := by
    rw [Plan.attempts, Plan.attempts, hexec]
    cases s.plan.execution <;> rfl
  have hsame : q'.revision = s.plan.revision := by
    rw [hq, hq0]
    split <;> rfl
  refine ⟨fun hrev hadm => ?_, hdef, hsame, fun _ hact => ?_, fun hr => ?_, fun _ hint => ?_, fun x hx => ?_,
    by simp only [hatt, List.prefix_rfl], by simp [hatt], fun i a a' ha ha' => ?_, ?_⟩
  · cases he : s.plan.execution with
    | none =>
      have hr : s.runner = false := by
        by_contra hne
        have := h.executing (by simpa using hne)
        rw [he] at this
        cases this
      have hq' : q' = ({ s.plan with status := .cancelled } : Plan).cancelPending := by
        rw [hq, hr, if_neg (by simp), hq0, hr, if_neg (by simp), he, Option.map_none, ← he]
      refine ⟨?_, ?_, fun hist => close_review h.retained h.reviewed he
        (fun hs => hopen (Or.inr (Or.inr hs))) saved hist (by rw [hq'])⟩
      · simp [Plan.preserveStop, Plan.deliveries, Plan.attempts, he, ensure, ok_bind]
      · simp [Plan.preserveWorkload, Plan.workloadOf, he]
    | some e =>
      have hw : e.workload = none := by simpa [Admissible, Plan.workloadOf, he] using hadm
      exact cancel_saves h hrev ht he hw hc hdef
  · show s.runner = true
    by_contra hr
    rw [hstatus, if_neg hr] at hact
    cases hact
  · have := h.executing hr
    rw [hexec, Option.isSome_map]
    exact this
  · rw [hstatus] at hint
    split at hint <;> cases hint
  · rw [hexec] at hx
    obtain ⟨e, he, rfl⟩ := Option.map_eq_some_iff.1 hx
    exact (h.started e he).trans ht.1
  · rw [hatt, ha] at ha'
    cases ha'
    exact .stay _
  · have hab : s.plan.status ≠ .abandoned := by
      intro hs
      obtain ⟨a, ha, hu⟩ := Plan.unknown_of_abandoned h.retained h.reviewed hs
      exact hknown a ha hu
    revert hopen hab
    cases s.plan.status <;> simp [PlanStatus.terminal]

/-! ## Recovery and abandonment -/

omit [Planner] in
theorem receiptAttempt_ok {p : Plan} {id grantId : String} {origin : Option String}
    {a : GrantedAttempt} (h : p.receiptAttempt id grantId origin = .ok a) :
    p.planId = id ∧ a ∈ p.attempts ∧ a.grant.grantId = grantId := by
  simp only [Plan.receiptAttempt, bind_ok, bailIf_ok, ensure_ok, context_ok, exists_const] at h
  obtain ⟨_, -, _, -, -, ⟨hid, -⟩, _, -, hfind⟩ := h
  exact ⟨hid, List.mem_of_find?_eq_some hfind, by simpa using List.find?_some hfind⟩

omit [Planner] in
/-- What a recovery that is not a repetition asks for. -/
theorem eligible_ok {p : Plan} {c : RecoverCommand} {origin : Option String} {unavailable : Bool}
    (h : p.eligible c origin unavailable = .ok false) :
    ∃ e a, p.execution = some e ∧ a ∈ p.attempts ∧ a.grant.grantId = c.grantId
      ∧ p.planId = c.id ∧ unavailable = false ∧ p.status = .interrupted
      ∧ p.revision = c.expectedRevision ∧ a.state = .unknown
      ∧ p.operationUsed c.operationId = false := by
  simp only [Plan.eligible, bind_ok] at h
  obtain ⟨_, -, a, ha, h⟩ := h
  obtain ⟨hid, hmem, hgrant⟩ := receiptAttempt_ok ha
  split at h
  · simp only [bind_ok, ensure_ok, pure_ok, exists_const, Bool.true_eq_false, and_false] at h
  · simp only [bind_ok, ensure_ok, bailIf_ok, context_ok, pure_ok, exists_const] at h
    obtain ⟨e, he, -, ⟨h1, h2, h3, h4, -, -, h7, -⟩, -⟩ := h
    exact ⟨e, a, he, hmem, hgrant, hid, h1, h2, h3, h4, h7⟩

theorem recover_outcome {c : RecoverCommand} {origin : Option String} {closing : Bool}
    {evidence : RetainedResult} {now : Nat} (h : s.Inv)
    (ht : s.Timed (.recover c origin closing evidence now) saved)
    (hc : s.closure (.recover c origin closing evidence now) = .ok (some q)) :
    s.Outcome (.recover c origin closing evidence now) q saved := by
  simp only [closure, Plan.recover, bind_ok] at hc
  obtain ⟨reused, helig, hc⟩ := hc
  cases reused with
  | true => cases hc
  | false =>
    obtain ⟨e, a, he, ha, hgrant, hid, huna, hint, hrev, hstate, hunused⟩ := eligible_ok helig
    simp only [Bool.false_eq_true, if_false, bind_ok, context_ok, ensure_ok, pure_ok, exists_const,
      Option.some.injEq] at hc
    obtain ⟨a', ha', _, hvalid, ⟨hconf, -, hissued⟩, r, hr, rfl⟩ := hc
    have hatt : s.plan.attempts = e.attempts := by simp [Plan.attempts, he]
    rw [hatt] at ha ha'
    obtain ⟨-, hrunner⟩ : closing = false ∧ s.runner = false := by simpa using huna
    have hw := h.workload_none he ha
    obtain ⟨ap, pl, dr, hap, hpl, hdr, hids, hx⟩ := h.executed he hw
    -- the uncertain attempt is the last one
    obtain ⟨i, hi⟩ := List.mem_iff_getElem?.1 ha
    have hsucc : ¬a.succeeded := fun hs => absurd (hstate.symm.trans hs.1) (by simp)
    have hlast := hx.last_of_not_succeeded hi hsucc
    rw [List.getLast?_eq_getElem?, ← hlast, Nat.add_sub_cancel, hi] at ha'
    cases ha'
    rw [hatt, ← hlast, Nat.add_sub_cancel]
    have hnow := (ht.2.2 now rfl).2
    have hexec := fun hist => Plan.recover_executed hx he hids hint hi hlast hstate hvalid hconf
      hid.symm hgrant.symm hrev hissued hunused hr hnow
      (rfl : ((s.plan.applyRecovery i a.grant _ r).settleRecovery r.success).stamped saved hist = _)
    obtain ⟨status, cl, hcl, hsettle, hcase⟩ := Plan.settleRecovery_cases
      (p := s.plan.applyRecovery i a.grant ⟨1, c, Plan.actor origin, now, evidence⟩ r) r.success
    rw [hsettle, Plan.applyRecovery_eq he] at hexec ⊢
    refine h.outcome_modify he hw hap hpl hdr hids hx hi (F := GrantedAttempt.reconcile _)
      (fun _ => rfl) (fun _ => rfl) rfl rfl (fun hist => (hexec hist).2) (hcl.definition _) ht.1
      ?_ ?_ ?_ (by rw [hint]; rfl)
    · intro _ hact
      rcases hcase with ⟨-, rfl, -⟩ | ⟨-, -, rfl, -⟩ | ⟨-, -, rfl, -⟩ <;> cases hact
    · intro hr
      exact absurd (hrunner.symm.trans hr) (by simp)
    · rw [hstate]
      exact .recover rfl

theorem abandon_outcome {c : AbandonCommand} {origin : Option String} {closing : Bool} {now : Nat}
    (h : s.Inv) (ht : s.Timed (.abandon c origin closing now) saved)
    (hc : s.closure (.abandon c origin closing now) = .ok (some q)) :
    s.Outcome (.abandon c origin closing now) q saved := by
  simp only [closure, Plan.abandon, bind_ok, bailIf_ok, context_ok, exists_const] at hc
  obtain ⟨_, hvalid, a, hreceipt, e, he, -, hc⟩ := hc
  obtain ⟨hid, ha, hgrant⟩ := receiptAttempt_ok hreceipt
  have hatt : s.plan.attempts = e.attempts := by simp [Plan.attempts, he]
  rw [hatt] at ha
  split at hc
  · simp only [bind_ok, ensure_ok, pure_ok, exists_const, reduceCtorEq, and_false] at hc
  · simp only [bind_ok, ensure_ok, pure_ok, exists_const, Option.some.injEq] at hc
    obtain ⟨⟨huna, hint, hrev, hstate, -, hissued, hunused⟩, rfl⟩ := hc
    obtain ⟨-, hrunner⟩ : closing = false ∧ s.runner = false := by simpa using huna
    have hw := h.workload_none he ha
    obtain ⟨ap, pl, dr, hap, hpl, hdr, hids, hx⟩ := h.executed he hw
    obtain ⟨i, hi⟩ := List.mem_iff_getElem?.1 ha
    have hfresh : Task.fresh ∘ Task.cancelled = Task.fresh := funext Task.cancelled_fresh
    have hnow := (ht.2.2 now rfl).2
    refine h.outcome he hw hap hpl hdr hids hx rfl (fun hist => Plan.abandon_executed hx he hint hi
      hstate hvalid rfl hid.symm hgrant.symm hrev hissued hunused hnow rfl rfl) ?_ rfl rfl hw rfl
      (fun _ => id) ?_ ht.1 (fun _ hact => by cases hact) (fun hr => ?_) List.prefix_rfl (by simp)
      (fun j b b' hb hb' => ?_) (by rw [hint]; rfl)
    · simp only [Plan.definition, Plan.cancelPending, List.map_map, hfresh]
    · simp only [Plan.deliveries, Plan.attempts, Plan.cancelPending, he, Option.map_some,
        Option.getD_some]
    · exact absurd (hrunner.symm.trans hr) (by simp)
    · cases hb.symm.trans hb'
      exact .stay _

/-! ## Whole runs -/

/-- What a closure leaves, whatever the move. -/
theorem outcome {m : Move} (h : s.Inv) (ht : s.Timed m saved)
    (hf : s.Fresh m) (hc : s.closure m = .ok (some q)) : s.Outcome m q saved := by
  cases m with
  | start c now => exact start_outcome h ht hc
  | issue grantId session now => exact issue_outcome h ht hf hc
  | record grantId r => exact record_outcome h ht hc
  | cancel now => exact cancel_outcome h ht hc
  | interrupt => exact interrupt_outcome h ht hc
  | recover c origin closing evidence now => exact recover_outcome h ht hc
  | abandon c origin closing now => exact abandon_outcome h ht hc

/-- What an admissible closure leaves is saved. -/
theorem commit_ok {m : Move} (h : s.Inv) (hrev : s.plan.revision < u64Max) (ht : s.Timed m saved)
    (hf : s.Fresh m) (hadm : s.Admissible m) (hc : s.closure m = .ok (some q)) :
    ∃ q', s.plan.commit q m.event saved = .ok q' ∧ q'.validateReview = .ok () := by
  have ho := outcome h ht hf hc
  obtain ⟨h1, h2, h3⟩ := ho.saves hrev hadm
  obtain ⟨hist, hstamp⟩ := Plan.stamp_eq (p := q) (by rw [ho.revision]; exact hrev) m.event saved
  refine ⟨q.stamped saved hist, ?_, h3 hist⟩
  simp only [Plan.commit, h1, h2, hstamp, ok_bind, h3 hist]
  rfl

/-- A step saves what its closure leaves, or leaves the plan alone; a runner does not leave a
plan that runs while revisions last. -/
theorem run_cases {m : Move} (h : s.Inv) (ht : s.Timed m saved) (hf : s.Fresh m) :
    (∃ q hist, s.Outcome m q saved ∧ s.plan.revision < u64Max
        ∧ (q.stamped saved hist).validateReview = .ok ()
        ∧ s.run m saved = ⟨q.stamped saved hist, m.runnerAfter s.runner, saved⟩)
      ∨ (s.run m saved = { s with clock := saved, runner := s.runner && m.runnerAfter s.runner }
        ∧ (s.plan.revision < u64Max → s.plan.status.active = true → s.runner = true →
          m.runnerAfter s.runner = true)) := by
  have hstays : m ≠ .interrupt → s.runner = true → m.runnerAfter s.runner = true := by
    intro hm hr
    cases m <;> simp_all [Move.runnerAfter]
  cases hc : s.closure m with
  | error msg =>
    refine Or.inr ⟨by simp only [run, hc], fun _ _ hr => hstays ?_ hr⟩
    rintro rfl
    simp only [closure] at hc
    split at hc <;> cases hc
  | ok o =>
    cases o with
    | none =>
      refine Or.inr ⟨by simp only [run, hc], fun _ hact hr => hstays ?_ hr⟩
      rintro rfl
      simp only [closure, hact, if_true] at hc
      cases hc
    | some q =>
      have ho := outcome h ht hf hc
      cases hcommit : s.plan.commit q m.event saved with
      | error msg =>
        refine Or.inr ⟨by simp only [run, hc, hcommit], fun hrev _ hr => hstays ?_ hr⟩
        rintro rfl
        obtain ⟨q', hq', -⟩ := commit_ok h hrev ht hf trivial hc
        cases hq'.symm.trans hcommit
      | ok q' =>
        have hcommit' := hcommit
        simp only [Plan.commit, bind_ok, pure_ok] at hcommit'
        obtain ⟨_, -, _, -, q1, hstamp, _, hvalid, rfl⟩ := hcommit'
        obtain ⟨hrev, hist, rfl⟩ := Plan.stamp_ok hstamp
        exact Or.inl ⟨q, hist, ho, ho.revision ▸ hrev, hvalid, by simp only [run, hc, hcommit]⟩

theorem step_inv {s' : Tracked} (h : s.Inv) (hs : s.Step s') : s'.Inv := by
  obtain ⟨m, saved, ht, hf, rfl⟩ := hs
  rcases run_cases h ht hf with ⟨q, hist, ho, hrev, hvalid, hrun⟩ | ⟨hrun, hstays⟩
  · rw [hrun]
    obtain ⟨-, -, -, hreview⟩ := Plan.planning_of_definition ho.definition
    exact ⟨hvalid, by rw [← h.reviewed, ← hreview]; rfl,
      (Plan.pairDefinition_of_definition ho.definition).trans h.unpaired,
      fun _ => ho.running hrev, ho.executing, ho.uncertain, Nat.le_refl _, ho.started, ht.2.1⟩
  · rw [hrun]
    refine ⟨h.retained, h.reviewed, h.unpaired, fun hrev hact => ?_, fun hr => ?_, fun hr => ?_,
      h.updated.trans ht.1, fun e he => (h.started e he).trans ht.1, ht.2.1⟩
    · have hr := h.running hrev hact
      simp only [Bool.and_eq_true]
      exact ⟨hr, hstays hrev hact hr⟩
    · simp only [Bool.and_eq_true] at hr
      exact h.executing hr.1
    · simp only [Bool.and_eq_true] at hr
      exact h.uncertain hr.1

/-- What every later state has kept. -/
structure Kept (s s' : Tracked) : Prop where
  grants : s.plan.attempts.map (·.grant) <+: s'.plan.attempts.map (·.grant)
  finished : s.plan.status.terminal = true → s'.plan.status = s.plan.status

omit [F64] [PeerAdmission] [Sha256] [Pairing] [Planner] in
theorem Kept.trans {a b c : Tracked} (h1 : Kept a b) (h2 : Kept b c) : Kept a c := by
  refine ⟨h1.grants.trans h2.grants, fun ha => ?_⟩
  have hb := h1.finished ha
  rw [← hb]
  exact h2.finished (hb ▸ ha)

theorem step_kept {s' : Tracked} (h : s.Inv) (hs : s.Step s') : Kept s s' := by
  obtain ⟨m, saved, ht, hf, rfl⟩ := hs
  rcases run_cases h ht hf with ⟨q, hist, ho, -, -, hrun⟩ | ⟨hrun, -⟩
  · rw [hrun]
    refine ⟨ho.kept, fun hdone => ?_⟩
    rw [ho.unfinished] at hdone
    cases hdone
  · rw [hrun]
    exact ⟨List.prefix_rfl, fun _ => rfl⟩

/-- The attempts of a tracked plan: one for each of its first tasks, in their order, all but
the last one successful. -/
theorem Inv.attempts (h : s.Inv) :
    (s.plan.attempts.map (·.grant.taskId)).Nodup
      ∧ s.plan.attempts.countP (fun a => a.state.live) ≤ 1
      ∧ ∀ (i : Nat) a, s.plan.attempts[i]? = some a → i + 1 < s.plan.attempts.length →
        a.succeeded := by
  cases he : s.plan.execution with
  | none => simp [Plan.attempts, he]
  | some e =>
    have hatt : s.plan.attempts = e.attempts := by simp [Plan.attempts, he]
    rw [hatt]
    rcases List.eq_nil_or_concat' e.attempts with hnil | ⟨init, last, hlast⟩
    · simp [hnil]
    · have hw := h.workload_none he (a := last) (by simp [hlast])
      obtain ⟨ap, pl, dr, -, -, -, hids, hx⟩ := h.executed he hw
      refine ⟨?_, hx.states.2.2.2.2.2, hx.chain rfl⟩
      have htake : e.attempts.map (·.grant.taskId)
          = (s.plan.tasks.map (·.taskId)).take e.attempts.length := by
        refine List.ext_getElem? fun i => ?_
        by_cases hi : i < e.attempts.length
        · obtain ⟨t, ht⟩ := hx.task_of (List.getElem?_eq_getElem hi)
          have hid := (hx.granted i t _ ht (List.getElem?_eq_getElem hi)).taskId ht
          rw [List.getElem?_take_of_lt hi, List.getElem?_map, List.getElem?_map, ht,
            List.getElem?_eq_getElem hi, Option.map_some, Option.map_some, hid]
        · rw [List.getElem?_eq_none (by simpa using hi), List.getElem?_eq_none (by simp; omega)]
      rw [htake]
      exact hids.sublist (List.take_sublist _ _)

/-- A report that is saved already changes nothing. -/
theorem Inv.repeated (h : s.Inv) {a : GrantedAttempt} (ha : a ∈ s.plan.attempts)
    {r : GrantReport} (hr : a.acknowledgement = some r ∨ a.report = some r) :
    s.closure (.record a.grant.grantId r) = .ok none := by
  cases he : s.plan.execution with
  | none => simp [Plan.attempts, he] at ha
  | some e =>
    have hatt : s.plan.attempts = e.attempts := by simp [Plan.attempts, he]
    rw [hatt] at ha
    have hw := h.workload_none he ha
    obtain ⟨ap, pl, dr, -, -, -, hids, hx⟩ := h.executed he hw
    obtain ⟨i, hi⟩ := List.mem_iff_getElem?.1 ha
    obtain ⟨t, ht⟩ := hx.task_of hi
    have hpeer : e.peer = none := (Plan.validatePair_false.1 hx.pair).2
    have hconf : r.confirms a.grant := by
      obtain ⟨hack, hrep⟩ := (hx.tracks i t a ht hi).reports
      rcases hr with hr | hr
      · exact (hack r hr).2
      · exact (hrep r hr).1
    have hfind : (e.attempts.findIdx? fun b => b.grant.grantId == a.grant.grantId) = some i := by
      cases hj : e.attempts.findIdx? fun b => b.grant.grantId == a.grant.grantId with
      | none =>
        have := List.findIdx?_eq_none_iff.1 hj a ha
        simp at this
      | some j =>
        obtain ⟨hlt, hb, -⟩ := List.findIdx?_eq_some_iff_getElem.1 hj
        rw [hx.grantId_inj (List.getElem?_eq_getElem hlt) hi (by simpa using hb)]
    simp only [closure, Plan.record, he, context, ok_bind, hfind, hi, hpeer, ensure, if_pos hconf,
      if_pos hr]
    simp

/-- Reviewed execution, over every run of a reviewed plan that is not a pair: each task has at
most one grant and keeps it, an attempt is issued once all before it succeeded, at most one is
live, attempts move only forward, a finished plan stays as it is, a repeated report changes
nothing, and what an admissible move leaves is saved and valid again. -/
theorem reviewed_execution {s₀ s : Tracked} (h₀ : s₀.Initial) (hrun : Run Step s₀ s) :
    (s.plan.attempts.map (·.grant.taskId)).Nodup
      ∧ s.plan.attempts.countP (fun a => a.state.live) ≤ 1
      ∧ (∀ s', Run Step s s' →
        s.plan.attempts.map (·.grant) <+: s'.plan.attempts.map (·.grant)
          ∧ (s.plan.status.terminal = true → s'.plan.status = s.plan.status))
      ∧ (∀ m saved, s.Timed m saved → s.Fresh m →
        (s.plan.attempts.length < (s.run m saved).plan.attempts.length →
          ∀ a ∈ s.plan.attempts, a.succeeded)
        ∧ ∀ (i : Nat) a a', s.plan.attempts[i]? = some a →
          (s.run m saved).plan.attempts[i]? = some a' → AttemptMove m.recovering a.state a'.state)
      ∧ (∀ a ∈ s.plan.attempts, ∀ r, a.acknowledgement = some r ∨ a.report = some r →
        s.closure (.record a.grant.grantId r) = .ok none)
      ∧ ∀ m saved q, s.Timed m saved → s.Fresh m → s.Admissible m → s.plan.revision < u64Max →
        s.closure m = .ok (some q) →
        ∃ q', s.plan.commit q m.event saved = .ok q' ∧ q'.validateReview = .ok () := by
  have hstep : ∀ a b : Tracked, a.Inv → a.Step b → b.Inv := fun _ _ => step_inv
  have h : s.Inv := Run.invariant hstep h₀.inv hrun
  obtain ⟨hnodup, hlive, -⟩ := h.attempts
  refine ⟨hnodup, hlive, fun s' hs' => ?_, fun m saved ht hf => ?_, fun a ha r hr => h.repeated ha hr,
    fun m saved q ht hf hadm hrev hc => commit_ok h hrev ht hf hadm hc⟩
  · have hmono : ∀ a b : Tracked, a.Inv → a.Step b → Kept a b := fun _ _ => step_kept
    have htrans : ∀ a b c : Tracked, Kept a b → Kept b c → Kept a c := fun _ _ _ => Kept.trans
    have hkept := Run.monotone hstep (fun _ => ⟨List.prefix_rfl, fun _ => rfl⟩) htrans hmono h hs'
    exact ⟨hkept.grants, hkept.finished⟩
  · rcases run_cases h ht hf with ⟨q, hist, ho, -, -, hrun⟩ | ⟨hrun, -⟩
    · rw [hrun]
      exact ⟨ho.issued, ho.states⟩
    · rw [hrun]
      refine ⟨fun hlt => absurd hlt (Nat.lt_irrefl _), fun i a a' ha ha' => ?_⟩
      cases ha.symm.trans ha'
      exact .stay _

end Tracked

end

/-! ## A start, and what is refused -/

section
attribute [local instance] F64.bits PeerAdmission.never approvalSha samplePlanner Pairing.never

namespace Tracked

/-- The approved sample, at rest. -/
def sample : Tracked := ⟨samplePlan, false, 1000⟩

/-- The execution its start leaves. -/
def sampleExecution : ExecutionRecord := ⟨1, sampleExecute, 1500, [], none, none, none, none⟩

theorem sample_start : sample.closure (.start sampleExecute 1500)
    = .ok (some { samplePlan with execution := some sampleExecution, status := .running }) := by
  decide +kernel

theorem sample_initial : sample.Initial := by
  refine ⟨samplePlan_valid, rfl, by decide, ⟨rfl, rfl⟩, Nat.le_refl _, ?_, by decide⟩
  intro e he
  cases he

theorem sample_timed : sample.Timed (.start sampleExecute 1500) 1500 := by
  refine ⟨by decide, by decide, fun now hnow => ?_⟩
  cases hnow
  decide

theorem reviewed_execution_started :
    ∃ q q', sample.closure (.start sampleExecute 1500) = .ok (some q)
      ∧ samplePlan.commit q (Move.start sampleExecute 1500).event 1500 = .ok q'
      ∧ q'.validateReview = .ok () := by
  obtain ⟨-, -, -, -, -, hsaved⟩ :=
    reviewed_execution sample_initial (Relation.ReflTransGen.refl : Run Step sample sample)
  obtain ⟨q', hq', hvalid⟩ := hsaved _ 1500 _ sample_timed trivial
    (by decide : samplePlan.operationUsed sampleExecute.operationId = false) (by decide) sample_start
  exact ⟨_, q', sample_start, hq', hvalid⟩

/-- The sample while it runs. -/
def sampleRunning : Plan :=
  ({ samplePlan with execution := some sampleExecution, status := .running } : Plan).stamped 1500 []

theorem sampleRunning_valid : sampleRunning.validateReview = .ok () := by
  have ho := start_outcome sample_initial.inv sample_timed sample_start
  exact (ho.saves (by decide)
    (by decide : samplePlan.operationUsed sampleExecute.operationId = false)).2.2 []

/-- A start under the approval's own operation id. -/
def reusedExecute : ExecuteCommand := { sampleExecute with operationId := sampleApproval.operationId }

/-- On valid plans, a start under the approval's own operation id, a stop past what a timestamp
holds and a stop of an issued workload get through their closures and are refused on saving. -/
theorem closures_refused :
    (samplePlan.validateReview = .ok () ∧ ∃ q, samplePlan.start reusedExecute 1500 = .ok q
        ∧ ∀ hist, (q.stamped 1500 hist).validateReview ≠ .ok ())
      ∧ (sampleRunning.validateReview = .ok () ∧ ∃ q, sampleRunning.cancel true (2 ^ 63) = .ok q
        ∧ ∀ hist, (q.stamped (2 ^ 63) hist).validateReview ≠ .ok ())
      ∧ workloadPlan.validateReview = .ok () ∧ ∃ q, workloadPlan.cancel true 1500 = .ok q
        ∧ ∀ hist, (q.stamped 1500 hist).validateReview ≠ .ok () := by
  refine ⟨⟨samplePlan_valid, { samplePlan with
      execution := some ⟨1, reusedExecute, 1500, [], none, none, none, none⟩, status := .running },
      by decide +kernel, fun hist h => ?_⟩, ⟨sampleRunning_valid, _, rfl, fun hist h => ?_⟩,
    workloadPlan_valid, _, rfl, fun hist h => ?_⟩
  · obtain ⟨ap, pl, dr, paired, hap, -, -, -, hx⟩ := Plan.executed_of_review h rfl rfl rfl
    cases hap
    exact hx.bounds.2.2.2.2.2.2.2.1 rfl
  · obtain ⟨ap, pl, dr, paired, -, -, -, -, hx⟩ := Plan.executed_of_review h rfl rfl rfl
    exact absurd (hx.stop.requested _ rfl).2 (by decide)
  · obtain ⟨_, _, _, -, -, -, -, -, -, -, hfixed, -⟩ :=
      (Plan.validateWorkload_ok rfl rfl).1 (Plan.workload_of_review h rfl rfl rfl)
    exact absurd hfixed.2.2.2.1 (by decide)

end Tracked

end

end Eef.Coordinator
