import Eef.Coordinator.Issuance
import Eef.Coordinator.Reports
import Eef.Coordinator.Stops

/-!
# The review of an edited plan

`validateReview` reads a plan's definition, its approval and its execution. An edit that
keeps the first two only has to show the third again (`review_of_execution`), and one that
keeps the saved deliveries passes `execution_stop::preserve` (`preserveStop_of_eq`).
-/

namespace Eef.Coordinator

open Eef.Lib Eef.Node

section
variable [F64] [PeerAdmission] [Sha256] [Pairing]

namespace Plan

omit [PeerAdmission] [Sha256] [Pairing] in
theorem template_of_definition {p q : Plan} (h : p.definition = q.definition) :
    p.template = q.template := by
  obtain ⟨-, hgoal, -, -⟩ := planning_of_definition h
  unfold template
  rw [hgoal, length_eq_of_definition h]

omit [F64] [PeerAdmission] [Sha256] [Pairing] in
theorem uniqueOperation_of_definition {p q : Plan} (h : p.definition = q.definition) (id : String) :
    p.uniqueOperation id = q.uniqueOperation id := by
  obtain ⟨-, -, hplanning, hreview⟩ := planning_of_definition h
  unfold uniqueOperation
  rw [hplanning, hreview]

omit [Pairing] in
/-- A stored v1 approval was given after the plan it approves. -/
theorem sourceRevision_lt {p : Plan} {ap : ApprovalRecord} (h : p.validateApproval = .ok ())
    (hap : p.approval = some ap) (hfinite : ¬(ap.schemaVersion = 2 ∨ ap.workload.isSome = true)) :
    ap.sourceRevision < p.revision := by
  simp only [validateApproval, hap, if_neg hfinite, bind_ok, context_ok, ensure_ok] at h
  obtain ⟨pl, hpl, dr, hdr, u1, ho, u2, hid, u3, hdel, u4, hb, hscope⟩ := h
  exact hb.2.2.2.2.2.1

omit [Pairing] in
/-- A later plan with the same definition and approval keeps the approval. -/
theorem validateApproval_update {p q : Plan} {ap : ApprovalRecord}
    (h : p.validateApproval = .ok ()) (hap : p.approval = some ap)
    (hdef : q.definition = p.definition) (hap' : q.approval = some ap)
    (hrev : p.revision ≤ q.revision)
    (hstatus : q.execution = none → q.status = .approved ∨ q.status = .cancelled) :
    q.validateApproval = .ok () := by
  obtain ⟨-, -, hplanning, hreview⟩ := planning_of_definition hdef
  by_cases hwork : ap.schemaVersion = 2 ∨ ap.workload.isSome = true
  · simp only [validateApproval, hap, hap', if_pos hwork, validateWorkloadApproval, bind_ok,
      context_ok, ensure_ok, template_of_definition hdef, uniqueOperation_of_definition hdef,
      hplanning] at h ⊢
    obtain ⟨ap', hap', r, hr, w, hw, u, hu, hb⟩ := h
    cases hap'
    obtain ⟨b1, b2, b3, b4, b5, b6, b7, b8, b9, b10, b11, b12, b13, b14, b15, -⟩ := hb
    refine ⟨ap, rfl, r, hr, w, hw, u, hu, b1, b2, b3, b4, b5, b6, b7, b8, by omega, b10, b11, b12,
      b13, b14, b15, ?_⟩
    cases he : q.execution with
    | none => exact Or.inr (hstatus he)
    | some e => exact Or.inl rfl
  · simp only [validateApproval, hap, hap', if_neg hwork, bind_ok, context_ok, ensure_ok,
      each_ok] at h ⊢
    obtain ⟨pl, hpl, dr, hdr, u1, ho, u2, hid, u3, hdel, u4, hb, hscope⟩ := h
    obtain ⟨b1, b2, b3, -, b5, b6, b7, b8, b9, b10, b11, b12, b13, b14, b15, b16⟩ := hb
    refine ⟨pl, hplanning.trans hpl, dr, hreview.trans hdr, u1, ho, u2, hid, u3, hdel, u4,
      ⟨b1, b2, b3, hstatus, b5, by omega, b7, b8, b9, b10, b11, b12, b13, b14, b15, b16⟩, ?_⟩
    rw [length_eq_of_definition hdef]
    intro i hi
    rw [scope_of_definition hdef]
    exact hscope i hi

omit [F64] [PeerAdmission] [Sha256] [Pairing] in
theorem plannedBounds_update {p q : Plan} {pl : PlanningRecord} (h : p.plannedBounds pl)
    (hdef : q.definition = p.definition) (hrev : p.revision ≤ q.revision)
    (hexec : q.execution ≠ none) : q.plannedBounds pl := by
  obtain ⟨b1, b2, -, b4, b5, b6, -, b8, -⟩ := h
  have hlen := length_eq_of_definition hdef
  refine ⟨b1, by omega, fun hn => absurd hn hexec, ?_, by omega, by omega,
    fun hn => absurd hn hexec, by rw [taskIds_eq_of_definition hdef]; exact b8,
    fun hn => absurd hn hexec⟩
  intro hnil
  rw [hnil] at hlen
  exact b4 (List.eq_nil_of_length_eq_zero hlen.symm)

variable [Planner]

/-- The review of a compiled plan, taken apart. -/
theorem validateReview_planned {p : Plan} {pl : PlanningRecord} {dr : DraftRecord} {u : Unit}
    (hpl : p.planning = some pl) (hdr : p.requestReview = some dr) :
    p.validateReview = .ok u ↔ Planner.definition p.definition = .ok ()
      ∧ (∀ r ∈ dr.sourceRevisions, r < p.revision) ∧ ¬(p.execution = none ∧ p.results ≠ [])
      ∧ p.plannedBounds pl ∧ p.validateApproval = .ok () ∧ p.validateExecution = .ok () := by
  simp only [validateReview, hdr, hpl, Option.isSome_some, if_true, bind_ok, ensure_ok, bailIf_ok,
    validatePlanned, context_ok, Option.some.injEq, exists_eq_left', exists_const]
  constructor
  · rintro ⟨_, h1, h2, h3, h4, _, h5, h6⟩
    exact ⟨h1, h2, h3, h4, h5, h6⟩
  · rintro ⟨h1, h2, h3, h4, h5, h6⟩
    exact ⟨(), h1, h2, h3, h4, (), h5, h6⟩

/-- The review of a draft, taken apart. -/
theorem validateReview_unplanned {p : Plan} {dr : DraftRecord} {u : Unit}
    (hpl : p.planning = none) (hdr : p.requestReview = some dr) :
    p.validateReview = .ok u ↔ Planner.definition p.definition = .ok ()
      ∧ (∀ r ∈ dr.sourceRevisions, r < p.revision) ∧ ¬(p.execution = none ∧ p.results ≠ [])
      ∧ p.unplannedBounds := by
  simp only [validateReview, hdr, hpl, Option.isSome_none, Bool.false_eq_true, if_false, bind_ok,
    ensure_ok, bailIf_ok, exists_const]
  constructor
  · rintro ⟨_, h1, h2, h3, h4⟩
    exact ⟨h1, h2, h3, h4⟩
  · rintro ⟨h1, h2, h3, h4⟩
    exact ⟨(), h1, h2, h3, h4⟩

/-- A plan that executes passes its review when its execution does. -/
theorem review_of_execution {p q : Plan} {ap : ApprovalRecord} {pl : PlanningRecord}
    {dr : DraftRecord} (h : p.validateReview = .ok ()) (hap : p.approval = some ap)
    (hpl : p.planning = some pl) (hdr : p.requestReview = some dr)
    (hdef : q.definition = p.definition) (hap' : q.approval = p.approval)
    (hrev : p.revision ≤ q.revision) (hexec : q.execution ≠ none)
    (hq : q.validateExecution = .ok ()) : q.validateReview = .ok () := by
  obtain ⟨-, -, hplanning, hreview⟩ := planning_of_definition hdef
  obtain ⟨h1, h2, -, h4, h5, -⟩ := (validateReview_planned hpl hdr).1 h
  refine (validateReview_planned (hplanning.trans hpl) (hreview.trans hdr)).2
    ⟨hdef ▸ h1, fun r hr => ?_, fun hn => hexec hn.1, plannedBounds_update h4 hdef hrev hexec,
      validateApproval_update h5 hap hdef (hap'.trans hap) hrev fun hn => absurd hn hexec,
      hq⟩
  have := h2 r hr
  omega

omit [Planner] in
theorem pairDefinition_of_validatePair {p : Plan} {e : ExecutionRecord} {b : Bool}
    (h : p.validatePair e = .ok b) : p.pairDefinition = .ok b := by
  unfold validatePair at h
  cases hpeer : e.peer with
  | none =>
    simp only [hpeer, bind_ok, pure_ok] at h
    obtain ⟨c, hc, -, -, rfl⟩ := h
    exact hc
  | some r =>
    simp only [hpeer, bind_ok, pure_ok] at h
    obtain ⟨c, hc, -, -, -, -, -, -, -, -, rfl⟩ := h
    exact hc

/-! ## An interrupted workload -/

omit [PeerAdmission] [Pairing] [Planner] in
/-- What `workload_jobs::validate_execution` asks of a workload that was issued. -/
theorem validateWorkload_ok {p : Plan} {e : ExecutionRecord} {w : WorkloadExecution}
    (he : p.execution = some e) (hw : e.workload = some w) {u : Unit} :
    p.validateWorkload = .ok u ↔ ∃ a t task, p.approval = some a ∧ p.template = .ok t
      ∧ p.tasks[0]? = some task ∧ w.definition.validate = .ok () ∧ e.command.validate = .ok ()
      ∧ p.uniqueOperation e.command.operationId = .ok ()
      ∧ e.schemaVersion = (if w.completion.isSome then 3 else 2)
      ∧ p.workloadFixed e w a t task ∧ p.uniqueOperation w.definition.grantId = .ok ()
      ∧ task.assignments = [⟨1, t.executorNode, some t.source.resourceId, none, none, w.issuedAtMs⟩]
      ∧ validateAcknowledgement w = .ok () ∧ p.validateCompletion w = .ok ()
      ∧ p.workloadStates w task := by
  simp only [validateWorkload, he, hw, bind_ok, context_ok, ensure_ok, Option.some.injEq,
    exists_eq_left', exists_const]
  constructor
  · rintro ⟨a, ha, t, ht, task, h0, _, h1, _, h2, _, h3, h4, h5, _, h6, h7, _, h8, _, h9, h10⟩
    exact ⟨a, t, task, ha, ht, h0, h1, h2, h3, h4, h5, h6, h7, h8, h9, h10⟩
  · rintro ⟨a, t, task, ha, ht, h0, h1, h2, h3, h4, h5, h6, h7, h8, h9, h10⟩
    exact ⟨a, ha, t, ht, task, h0, (), h1, (), h2, (), h3, h4, h5, (), h6, h7, (), h8, (), h9, h10⟩

omit [PeerAdmission] [Pairing] [Planner] in
/-- The frame rule of a workload: only its evidence and the states have to be shown again. -/
theorem validateWorkload_update {p q : Plan} {e : ExecutionRecord} {w w' : WorkloadExecution}
    {sv : Nat} {task : Task} {x : TaskStatus} (he : p.execution = some e)
    (hw : e.workload = some w) (h : p.validateWorkload = .ok ())
    (hdef : q.definition = p.definition) (hap : q.approval = p.approval)
    (hrev : p.revision ≤ q.revision) (hresults : q.results = p.results)
    (he' : q.execution = some { e with schemaVersion := sv, workload := some w' })
    (hd : w'.definition = w.definition) (hi : w'.issuedAtMs = w.issuedAtMs)
    (h0 : p.tasks[0]? = some task) (h0' : q.tasks[0]? = some { task with status := x })
    (hschema : sv = if w'.completion.isSome then 3 else 2)
    (hack : validateAcknowledgement w' = .ok ()) (hcompletion : q.validateCompletion w' = .ok ())
    (hstates : q.workloadStates w' { task with status := x }) :
    q.validateWorkload = .ok () := by
  obtain ⟨a, t, task', ha, ht, htask, h1, h2, h3, -, h5, h6, h7, -, -, -⟩ :=
    (validateWorkload_ok he hw).1 h
  cases h0.symm.trans htask
  obtain ⟨hid, hgoal, -, -⟩ := planning_of_definition hdef
  refine (validateWorkload_ok he' rfl).2 ⟨a, t, _, hap.trans ha,
    (template_of_definition hdef).trans ht, h0', hd ▸ h1, h2,
    (uniqueOperation_of_definition hdef _).trans h3, hschema, ?_, ?_, ?_, hack, hcompletion, hstates⟩
  · obtain ⟨f1, f2, f3, f4, f5, f6, f7, f8, f9, f10, f11, f12, f13, f14, f15, f16, f17, f18, f19, f20,
      f21, f22, f23, f24, f25, f26, f27⟩ := h5
    refine ⟨f1, f2, f3, f4, f5.trans hid.symm, f6, f7, f8, by simp only; omega, f10.trans hi.symm, ?_,
      ?_, ?_, ?_, ?_, ?_, ?_, ?_, ?_, ?_, ?_, ?_, f23, f24, f25, hresults.trans f26, f27⟩
    all_goals first | rw [hi]; assumption | rw [hd]; assumption | skip
    · rw [hd, hid]
      exact f17
    · rw [hd, hgoal]
      exact f20
  · rw [hd]
    exact (uniqueOperation_of_definition hdef _).trans h6
  · rw [hi]
    exact h7

omit [PeerAdmission] [Pairing] [Planner] in
/-- A workload that runs is uncertain once it is interrupted. -/
theorem interrupt_workload {p : Plan} {e : ExecutionRecord} {w : WorkloadExecution}
    (he : p.execution = some e) (hw : e.workload = some w) (h : p.validateWorkload = .ok ())
    (hactive : p.status.active = true) (now : Nat) (hist : List JobEvent) :
    w.state.live = true ∧ e.attempts = []
      ∧ p.interrupt = { p with
        execution := some { e with workload := some { w with state := .unknown } }
        status := .interrupted
        tasks := p.tasks.map Task.interrupted }
      ∧ (p.interrupt.stamped now hist).validateWorkload = .ok () := by
  obtain ⟨a, t, task, ha, ht, h0, h1, h2, h3, h4, h5, h6, h7, h8, h9, h10⟩ :=
    (validateWorkload_ok he hw).1 h
  have hstates : w.state.live = true ∧ w.completion = none ∧ p.status = .running
      ∧ task.status = .running := by
    unfold workloadStates at h10
    split at h10
    · rename_i hs
      exact ⟨by rw [hs]; rfl, h10.2⟩
    · rename_i hs
      exact ⟨by rw [hs]; rfl, h10.2⟩
    · rw [h10.2.1] at hactive
      cases hactive
    · rw [h10.2.2.1] at hactive
      cases hactive
    · cases h10
  obtain ⟨hlive, hcompletion, hrunning, htask⟩ := hstates
  have hatt := h5.1
  have hq : p.interrupt = { p with
      execution := some { e with workload := some { w with state := .unknown } }
      status := .interrupted
      tasks := p.tasks.map Task.interrupted } := by
    rw [interrupt, if_pos hactive, if_neg (by simp [canSettleUnissuedStop, hrunning])]
    simp [he, hw, hatt, WorkloadExecution.interrupted, hlive]
  refine ⟨hlive, hatt, hq, ?_⟩
  have hfresh : Task.fresh ∘ Task.interrupted = Task.fresh := funext Task.interrupted_fresh
  rw [hq]
  refine validateWorkload_update (x := .interrupted) he hw h ?_ rfl (Nat.le_succ _) rfl rfl rfl rfl
    h0 ?_ (by rw [h4]) h8 ?_ ?_
  · simp only [definition, stamped, List.map_map, hfresh]
  · simp [stamped, h0, Task.interrupted, htask]
  · simp [validateCompletion, hcompletion]
  · exact ⟨hcompletion, rfl, rfl⟩

/-! ## Stop evidence across an edit -/

omit [Planner] in
theorem deliveries_nodup {p : Plan} {e : ExecutionRecord} {ap : ApprovalRecord}
    {pl : PlanningRecord} {dr : DraftRecord} {paired : Bool} (h : p.Executed e ap pl dr paired)
    (he : p.execution = some e) : (p.deliveries.map Prod.fst).Nodup := by
  have hatt : p.attempts = e.attempts := by simp [attempts, he]
  have hids : (e.attempts.map (·.grant.grantId)).Nodup := by
    rw [List.nodup_iff_getElem?_ne_getElem?]
    intro i j hij hj heq
    rw [List.getElem?_map, List.getElem?_map] at heq
    rw [List.length_map] at hj
    have hj' := List.getElem?_eq_getElem hj
    have hi' := List.getElem?_eq_getElem (show i < e.attempts.length by omega)
    rw [hi', hj', Option.map_some, Option.map_some, Option.some.injEq] at heq
    exact absurd (h.grantId_inj hi' hj' heq) (by omega)
  refine List.Nodup.sublist ?_ hids
  rw [deliveries, hatt]
  clear hids hatt he h
  induction e.attempts with
  | nil => simp
  | cons a l ih =>
    rw [List.filterMap_cons]
    cases a.stop with
    | none => exact ih.cons _
    | some d => exact ih.cons_cons _

omit [F64] [PeerAdmission] [Sha256] [Pairing] [Planner] in
/-- An edit that keeps the deliveries and an earlier stop request preserves the evidence. -/
theorem preserveStop_of_eq {p q : Plan} (hnodup : (p.deliveries.map Prod.fst).Nodup)
    (hdeliveries : q.deliveries = p.deliveries)
    (hstop : ∀ t ∈ p.execution.bind (·.stopRequestedAtMs),
      q.execution.bind (·.stopRequestedAtMs) = some t) : preserveStop p q = .ok () := by
  have hlookup : ∀ d ∈ p.deliveries, q.deliveries.lookup d.1 = some d.2 := by
    intro d hd
    rw [hdeliveries]
    exact (Assoc.lookup_eq_some_iff hnodup).2 hd
  simp only [preserveStop, bind_ok, ensure_ok, exists_const]
  refine ⟨hstop, fun d hd => by rw [hlookup d hd]; rfl, fun d hd s hs => ?_⟩
  rw [hlookup d hd] at hs
  cases hs
  exact ⟨rfl, fun _ => rfl⟩

/-- An edit of a plan that executes by grants is saved when its execution is valid again. -/
theorem saves_of_execution {p q : Plan} {saved : Nat} {e e' : ExecutionRecord}
    {ap : ApprovalRecord} {pl : PlanningRecord} {dr : DraftRecord} {paired : Bool}
    (h : p.validateReview = .ok ()) (he : p.execution = some e) (hw : e.workload = none)
    (hap : p.approval = some ap) (hpl : p.planning = some pl) (hdr : p.requestReview = some dr)
    (hids : (p.tasks.map (·.taskId)).Nodup) (hx : p.Executed e ap pl dr paired)
    (hexec : q.execution = some e') (hq : ∀ hist, (q.stamped saved hist).Executed e' ap pl dr paired)
    (hdef : q.definition = p.definition) (hapq : q.approval = p.approval)
    (hrev : q.revision = p.revision) (hworkload : e'.workload = none)
    (hstop : ∀ t ∈ e.stopRequestedAtMs, e'.stopRequestedAtMs = some t)
    (hdeliveries : q.deliveries = p.deliveries) :
    preserveStop p q = .ok () ∧ preserveWorkload p q = .ok ()
      ∧ ∀ hist, (q.stamped saved hist).validateReview = .ok () := by
  refine ⟨?_, by simp [preserveWorkload, workloadOf, he, hw], fun hist => ?_⟩
  · refine preserveStop_of_eq (deliveries_nodup hx he) hdeliveries ?_
    rw [he, hexec]
    exact hstop
  · obtain ⟨-, -, hplanning, hreview⟩ := planning_of_definition hdef
    have hexec' : (q.stamped saved hist).execution = some e' := hexec
    have hids' : ((q.stamped saved hist).tasks.map (·.taskId)).Nodup :=
      (taskIds_eq_of_definition hdef) ▸ hids
    refine review_of_execution h hap hpl hdr hdef hapq ?_ (by rw [hexec']; simp)
      ((validateExecution_iff hexec' ?_ hids').2 ⟨paired, ap, pl, dr, hapq.trans hap,
        hplanning.trans hpl, hreview.trans hdr, hq hist⟩)
    · show p.revision ≤ q.revision + 1
      omega
    · rw [(hq hist).bounds.1, hworkload]
      simp

/-! ## Interruption -/

/-- A reviewed plan that was approved or executed was compiled. -/
theorem planned_of_review {p : Plan} (h : p.validateReview = .ok ())
    (hreviewed : p.requestReview.isSome = true)
    (hne : p.approval ≠ none ∨ p.execution ≠ none) :
    ∃ pl dr, p.planning = some pl ∧ p.requestReview = some dr ∧ p.plannedBounds pl
      ∧ p.validateApproval = .ok () ∧ p.validateExecution = .ok () := by
  obtain ⟨dr, hdr⟩ := Option.isSome_iff_exists.1 hreviewed
  cases hpl : p.planning with
  | none =>
    obtain ⟨-, -, -, hb⟩ := (validateReview_unplanned hpl hdr).1 h
    exact absurd hb.2.1 (hne.resolve_left fun hap => hap hb.1)
  | some pl =>
    obtain ⟨-, -, -, hb, hap, hexec⟩ := (validateReview_planned hpl hdr).1 h
    exact ⟨pl, dr, rfl, hdr, hb, hap, hexec⟩

/-- A reviewed plan that runs has an execution. -/
theorem execution_of_active {p : Plan} (h : p.validateReview = .ok ())
    (hreviewed : p.requestReview.isSome = true) (hactive : p.status.active = true) :
    ∃ e, p.execution = some e := by
  obtain ⟨dr, hdr⟩ := Option.isSome_iff_exists.1 hreviewed
  refine Option.ne_none_iff_exists'.1 fun hnone => ?_
  cases hpl : p.planning with
  | none =>
    obtain ⟨-, -, -, hb⟩ := (validateReview_unplanned hpl hdr).1 h
    rcases hb.2.2.1 with hs | hs <;> rw [hs] at hactive <;> cases hactive
  | some pl =>
    obtain ⟨-, -, -, hb, -, -⟩ := (validateReview_planned hpl hdr).1 h
    rcases hb.2.2.1 hnone with hs | hs | hs <;> rw [hs] at hactive <;> cases hactive

/-- The execution of a plan that runs by grants. -/
theorem executed_of_review {p : Plan} {e : ExecutionRecord} (h : p.validateReview = .ok ())
    (hreviewed : p.requestReview.isSome = true) (he : p.execution = some e)
    (hw : e.workload = none) :
    ∃ ap pl dr paired, p.approval = some ap ∧ p.planning = some pl ∧ p.requestReview = some dr
      ∧ (p.tasks.map (·.taskId)).Nodup ∧ p.Executed e ap pl dr paired := by
  obtain ⟨pl, dr, hpl, hdr, hb, -, hexec⟩ := planned_of_review h hreviewed (Or.inr (by simp [he]))
  have hids := hb.2.2.2.2.2.2.2.1
  have hschema : e.schemaVersion ≠ 2 := by
    intro h2
    rw [validateExecution, if_pos (by simp [he, h2]), validateWorkload] at hexec
    simp only [he, context, ok_bind, hw, error_bind, reduceCtorEq] at hexec
  obtain ⟨paired, ap, pl', dr', hap, hpl', hdr', hx⟩ :=
    (validateExecution_iff he (by simp [hschema, hw]) hids).1 hexec
  cases hpl.symm.trans hpl'
  cases hdr.symm.trans hdr'
  exact ⟨ap, pl, dr, paired, hap, hpl, hdr, hids, hx⟩

/-- The execution of a plan that runs as a workload. -/
theorem workload_of_review {p : Plan} {e : ExecutionRecord} {w : WorkloadExecution}
    (h : p.validateReview = .ok ()) (hreviewed : p.requestReview.isSome = true)
    (he : p.execution = some e) (hw : e.workload = some w) : p.validateWorkload = .ok () := by
  obtain ⟨-, -, -, -, -, -, hexec⟩ := planned_of_review h hreviewed (Or.inr (by simp [he]))
  rwa [validateExecution, if_pos (by simp [he, hw])] at hexec

/-- A plan is abandoned only over an uncertain attempt. -/
theorem unknown_of_abandoned {p : Plan} (h : p.validateReview = .ok ())
    (hreviewed : p.requestReview.isSome = true) (hs : p.status = .abandoned) :
    ∃ a ∈ p.attempts, a.state = .unknown := by
  obtain ⟨dr, hdr⟩ := Option.isSome_iff_exists.1 hreviewed
  cases he : p.execution with
  | none =>
    cases hpl : p.planning with
    | none =>
      obtain ⟨-, -, -, hb⟩ := (validateReview_unplanned hpl hdr).1 h
      rcases hb.2.2.1 with h1 | h1 <;> exact absurd (h1.symm.trans hs) (by simp)
    | some pl =>
      obtain ⟨-, -, -, hb, -, -⟩ := (validateReview_planned hpl hdr).1 h
      rcases hb.2.2.1 he with h1 | h1 | h1 <;> exact absurd (h1.symm.trans hs) (by simp)
  | some e =>
    have hatt : p.attempts = e.attempts := by simp [attempts, he]
    cases hw : e.workload with
    | some w =>
      obtain ⟨_, _, task, -, -, -, -, -, -, -, -, -, -, -, -, hstates⟩ :=
        (validateWorkload_ok he hw).1 (workload_of_review h hreviewed he hw)
      unfold workloadStates at hstates
      split at hstates <;> simp_all
    | none =>
      obtain ⟨_, _, _, _, -, -, -, -, hx⟩ := executed_of_review h hreviewed he hw
      rw [hatt]
      exact hx.unknown_of_abandoned hs

omit [F64] [PeerAdmission] [Sha256] [Pairing] [Planner] in
theorem definition_interrupt (p : Plan) : p.interrupt.definition = p.definition := by
  have hcancelled : Task.fresh ∘ Task.cancelled = Task.fresh := funext Task.cancelled_fresh
  have hinterrupted : Task.fresh ∘ Task.interrupted = Task.fresh := funext Task.interrupted_fresh
  unfold interrupt
  split
  · split
    · simp only [definition, settleStop, cancelPending, List.map_map, hcancelled]
    · simp only [definition, List.map_map, hinterrupted]
  · rfl

/-- The interruption of a workload that runs is saved. -/
theorem interrupt_workload_saves {p : Plan} {e : ExecutionRecord} {w : WorkloadExecution}
    (h : p.validateReview = .ok ()) (hreviewed : p.requestReview.isSome = true)
    (he : p.execution = some e) (hw : e.workload = some w) (hactive : p.status.active = true)
    (saved : Nat) : preserveStop p p.interrupt = .ok () ∧ preserveWorkload p p.interrupt = .ok ()
      ∧ ∀ hist, (p.interrupt.stamped saved hist).validateReview = .ok () := by
  have hv := workload_of_review h hreviewed he hw
  obtain ⟨ap, _, _, hap, -, -, -, -, -, -, hfixed, -⟩ := (validateWorkload_ok he hw).1 hv
  obtain ⟨hlive, hatt, hq, -⟩ := interrupt_workload he hw hv hactive saved []
  refine ⟨?_, ?_, fun hist => ?_⟩
  · rw [hq]
    simp [preserveStop, deliveries, attempts, he, hatt, hfixed.2.2.2.1, ensure, ok_bind]
  · rw [hq]
    simp only [preserveWorkload, workloadOf, he, hw, Option.bind_some, Option.map_some, context,
      bind_ok, ensure_ok]
    have hmoves : workloadMoves w.state .unknown = true := by
      revert hlive
      cases w.state <;> simp [AttemptState.live, workloadMoves]
    exact ⟨_, rfl, (), ⟨rfl, rfl, rfl, rfl, Or.inr rfl, Or.inr rfl⟩, hmoves⟩
  · obtain ⟨pl, dr, hpl, hdr, -, -, -⟩ := planned_of_review h hreviewed (Or.inr (by simp [he]))
    have hwork := (interrupt_workload he hw hv hactive saved hist).2.2.2
    have hdef := p.definition_interrupt
    rw [hq] at hwork hdef ⊢
    refine review_of_execution h hap hpl hdr hdef rfl (Nat.le_succ _) (by simp [stamped]) ?_
    rw [validateExecution, if_pos (by simp [stamped])]
    exact hwork

/-- The interruption of a plan that runs is always saved, whatever executes it. -/
theorem interrupt_saves {p : Plan} (h : p.validateReview = .ok ())
    (hreviewed : p.requestReview.isSome = true) (hactive : p.status.active = true) (saved : Nat) :
    preserveStop p p.interrupt = .ok () ∧ preserveWorkload p p.interrupt = .ok ()
      ∧ ∀ hist, (p.interrupt.stamped saved hist).validateReview = .ok () := by
  obtain ⟨e, he⟩ := execution_of_active h hreviewed hactive
  cases hw : e.workload with
  | some w => exact interrupt_workload_saves h hreviewed he hw hactive saved
  | none =>
    obtain ⟨ap, pl, dr, paired, hap, hpl, hdr, hids, hx⟩ := executed_of_review h hreviewed he hw
    have hlive : p.status.live = true := by
      have := hx.status_mem
      revert hactive this
      cases p.status <;> simp [PlanStatus.live, PlanStatus.active]
    have hdef := p.definition_interrupt
    by_cases hsettle : p.canSettleUnissuedStop = true
    · have hq : p.interrupt = p.settleStop := by rw [interrupt, if_pos hactive, if_pos hsettle]
      rw [hq] at hdef ⊢
      simp only [canSettleUnissuedStop, he, hw, Option.any_some, Option.isNone_none,
        Bool.true_and, Bool.and_eq_true, beq_iff_eq, List.all_eq_true, Bool.or_eq_true] at hsettle
      obtain ⟨hstopping, hends⟩ := hsettle
      have hknown : ∀ a ∈ e.attempts, a.state.live = false ∧ a.state ≠ .unknown := by
        intro a ha
        rcases hends a ha with hs | hs <;> simp [hs, AttemptState.live]
      have hx' := fun hist => settleStop_executed hx he hstopping hknown
        (rfl : p.settleStop.stamped saved hist = _)
      exact saves_of_execution h he hw hap hpl hdr hids hx (hx' []).1 (fun hist => (hx' hist).2)
        hdef rfl rfl hw (fun _ => id) rfl
    · have hq : p.interrupt = { p with
          execution := some { e with attempts := e.attempts.map GrantedAttempt.interrupted
                                     workload := e.workload.map WorkloadExecution.interrupted }
          status := .interrupted
          tasks := p.tasks.map Task.interrupted } := by
        rw [interrupt, if_pos hactive, if_neg hsettle, he]
        rfl
      rw [hq] at hdef ⊢
      refine saves_of_execution h he hw hap hpl hdr hids hx rfl
        (fun hist => interrupt_executed hx hlive rfl rfl) hdef rfl rfl (by simp [hw]) (fun _ => id) ?_
      simp only [deliveries, attempts, he, Option.map_some, Option.getD_some, List.filterMap_map]
      refine congrArg (List.filterMap · e.attempts) (funext fun a => ?_)
      obtain ⟨-, -, -, hstop, -⟩ := interrupted_parts a
      simp only [Function.comp, interrupted_grant, hstop]

end Plan

end

end Eef.Coordinator
