import Eef.Coordinator.Transitions

/-!
# A valid execution, taken apart

`Executed` is what `request_execution::validate_retained` asks of a plan that executes by
grants, stated field by field (`validateExecution_iff`): each issued task carries the
approved grant (`Granted`) and stands where its attempt stands (`Tracks`), every attempt
but the last one succeeded (`chain`), and the plan's results are those of its tasks
(`results`).

`Executed.update` is the frame rule: a transition that leaves the grants alone only has to
show the fields that speak about states.
-/

namespace Eef.Coordinator

open Eef.Lib Eef.Node

namespace Plan

/-! ## The definition of a plan -/

theorem fresh_eq_of_definition {p q : Plan} (h : p.definition = q.definition) (i : Nat) :
    p.tasks[i]?.map Task.fresh = q.tasks[i]?.map Task.fresh := by
  have ht : p.tasks.map Task.fresh = q.tasks.map Task.fresh := congrArg PlanDefinition.tasks h
  rw [← List.getElem?_map, ← List.getElem?_map, ht]

theorem length_eq_of_definition {p q : Plan} (h : p.definition = q.definition) :
    p.tasks.length = q.tasks.length := by
  have ht : p.tasks.map Task.fresh = q.tasks.map Task.fresh := congrArg PlanDefinition.tasks h
  simpa using congrArg List.length ht

theorem taskIds_eq_of_definition {p q : Plan} (h : p.definition = q.definition) :
    p.tasks.map (·.taskId) = q.tasks.map (·.taskId) := by
  have ht : p.tasks.map Task.fresh = q.tasks.map Task.fresh := congrArg PlanDefinition.tasks h
  simpa [Function.comp_def, Task.fresh] using congrArg (List.map (·.taskId)) ht

theorem capability_of_definition {p q : Plan} (h : p.definition = q.definition) (f : String → Bool) :
    (p.tasks.any fun t => f t.capability) = q.tasks.any fun t => f t.capability := by
  have ht : p.tasks.map Task.fresh = q.tasks.map Task.fresh := congrArg PlanDefinition.tasks h
  simpa [List.any_map, Function.comp_def, Task.fresh] using
    congrArg (List.any · fun t => f t.capability) ht

theorem planning_of_definition {p q : Plan} (h : p.definition = q.definition) :
    p.planId = q.planId ∧ p.goal = q.goal ∧ p.planning = q.planning
      ∧ p.requestReview = q.requestReview :=
  ⟨congrArg PlanDefinition.planId h, congrArg PlanDefinition.goal h,
    congrArg PlanDefinition.planning h, congrArg PlanDefinition.requestReview h⟩

section
variable [F64] [PeerAdmission]

/-- Plans with one definition derive the same grants. -/
theorem scope_of_definition {p q : Plan} (h : p.definition = q.definition) (i : Nat)
    (record : ApprovalRecord) : p.scope i record = q.scope i record := by
  obtain ⟨hid, hgoal, hplanning, -⟩ := planning_of_definition h
  have hfresh := fresh_eq_of_definition h i
  unfold scope
  rw [hgoal, hplanning]
  cases hp : p.tasks[i]? with
  | none =>
    rw [hp] at hfresh
    have hq : q.tasks[i]? = none := by simpa using hfresh.symm
    simp only [hq, context, error_bind]
  | some t =>
    rw [hp] at hfresh
    obtain ⟨t', hq, hfresh⟩ := Option.map_eq_some_iff.1 hfresh.symm
    rw [hq]
    have hscope : ∀ b o, p.scopeOf t b o record = q.scopeOf t' b o record := by
      intro b o
      have h1 : p.scopeOf t b o record = q.scopeOf t.fresh b o record := by
        simp [scopeOf, Task.fresh, hid]
      rw [h1, ← hfresh]
      rfl
    have htimeout : t.timeoutMs = t'.timeoutMs := by
      simpa [Task.fresh] using congrArg Task.timeoutMs hfresh.symm
    simp only [context, ok_bind, hscope, htimeout]

end

/-! ## Attempts -/

section
variable [F64] [PeerAdmission] [Sha256]

/-- What the validator asks of an issued grant, whatever its attempt has come to. -/
structure Granted (p : Plan) (e : ExecutionRecord) (ap : ApprovalRecord) (pl : PlanningRecord)
    (i : Nat) (t : Task) (a : GrantedAttempt) : Prop where
  valid : a.grant.validate = .ok ()
  scope : ∃ g, p.scope i ap = .ok g ∧
    a.grant = { g with grantId := a.grant.grantId, sessionId := a.grant.sessionId,
                       issuedAtMs := a.grant.issuedAtMs, expiresAtMs := a.grant.expiresAtMs }
  started : e.startedAtMs ≤ a.grant.issuedAtMs
  expires : a.grant.expiresAtMs ≤ ap.expiresAtMs
  bounded : a.grant.issuedAtMs + a.grant.limits.maxExecutionMs ≤ u64Max
  lease : a.grant.expiresAtMs =
    min (a.grant.issuedAtMs + a.grant.limits.maxExecutionMs) ap.expiresAtMs
  distinct : ∀ g ∈ (e.attempts.take i).map (·.grant), g.grantId ≠ a.grant.grantId
  command : a.grant.grantId ≠ e.command.operationId
  approval : a.grant.grantId ≠ ap.operationId
  planning : a.grant.grantId ≠ pl.operationId
  attempts : t.attempts = 1
  assigned : t.assignments = [assignmentOf a.grant]

/-- Where a task stands is where its attempt stands. -/
structure Tracks (paired : Bool) (t : Task) (a : GrantedAttempt) : Prop where
  reports : reportsFixed a
  lifecycle : ∃ s r, a.lifecycle paired = some (s, r) ∧ t.status = s
    ∧ t.result = r.map (resultOf a.grant)

/-- The stop evidence of an execution. -/
structure StopKept (e : ExecutionRecord) : Prop where
  requested : ∀ t ∈ e.stopRequestedAtMs, e.startedAtMs ≤ t ∧ t ≤ i64Max
  delivered : ∀ a ∈ e.attempts, ∀ stop ∈ a.stop,
    (e.stopRequestedAtMs.any fun t => decide (t ≤ stop.sendAttemptedAtMs)) = true
      ∧ stop.sendAttemptedAtMs ≤ i64Max ∧ stop.outcomeUnknown = stop.report.isNone
      ∧ (stop.report.all fun r => confirmsStop r a.grant) = true

variable [Pairing]

/-- A plan that executes by grants. -/
structure Executed (p : Plan) (e : ExecutionRecord) (ap : ApprovalRecord) (pl : PlanningRecord)
    (dr : DraftRecord) (paired : Bool) : Prop where
  stop : StopKept e
  pair : p.validatePair e = .ok paired
  command : e.command.validate = .ok ()
  bounds : p.executionBounds e ap pl dr
  unissued : ∀ (i : Nat) (t : Task), p.tasks[i]? = some t → e.attempts[i]? = none → t.unissued
  granted : ∀ (i : Nat) t a, p.tasks[i]? = some t → e.attempts[i]? = some a → p.Granted e ap pl i t a
  tracks : ∀ (i : Nat) t a, p.tasks[i]? = some t → e.attempts[i]? = some a → Tracks paired t a
  chain : paired = false → ∀ (i : Nat) b, e.attempts[i]? = some b → i + 1 < e.attempts.length → b.succeeded
  recovery : ∀ a ∈ e.attempts, p.validateRecovery e a = .ok ()
  results : ∀ k v, p.results.lookup k = some v ↔ ∃ t ∈ p.tasks, t.taskId = k ∧ t.result = some v
  states : p.statusFits e paired
  abandonment : p.validateAbandonment e = .ok ()

/-! ## The validator, field by field -/

omit [Pairing] in
theorem validateStop_ok {p : Plan} {e : ExecutionRecord} (he : p.execution = some e) {u : Unit} :
    p.validateStop = .ok u ↔ StopKept e := by
  simp only [validateStop, he, bind_ok, bailIf_ok, ensure_ok, exists_const]
  constructor
  · rintro ⟨hr, hd⟩
    refine ⟨fun t ht => ?_, hd⟩
    rw [Option.mem_def] at ht
    simp only [ht, Option.any_some, decide_eq_true_eq, not_or, not_lt] at hr
    exact hr
  · rintro ⟨hr, hd⟩
    refine ⟨?_, hd⟩
    cases ht : e.stopRequestedAtMs with
    | none => simp
    | some t =>
      have := hr t ht
      simp only [Option.any_some, decide_eq_true_eq, not_or, not_lt]
      exact this

omit [Pairing] in
theorem validateTask_issued {p : Plan} {e : ExecutionRecord} {ap : ApprovalRecord}
    {pl : PlanningRecord} {paired : Bool} {i : Nat} {t : Task} {a : GrantedAttempt} {u : Unit}
    (ha : e.attempts[i]? = some a) :
    p.validateTask e ap pl paired i t = .ok u ↔
      p.Granted e ap pl i t a ∧ Tracks paired t a ∧ p.validateRecovery e a = .ok ()
        ∧ (paired = false → 0 < i → ∀ b ∈ e.attempts[i - 1]?, b.succeeded) := by
  simp only [validateTask, ha, bind_ok, ensure_ok, context_ok, exists_const, Prod.exists]
  constructor
  · rintro ⟨_, hvalid, g, hscope, hfix, hassigned, hack, hreport, _, hrec, s, r, hlife, hstatus,
      hresult⟩
    obtain ⟨h1, h2, h3, h4, h5, h6, h7, h8, h9, h10, h11, h12⟩ := hfix
    refine ⟨⟨hvalid, ⟨g, hscope, h1⟩, h2, h3, h4, h5, ?_, h7, h8, h9, h10, hassigned⟩,
      ⟨⟨hack, hreport⟩, s, r, hlife, hstatus, hresult⟩, hrec, h12⟩
    intro g' hg'
    obtain ⟨b, hb, rfl⟩ := List.mem_map.1 hg'
    exact h6 b hb
  · rintro ⟨hg, ⟨⟨hack, hreport⟩, s, r, hlife, hstatus, hresult⟩, hrec, hpred⟩
    obtain ⟨g, hscope, heq⟩ := hg.scope
    refine ⟨(), hg.valid, g, hscope, ⟨heq, hg.started, hg.expires, hg.bounded, hg.lease, ?_,
      hg.command, hg.approval, hg.planning, hg.attempts, by rw [hg.assigned]; rfl, hpred⟩,
      hg.assigned, hack, hreport, (), hrec, s, r, hlife, hstatus, hresult⟩
    exact fun b hb => hg.distinct _ (List.mem_map_of_mem hb)

omit [PeerAdmission] [Sha256] [Pairing] [F64] in
/-- Two maps agree on the keys either one has exactly when they agree everywhere. -/
theorem sameResults_iff {a b : List (String × TaskResult)} :
    sameResults a b ↔ ∀ k, a.lookup k = b.lookup k := by
  refine ⟨fun h k => ?_, fun h k _ => h k⟩
  by_cases hk : k ∈ a.map Prod.fst ++ b.map Prod.fst
  · exact h k hk
  · have hnone : ∀ m : List (String × TaskResult), k ∉ m.map Prod.fst → m.lookup k = none := by
      intro m hm
      cases hl : m.lookup k with
      | none => rfl
      | some v => exact absurd (Assoc.lookup_isSome (by simp [hl])) hm
    rw [List.mem_append, not_or] at hk
    rw [hnone a hk.1, hnone b hk.2]

omit [Pairing] in
/-- The results the attempts stand for are those on the tasks. -/
theorem attemptResults_lookup {p : Plan} {e : ExecutionRecord} {paired : Bool}
    (hids : (p.tasks.map (·.taskId)).Nodup)
    (hun : ∀ (i : Nat) (t : Task), p.tasks[i]? = some t → e.attempts[i]? = none → t.unissued)
    (htr : ∀ (i : Nat) t a, p.tasks[i]? = some t → e.attempts[i]? = some a → Tracks paired t a)
    (k : String) (v : TaskResult) :
    (p.attemptResults e paired).lookup k = some v ↔
      ∃ t ∈ p.tasks, t.taskId = k ∧ t.result = some v := by
  have hkeys : ((p.attemptResults e paired).map Prod.fst).Nodup := by
    refine List.Nodup.sublist ?_ hids
    have hzip : ∀ (ts : List Task) (as : List GrantedAttempt),
        ((ts.zip as).map fun x => x.1.taskId).Sublist (ts.map (·.taskId)) := by
      intro ts
      induction ts with
      | nil => simp
      | cons t ts ih =>
        intro as
        cases as with
        | nil => simp
        | cons a as => exact (ih as).cons_cons _
    refine List.Sublist.trans ?_ (hzip p.tasks e.attempts)
    rw [attemptResults, List.map_filterMap]
    generalize p.tasks.zip e.attempts = l
    induction l with
    | nil => simp
    | cons x l ih =>
      rw [List.filterMap_cons]
      split
      · exact (ih.cons _)
      · rename_i y hy
        obtain ⟨w, hw, rfl⟩ := Option.map_eq_some_iff.1 hy
        obtain ⟨s, -, hs⟩ := Option.bind_eq_some_iff.1 hw
        obtain ⟨r, -, rfl⟩ := Option.map_eq_some_iff.1 hs
        exact ih.cons_cons _
  rw [Assoc.lookup_eq_some_iff hkeys, attemptResults, List.mem_filterMap]
  constructor
  · rintro ⟨⟨t, a⟩, hmem, hv⟩
    obtain ⟨i, hi⟩ := List.mem_iff_getElem?.1 hmem
    rw [List.getElem?_zip_eq_some] at hi
    obtain ⟨s, r, hlife, -, hresult⟩ := (htr i t a hi.1 hi.2).lifecycle
    simp only [hlife, Option.bind_some, Option.map_eq_some_iff, Prod.mk.injEq] at hv
    obtain ⟨r', rfl, rfl, rfl⟩ := hv
    exact ⟨t, List.mem_of_getElem? hi.1, rfl, by simpa using hresult⟩
  · rintro ⟨t, ht, rfl, hv⟩
    obtain ⟨i, hi⟩ := List.mem_iff_getElem?.1 ht
    cases ha : e.attempts[i]? with
    | none => exact absurd ((hun i t hi ha).2.2.1.symm.trans hv) (by simp)
    | some a =>
      obtain ⟨s, r, hlife, -, hresult⟩ := (htr i t a hi ha).lifecycle
      obtain ⟨r', hr, rfl⟩ := Option.map_eq_some_iff.1 (hresult.symm.trans hv)
      refine ⟨(t, a), ?_, ?_⟩
      · exact List.mem_iff_getElem?.2 ⟨i, List.getElem?_zip_eq_some.2 ⟨hi, ha⟩⟩
      · simp [hlife, hr]

/-- The validator accepts a plan that executes by grants exactly when it is `Executed`. -/
theorem validateExecution_iff {p : Plan} {e : ExecutionRecord} (he : p.execution = some e)
    (hw : ¬(e.schemaVersion = 2 ∨ e.workload.isSome = true))
    (hids : (p.tasks.map (·.taskId)).Nodup) {u : Unit} :
    p.validateExecution = .ok u ↔ ∃ paired ap pl dr, p.approval = some ap
      ∧ p.planning = some pl ∧ p.requestReview = some dr ∧ p.Executed e ap pl dr paired := by
  have hbranch : ¬(p.execution.any fun e => e.schemaVersion == 2 || e.workload.isSome) = true := by
    rw [he]
    simpa using hw
  rw [validateExecution, if_neg hbranch]
  simp only [bind_ok, exists_const, he, validateStop_ok he, context_ok, ensure_ok, each_ok]
  constructor
  · rintro ⟨hstop, paired, hpair, _, hcommand, ap, hap, pl, hpl, dr, hdr, hbounds, htasks,
      ⟨hresults, hstates⟩, habandon⟩
    have htask : ∀ i t, p.tasks[i]? = some t → p.validateTask e ap pl paired i t = .ok () :=
      fun i t ht => htasks (t, i) (List.mem_zipIdx_iff_getElem?.2 ht)
    have hissued := fun i t a (ht : p.tasks[i]? = some t) (ha : e.attempts[i]? = some a) =>
      (validateTask_issued ha).1 (htask i t ht)
    have hun : ∀ (i : Nat) (t : Task), p.tasks[i]? = some t → e.attempts[i]? = none →
        t.unissued := by
      intro i t ht ha
      have := htask i t ht
      simpa only [validateTask, ha, ensure_ok] using this
    have hcover : ∀ (i : Nat) a, e.attempts[i]? = some a → ∃ t, p.tasks[i]? = some t := by
      intro i a ha
      have hlt : i < e.attempts.length := (List.getElem?_eq_some_iff.1 ha).1
      have hle : e.attempts.length ≤ p.tasks.length := hbounds.2.2.2.2.2.2.2.2.2.2.2.2
      exact ⟨_, List.getElem?_eq_getElem (by omega)⟩
    refine ⟨paired, ap, pl, dr, hap, hpl, hdr, hstop, hpair, hcommand, hbounds, hun,
      fun i t a ht ha => (hissued i t a ht ha).1, fun i t a ht ha => (hissued i t a ht ha).2.1,
      ?_, ?_, ?_, hstates, habandon⟩
    · intro hp i b hb hlt
      obtain ⟨a, ha⟩ : ∃ a, e.attempts[i + 1]? = some a := ⟨_, List.getElem?_eq_getElem hlt⟩
      obtain ⟨t, ht⟩ := hcover _ _ ha
      exact (hissued _ _ _ ht ha).2.2.2 hp (by omega) b (by simpa using hb)
    · intro a hmem
      obtain ⟨i, ha⟩ := List.mem_iff_getElem?.1 hmem
      obtain ⟨t, ht⟩ := hcover _ _ ha
      exact (hissued _ _ _ ht ha).2.2.1
    · intro k v
      rw [← sameResults_iff.1 hresults k]
      exact attemptResults_lookup hids hun (fun i t a ht ha => (hissued i t a ht ha).2.1) k v
  · rintro ⟨paired, ap, pl, dr, hap, hpl, hdr, h⟩
    refine ⟨h.stop, paired, h.pair, (), h.command, ap, hap, pl, hpl, dr, hdr, h.bounds, ?_,
      ⟨?_, h.states⟩, h.abandonment⟩
    · rintro ⟨t, i⟩ hmem
      have ht : p.tasks[i]? = some t := List.mem_zipIdx_iff_getElem?.1 hmem
      cases ha : e.attempts[i]? with
      | none => simpa only [validateTask, ha, ensure_ok] using h.unissued i t ht ha
      | some a =>
        refine (validateTask_issued ha).2 ⟨h.granted i t a ht ha, h.tracks i t a ht ha,
          h.recovery a (List.mem_of_getElem? ha), ?_⟩
        intro hp hi b hb
        have hlt := (List.getElem?_eq_some_iff.1 ha).1
        exact h.chain hp (i - 1) b hb (by omega)
    · refine sameResults_iff.2 fun k => ?_
      have hl := attemptResults_lookup hids h.unissued h.tracks k
      refine Option.ext fun v => ?_
      rw [hl v, h.results k v]

/-! ## Reading an execution -/

omit [F64] [PeerAdmission] [Sha256] in
theorem pairDefinition_of_definition {p q : Plan} (h : p.definition = q.definition) :
    p.pairDefinition = q.pairDefinition := by
  obtain ⟨-, hgoal, -, -⟩ := planning_of_definition h
  have hcap := capability_of_definition h (· == "peer.transfer")
  unfold pairDefinition
  rw [hgoal, hcap]

/-- Plans with one definition and one approval admit the same issuances. -/
theorem validateFor_of_definition {p q : Plan} (h : p.definition = q.definition)
    (happroval : p.approval = q.approval) (record : Json) (grants : List ExecutionGrant) :
    Issuance.validateFor record p grants = Issuance.validateFor record q grants := by
  obtain ⟨hid, hgoal, -, -⟩ := planning_of_definition h
  have hend : ∀ ap pair i role, Issuance.validateEnd record p ap pair grants i role
      = Issuance.validateEnd record q ap pair grants i role := by
    intro ap pair i role
    have hfresh := fresh_eq_of_definition h i
    unfold Issuance.validateEnd
    rw [scope_of_definition h]
    cases hp : p.tasks[i]? with
    | none =>
      rw [hp] at hfresh
      have hq : q.tasks[i]? = none := by simpa using hfresh.symm
      rw [hq]
    | some t =>
      rw [hp] at hfresh
      obtain ⟨t', hq, hfresh⟩ := Option.map_eq_some_iff.1 hfresh.symm
      have hfits : ∀ g g' : ExecutionGrant, Issuance.grantFits record pair role t g g'
          ↔ Issuance.grantFits record pair role t' g g' := by
        intro g g'
        have hid : t.taskId = t'.taskId := by
          simpa [Task.fresh] using congrArg Task.taskId hfresh.symm
        have hdep : t.dependencies = t'.dependencies := by
          simpa [Task.fresh] using congrArg Task.dependencies hfresh.symm
        unfold Issuance.grantFits
        rw [hid, hdep]
      simp only [hq, context, ok_bind, hfits]
  have hheader : ∀ ap pair, Issuance.headerFits record p ap pair grants
      ↔ Issuance.headerFits record q ap pair grants := by
    intro ap pair
    unfold Issuance.headerFits
    rw [length_eq_of_definition h, hid, hgoal]
  unfold Issuance.validateFor
  rw [pairDefinition_of_definition h, hgoal, happroval]
  simp only [hend, hheader]

/-- A plan that is not a pair has no paired issuance. -/
theorem validatePair_false {p : Plan} {e : ExecutionRecord} :
    p.validatePair e = .ok false ↔ p.pairDefinition = .ok false ∧ e.peer = none := by
  unfold validatePair
  cases hp : e.peer with
  | none =>
    simp only [bind_ok, pure_ok, ensure_ok, and_true]
    constructor
    · rintro ⟨b, hb, -, -, rfl⟩
      exact hb
    · intro hb
      exact ⟨false, hb, (), Or.inl rfl, rfl⟩
  | some r =>
    simp only [bind_ok, pure_ok, ensure_ok, reduceCtorEq, and_false, iff_false]
    rintro ⟨b, -, -, hb, -, -, -, -, -, -, hfalse⟩
    rw [hb] at hfalse
    exact absurd hfalse (by simp)

omit [PeerAdmission] [Sha256] [Pairing] [F64] in
theorem lifecycle_status {a : GrantedAttempt} {paired : Bool} {s : TaskStatus}
    {r : Option GrantReport} (h : a.lifecycle paired = some (s, r)) :
    s ≠ .pending ∧ s ≠ .cancelled ∧ s ≠ .skipped ∧ (s = .running ↔ a.state.live = true)
      ∧ (s = .interrupted ↔ a.state = .unknown) ∧ (s = .completed ↔ a.succeeded) := by
  unfold GrantedAttempt.lifecycle at h
  unfold GrantedAttempt.succeeded
  split at h
  · rename_i hs
    split at h
    · simp only [Option.some.injEq, Prod.mk.injEq] at h
      obtain ⟨rfl, rfl⟩ := h
      simp [hs, AttemptState.live]
    · simp at h
  · rename_i hs
    split at h
    · simp only [Option.some.injEq, Prod.mk.injEq] at h
      obtain ⟨rfl, rfl⟩ := h
      simp [hs, AttemptState.live]
    · simp at h
  · rename_i hs
    split at h
    · rename_i r' hr
      split at h
      · simp only [Option.some.injEq, Prod.mk.injEq] at h
        obtain ⟨rfl, rfl⟩ := h
        cases hsuc : r'.success <;> simp [hs, hr, hsuc, AttemptState.live]
      · simp at h
    · simp at h
  · rename_i hs
    split at h
    · simp only [Option.some.injEq, Prod.mk.injEq] at h
      obtain ⟨rfl, rfl⟩ := h
      simp [hs, AttemptState.live]
    · simp at h
  · rename_i hs
    split at h
    · simp only [Option.some.injEq, Prod.mk.injEq] at h
      obtain ⟨rfl, rfl⟩ := h
      simp [hs, AttemptState.live]
    · simp at h

omit [Pairing] in
theorem Tracks.status {paired : Bool} {t : Task} {a : GrantedAttempt} (h : Tracks paired t a) :
    t.status ≠ .pending ∧ t.status ≠ .cancelled ∧ t.status ≠ .skipped
      ∧ (t.status = .running ↔ a.state.live = true)
      ∧ (t.status = .interrupted ↔ a.state = .unknown) ∧ (t.status = .completed ↔ a.succeeded) := by
  obtain ⟨s, r, hlife, hstatus, -⟩ := h.lifecycle
  rw [hstatus]
  exact lifecycle_status hlife

namespace Executed

variable {p : Plan} {e : ExecutionRecord} {ap : ApprovalRecord} {pl : PlanningRecord}
  {dr : DraftRecord} {paired : Bool}

theorem length_le (h : p.Executed e ap pl dr paired) : e.attempts.length ≤ p.tasks.length :=
  h.bounds.2.2.2.2.2.2.2.2.2.2.2.2

theorem status_mem (h : p.Executed e ap pl dr paired) :
    p.status = .running ∨ p.status = .stopping ∨ p.status = .completed ∨ p.status = .failed
      ∨ p.status = .interrupted ∨ p.status = .cancelled ∨ p.status = .abandoned :=
  h.bounds.2.2.2.2.2.2.2.2.2.2.2.1

/-- Every attempt has its task. -/
theorem task_of (h : p.Executed e ap pl dr paired) {i : Nat} {a : GrantedAttempt}
    (ha : e.attempts[i]? = some a) : ∃ t, p.tasks[i]? = some t := by
  have hlt : i < e.attempts.length := (List.getElem?_eq_some_iff.1 ha).1
  have hle := h.length_le
  exact ⟨_, List.getElem?_eq_getElem (by omega)⟩

/-- In a plan that is not a pair only the last attempt can be unsettled. -/
theorem last_of_not_succeeded (h : p.Executed e ap pl dr false) {i : Nat} {a : GrantedAttempt}
    (ha : e.attempts[i]? = some a) (hs : ¬a.succeeded) : i + 1 = e.attempts.length := by
  have hlt : i < e.attempts.length := (List.getElem?_eq_some_iff.1 ha).1
  by_contra hne
  exact hs (h.chain rfl i a ha (by omega))

/-- A grant's id names one attempt. -/
theorem grantId_inj (h : p.Executed e ap pl dr paired) {i j : Nat} {a b : GrantedAttempt}
    (ha : e.attempts[i]? = some a) (hb : e.attempts[j]? = some b)
    (hid : a.grant.grantId = b.grant.grantId) : i = j := by
  have key : ∀ {i j : Nat} {a b : GrantedAttempt}, e.attempts[i]? = some a →
      e.attempts[j]? = some b → a.grant.grantId = b.grant.grantId → ¬i < j := by
    intro i j a b ha hb hid hlt
    obtain ⟨t, ht⟩ := h.task_of hb
    refine (h.granted j t b ht hb).distinct a.grant (List.mem_map_of_mem ?_) hid
    exact List.mem_iff_getElem?.2 ⟨i, by rw [List.getElem?_take_of_lt hlt]; exact ha⟩
  have h1 := key ha hb hid
  have h2 := key hb ha hid.symm
  omega

/-- While the plan runs, nothing was recovered. -/
theorem recovery_none (h : p.Executed e ap pl dr paired) (hlive : p.status.live = true)
    {a : GrantedAttempt} (ha : a ∈ e.attempts) : a.recovery = none := by
  have hrec := h.recovery a ha
  cases hr : a.recovery with
  | none => rfl
  | some r =>
    simp only [validateRecovery, hr, bind_ok, ensure_ok] at hrec
    obtain ⟨_, -, hb⟩ := hrec
    have hnot := hb.2.2.2.2.2.2.2.2.2.2.2.2.2.1
    simp only [PlanStatus.live, Bool.or_eq_true, beq_iff_eq] at hlive
    exact absurd (hlive.elim Or.inl fun h => Or.inr (Or.inl h)) hnot

theorem abandonment_none (h : p.Executed e ap pl dr paired) (hne : p.status ≠ .abandoned) :
    e.abandonment = none := by
  have hab := h.abandonment
  cases hr : e.abandonment with
  | none => rfl
  | some r =>
    simp only [validateAbandonment, hr, bind_ok, ensure_ok, context_ok] at hab
    obtain ⟨_, -, a, -, hb⟩ := hab
    exact absurd hb.2.1 hne

/-- A plan is abandoned over an attempt that stays uncertain. -/
theorem unknown_of_abandoned (h : p.Executed e ap pl dr paired) (hs : p.status = .abandoned) :
    ∃ a ∈ e.attempts, a.state = .unknown := by
  have hab := h.abandonment
  cases hr : e.abandonment with
  | none =>
    simp only [validateAbandonment, hr, ensure_ok] at hab
    exact absurd hs hab
  | some r =>
    simp only [validateAbandonment, hr, bind_ok, ensure_ok, context_ok] at hab
    obtain ⟨_, -, a, ha, hb⟩ := hab
    exact ⟨a, List.mem_of_getLast? ha, hb.2.2.2.2.2.2.2.2.2.2.1⟩

/-- While a plan that is not a pair runs, an attempt is live or succeeded. -/
theorem live_or_succeeded (h : p.Executed e ap pl dr false) (hlive : p.status.live = true)
    {i : Nat} {a : GrantedAttempt} (ha : e.attempts[i]? = some a) :
    a.state.live = true ∨ a.succeeded := by
  obtain ⟨t, ht⟩ := h.task_of ha
  obtain ⟨h1, h2, h3, h4, h5, h6⟩ := (h.tracks i t a ht ha).status
  have hnot := h.states.2.2.2.2.1 rfl hlive t (List.mem_of_getElem? ht)
  rw [not_or] at hnot
  rw [← h4, ← h6]
  cases hs : t.status <;> simp_all

theorem unpaired {q : Plan} {e' : ExecutionRecord} (h : p.Executed e ap pl dr false)
    (hdef : q.definition = p.definition) (hpeer : e'.peer = e.peer) :
    q.validatePair e' = .ok false := by
  obtain ⟨hpair, hnone⟩ := validatePair_false.1 h.pair
  exact validatePair_false.2 ⟨(pairDefinition_of_definition hdef).trans hpair, hpeer.trans hnone⟩

/-! ## The frame rule -/

theorem granted_update {q : Plan} {e' : ExecutionRecord} (h : p.Executed e ap pl dr paired)
    (hdef : q.definition = p.definition) (hcmd : e'.command = e.command)
    (hstart : e'.startedAtMs = e.startedAtMs)
    (hgrants : e'.attempts.map (·.grant) = e.attempts.map (·.grant))
    (hkept : ∀ (i : Nat) t t', p.tasks[i]? = some t → q.tasks[i]? = some t' →
      e.attempts[i]?.isSome → t'.attempts = t.attempts ∧ t'.assignments = t.assignments)
    {i : Nat} {t' : Task} {a' : GrantedAttempt} (ht' : q.tasks[i]? = some t')
    (ha' : e'.attempts[i]? = some a') : q.Granted e' ap pl i t' a' := by
  have hga : e.attempts[i]?.map (·.grant) = some a'.grant := by
    rw [← List.getElem?_map, ← hgrants, List.getElem?_map, ha']
    rfl
  obtain ⟨a, ha, hgrant⟩ := Option.map_eq_some_iff.1 hga
  obtain ⟨t, ht⟩ := h.task_of ha
  have hg := h.granted i t a ht ha
  obtain ⟨hatt, hasg⟩ := hkept i t t' ht ht' (by simp [ha])
  obtain ⟨g, hscope, heq⟩ := hg.scope
  have htake : (e'.attempts.take i).map (·.grant) = (e.attempts.take i).map (·.grant) := by
    rw [List.map_take, List.map_take, hgrants]
  rw [hgrant] at heq
  refine ⟨hgrant ▸ hg.valid, ⟨g, (scope_of_definition hdef i ap).trans hscope, heq⟩,
    ?_, hgrant ▸ hg.expires, hgrant ▸ hg.bounded, hgrant ▸ hg.lease, ?_, ?_,
    hgrant ▸ hg.approval, hgrant ▸ hg.planning, hatt.trans hg.attempts, ?_⟩
  · rw [hstart, ← hgrant]
    exact hg.started
  · rw [htake, ← hgrant]
    exact hg.distinct
  · rw [hcmd, ← hgrant]
    exact hg.command
  · rw [hasg, hg.assigned, hgrant]

/-- A transition that leaves the grants alone keeps the execution, once the fields that
speak about states are shown. -/
theorem update {q : Plan} {e' : ExecutionRecord} (h : p.Executed e ap pl dr paired)
    (hdef : q.definition = p.definition) (hrev : p.revision ≤ q.revision)
    (hschema : e'.schemaVersion = e.schemaVersion) (hcmd : e'.command = e.command)
    (hstart : e'.startedAtMs = e.startedAtMs)
    (hgrants : e'.attempts.map (·.grant) = e.attempts.map (·.grant))
    (hkept : ∀ (i : Nat) t t', p.tasks[i]? = some t → q.tasks[i]? = some t' →
      e.attempts[i]?.isSome → t'.attempts = t.attempts ∧ t'.assignments = t.assignments)
    (hstatus : q.status = .running ∨ q.status = .stopping ∨ q.status = .completed
      ∨ q.status = .failed ∨ q.status = .interrupted ∨ q.status = .cancelled
      ∨ q.status = .abandoned)
    (hstop : StopKept e') (hpair : q.validatePair e' = .ok paired)
    (hunissued : ∀ (i : Nat) (t : Task), q.tasks[i]? = some t → e'.attempts[i]? = none → t.unissued)
    (htracks : ∀ (i : Nat) t a, q.tasks[i]? = some t → e'.attempts[i]? = some a → Tracks paired t a)
    (hchain : paired = false → ∀ (i : Nat) b, e'.attempts[i]? = some b →
      i + 1 < e'.attempts.length → b.succeeded)
    (hrecovery : ∀ a ∈ e'.attempts, q.validateRecovery e' a = .ok ())
    (hresults : ∀ k v, q.results.lookup k = some v ↔
      ∃ t ∈ q.tasks, t.taskId = k ∧ t.result = some v)
    (hstates : q.statusFits e' paired) (habandon : q.validateAbandonment e' = .ok ()) :
    q.Executed e' ap pl dr paired := by
  obtain ⟨hid, -, -, -⟩ := planning_of_definition hdef
  obtain ⟨b1, b2, b3, b4, b5, b6, b7, b8, b9, b10, b11, -, b13⟩ := h.bounds
  have hlen : e'.attempts.length = e.attempts.length := by
    simpa using congrArg List.length hgrants
  refine ⟨hstop, hpair, by rw [hcmd]; exact h.command, ?_, hunissued,
    fun i t a ht ha => h.granted_update hdef hcmd hstart hgrants hkept ht ha, htracks, hchain,
    hrecovery, hresults, hstates, habandon⟩
  refine ⟨hschema.trans b1, by rw [hcmd, hid, b2], by rw [hcmd, b3], by rw [hcmd]; exact b4, ?_,
    by rw [hstart]; exact b6, by rw [hstart]; exact b7, by rw [hcmd]; exact b8,
    by rw [hcmd]; exact b9, by rw [hcmd]; exact b10, by rw [hcmd]; exact b11, hstatus, ?_⟩
  · rw [hcmd]
    omega
  · rw [hlen, length_eq_of_definition hdef]
    exact b13

end Executed

end

end Plan

end Eef.Coordinator
