import Eef.Coordinator.Attempts
import Eef.Coordinator.Commands

/-!
# Admission of node requests

`admit_request` of `jobs.rs`: a job that comes from a node carries its origin and the id of the
request, and while it is retained the pair is its receipt. A repeated request is answered with the
retained job, a different one under the same receipt is refused, and a receipt that two retained
jobs share is refused too, instead of picking one.

The invariant of a journal that is filled by admission alone (`Admitted`): the retained jobs read
back, no receipt occurs twice, and no archive keeps one of them.
-/

namespace Eef.Coordinator

open Eef.Lib Eef.Node

/-- The proposal that a review was opened with. -/
def DraftRecord.opening (d : DraftRecord) : Json :=
  match d.document.index "proposals" with
  | .arr (first :: _) => first.index "proposal"
  | _ => .null

/-- `DraftRecord::same_opening`, read from the documents. -/
def DraftRecord.sameOpening (a b : DraftRecord) : Bool :=
  a.document.index "original_text" == b.document.index "original_text"
    && a.document.index "concrete_input" == b.document.index "concrete_input"
    && a.document.index "audio_source" == b.document.index "audio_source"
    && a.opening == b.opening

namespace Plan

/-- The origin node and the request id of a job that came from a node. -/
def receipt (p : Plan) : Option (String × String) :=
  p.goal.requestContext.map fun c => (c.originNode, c.requestId)

/-- The saved job was admitted for the same request. -/
def sameRequest (saved p : Plan) : Bool :=
  match saved.requestReview, p.requestReview with
  | some a, some b => a.sameOpening b
  | none, none =>
    saved.goal.description == p.goal.description && saved.goal.template == p.goal.template
      && saved.goal.params == p.goal.params && saved.goal.constraints == p.goal.constraints
  | _, _ => false

/-- A request repeats a saved job: without a review its goal is the same up to the context of the
request, and a review has the same text, input, audio and opening proposal. -/
inductive Repeats (saved p : Plan) : Prop where
  | goal (hsaved : saved.requestReview = none) (hp : p.requestReview = none)
      (h : { saved.goal with requestContext := p.goal.requestContext } = p.goal)
  | review {a b : DraftRecord} (hsaved : saved.requestReview = some a)
      (hp : p.requestReview = some b)
      (h : ∀ key ∈ ["original_text", "concrete_input", "audio_source"],
        a.document.index key = b.document.index key)
      (hopening : a.opening = b.opening)

/-- The comparison of the source accepts the repetitions and nothing else. -/
theorem sameRequest_iff {saved p : Plan} : saved.sameRequest p = true ↔ saved.Repeats p := by
  unfold sameRequest
  constructor
  · intro h
    cases hsaved : saved.requestReview with
    | none =>
      cases hp : p.requestReview with
      | none =>
        simp only [hsaved, hp, Bool.and_eq_true, beq_iff_eq] at h
        obtain ⟨⟨⟨hdescription, htemplate⟩, hparams⟩, hconstraints⟩ := h
        refine .goal hsaved hp ?_
        show Goal.mk p.goal.requestContext _ _ _ _ = p.goal
        rw [hdescription, htemplate, hparams, hconstraints]
      | some b =>
        rw [hsaved, hp] at h
        cases h
    | some a =>
      cases hp : p.requestReview with
      | none =>
        rw [hsaved, hp] at h
        cases h
      | some b =>
        simp only [hsaved, hp, DraftRecord.sameOpening, Bool.and_eq_true, beq_iff_eq] at h
        obtain ⟨⟨⟨htext, hinput⟩, haudio⟩, hopening⟩ := h
        exact .review hsaved hp (by simp [htext, hinput, haudio]) hopening
  · intro h
    cases h with
    | goal hsaved hp h =>
      rw [hsaved, hp, ← h]
      simp
    | review hsaved hp h hopening =>
      have hkeys := h
      simp only [List.forall_mem_cons, List.not_mem_nil, false_implies, implies_true, and_true]
        at hkeys
      simp [hsaved, hp, DraftRecord.sameOpening, hkeys, hopening]

theorem sameRequest_self (p : Plan) : p.sameRequest p = true := by
  unfold sameRequest
  cases p.requestReview with
  | none => simp
  | some d => simp [DraftRecord.sameOpening]

end Plan

section
variable [F64] [PeerAdmission] [Sha256] [Planner] [Pairing] [ScopeCompiler]

namespace Store

/-- `refuse_archived_request`. -/
def refuseArchivedRequest (s : Store) (origin : RequestContext) : Result Unit := do
  each s.checkArchive s.archives
  each (fun a : Archive =>
    bailIf (a.terminalJob.receipt = some (origin.originNode, origin.requestId))
      ("Operation belongs to archived occurrence " ++ a.id
        ++ "; inspect owner automation-occurrences archive-show, never recreate it")) s.archives

/-- The loop of `admit_request` over the retained jobs. -/
def findReceipt (receipt : String × String) : Option Plan → List JobRow → Result (Option Plan)
  | found, [] => .ok found
  | found, row :: rows => do
    row.plan.validateReview
    if row.plan.receipt = some receipt then do
      bailIf (found.isSome = true) ("Operation receipt is ambiguous in retained history; inspect "
        ++ "jobs.find before creating new work")
      findReceipt receipt (some row.plan) rows
    else findReceipt receipt found rows

/-- `JobAdmission`. -/
structure JobAdmission where
  plan : Plan
  reused : Bool
  deriving DecidableEq, Repr

/-- `admit_request`. -/
def admitRequest (s : Store) (p : Plan) (now saved : Nat) : Result (Store × JobAdmission) := do
  p.validate
  let origin ← context p.goal.requestContext "Node origin is required"
  s.refuseArchivedRequest origin
  match ← findReceipt (origin.originNode, origin.requestId) none s.jobs with
  | some existing => do
    ensure (existing.sameRequest p = true)
      "Operation receipt conflicts with a retained job; use jobs.find to inspect it"
    return (s, ⟨existing, true⟩)
  | none => do
    let (t, q) ← s.insertJob p now saved
    return (t, ⟨q, false⟩)

/-! ## What one admission does -/

omit [ScopeCompiler] in
/-- A valid new job still reads back once it is stamped. -/
theorem validateReview_stamp {p q : Plan} {event : String} {now : Nat} (h : p.validate = .ok ())
    (hq : p.stamp event now = .ok q) : q.validateReview = .ok () := by
  obtain ⟨-, history, rfl⟩ := Plan.stamp_ok hq
  unfold Plan.validate at h
  unfold Plan.validateReview at h ⊢
  cases hreview : p.requestReview with
  | none =>
    simp only [Plan.stamped, hreview, bind_ok] at h ⊢
    obtain ⟨_, hretained, -⟩ := h
    exact hretained
  | some draft =>
    simp only [Plan.stamped, hreview, bind_ok, ensure_ok, bailIf_ok] at h ⊢
    obtain ⟨_, ⟨_, hdefinition, _, hrevisions, _, hresults, hplanned⟩, _, ⟨-, -, hzero, -⟩, _,
      ⟨-, hplanning, -⟩, -⟩ := h
    have hunplanned : p.planning.isSome = false := by rw [hplanning]; rfl
    rw [if_neg (by rw [hunplanned]; decide)] at hplanned ⊢
    refine ⟨(), by rw [← hreview]; exact hdefinition, (), fun r hr => ?_, (), hresults, hplanned⟩
    have hlt := hrevisions r hr
    rw [hzero] at hlt
    omega

/-- What `insert_locked` leaves: one more job, the stamped one, under an id of its own. -/
theorem insertJob_ok {s t : Store} {p q : Plan} {now saved : Nat}
    (h : s.insertJob p now saved = .ok (t, q)) :
    t = { s with jobs := s.jobs ++ [⟨q, q.reserve⟩] } ∧ q.validateReview = .ok ()
      ∧ q.goal = p.goal ∧ q.sameRequest p = true
      ∧ ∀ a ∈ s.archives, a.command.job ≠ q.planId := by
  simp only [insertJob, bind_ok, bailIf_ok, ensure_ok, pure_ok] at h
  obtain ⟨_, hvalid, _, _, _, harchived, _, -, q', hstamp, _, -, _, -, _, -, h⟩ := h
  cases h
  refine ⟨rfl, validateReview_stamp hvalid hstamp, ?_⟩
  obtain ⟨-, history, rfl⟩ := Plan.stamp_ok hstamp
  exact ⟨rfl, p.sameRequest_self,
    fun a ha hid => harchived (List.any_eq_true.mpr ⟨a, ha, beq_iff_eq.mpr hid⟩)⟩

/-! ## Reading a receipt back -/

omit [ScopeCompiler] in
theorem findReceipt_absent {receipt : String × String} : ∀ {rows : List JobRow} {found : Option Plan},
    (∀ row ∈ rows, row.plan.validateReview = .ok ()) →
    (∀ row ∈ rows, row.plan.receipt ≠ some receipt) → findReceipt receipt found rows = .ok found
  | [], _, _, _ => rfl
  | row :: rows, found, hread, hnone => by
    rw [findReceipt, hread row List.mem_cons_self, ok_bind,
      if_neg (hnone row List.mem_cons_self)]
    exact findReceipt_absent (fun r hr => hread r (List.mem_cons_of_mem _ hr))
      fun r hr => hnone r (List.mem_cons_of_mem _ hr)

omit [ScopeCompiler] in
/-- A receipt that one job has is read back as that job. -/
theorem findReceipt_mem {receipt : String × String} {rows : List JobRow} {row : JobRow}
    (hread : ∀ r ∈ rows, r.plan.validateReview = .ok ())
    (hnodup : (rows.map fun r => r.plan.receipt).Nodup) (hmem : row ∈ rows)
    (hreceipt : row.plan.receipt = some receipt) :
    findReceipt receipt none rows = .ok (some row.plan) := by
  induction rows with
  | nil => exact absurd hmem List.not_mem_nil
  | cons r rows ih =>
    rw [List.map_cons, List.nodup_cons] at hnodup
    have hrest : ∀ x ∈ rows, x.plan.validateReview = .ok () :=
      fun x hx => hread x (List.mem_cons_of_mem _ hx)
    rw [findReceipt, hread r List.mem_cons_self, ok_bind]
    rcases List.mem_cons.mp hmem with he | hmem
    · rw [← he, if_pos hreceipt]
      refine findReceipt_absent hrest fun x hx hx' => hnodup.1 ?_
      rw [← he, hreceipt, ← hx']
      exact List.mem_map_of_mem hx
    · have hother : r.plan.receipt ≠ some receipt := by
        intro he
        rw [he, ← hreceipt] at hnodup
        exact hnodup.1 (List.mem_map_of_mem hmem)
      rw [if_neg hother]
      exact ih hrest hnodup.2 hmem

omit [ScopeCompiler] in
/-- What is read back is a retained job of that receipt. -/
theorem findReceipt_some {receipt : String × String} {p : Plan} {rows : List JobRow}
    {found : Option Plan} (h : findReceipt receipt found rows = .ok (some p)) :
    found = some p ∨ ∃ row ∈ rows, row.plan = p ∧ row.plan.receipt = some receipt := by
  induction rows generalizing found with
  | nil =>
    cases h
    exact .inl rfl
  | cons row rows ih =>
    simp only [findReceipt, bind_ok] at h
    obtain ⟨_, -, h⟩ := h
    split_ifs at h with hreceipt
    · simp only [bind_ok, bailIf_ok] at h
      obtain ⟨_, -, h⟩ := h
      rcases ih h with he | ⟨r, hr, he⟩
      · exact .inr ⟨row, List.mem_cons_self, Option.some.inj he, hreceipt⟩
      · exact .inr ⟨r, List.mem_cons_of_mem _ hr, he⟩
    · rcases ih h with he | ⟨r, hr, he⟩
      · exact .inl he
      · exact .inr ⟨r, List.mem_cons_of_mem _ hr, he⟩

omit [ScopeCompiler] in
/-- A receipt that is not read back belongs to no job. -/
theorem findReceipt_none {receipt : String × String} {rows : List JobRow}
    (hread : ∀ r ∈ rows, r.plan.validateReview = .ok ())
    (hnodup : (rows.map fun r => r.plan.receipt).Nodup) (h : findReceipt receipt none rows = .ok none) :
    ∀ row ∈ rows, row.plan.receipt ≠ some receipt := by
  intro row hrow he
  rw [findReceipt_mem hread hnodup hrow he] at h
  cases h

/-! ## A journal that admission fills -/

/-- What holds of a journal that was filled by admission. -/
structure Admitted (s : Store) : Prop where
  readable : ∀ row ∈ s.jobs, row.plan.validateReview = .ok ()
  receipts : (s.jobs.map fun row => row.plan.receipt).Nodup
  archives : ∀ row ∈ s.jobs, ∃ origin, row.plan.goal.requestContext = some origin
    ∧ s.refuseArchivedRequest origin = .ok ()

/-- A job under an id that no archive knows makes no difference to the archives. -/
theorem refuseArchivedRequest_insert {s : Store} {row : JobRow} {origin : RequestContext}
    (h : s.refuseArchivedRequest origin = .ok ())
    (hid : ∀ a ∈ s.archives, a.command.job ≠ row.plan.planId) :
    refuseArchivedRequest { s with jobs := s.jobs ++ [row] } origin = .ok () := by
  simp only [refuseArchivedRequest, bind_ok, each_ok] at h ⊢
  obtain ⟨_, hcheck, hrefuse⟩ := h
  refine ⟨(), fun a ha => ?_, hrefuse⟩
  have ha' := hcheck a ha
  simp only [checkArchive, bind_ok, bailIf_ok] at ha' ⊢
  obtain ⟨_, hvalid, r, hr, r', hr', _, hevidence, _, hreview, _, hmatches, hlive⟩ := ha'
  refine ⟨(), hvalid, r, hr, r', hr', (), hevidence, (), hreview, (), hmatches, fun hany => hlive ?_⟩
  obtain ⟨x, hx, he⟩ := List.any_eq_true.mp hany
  rcases List.mem_append.mp hx with hx | hx
  · exact List.any_eq_true.mpr ⟨x, hx, he⟩
  · rw [List.mem_singleton.mp hx] at he
    exact absurd (beq_iff_eq.mp he).symm (hid a ha)

/-- One admission: its job is retained, under the receipt of the request. -/
theorem admitRequest_ok {s t : Store} {p : Plan} {now saved : Nat} {r : JobAdmission}
    (hs : s.Admitted) (h : s.admitRequest p now saved = .ok (t, r)) :
    t.Admitted ∧ (∀ row ∈ s.jobs, row ∈ t.jobs) ∧ ∃ row ∈ t.jobs, row.plan = r.plan
      ∧ row.plan.receipt = p.receipt ∧ row.plan.sameRequest p = true := by
  simp only [admitRequest, bind_ok, context_ok] at h
  obtain ⟨_, hvalid, origin, horigin, _, hrefuse, found, hfound, h⟩ := h
  have hreceipt : p.receipt = some (origin.originNode, origin.requestId) := by
    rw [Plan.receipt, horigin]
    rfl
  cases found with
  | some existing =>
    simp only [bind_ok, ensure_ok, pure_ok] at h
    obtain ⟨_, hsame, h⟩ := h
    cases h
    rcases findReceipt_some hfound with he | ⟨row, hrow, he, hown⟩
    · cases he
    · exact ⟨hs, fun _ h => h, row, hrow, he, hown.trans hreceipt.symm, he ▸ hsame⟩
  | none =>
    simp only [bind_ok, pure_ok] at h
    obtain ⟨⟨t, q⟩, hinsert, h⟩ := h
    cases h
    obtain ⟨rfl, hread, hgoal, hsame, hid⟩ := insertJob_ok hinsert
    have hq : q.receipt = p.receipt := by rw [Plan.receipt, hgoal, Plan.receipt]
    have hnew := findReceipt_none hs.readable hs.receipts hfound
    refine ⟨⟨fun row hrow => ?_, ?_, fun row hrow => ?_⟩,
      fun row hrow => List.mem_append_left _ hrow, _,
      List.mem_append_right _ List.mem_cons_self, rfl, hq, hsame⟩
    · rcases List.mem_append.mp hrow with hrow | hrow
      · exact hs.readable row hrow
      · rw [List.mem_singleton.mp hrow]
        exact hread
    · rw [List.map_append, List.nodup_append]
      refine ⟨hs.receipts, List.nodup_singleton _, fun a ha b hb he => ?_⟩
      obtain ⟨row, hrow, rfl⟩ := List.mem_map.mp ha
      rw [List.map_singleton, List.mem_singleton, hq, hreceipt] at hb
      exact hnew row hrow (he.trans hb)
    · rcases List.mem_append.mp hrow with hrow | hrow
      · obtain ⟨origin', horigin', hrefused⟩ := hs.archives row hrow
        exact ⟨origin', horigin', refuseArchivedRequest_insert hrefused hid⟩
      · rw [List.mem_singleton.mp hrow, hgoal]
        exact ⟨origin, horigin, refuseArchivedRequest_insert hrefuse hid⟩

/-- The journals that admission alone leads to from one without jobs. -/
inductive Filled : Store → Prop
  | empty {s : Store} (h : s.jobs = []) : Filled s
  | admission {s t : Store} {p : Plan} {now saved : Nat} {r : JobAdmission} (hs : Filled s)
      (h : s.admitRequest p now saved = .ok (t, r)) : Filled t

/-- The journals that further admissions lead to. -/
inductive Admits : Store → Store → Prop
  | refl {s : Store} : Admits s s
  | admission {s t u : Store} {p : Plan} {now saved : Nat} {r : JobAdmission} (hs : Admits s t)
      (h : t.admitRequest p now saved = .ok (u, r)) : Admits s u

theorem Filled.admitted {s : Store} (h : Filled s) : s.Admitted := by
  induction h with
  | empty h =>
    constructor
    · simp [h]
    · simp [h]
    · simp [h]
  | admission _ h ih => exact (admitRequest_ok ih h).1

theorem Admits.keeps {s t : Store} (h : Admits s t) (hs : s.Admitted) :
    t.Admitted ∧ ∀ row ∈ s.jobs, row ∈ t.jobs := by
  induction h with
  | refl => exact ⟨hs, fun _ h => h⟩
  | admission _ h ih =>
    obtain ⟨hadmitted, hkeep, -⟩ := admitRequest_ok ih.1 h
    exact ⟨hadmitted, fun row hrow => hkeep row (ih.2 row hrow)⟩

/-- A valid request whose receipt is retained gets the retained job, or is refused. -/
theorem admitRequest_retained {s : Store} {p : Plan} {row : JobRow} (hs : s.Admitted)
    (hvalid : p.validate = .ok ()) (hrow : row ∈ s.jobs) (hreceipt : row.plan.receipt = p.receipt)
    (now saved : Nat) :
    s.admitRequest p now saved = if row.plan.sameRequest p = true then .ok (s, ⟨row.plan, true⟩)
      else .error "Operation receipt conflicts with a retained job; use jobs.find to inspect it" := by
  obtain ⟨origin, horigin, hrefuse⟩ := hs.archives row hrow
  have hown : row.plan.receipt = some (origin.originNode, origin.requestId) := by
    rw [Plan.receipt, horigin]
    rfl
  -- the request's origin may differ in its area, which no check here looks at
  obtain ⟨origin', horigin', hsame⟩ := Option.map_eq_some_iff.mp (hreceipt.symm.trans hown)
  obtain ⟨hnode, hrequest⟩ := Prod.mk.injEq .. ▸ hsame
  have hrefuse' : s.refuseArchivedRequest origin' = .ok () := by
    rw [refuseArchivedRequest, hnode, hrequest]
    exact hrefuse
  have hfound : findReceipt (origin'.originNode, origin'.requestId) none s.jobs
      = .ok (some row.plan) := by
    rw [hnode, hrequest]
    exact findReceipt_mem hs.readable hs.receipts hrow hown
  rw [admitRequest, hvalid, ok_bind, horigin']
  show (s.refuseArchivedRequest origin' >>= fun _ => _) = _
  rw [hrefuse', ok_bind, hfound, ok_bind]
  by_cases h : row.plan.sameRequest p = true
  · have hcheck : ensure (row.plan.sameRequest p = true)
        "Operation receipt conflicts with a retained job; use jobs.find to inspect it" = .ok () :=
      if_pos h
    rw [if_pos h]
    show (ensure _ _ >>= fun _ => _) = _
    rw [hcheck, ok_bind]
    rfl
  · have hcheck : ensure (row.plan.sameRequest p = true)
        "Operation receipt conflicts with a retained job; use jobs.find to inspect it" = .error _ :=
      if_neg h
    rw [if_neg h]
    show (ensure _ _ >>= fun _ => _) = _
    rw [hcheck, error_bind]

/-- Validation of a new job without a review is exact and goes by its tasks in whatever order, and
admission keeps one job for each receipt: a repeated request gets that job, a different one under
the receipt is refused. -/
theorem job_admission_exact :
    (∀ p : Plan, p.NewJob → ∀ tasks, p.tasks.Perm tasks →
      (Plan.validate { p with tasks := tasks } = .ok () ↔
        (p.tasks.map Task.taskId).Nodup
          ∧ Dependency.Closed Task.taskId Task.dependencies p.tasks
          ∧ Dependency.Acyclic Task.taskId Task.dependencies p.tasks))
    ∧ ∀ s : Store, s.Filled →
      (s.jobs.map fun row => row.plan.receipt).Nodup
      ∧ (∀ row ∈ s.jobs, row.plan.receipt.isSome = true)
      ∧ (∀ p now saved t r, s.admitRequest p now saved = .ok (t, r) → ∀ u, t.Admits u →
          ∀ now' saved', u.admitRequest p now' saved' = .ok (u, ⟨r.plan, true⟩))
      ∧ ∀ p row now saved, p.validate = .ok () → row ∈ s.jobs → row.plan.receipt = p.receipt →
          (row.plan.Repeats p → s.admitRequest p now saved = .ok (s, ⟨row.plan, true⟩))
          ∧ (¬row.plan.Repeats p → s.admitRequest p now saved = .error
            "Operation receipt conflicts with a retained job; use jobs.find to inspect it") := by
  refine ⟨fun p hp tasks hperm => ?_, fun s hs => ⟨hs.admitted.receipts, fun row hrow => ?_,
    fun p now saved t r h u hu now' saved' => ?_, fun p row now saved hvalid hrow hreceipt => ?_⟩⟩
  · have hnew : Plan.NewJob { p with tasks := tasks } :=
      ⟨hp.status, hp.untouched, hp.unplanned, hp.id,
        ⟨fun he => hp.size.1 (List.perm_nil.mp (he ▸ hperm)), hperm.length_eq ▸ hp.size.2⟩,
        fun t ht => hp.tasks t (hperm.mem_iff.mpr ht)⟩
    rw [Plan.validate_ok (p := { p with tasks := tasks }) hp.unplanned.1]
    show _ ∧ (tasks.map Task.taskId).Nodup ∧ wellOrdered tasks ↔ _ ∧ wellOrdered p.tasks
    rw [(hperm.map Task.taskId).nodup_iff]
    exact ⟨fun h => ⟨h.2.1, h.2.2.perm hperm.symm⟩, fun h => ⟨hnew, h.1, h.2.perm hperm⟩⟩
  · obtain ⟨origin, horigin, -⟩ := hs.admitted.archives row hrow
    rw [Plan.receipt, horigin]
    rfl
  · have hvalid : p.validate = .ok () := by
      simp only [admitRequest, bind_ok] at h
      obtain ⟨_, hvalid, -⟩ := h
      exact hvalid
    obtain ⟨ht, -, row, hrow, hplan, hreceipt, hsame⟩ := admitRequest_ok hs.admitted h
    obtain ⟨hadmitted, hkeep⟩ := hu.keeps ht
    rw [admitRequest_retained hadmitted hvalid (hkeep row hrow) hreceipt, if_pos hsame, hplan]
  · rw [admitRequest_retained hs.admitted hvalid hrow hreceipt now saved]
    exact ⟨fun h => if_pos (Plan.sameRequest_iff.mpr h),
      fun h => if_neg fun hsame => h (Plan.sameRequest_iff.mp hsame)⟩

end Store

end

/-! ## A job to admit -/

/-- A job of two checks, the second after the first. -/
def sampleJob : Plan where
  execution := none
  approval := none
  planning := none
  requestReview := none
  planId := sampleGrant.jobId
  goal := ⟨some sampleGrant.requestContext, "ping", "reachability", .obj [], .obj []⟩
  tasks := [{ sampleTask with taskId := "b", requestContext := some sampleGrant.requestContext,
                              dependencies := ["a"] },
    { sampleTask with taskId := "a", requestContext := some sampleGrant.requestContext }]
  status := .pending
  results := []
  revision := 0
  updatedAtMs := 0
  history := []

theorem sampleJob_new : sampleJob.NewJob := by
  refine ⟨rfl, ⟨rfl, rfl, rfl⟩, ⟨rfl, rfl, rfl, rfl⟩, by decide, by decide, ?_⟩
  simp only [sampleJob, List.mem_cons, List.not_mem_nil, or_false, forall_eq_or_imp, forall_eq]
  decide

theorem sampleJob_ordered :
    (sampleJob.tasks.map Task.taskId).Nodup ∧ wellOrdered sampleJob.tasks := by
  have hids : (sampleJob.tasks.map Task.taskId).Nodup := by decide
  -- the first pass resolves the second task, and the second the first
  have hempty : Dependency.Resolved Task.taskId Task.dependencies sampleJob.tasks ∅ := .empty _
  have hdone := (hempty.pass hids fun t ht => ht).pass hids fun t ht => ht
  exact ⟨hids, hdone.closed_acyclic (by decide)⟩

section
attribute [local instance] F64.bits PeerAdmission.never approvalSha samplePlanner Pairing.never
  ScopeCompiler.always

/-- The job as it is saved. -/
def savedJob : Plan := sampleJob.stamped 1000 [⟨1, 1000, "Job saved before execution"⟩]

/-- The journal with the job. -/
def savedStore : Store :=
  { Store.fresh 16 1000000 with jobs := [⟨savedJob, savedJob.reserve⟩] }

theorem sampleJob_admitted :
    (Store.fresh 16 1000000).admitRequest sampleJob 1000 1000
      = .ok (savedStore, ⟨savedJob, false⟩) := by
  have hvalid : sampleJob.validate = .ok () :=
    (Plan.validate_ok rfl).mpr ⟨sampleJob_new, sampleJob_ordered⟩
  simp only [Store.admitRequest, bind_ok]
  refine ⟨(), hvalid, sampleGrant.requestContext, rfl, (), rfl, none, rfl, ?_⟩
  simp only [Store.insertJob, bind_ok]
  refine ⟨(savedStore, savedJob), ⟨(), hvalid, (), rfl, (), rfl, (), rfl, savedJob, rfl, (), ?_, (),
    ?_, (), rfl, rfl⟩, rfl⟩
  · decide +kernel
  · decide

/-- The job of two checks is valid in either order, and a second request for it gets the job that
was saved for the first. -/
theorem job_admission_exact_repeated :
    (Plan.validate { sampleJob with tasks := sampleJob.tasks.reverse } = .ok () ↔
      (sampleJob.tasks.map Task.taskId).Nodup
        ∧ Dependency.Closed Task.taskId Task.dependencies sampleJob.tasks
        ∧ Dependency.Acyclic Task.taskId Task.dependencies sampleJob.tasks)
      ∧ savedStore.admitRequest sampleJob 2000 2000 = .ok (savedStore, ⟨savedJob, true⟩) := by
  obtain ⟨hexact, hreceipts⟩ := Store.job_admission_exact
  refine ⟨hexact sampleJob sampleJob_new _ (List.reverse_perm _).symm, ?_⟩
  obtain ⟨-, -, hrepeat, -⟩ := hreceipts (Store.fresh 16 1000000) (.empty rfl)
  exact hrepeat sampleJob 1000 1000 _ _ sampleJob_admitted _ .refl 2000 2000

end

end Eef.Coordinator
