import Eef.Coordinator.JournalRuns

/-!
# What a journal never takes back

A journal only grows in what was spent (`Grows`): reservations, archives and claims stay as they were
written, a policy keeps the limits it was approved with, and a schedule never goes back on its claims.
With the audit, which holds the reservations of a policy against these limits in every state, this is
that a budget is never exceeded and never refunded (`budgets_never_refunded`), whatever becomes of the
jobs that were paid from it.
-/

namespace Eef.Coordinator

open Eef.Lib Eef.Node

theorem Definition.Kept.trans {d e f : Definition} (h : d.Kept e) (h' : e.Kept f) : d.Kept f := by
  refine ⟨?_, ?_⟩
  · rw [h'.same, h.same]
  · rcases h'.source with hsame | hnone
    · rw [hsame]
      exact h.source
    · exact .inr hnone

theorem Authorization.Kept.trans {a b c : Authorization} (h : a.Kept b) (h' : b.Kept c) : a.Kept c :=
  ⟨by rw [h'.same, h.same], fun hrevoked => h'.revoked (h.revoked hrevoked)⟩

theorem Schedule.Kept.trans {p q r : Schedule} (h : p.Kept q) (h' : q.Kept r) : p.Kept r :=
  ⟨by rw [h'.same, h.same], Nat.le_trans h.claimed h'.claimed⟩

section
variable [F64] [PeerAdmission] [Sha256] [Planner] [Pairing] [ScopeCompiler]

namespace Store

variable {s t u : Store}

/-- What is written stays, and goes on. -/
structure Grows (s t : Store) : Prop where
  reserved : s.occurrences <+: t.occurrences
  archived : s.archives <+: t.archives
  claimed : s.triggers <+: t.triggers
  definitions : ∀ d ∈ s.definitions, ∃ d' ∈ t.definitions, d.Kept d'
  policies : ∀ row ∈ s.authorizations, ∃ row' ∈ t.authorizations, row.record.Kept row'.record
  schedules : ∀ row ∈ s.schedules, ∃ row' ∈ t.schedules, row.record.Kept row'.record

omit [F64] [PeerAdmission] [Sha256] [Planner] [Pairing] [ScopeCompiler] in
theorem Grows.refl (s : Store) : s.Grows s :=
  ⟨List.prefix_rfl, List.prefix_rfl, List.prefix_rfl, fun d hd => ⟨d, hd, .refl d⟩,
    fun row hrow => ⟨row, hrow, .refl _⟩, fun row hrow => ⟨row, hrow, .refl _⟩⟩

omit [F64] [PeerAdmission] [Sha256] [Planner] [Pairing] [ScopeCompiler] in
theorem Grows.trans (h : s.Grows t) (h' : t.Grows u) : s.Grows u := by
  refine ⟨h.reserved.trans h'.reserved, h.archived.trans h'.archived, h.claimed.trans h'.claimed,
    fun d hd => ?_, fun row hrow => ?_, fun row hrow => ?_⟩
  · obtain ⟨e, he, hkept⟩ := h.definitions d hd
    obtain ⟨f, hf, hkept'⟩ := h'.definitions e he
    exact ⟨f, hf, hkept.trans hkept'⟩
  · obtain ⟨e, he, hkept⟩ := h.policies row hrow
    obtain ⟨f, hf, hkept'⟩ := h'.policies e he
    exact ⟨f, hf, hkept.trans hkept'⟩
  · obtain ⟨e, he, hkept⟩ := h.schedules row hrow
    obtain ⟨f, hf, hkept'⟩ := h'.schedules e he
    exact ⟨f, hf, hkept.trans hkept'⟩

/-- A journal of which four tables are as they were grows if its policies go on. -/
theorem Grows.of_policies (hs : s.Intact) (hkeeps : s.KeepsPolicies t)
    (hreserved : s.occurrences <+: t.occurrences) (harchived : s.archives <+: t.archives)
    (hclaimed : s.triggers <+: t.triggers)
    (hschedules : ∀ row ∈ s.schedules, ∃ row' ∈ t.schedules, row.record.Kept row'.record) :
    s.Grows t := by
  refine ⟨hreserved, harchived, hclaimed, fun d hd => ?_, fun row hrow => ?_, hschedules⟩
  · obtain ⟨d', hread, hkept⟩ := hkeeps.definition
      (readDefinition_iff.mpr ⟨Table.find_of_mem hs.definitions hd, hs.stored d hd⟩)
    exact ⟨d', (Table.find_some (readDefinition_iff.mp hread).1).1, hkept⟩
  · obtain ⟨as, hread⟩ := hs.history.policies
    obtain ⟨a', ha', hkept⟩ := hkeeps.policy
      (policyOf_iff.mpr ⟨row, Table.find_of_mem hs.policies hrow, (policies_iff.mp hread).1 row hrow, rfl⟩)
    obtain ⟨row', hfind, -, rfl⟩ := policyOf_iff.mp ha'
    exact ⟨row', (Table.find_some hfind).1, hkept⟩

theorem Arranges.grows (h : s.Arranges t) (hs : s.Intact) : s.Grows t := by
  have hreplaces : ∀ {old row : ScheduleRow}, s.Replaces t old row → old.record.Kept row.record →
      s.triggers <+: t.triggers → s.Grows t := by
    intro old row h hkept hclaimed
    refine .of_policies hs h.keepsPolicies ?_ ?_ hclaimed fun e he => ?_
    · rw [h.rest]
    · rw [h.rest]
    · by_cases hid : (e.record.id == row.record.id) = true
      · have hsame : e = old := hs.schedules.eq he (Table.find_some h.found).1
          ((beq_iff_eq.mp hid).trans h.id)
        refine ⟨row, ?_, hsame ▸ hkept⟩
        rw [h.schedules, Table.mem_update]
        exact ⟨e, he, (if_pos hid).symm⟩
      · refine ⟨e, ?_, .refl _⟩
        rw [h.schedules, Table.mem_update]
        exact ⟨e, he, (if_neg hid).symm⟩
  cases h with
  | keeps h => exact h ▸ .refl s
  | goes h htriggers hgoes => exact hreplaces h hgoes.kept (htriggers ▸ List.prefix_rfl)
  | claims h htriggers hclaims => exact hreplaces h hclaims.kept (htriggers ▸ List.prefix_append ..)
  | arms hunclaimed hchecked hfresh halone hresolved h =>
    subst h
    exact .of_policies hs (.of_eq rfl rfl) List.prefix_rfl List.prefix_rfl List.prefix_rfl
      fun row hrow => ⟨row, List.mem_append_left _ hrow, .refl _⟩

theorem Changes.grows (h : s.Changes t) (hs : s.Intact) : s.Grows t := by
  cases h with
  | governs h =>
    refine .of_policies hs h.keeps ?_ ?_ ?_ fun row hrow => ⟨row, ?_, .refl _⟩
    all_goals rw [h.rest]
    exact hrow
  | employs h =>
    refine .of_policies hs (.of_eq ?_ ?_) ?_ ?_ ?_ fun row hrow => ⟨row, ?_, .refl _⟩
    all_goals rw [h.rest]
    exact hrow
  | settles h =>
    refine .of_policies hs (.of_eq ?_ ?_) h.reserved h.archived ?_ fun row hrow => ⟨row, ?_, .refl _⟩
    all_goals rw [h.rest]
    exact hrow
  | arranges h =>
    exact Run.monotone (fun _ _ hs h => h.intact hs) .refl (fun _ _ _ => .trans)
      (fun _ _ hs h => h.grows hs) hs h
  | leaves h =>
    refine .of_policies hs (.of_eq ?_ ?_) ?_ ?_ ?_ fun row hrow => ⟨row, ?_, .refl _⟩
    all_goals rw [h.rest]
    exact hrow

theorem Sound.run (hs : s.Sound) (h : Run Turn s t) : t.Sound :=
  Run.invariant (fun _ _ hs hturn => hturn.sound hs) hs h

theorem Sound.grows (hs : s.Sound) (h : Run Turn s t) : s.Grows t :=
  Run.monotone (fun _ _ hs hturn => hturn.sound hs) .refl (fun _ _ _ => .trans)
    (fun _ _ hs hturn => (hturn.command.changes hs.intact).grows hs.intact) hs h

/-! ## Budgets -/

/-- What the reservations of a policy took of its budget. -/
structure Spent where
  runs : Nat
  executionMs : Nat
  resultBytes : Nat

/-- The reservations of a policy, added up. -/
def spent (s : Store) (policy : String) : Spent where
  runs := (s.group policy).length
  executionMs := ((s.group policy).map (·.reservedExecutionMs)).sum
  resultBytes := ((s.group policy).map (·.reservedResultBytes)).sum

omit [F64] [PeerAdmission] [Sha256] [Planner] [Pairing] [ScopeCompiler] in
/-- A group is in order what the table has of it. -/
theorem group_perm (s : Store) (policy : String) :
    (s.group policy).Perm (s.occurrences.filter fun r => r.delegation.policyId = policy) :=
  List.perm_insertionSort _ _

/-- The budget of a policy is kept, with or without a reservation. -/
theorem Intact.budget (hs : s.Intact) {row : PolicyRow} (hrow : row ∈ s.authorizations) :
    (s.group row.record.id).map (·.ordinal) = List.range' 1 (s.spent row.record.id).runs ∧
    (s.spent row.record.id).runs ≤ row.record.creation.maxRuns ∧
    (s.spent row.record.id).executionMs ≤ row.record.creation.maxReservedExecutionMs ∧
    (s.spent row.record.id).resultBytes ≤ row.record.creation.maxReservedResultBytes := by
  cases hgroup : s.group row.record.id with
  | nil =>
    simp only [spent, hgroup]
    exact ⟨rfl, Nat.zero_le _, Nat.zero_le _, Nat.zero_le _⟩
  | cons r rest =>
    have hr : r ∈ s.group row.record.id := hgroup ▸ List.mem_cons_self ..
    obtain ⟨hmem, hown⟩ := List.mem_filter.mp ((group_perm s _).subset hr)
    have hbudget := hs.occurrences.budgets r hmem
    rw [of_decide_eq_true hown] at hbudget
    simp only [checkBudget, bind_ok, context_ok, ensure_ok] at hbudget
    obtain ⟨_, ha, a, rfl, _, hordinals, _, -, hlimits⟩ := hbudget
    obtain ⟨row', hfind, -, rfl⟩ := policyOf_iff.mp (readPolicy_iff.mp ha)
    rw [Table.find_of_mem hs.policies hrow] at hfind
    cases hfind
    simp only [spent, ← hgroup]
    exact ⟨hordinals, hlimits⟩

omit [F64] [PeerAdmission] [Sha256] [Planner] [Pairing] [ScopeCompiler] in
/-- What was spent stays spent. -/
theorem Grows.spent (h : s.Grows t) (policy : String) :
    (s.spent policy).runs ≤ (t.spent policy).runs ∧
    (s.spent policy).executionMs ≤ (t.spent policy).executionMs ∧
    (s.spent policy).resultBytes ≤ (t.spent policy).resultBytes := by
  obtain ⟨rest, hrest⟩ := h.reserved
  have hsum : ∀ f : Reservation → Nat,
      ((s.group policy).map f).sum ≤ ((t.group policy).map f).sum := by
    intro f
    rw [((group_perm s policy).map f).sum_eq, ((group_perm t policy).map f).sum_eq, ← hrest,
      List.filter_append, List.map_append, List.sum_append]
    exact Nat.le_add_right _ _
  refine ⟨?_, hsum _, hsum _⟩
  simp only [Store.spent, (group_perm s policy).length_eq, (group_perm t policy).length_eq, ← hrest,
    List.filter_append, List.length_append]
  exact Nat.le_add_right _ _

/-- The job of a reservation, live or archived, has the approval and the request that it was
reserved with. -/
theorem Intact.paid_job (hs : s.Intact) {r : Reservation} (hr : r ∈ s.occurrences) :
    ∃ p, s.retainedPlan r = .ok p ∧ p.planId = r.approvedJob.planId ∧
      p.approval = r.approvedJob.approval ∧
      p.goal.requestContext = r.approvedJob.goal.requestContext := by
  obtain ⟨p, hplan⟩ := hs.occurrences.plans r hr
  refine ⟨p, hplan, ?_⟩
  have hmatches : liveMatches r p = .ok () := by
    unfold retainedPlan at hplan
    rcases reserved_job hs hr with ⟨a, -, hfind, -, hmatches⟩ | ⟨hfind, -⟩
    · simp only [show s.archives.find? _ = _ from hfind, bind_ok, pure_ok] at hplan
      obtain ⟨_, -, rfl⟩ := hplan
      exact hmatches
    · simp only [show s.archives.find? _ = _ from hfind, bind_ok, pure_ok] at hplan
      obtain ⟨row, -, _, -, _, hmatches, rfl⟩ := hplan
      exact hmatches
  simp only [liveMatches, bind_ok, ensure_ok] at hmatches
  obtain ⟨_, ⟨hid, -, hrequest, happroval⟩, -⟩ := hmatches
  exact ⟨hid, happroval, hrequest⟩

/-- **A budget is never exceeded and never refunded.** After every run from a sound journal the
reservations of a policy are numbered 1, 2, ... within the limits it was approved with; a policy keeps
these limits and what it spent, a reservation is kept with its job, live or archived, under the same
approval, and no job is reserved twice. -/
theorem budgets_never_refunded (hs : s.Sound) (h : Run Turn s t) :
    (∀ row ∈ t.authorizations,
      (t.group row.record.id).map (·.ordinal) = List.range' 1 (t.spent row.record.id).runs ∧
      (t.spent row.record.id).runs ≤ row.record.creation.maxRuns ∧
      (t.spent row.record.id).executionMs ≤ row.record.creation.maxReservedExecutionMs ∧
      (t.spent row.record.id).resultBytes ≤ row.record.creation.maxReservedResultBytes) ∧
    (∀ row ∈ s.authorizations, ∃ row' ∈ t.authorizations, row'.record.id = row.record.id ∧
      row'.record.creation = row.record.creation ∧
      (s.spent row.record.id).runs ≤ (t.spent row.record.id).runs ∧
      (s.spent row.record.id).executionMs ≤ (t.spent row.record.id).executionMs ∧
      (s.spent row.record.id).resultBytes ≤ (t.spent row.record.id).resultBytes) ∧
    (∀ r ∈ s.occurrences, r ∈ t.occurrences ∧ ∃ p, t.retainedPlan r = .ok p ∧
      p.planId = r.approvedJob.planId ∧ p.approval = r.approvedJob.approval ∧
      p.goal.requestContext = r.approvedJob.goal.requestContext) ∧
    (t.occurrences.map fun r => r.approvedJob.planId).Nodup := by
  have ht := (hs.run h).intact
  have hgrows := hs.grows h
  refine ⟨fun row hrow => ht.budget hrow, fun row hrow => ?_, fun r hr => ?_, ht.reserved⟩
  · obtain ⟨row', hrow', hkept⟩ := hgrows.policies row hrow
    refine ⟨row', hrow', ?_, ?_, hgrows.spent row.record.id⟩
    · rw [hkept.same]
    · rw [hkept.same]
  · have hmem := hgrows.reserved.subset hr
    exact ⟨hmem, ht.paid_job hmem⟩

end Store

end

/-! ## A reservation -/

section
attribute [local instance] F64.bits PeerAdmission.never scheduleSha schedulePlanner Pairing.never
  ScopeCompiler.always

/-- The request of a run. -/
def repeatedRequest : String := "44444444-4444-4444-8444-444444444444"

/-- Its job, once it is compiled. -/
def repeatedSource : Plan :=
  compiledJob "66666666666646668666666666666666" repeatedRequest 1500 1600

/-- The command that reserves a run for it. -/
def reserveCommand : Reserve :=
  ⟨schedulePolicy.id, sampleGrant.planSha256, repeatedSource.planId, 2, sampleGrant.planSha256,
    "33333333-3333-4333-8333-333333333333"⟩

/-- What it is delegated. -/
def reservedDelegation : Delegation :=
  ⟨1, reserveCommand.operationId, schedulePolicy.id, sampleGrant.planSha256, scheduleDefinition.id, 1,
    schedulePolicy.runtimeId, none⟩

/-- The job with the approval of its reservation. -/
def reservedJob : Plan :=
  { repeatedSource with
    approval := some { Store.delegatedApproval reserveCommand schedulePolicy schedulePolicy.issuerId
      reservedDelegation 2000 with approvalSha256 := sampleGrant.planSha256 }
    status := .approved
    revision := 3
    updatedAtMs := 2000
    history := repeatedSource.history ++
      [⟨3, 2000, "Occurrence authority reserved atomically; no timer, grant or dispatch"⟩] }

/-- The reservation. -/
def sampleReservation : Reservation :=
  { Store.draftReservation reserveCommand reservedDelegation 1 2000 (5000, 65536) reservedJob with
    reservationSha256 := sampleGrant.planSha256 }

/-- The job after it is cancelled. -/
def cancelledJob : Plan :=
  { reservedJob with
    status := .cancelled
    tasks := reservedJob.tasks.map Task.cancelled
    revision := 4
    updatedAtMs := 2500
    history := reservedJob.history ++ [⟨4, 2500, "Stop requested; completed actions are not undone"⟩] }

/-- The journal with two jobs and the policy of the first. -/
def repeatedStore (p : Plan) : Store :=
  { scheduleStore with jobs := [⟨scheduleSource, 1024⟩, ⟨p, p.reserve⟩] }

/-- The journal with a reservation for the second. -/
def reservedStore (p : Plan) : Store :=
  { repeatedStore p with occurrences := [sampleReservation] }

/-- What is checked of the documents. -/
theorem reserved_documents :
    (incomingJob repeatedSource.planId repeatedRequest).validate = .ok () ∧
    (openedJob repeatedSource.planId repeatedRequest 1500).toJson.size ≤ 1024 * 1024 ∧
    repeatedSource.validateReview = .ok () ∧ repeatedSource.toJson.size ≤ 1024 * 1024 ∧
    Store.matchingScope repeatedSource schedulePolicy = .ok () ∧
    sampleReservation.validate = .ok () ∧ reservedJob.validateReview = .ok () ∧
    reservedJob.toJson.size ≤ 1024 * 1024 ∧
    cancelledJob.validateReview = .ok () ∧ cancelledJob.toJson.size ≤ 1024 * 1024 := by
  decide +kernel

namespace Store

/-- A scope is of the request and the planned operations, whatever became of the job. -/
theorem fixedScope_same {p q : Plan} {scope : FixedScope} (h : p.fixedScope = .ok scope)
    (hreview : q.validateReview = .ok ()) (hpair : q.pairDefinition = p.pairDefinition)
    (hplanning : q.planning = p.planning)
    (hrequest : q.goal.requestContext = p.goal.requestContext)
    (hoperations : ∀ bindings : List PlannedBinding,
      (q.tasks.zip bindings).zipIdx.map (fun e => scopedOperation e.2 e.1.1 e.1.2) =
        (p.tasks.zip bindings).zipIdx.map (fun e => scopedOperation e.2 e.1.1 e.1.2)) :
    q.fixedScope = .ok scope := by
  unfold Plan.fixedScope at h ⊢
  simp only [bind_ok] at h
  obtain ⟨paired, hpaired, _, hsingle, _, -, planning, hplanned, origin, horigin, _, hvalid, h⟩ := h
  rw [hpair, hplanning, hrequest]
  refine bind_ok.mpr ⟨paired, hpaired, bind_ok.mpr ⟨(), hsingle, bind_ok.mpr ⟨(), hreview, ?_⟩⟩⟩
  refine bind_ok.mpr ⟨planning, hplanned, bind_ok.mpr ⟨origin, horigin, ?_⟩⟩
  simp only [hoperations]
  exact bind_ok.mpr ⟨(), hvalid, h⟩

variable {s : Store}

/-- A job without a trigger is checked against no claim. -/
theorem validateDelegation_free (h : s.triggers = []) {p : Plan}
    (hlink : (delegationOf p).bind (·.trigger) = none) : s.validateDelegation p = .ok () := by
  unfold validateDelegation
  split
  · rfl
  · next origin horigin =>
    have hclaim : s.triggerForRequest origin.requestId = .ok none := by
      unfold triggerForRequest
      rw [h]
      rfl
    have hnone : ((delegationOf p).bind fun d => d.trigger.map (d, ·)) = none := by
      cases hd : delegationOf p with
      | none => rfl
      | some d =>
        rw [hd, Option.bind_some] at hlink
        rw [Option.bind_some, hlink]
        rfl
    rw [hclaim, ok_bind, hnone]
    rfl

theorem repeated_scope : ∃ scope, repeatedSource.fixedScope = .ok scope := by
  obtain ⟨-, -, -, -, hscope, -⟩ := reserved_documents
  simp only [matchingScope, bind_ok] at hscope
  obtain ⟨scope, hscope, -⟩ := hscope
  exact ⟨scope, hscope⟩

theorem sampleReservation_size : sampleReservation.toJson.size ≤ maxRecordBytes := by
  obtain ⟨-, -, -, -, -, hvalid, -⟩ := reserved_documents
  simp only [Reservation.validate, bind_ok, ensure_ok] at hvalid
  obtain ⟨_, -, _, -, hbounded⟩ := hvalid
  simp only [Reservation.bounded] at hbounded
  exact hbounded.2.2.2.2.2.2.2.2.2.1.trans (by decide)

/-- The reservation is checked against the policy. -/
theorem sampleReservation_checked (hd : s.definitions = [scheduleDefinition])
    (hp : s.authorizations = [⟨schedulePolicy, 1024⟩]) (ht : s.triggers = []) :
    s.checkReservation sampleReservation = .ok () := by
  obtain ⟨-, -, -, -, hmatching, hvalid, hreview, -⟩ := reserved_documents
  obtain ⟨-, -, -, -, -, -, -, -, -, hallowance, -⟩ := schedule_documents
  have hscope : matchingScope reservedJob schedulePolicy = .ok () := by
    unfold matchingScope at hmatching ⊢
    simp only [bind_ok] at hmatching
    obtain ⟨scope, hscope, hrest⟩ := hmatching
    exact bind_ok.mpr ⟨scope, fixedScope_same hscope hreview rfl rfl rfl fun _ => rfl, bind_ok.mpr hrest⟩
  unfold checkReservation
  refine bind_ok.mpr ⟨(), hvalid, bind_ok.mpr ⟨_, schedule_readPolicy hd hp, ?_⟩⟩
  refine bind_ok.mpr ⟨_, context_ok.mpr rfl, bind_ok.mpr ⟨_, schedule_readDefinition hd, ?_⟩⟩
  refine bind_ok.mpr ⟨(), hreview, bind_ok.mpr ⟨(), validateDelegation_free ht rfl, ?_⟩⟩
  refine bind_ok.mpr ⟨(), hscope, bind_ok.mpr ⟨_, context_ok.mpr rfl, ?_⟩⟩
  exact bind_ok.mpr ⟨_, hallowance, ensure_ok.mpr (by decide)⟩

/-- And its job is the one that was approved. -/
theorem sampleReservation_live {p : Plan} (hreview : p.validateReview = .ok ())
    (hid : p.planId = reservedJob.planId) (hrevision : reservedJob.revision ≤ p.revision)
    (hgoal : p.goal = reservedJob.goal) (happroval : p.approval = reservedJob.approval)
    (hplanning : p.planning = reservedJob.planning) (hpair : p.pairDefinition = reservedJob.pairDefinition)
    (hoperations : ∀ bindings : List PlannedBinding,
      (p.tasks.zip bindings).zipIdx.map (fun e => scopedOperation e.2 e.1.1 e.1.2) =
        (reservedJob.tasks.zip bindings).zipIdx.map fun e => scopedOperation e.2 e.1.1 e.1.2) :
    liveMatches sampleReservation p = .ok () := by
  obtain ⟨-, -, -, -, -, -, hreserved, -⟩ := reserved_documents
  obtain ⟨scope, hscope⟩ := repeated_scope
  have happroved : reservedJob.fixedScope = .ok scope :=
    fixedScope_same hscope hreserved rfl rfl rfl fun _ => rfl
  have hlive : p.fixedScope = .ok scope :=
    fixedScope_same happroved hreview hpair hplanning (by rw [hgoal]) hoperations
  unfold liveMatches
  refine bind_ok.mpr ⟨(), ensure_ok.mpr ⟨hid, hrevision, by rw [hgoal]; rfl, happroval⟩, ?_⟩
  refine bind_ok.mpr ⟨scope, hlive, bind_ok.mpr ⟨scope, happroved, ensure_ok.mpr ⟨rfl, ?_⟩⟩⟩
  rw [hplanning]
  rfl

/-! The journal of the policy takes the request, its plan, the reservation and the cancellation. -/

theorem repeatedStore_roomy {p : Plan} (hsize : p.toJson.size ≤ 1024 * 1024) (hreserve : p.reserve ≤ 4096) :
    (repeatedStore p).Roomy := by
  refine scheduleStore_roomy.withJobs fun row hrow => ?_
  rcases List.mem_pair.mp hrow with rfl | rfl
  · exact cost_le scheduleSource_size (by decide)
  · exact cost_le hsize hreserve

/-- The second job is saved in its row. -/
theorem repeatedStore_saved {p q : Plan} (hid : p.planId = repeatedSource.planId) :
    Table.update (fun row => row.plan.planId == repeatedSource.planId) (fun _ => ⟨q, q.reserve⟩)
      (repeatedStore p).jobs = (repeatedStore q).jobs := by
  have hother : (scheduleSource.planId == repeatedSource.planId) = false := by decide
  have hsame : (p.planId == repeatedSource.planId) = true := beq_iff_eq.mpr hid
  simp only [Table.update, repeatedStore, List.map_cons, List.map_nil, hother, hsame, if_true,
    Bool.false_eq_true, if_false]

theorem repeated_requested : Turn scheduleStore
    (repeatedStore (openedJob repeatedSource.planId repeatedRequest 1500)) := by
  obtain ⟨hvalid, hsize, -⟩ := reserved_documents
  have hrequest := admitRequest_incoming scheduleStore_written.sound.intact scheduleStore_roomy
    (by decide) (by decide) hvalid hsize (sourceAuthority_free rfl _ _) rfl (fun row hrow => ?_) rfl
  · exact ⟨.request _ _ _ hrequest, by decide⟩
  · rw [List.mem_singleton.mp hrow]
    decide

theorem repeated_compiled (hs : (repeatedStore (openedJob repeatedSource.planId repeatedRequest 1500)).Sound) :
    Turn (repeatedStore (openedJob repeatedSource.planId repeatedRequest 1500))
      (repeatedStore repeatedSource) := by
  obtain ⟨-, hsize, hreview, hcompiled, -⟩ := reserved_documents
  have hedit := editJob_compiled hs.intact (repeatedStore_roomy hsize (by decide)) (by decide)
    (by decide : 1600 ≤ i64Max) (List.mem_pair.mpr (.inr rfl)) (sourceAuthority_free rfl _ _) hreview
    hcompiled rfl
  refine ⟨.edit _ _ _ _ _ _ compiled_keepsRequest (hedit.trans ?_), by decide⟩
  have hsaved := repeatedStore_saved (q := repeatedSource)
    (p := openedJob repeatedSource.planId repeatedRequest 1500) rfl
  exact congrArg (fun jobs => Except.ok { scheduleStore with jobs }) hsaved

/-- The job of the reservation is checked against it. -/
theorem reservedStore_validateJob {p : Plan} (q : Plan) (hid : p.planId = reservedJob.planId)
    (hlink : (delegationOf p).bind (·.trigger) = none)
    (hlive : liveMatches sampleReservation p = .ok ()) : (reservedStore q).validateJob p = .ok () := by
  have hfind : (reservedStore q).occurrences.find? (fun r => r.approvedJob.planId = p.planId) =
      some sampleReservation := by
    rw [hid]
    exact List.find?_cons_of_pos (decide_eq_true rfl)
  unfold validateJob
  refine bind_ok.mpr ⟨(), validateDelegation_free rfl hlink, bind_ok.mpr ⟨(), rfl, ?_⟩⟩
  simp only [hfind]
  exact bind_ok.mpr ⟨(), sampleReservation_checked rfl rfl rfl, hlive⟩

theorem reservedStore_group (p : Plan) :
    (reservedStore p).group schedulePolicy.id = [sampleReservation] := by
  have hown : sampleReservation.delegation.policyId = schedulePolicy.id := rfl
  simp [group, reservedStore, hown]

/-- The journal with the reservation passes the audit. -/
theorem reservedStore_checked {p : Plan} (hid : p.planId = reservedJob.planId)
    (hreview : p.validateReview = .ok ()) (hlive : liveMatches sampleReservation p = .ok ()) :
    (reservedStore p).checkOccurrences = .ok () := by
  have hfind : Table.find (fun row => row.plan.planId) sampleReservation.approvedJob.planId
      (reservedStore p).jobs = some ⟨p, p.reserve⟩ := by
    have hother : scheduleSource.planId ≠ sampleReservation.approvedJob.planId := by decide
    exact (List.find?_cons_of_neg (by simpa using hother)).trans
      (List.find?_cons_of_pos (decide_eq_true hid))
  have hplan : (reservedStore p).retainedPlan sampleReservation = .ok p :=
    bind_ok.mpr ⟨_, context_ok.mpr hfind, bind_ok.mpr ⟨(), hreview, bind_ok.mpr ⟨(), hlive, rfl⟩⟩⟩
  have hbudget : (reservedStore p).checkBudget schedulePolicy.id = .ok () := by
    refine bind_ok.mpr ⟨_, schedule_readPolicy rfl rfl, bind_ok.mpr ⟨_, context_ok.mpr rfl, ?_⟩⟩
    rw [reservedStore_group]
    exact bind_ok.mpr ⟨(), rfl, bind_ok.mpr ⟨(), ensure_ok.mpr (by decide), ensure_ok.mpr (by decide)⟩⟩
  refine bind_ok.mpr ⟨(), bind_ok.mpr ⟨_, schedule_policies rfl rfl, rfl⟩, bind_ok.mpr ⟨(), rfl, ?_⟩⟩
  refine bind_ok.mpr ⟨(), each_ok.mpr fun r hr => ?_, each_ok.mpr fun r hr => ?_⟩
  · rw [List.mem_singleton.mp hr]
    exact bind_ok.mpr ⟨(), sampleReservation_checked rfl rfl rfl, bind_ok.mpr ⟨_, hplan, rfl⟩⟩
  · rw [List.mem_singleton.mp hr]
    exact hbudget

/-- The reservation goes through. -/
theorem repeated_reserved (hs : (repeatedStore repeatedSource).Sound) :
    (repeatedStore repeatedSource).reserve reserveCommand schedulePolicy.runtimeId
      (some schedulePolicy.issuerId) 2000 2000 2000 =
        .ok (reservedStore reservedJob, sampleReservation, false) := by
  obtain ⟨-, -, -, hcompiled, hscope, hvalid, hreview, hsize, -⟩ := reserved_documents
  obtain ⟨-, -, -, -, -, -, -, hruntime, -, hallowance, -⟩ := schedule_documents
  have hcommand : reserveCommand.validate = .ok () := by
    simp only [Reservation.validate, bind_ok] at hvalid
    exact hvalid.choose_spec.1
  have hread : (repeatedStore repeatedSource).readJob repeatedSource.planId = .ok repeatedSource :=
    hs.intact.readJob_eq (List.mem_pair.mpr (.inr rfl))
  have hlink : (repeatedStore repeatedSource).reservationLink repeatedSource schedulePolicy
      reserveCommand.operationId 2000 = .ok none := rfl
  have hcommit : (repeatedStore repeatedSource).commitReservation reservedJob sampleReservation =
      .ok (reservedStore reservedJob) := by
    have hroomy : (repeatedStore reservedJob).Roomy := repeatedStore_roomy hsize (by decide)
    have hupdate : (repeatedStore repeatedSource).updateJob reservedJob =
        .ok (repeatedStore reservedJob) := by
      refine ((repeatedStore_roomy hcompiled (by decide)).updateJob (by decide) hsize (by decide)
        (by decide)).trans ?_
      have hsaved := repeatedStore_saved (p := repeatedSource) (q := reservedJob) rfl
      exact congrArg (fun jobs => Except.ok { scheduleStore with jobs }) hsaved
    refine bind_ok.mpr ⟨_, hupdate, bind_ok.mpr ⟨(), ensure_ok.mpr (by decide), ?_⟩⟩
    refine bind_ok.mpr ⟨(), ensure_ok.mpr (hroomy.fits (by decide) sampleReservation_size), ?_⟩
    refine bind_ok.mpr ⟨(), ensure_ok.mpr fun _ h => absurd h List.not_mem_nil, ?_⟩
    have hlive : liveMatches sampleReservation reservedJob = .ok () :=
      sampleReservation_live hreview rfl (Nat.le_refl _) rfl rfl rfl rfl fun _ => rfl
    exact bind_ok.mpr ⟨(), reservedStore_validateJob reservedJob rfl rfl hlive, bind_ok.mpr
      ⟨(), reservedStore_checked rfl hreview hlive, rfl⟩⟩
  unfold reserve
  refine bind_ok.mpr ⟨(), hcommand, bind_ok.mpr ⟨(), hruntime, bind_ok.mpr
    ⟨(), checkOccurrences_iff.mpr hs.intact.occurrences, ?_⟩⟩⟩
  refine bind_ok.mpr ⟨_, context_ok.mpr rfl, bind_ok.mpr ⟨_, schedule_readPolicy rfl rfl, ?_⟩⟩
  refine bind_ok.mpr ⟨_, context_ok.mpr rfl, bind_ok.mpr ⟨_, schedule_readDefinition rfl, ?_⟩⟩
  refine bind_ok.mpr ⟨_, schedule_policies rfl rfl, bind_ok.mpr ⟨(), ensure_ok.mpr ⟨rfl, ?_⟩, ?_⟩⟩
  · rw [show (repeatedStore repeatedSource).latestGeneration schedulePolicy.creation.definition = 1 from
      schedule_latestGeneration rfl]
    exact schedule_currentAt (by decide) (by decide)
  refine bind_ok.mpr ⟨_, hread, bind_ok.mpr ⟨(), ensure_ok.mpr (by decide), ?_⟩⟩
  refine bind_ok.mpr ⟨(), hscope, bind_ok.mpr ⟨(), bailIf_ok.mpr (by decide), bind_ok.mpr ⟨(), rfl, ?_⟩⟩⟩
  refine bind_ok.mpr ⟨_, hallowance, bind_ok.mpr ⟨(), ensure_ok.mpr (by decide), ?_⟩⟩
  refine bind_ok.mpr ⟨(), ensure_ok.mpr (by decide), bind_ok.mpr ⟨_, hlink, ?_⟩⟩
  refine bind_ok.mpr ⟨reservedJob, ?_, bind_ok.mpr ⟨(), hreview, ?_⟩⟩
  · rfl
  refine bind_ok.mpr ⟨(), ?_, bind_ok.mpr ⟨reservedStore reservedJob, ?_, ?_⟩⟩
  · exact sampleReservation_checked rfl rfl rfl
  · exact hcommit
  · refine bind_ok.mpr ⟨(), ensure_ok.mpr ⟨Nat.le_refl 2000, ?_, by decide⟩, rfl⟩
    exact schedule_currentAt (by decide) (by decide)

/-- A stop keeps the request. -/
theorem cancel_keepsRequest (hasRunner : Bool) (now : Nat) :
    KeepsRequest fun p => do return some (← p.cancel hasRunner now) := by
  intro p q h
  simp only [Plan.cancel, bind_ok, pure_ok] at h
  obtain ⟨_, ⟨_, -, _, -, rfl⟩, h⟩ := h
  cases hasRunner <;> cases h <;> exact ⟨rfl, rfl⟩

/-- The reserved job is cancelled before anything of it was issued. -/
theorem reserved_edit (hs : (reservedStore reservedJob).Sound) :
    (reservedStore reservedJob).editJob reservedJob.planId
      "Stop requested; completed actions are not undone" none 2500 2500
      (fun p => do return some (← p.cancel false 2500)) = .ok (reservedStore cancelledJob) := by
  obtain ⟨-, -, -, -, -, -, -, hsize, hreview, hcancelled⟩ := reserved_documents
  have hlive : liveMatches sampleReservation cancelledJob = .ok () :=
    sampleReservation_live hreview rfl (by decide) rfl rfl rfl rfl fun bindings => by
      cases bindings <;> rfl
  have hroomy : (reservedStore reservedJob).Roomy := by
    have h := repeatedStore_roomy hsize (by decide)
    exact ⟨h.jobs, h.definitions, h.policies, List.forall_mem_singleton.mpr sampleReservation_size,
      h.archives, h.schedules, h.triggers, h.intents, h.room⟩
  have hrow : ⟨reservedJob, reservedJob.reserve⟩ ∈ (reservedStore reservedJob).jobs :=
    List.mem_pair.mpr (.inr rfl)
  have hread := hs.intact.readJob_eq hrow
  unfold editJob
  refine bind_ok.mpr ⟨_, hread, bind_ok.mpr ⟨(), rfl, bind_ok.mpr ⟨_, rfl, ?_⟩⟩⟩
  refine bind_ok.mpr ⟨(), rfl, bind_ok.mpr ⟨cancelledJob, ?_, ?_⟩⟩
  · exact bind_ok.mpr ⟨(), rfl, bind_ok.mpr ⟨(), rfl, bind_ok.mpr ⟨_, rfl, bind_ok.mpr
      ⟨(), hreview, rfl⟩⟩⟩⟩
  refine bind_ok.mpr ⟨(), reservedStore_validateJob reservedJob rfl rfl hlive, ?_⟩
  refine (hroomy.updateJob (by decide) hcancelled (by decide) (by decide)).trans ?_
  have hsaved := repeatedStore_saved (p := reservedJob) (q := cancelledJob) rfl
  exact congrArg (fun jobs => Except.ok { reservedStore reservedJob with jobs }) hsaved

theorem reserved_cancelled (hs : (reservedStore reservedJob).Sound) :
    Turn (reservedStore reservedJob) (reservedStore cancelledJob) :=
  ⟨.edit _ _ _ _ _ _ (cancel_keepsRequest false 2500) (reserved_edit hs), by decide⟩

theorem reservedStore_written : (reservedStore reservedJob).Written := by
  have hrequested := scheduleStore_written.turn repeated_requested
  have hcompiled := hrequested.turn (repeated_compiled hrequested.sound)
  exact hcompiled.turn ⟨.reserve _ _ _ _ _ _ (repeated_reserved hcompiled.sound), by decide⟩

end Store

/-- A run is reserved, and its job cancelled before anything was issued: the run stays spent, and the
reservation is there with its job. -/
theorem budgets_never_refunded_cancelled :
    cancelledJob.resolved = true ∧
    1 ≤ ((reservedStore cancelledJob).spent schedulePolicy.id).runs ∧
    ((reservedStore cancelledJob).spent schedulePolicy.id).runs ≤ schedulePolicy.creation.maxRuns ∧
    sampleReservation ∈ (reservedStore cancelledJob).occurrences ∧
    ∃ p, (reservedStore cancelledJob).retainedPlan sampleReservation = .ok p ∧
      p.planId = reservedJob.planId ∧ p.approval = reservedJob.approval := by
  have hsound := Store.reservedStore_written.sound
  have hpolicy : ⟨schedulePolicy, 1024⟩ ∈ scheduleStore.authorizations := List.mem_singleton.mpr rfl
  have hreservation : sampleReservation ∈ (reservedStore reservedJob).occurrences :=
    List.mem_singleton.mpr rfl
  obtain ⟨hbudget, hkept, hreserved, -⟩ :=
    Store.budgets_never_refunded hsound (.single (Store.reserved_cancelled hsound))
  obtain ⟨_, -, -, -, hspent, -⟩ := hkept _ hpolicy
  obtain ⟨hmem, p, hplan, hid, happroval, -⟩ := hreserved _ hreservation
  refine ⟨rfl, ?_, (hbudget _ hpolicy).2.1, hmem, p, hplan, hid, happroval⟩
  simpa only [Store.spent, Store.reservedStore_group, List.length_singleton] using hspent

end

end Eef.Coordinator
