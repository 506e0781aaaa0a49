import Eef.Coordinator.JobAdmission
import Eef.Coordinator.JournalAudit

/-!
# Jobs in an intact journal

A job that is inserted, edited or removed changes the table of jobs alone (`Employs`): no archived
job comes back, the job of every reservation stays, and no job is made for a claim that was refused
before its launch. A reservation and an archive check the records again before they commit
(`Settles`).
-/

namespace Eef.Coordinator

open Eef.Lib Eef.Node

section
variable [F64] [PeerAdmission] [Sha256] [Planner] [Pairing] [ScopeCompiler]

omit [F64] [PeerAdmission] [Planner] [Pairing] [ScopeCompiler] in
/-- A schedule with a refusal has no claim in flight. -/
theorem Schedule.refused_state {sch : Schedule} (h : sch.validateRefusal = .ok ())
    {refusal : Refusal} (hrefusal : sch.refusal = some refusal) : sch.state ≠ .inFlight := by
  unfold Schedule.validateRefusal at h
  simp only [hrefusal, bind_ok, ensure_ok] at h
  obtain ⟨_, -, _, -, -, -, -, -, -, hstate, -⟩ := h
  intro heq
  rw [heq] at hstate
  rcases hstate with h | h | h <;> cases h

namespace Store

variable {s t : Store}

/-! ## Jobs -/

/-- A journal whose jobs changed. -/
structure Employs (s t : Store) : Prop where
  rest : t = { s with jobs := t.jobs }
  jobs : Table.Keyed (fun row => row.plan.planId) t.jobs
  archived : ∀ a ∈ s.archives, (t.jobs.any fun row => row.plan.planId == a.command.job) = true →
    (s.jobs.any fun row => row.plan.planId == a.command.job) = true
  live : ∀ r ∈ s.occurrences, s.archived r = none → s.Live r → t.Live r
  refused : ∀ row ∈ s.schedules, ∀ refusal ∈ row.record.refusal,
    ∀ tr ∈ s.triggers, tr.scheduleId = row.record.id →
      t.hasRequest tr.requestContext.requestId = true → s.hasRequest tr.requestContext.requestId = true
  listed : ∀ row ∈ t.jobs, row ∉ s.jobs → row.plan.validateReview = .ok () ∧
    s.validateJob row.plan = .ok ()

theorem Employs.refl (hs : s.Intact) : s.Employs s :=
  ⟨rfl, hs.jobs, fun _ _ h => h, fun _ _ _ h => h, fun _ _ _ _ _ _ _ h => h,
    fun _ hrow hnot => absurd hrow hnot⟩

theorem Intact.employ (hs : s.Intact) (h : s.Employs t) : t.Intact := by
  have hdefinitions : t.definitions = s.definitions := by rw [h.rest]
  have hpolicies : t.authorizations = s.authorizations := by rw [h.rest]
  have hschedules : t.schedules = s.schedules := by rw [h.rest]
  have htriggers : t.triggers = s.triggers := by rw [h.rest]
  have hoccurrences : t.occurrences = s.occurrences := by rw [h.rest]
  have hkeepsPolicies : s.KeepsPolicies t := .of_eq hdefinitions hpolicies
  have hkeeps : s.Keeps t := .of_policies hkeepsPolicies hschedules
  have hworks : s.Works t :=
    ⟨hoccurrences, by rw [h.rest], fun _ _ => .of_eq htriggers _, h.archived, h.live⟩
  have hhistory : t.History := by
    refine hs.history.keep hkeepsPolicies (policies_kept hkeepsPolicies hpolicies hs.history.policies)
      hschedules htriggers fun row hrow hcheck => ?_
    unfold checkRefusal at hcheck ⊢
    cases hrefusal : row.record.refusal with
    | none => rfl
    | some refusal =>
      have hown : t.ownTriggers row.record.id = s.ownTriggers row.record.id := by
        unfold ownTriggers
        rw [htriggers]
      simp only [hrefusal, bind_ok, context_ok, ensure_ok, bailIf_ok, hown, hoccurrences] at hcheck ⊢
      obtain ⟨tr, hlast, _, hsame, hnone⟩ := hcheck
      refine ⟨tr, hlast, (), hsame, fun hwork => hnone ?_⟩
      have htr := List.mem_of_getLast? hlast
      rw [ownTriggers, List.mem_insertionSort, List.mem_filter] at htr
      exact hwork.imp_right (h.refused row hrow refusal hrefusal tr htr.1 (of_decide_eq_true htr.2))
  refine Unique.intact ⟨hdefinitions ▸ hs.definitions, hpolicies ▸ hs.policies,
    hschedules ▸ hs.schedules, h.jobs, hoccurrences ▸ hs.reservations, hoccurrences ▸ hs.reserved⟩ (hdefinitions ▸ hs.stored)
    (hs.occurrences.keep hkeeps hworks (validatedHistory_iff.mpr hhistory)) fun row hrow => ?_
  refine checkJob_kept hkeeps hworks (.of_eq htriggers _) ?_
  by_cases hold : row ∈ s.jobs
  · exact hs.listed row hold
  · exact checkJob_iff.mpr (h.listed row hrow hold)

/-- No two claims share an identity. -/
theorem History.keyed (hs : s.History) {f : Trigger → String} (hf : ∀ tr, f tr ∈ tr.identities) :
    Table.Keyed f s.triggers := by
  have hnodup := hs.identities
  rw [List.nodup_flatMap] at hnodup
  unfold Table.Keyed
  rw [List.Nodup, List.pairwise_map]
  refine hnodup.2.imp fun {a b} hab heq => ?_
  exact hab (hf a) (heq ▸ hf b)

/-- A trigger is found by its request. -/
theorem requested_of_mem (hs : s.History) {tr : Trigger} (htr : tr ∈ s.triggers) :
    s.requested tr.requestContext.requestId = some tr :=
  Table.find_of_mem (hs.keyed (f := fun tr => tr.requestContext.requestId)
    fun tr => by simp [Trigger.identities]) htr

/-- A request that no claim in flight was made for is the request of no refused claim. -/
theorem refused_request (hs : s.Intact) {row : ScheduleRow} (hrow : row ∈ s.schedules)
    {refusal : Refusal} (hrefusal : row.record.refusal = some refusal) {tr : Trigger}
    (htr : tr ∈ s.triggers) (hown : tr.scheduleId = row.record.id) {now : Nat}
    {origin : RequestContext} (horigin : origin.requestId = tr.requestContext.requestId) :
    s.sourceAuthority origin now ≠ .ok () := by
  intro h
  have hcheck := hs.history.schedules row hrow
  simp only [sourceAuthority, triggerForRequest, horigin, requested_of_mem hs.history htr, bind_ok,
    pure_ok] at h
  obtain ⟨_, ⟨_, -, rfl⟩, h⟩ := h
  simp only [bind_ok, hown, ensure_ok] at h
  obtain ⟨sch, hsch, _, hauthority, -⟩ := h
  obtain ⟨e, hfind, -, rfl⟩ := scheduleOf_iff.mp hsch
  rw [Table.find_of_mem hs.schedules hrow] at hfind
  cases hfind
  obtain ⟨a, d, -, -, hvalid, -⟩ := checkSchedule_ok hcheck
  exact row.record.refused_state (Schedule.validateData_ok.mp hvalid).2.2.2.2.1 hrefusal hauthority.2.1

omit [ScopeCompiler] in
/-- A new job is not approved. -/
theorem unapproved_of_valid {p : Plan} (h : p.validate = .ok ()) : p.approval = none := by
  cases hreview : p.requestReview with
  | none => exact ((Plan.validate_ok hreview).mp h).1.unplanned.2.2.1
  | some draft =>
    simp only [Plan.validate, Plan.validateReview, hreview, bind_ok, ensure_ok] at h
    obtain ⟨_, ⟨_, -, _, -, _, -, hplanned⟩, _, -, _, ⟨-, hplanning, -⟩, -⟩ := h
    rw [hplanning] at hplanned
    simp only [Option.isSome_none, Bool.false_eq_true, if_false, ensure_ok] at hplanned
    exact hplanned.1

/-- The archive of a reservation is of its job, as it came to an end. -/
theorem archived_job (hs : s.Intact) {a : Archive} (ha : a ∈ s.archives) {r : Reservation}
    (hr : r ∈ s.occurrences) (hown : a.command.reservation = r.id) :
    a.command.job = r.approvedJob.planId ∧ liveMatches r a.terminalJob = .ok () := by
  have hcheck := hs.occurrences.archives a ha
  simp only [checkArchive, Archive.validate, reservation, hown, Table.find_of_mem hs.reservations hr,
    bind_ok, context_ok, ensure_ok, pure_ok] at hcheck
  obtain ⟨_, ⟨_, -, _, -, _, -, -, -, -, hjob, -⟩, _, ⟨_, -, rfl⟩, found, hfound, hcheck⟩ := hcheck
  cases hfound
  obtain ⟨_, -, _, -, _, hlive, -⟩ := hcheck
  refine ⟨?_, hlive⟩
  simp only [liveMatches, bind_ok, ensure_ok] at hlive
  obtain ⟨_, hsame, -⟩ := hlive
  exact hjob.symm.trans hsame.1

/-- The job of a reservation is there, or in an archive. -/
theorem reserved_job (hs : s.Intact) {r : Reservation} (hr : r ∈ s.occurrences) :
    (∃ a ∈ s.archives, s.archived r = some a ∧ a.command.job = r.approvedJob.planId ∧
      liveMatches r a.terminalJob = .ok ()) ∨
    (s.archived r = none ∧ ∃ row ∈ s.jobs, row.plan.planId = r.approvedJob.planId ∧
      liveMatches r row.plan = .ok ()) := by
  obtain ⟨-, hlive⟩ := retainedPlan_iff.mp (hs.occurrences.plans r hr)
  cases hfind : s.archived r with
  | none =>
    obtain ⟨row, hrow, -, hmatches⟩ := hlive hfind
    obtain ⟨hmem, hid⟩ := Table.find_some hrow
    exact .inr ⟨rfl, row, hmem, hid, hmatches⟩
  | some a =>
    have ha : a ∈ s.archives := List.mem_of_find?_eq_some hfind
    have hown := List.find?_some (p := fun a : Archive => a.command.reservation = r.id) hfind
    exact .inl ⟨a, ha, rfl, archived_job hs ha hr (of_decide_eq_true hown)⟩

/-- A new job, when it is not yet retained. -/
structure NewWork (s : Store) (p : Plan) : Prop where
  unapproved : p.approval = none
  authority : ∀ origin ∈ p.goal.requestContext, ∃ now, s.sourceAuthority origin now = .ok ()
  unarchived : ∀ a ∈ s.archives, a.command.job ≠ p.planId
  fresh : Table.find (fun row => row.plan.planId) p.planId s.jobs = none

theorem NewWork.valid (hs : s.Intact) {p : Plan} (h : s.NewWork p) : s.validateJob p = .ok () := by
  have hnone : s.occurrences.find? (fun r => r.approvedJob.planId = p.planId) = none := by
    refine List.find?_eq_none.mpr fun r hr heq => ?_
    have hid := of_decide_eq_true heq
    rcases reserved_job hs hr with ⟨a, ha, -, hjob, -⟩ | ⟨-, row, hrow, hjob, -⟩
    · exact h.unarchived a ha (hjob.trans hid)
    · exact Table.find_none.mp h.fresh row hrow (hjob.trans hid)
  have hdelegation : delegationOf p = none := by
    rw [delegationOf, h.unapproved]
    rfl
  simp only [validateJob, bind_ok, bailIf_ok, hnone, hdelegation]
  refine ⟨(), ?_, (), ?_, ?_⟩
  · unfold validateDelegation
    cases horigin : p.goal.requestContext with
    | none => rfl
    | some origin =>
      obtain ⟨now, hauthority⟩ := h.authority origin horigin
      simp only [sourceAuthority, bind_ok] at hauthority
      obtain ⟨claim, hclaim, -⟩ := hauthority
      simp only [bind_ok, hdelegation, Option.bind_none]
      refine ⟨claim, hclaim, ?_⟩
      cases claim with
      | none => rfl
      | some tr =>
        simp only [linkedTo, bailIf_ok, h.unapproved]
        exact Bool.false_ne_true
  · intro hany
    obtain ⟨a, ha, heq⟩ := List.any_eq_true.mp hany
    exact h.unarchived a ha (beq_iff_eq.mp heq)
  · exact Bool.false_ne_true

theorem insertJob_employs (hs : s.Intact) {p q : Plan} {now saved : Nat}
    (h : s.insertJob p now saved = .ok (t, q)) : s.Employs t := by
  obtain ⟨-, hreview, -, -, hunarchived⟩ := insertJob_ok h
  simp only [insertJob, bind_ok, each_ok, ensure_ok, pure_ok] at h
  obtain ⟨_, hvalid, _, hauthority, _, -, _, -, q', hstamp, _, -, _, -, _, hfresh, h⟩ := h
  cases h
  obtain ⟨-, history, rfl⟩ := Plan.stamp_ok hstamp
  have hnew : s.NewWork (p.stamped saved history) :=
    ⟨show p.approval = none from unapproved_of_valid hvalid,
      fun origin horigin => ⟨now, hauthority origin (Option.mem_toList.mpr horigin)⟩, hunarchived, hfresh⟩
  refine ⟨rfl, hs.jobs.insert hfresh, fun a ha hany => ?_, fun r _ _ hlive => ?_,
    fun row hrow refusal hrefusal tr htr hown hany => ?_, fun row hrow hnot => ?_⟩
  · obtain ⟨row, hrow, heq⟩ := List.any_eq_true.mp hany
    rcases List.mem_append.mp hrow with hrow | hrow
    · exact List.any_eq_true.mpr ⟨row, hrow, heq⟩
    · rw [List.mem_singleton.mp hrow] at heq
      exact absurd (beq_iff_eq.mp heq).symm (hunarchived a ha)
  · obtain ⟨row, hrow, hmatches⟩ := hlive
    refine ⟨row, ?_, hmatches⟩
    show Table.find (fun row => row.plan.planId) r.approvedJob.planId (s.jobs ++ _) = some row
    rw [Table.find_insert, hrow, Option.some_or]
  · obtain ⟨e, he, heq⟩ := List.any_eq_true.mp hany
    rcases List.mem_append.mp he with he | he
    · exact List.any_eq_true.mpr ⟨e, he, heq⟩
    · rw [List.mem_singleton.mp he, Option.any_eq_true] at heq
      obtain ⟨origin, horigin, hrequest⟩ := heq
      refine absurd (hauthority origin (Option.mem_toList.mpr horigin)) ?_
      exact refused_request hs hrow hrefusal htr hown (beq_iff_eq.mp hrequest)
  · rcases List.mem_append.mp hrow with hrow | hrow
    · exact absurd hrow hnot
    · rw [List.mem_singleton.mp hrow]
      exact ⟨hreview, hnew.valid hs⟩

theorem admitRequest_employs (hs : s.Intact) {p : Plan} {now saved : Nat} {r : JobAdmission}
    (h : s.admitRequest p now saved = .ok (t, r)) : s.Employs t := by
  simp only [admitRequest, bind_ok] at h
  obtain ⟨_, -, origin, -, _, -, found, -, h⟩ := h
  cases found with
  | some existing =>
    simp only [bind_ok, pure_ok] at h
    obtain ⟨_, -, h⟩ := h
    cases h
    exact .refl hs
  | none =>
    simp only [bind_ok, pure_ok] at h
    obtain ⟨⟨u, q⟩, hinsert, h⟩ := h
    cases h
    exact insertJob_employs hs hinsert

omit [Planner] [Pairing] [ScopeCompiler] [PeerAdmission] [Sha256] in
theorem updateJob_ok {p : Plan} (h : s.updateJob p = .ok t) :
    t = { s with
      jobs := Table.update (fun e => e.plan.planId == p.planId) (fun _ => ⟨p, p.reserve⟩) s.jobs } := by
  simp only [updateJob, bind_ok, pure_ok] at h
  obtain ⟨_, -, _, -, h⟩ := h
  exact h.symm

/-- An edit keeps the identity of its job and the request that it was made for. -/
def KeepsRequest (f : Plan → Result (Option Plan)) : Prop :=
  ∀ p q, f p = .ok (some q) → q.planId = p.planId ∧ q.goal.requestContext = p.goal.requestContext

/-- The rows of the jobs after one of them was replaced by a valid one. -/
theorem replaceJob_employs (hs : s.Intact) {row : JobRow} (hrow : row ∈ s.jobs) {q : Plan}
    (hid : q.planId = row.plan.planId)
    (hrequest : q.goal.requestContext = row.plan.goal.requestContext)
    (hreview : q.validateReview = .ok ()) (hvalid : s.validateJob q = .ok ())
    (hupdate : s.updateJob q = .ok t) : s.Employs t := by
  have ht := updateJob_ok hupdate
  have hjobs : t.jobs = Table.update (fun e => e.plan.planId == q.planId) (fun _ => ⟨q, q.reserve⟩)
      s.jobs := by rw [ht]
  have hany : ∀ {f : JobRow → Bool}, (f ⟨q, q.reserve⟩ = true → f row = true) →
      t.jobs.any f = true → s.jobs.any f = true := by
    intro f hf hany
    rw [hjobs] at hany
    obtain ⟨e, he, heq⟩ := List.any_eq_true.mp hany
    obtain ⟨e', he', rfl⟩ := Table.mem_update.mp he
    split at heq
    · exact List.any_eq_true.mpr ⟨row, hrow, hf heq⟩
    · exact List.any_eq_true.mpr ⟨e', he', heq⟩
  refine ⟨?_, ?_, fun a _ => hany fun heq => ?_, fun r hr _ hlive => ?_,
    fun e _ refusal _ tr _ _ => hany fun heq => ?_, fun e he hnot => ?_⟩
  · rw [hjobs]
    exact ht
  · rw [hjobs]
    exact hs.jobs.replace ⟨q, q.reserve⟩
  · exact hid ▸ heq
  · obtain ⟨e, hfind, hmatches⟩ := hlive
    have hreplaced := @Table.find_replace _ _ _ (fun e : JobRow => e.plan.planId) ⟨q, q.reserve⟩
      r.approvedJob.planId s.jobs
    rw [show Table.update _ _ _ = t.jobs from hjobs.symm, hfind] at hreplaced
    by_cases heq : r.approvedJob.planId = q.planId
    · rw [if_pos (show _ = (⟨q, q.reserve⟩ : JobRow).plan.planId from heq)] at hreplaced
      refine ⟨_, hreplaced, hreview, ?_⟩
      -- its reservation was compared with the job again
      simp only [validateJob, bind_ok] at hvalid
      obtain ⟨_, -, _, -, hvalid⟩ := hvalid
      have hfound : s.occurrences.find? (fun r => r.approvedJob.planId = q.planId) = some r := by
        rw [← heq]
        exact Table.find_of_mem hs.reserved hr
      simp only [hfound, bind_ok] at hvalid
      obtain ⟨_, -, hlive⟩ := hvalid
      exact hlive
    · rw [if_neg (show ¬_ = (⟨q, q.reserve⟩ : JobRow).plan.planId from heq)] at hreplaced
      exact ⟨e, hreplaced, hmatches⟩
  · exact hrequest ▸ heq
  · rw [hjobs] at he
    obtain ⟨e', he', rfl⟩ := Table.mem_update.mp he
    split at hnot
    · rw [if_pos ‹_›]
      exact ⟨hreview, hvalid⟩
    · exact absurd he' hnot

/-- What an edit leaves: the journal as it was, or with the edited job. -/
theorem editJob_ok {id event : String} {gate : Option (String × String)} {now saved : Nat}
    {f : Plan → Result (Option Plan)} (h : s.editJob id event gate now saved f = .ok t) :
    ∃ p, s.readJob id = .ok p ∧ (t = s ∨ ∃ q q', f p = .ok (some q) ∧
      p.commit q event saved = .ok q' ∧ s.validateJob q' = .ok () ∧ s.updateJob q' = .ok t) := by
  unfold editJob at h
  simp only [bind_ok] at h
  obtain ⟨p, hread, h⟩ := h
  refine ⟨p, hread, ?_⟩
  have hedit : ∃ edited, f p = .ok edited ∧ (edited = none → t = s) ∧ ∀ q, edited = some q →
      ∃ q', p.commit q event saved = .ok q' ∧ s.validateJob q' = .ok () ∧ s.updateJob q' = .ok t := by
    split at h <;> simp only [bind_ok] at h
    all_goals
      obtain ⟨_, -, edited, hedit, h⟩ := h
      refine ⟨edited, hedit, ?_, ?_⟩
      · rintro rfl
        rw [pure_ok] at h
        exact h.symm
      · rintro q rfl
        dsimp only at h
        split at h
        · split_ifs at h
          all_goals
            simp only [bind_ok] at h
            obtain ⟨_, -, q', hcommit, _, hvalid, hupdate⟩ := h
            exact ⟨q', hcommit, hvalid, hupdate⟩
        · simp only [bind_ok] at h
          obtain ⟨_, -, q', hcommit, _, hvalid, hupdate⟩ := h
          exact ⟨q', hcommit, hvalid, hupdate⟩
  obtain ⟨edited, hedit, hnone, hsome⟩ := hedit
  cases edited with
  | none => exact .inl (hnone rfl)
  | some q =>
    obtain ⟨q', h⟩ := hsome q rfl
    exact .inr ⟨q, q', hedit, h⟩

theorem editJob_employs (hs : s.Intact) {id event : String} {gate : Option (String × String)}
    {now saved : Nat} {f : Plan → Result (Option Plan)} (hf : KeepsRequest f)
    (h : s.editJob id event gate now saved f = .ok t) : s.Employs t := by
  obtain ⟨p, hread, rfl | ⟨q, q', hedit, hcommit, hvalid, hupdate⟩⟩ := editJob_ok h
  · exact .refl hs
  · simp only [Plan.commit, bind_ok, pure_ok] at hcommit
    obtain ⟨_, -, _, -, q'', hstamp, _, hreview, rfl⟩ := hcommit
    obtain ⟨-, history, rfl⟩ := Plan.stamp_ok hstamp
    obtain ⟨hid, hrequest⟩ := hf p q hedit
    simp only [readJob, bind_ok, context_ok, pure_ok] at hread
    obtain ⟨row, hfind, _, -, _, -, rfl⟩ := hread
    exact replaceJob_employs hs (q := q.stamped saved history) (Table.find_some hfind).1 hid hrequest hreview
      hvalid hupdate

theorem removeFinished_ok {id : String} (h : s.removeFinished id = .ok t) :
    (s.occurrences.any fun r => r.approvedJob.planId == id) = false ∧
    t = { s with jobs := s.jobs.filter fun row => row.plan.planId ≠ id } := by
  unfold removeFinished at h
  simp only [bind_ok] at h
  obtain ⟨p, -, h⟩ := h
  split at h <;> simp only [bind_ok, bailIf_ok, pure_ok, Bool.not_eq_true] at h
  · obtain ⟨_, -, _, -, _, hunreserved, _, -, rfl⟩ := h
    exact ⟨hunreserved, rfl⟩
  · obtain ⟨_, -, _, hunreserved, _, -, rfl⟩ := h
    exact ⟨hunreserved, rfl⟩

theorem removeFinished_employs (hs : s.Intact) {id : String} (h : s.removeFinished id = .ok t) :
    s.Employs t := by
  obtain ⟨hunreserved, rfl⟩ := removeFinished_ok h
  have hsub : ∀ {f : JobRow → Bool},
      ((s.jobs.filter fun row => row.plan.planId ≠ id).any f) = true → s.jobs.any f = true := by
    intro f hany
    obtain ⟨e, he, heq⟩ := List.any_eq_true.mp hany
    exact List.any_eq_true.mpr ⟨e, (List.mem_filter.mp he).1, heq⟩
  have hkeyed := hs.jobs.filter fun row => row.plan.planId ≠ id
  refine ⟨rfl, hkeyed, fun a _ hany => hsub hany, fun r hr _ hlive => ?_,
    fun e _ refusal _ tr _ _ hany => hsub hany, fun e he hnot => ?_⟩
  · obtain ⟨e, hfind, hmatches⟩ := hlive
    obtain ⟨hmem, hplan⟩ := Table.find_some hfind
    have hother : e.plan.planId ≠ id := by
      intro heq
      have hreserved : (s.occurrences.any fun r => r.approvedJob.planId == id) = true :=
        List.any_eq_true.mpr ⟨r, hr, beq_iff_eq.mpr (hplan.symm.trans heq)⟩
      rw [hunreserved] at hreserved
      cases hreserved
    refine ⟨e, ?_, hmatches⟩
    rw [← hplan]
    exact Table.find_of_mem hkeyed (List.mem_filter.mpr ⟨hmem, decide_eq_true hother⟩)
  · exact absurd (List.mem_filter.mp he).1 hnot

/-! ## Reservations and archives -/

/-- The transaction of a reservation or an archive: the records are checked again before it commits,
and a job is listed as it was, or was checked again too. -/
structure Settles (s t : Store) : Prop where
  rest : t = { s with jobs := t.jobs, occurrences := t.occurrences, archives := t.archives }
  reserved : s.occurrences <+: t.occurrences
  archived : s.archives <+: t.archives
  unique : t.Unique
  checked : t.checkOccurrences = .ok ()
  listed : ∀ row ∈ t.jobs, t.checkJob row.plan = .ok () ∨ (row ∈ s.jobs ∧
    ((t.archives.any fun a => a.command.job == row.plan.planId) = true →
      (s.archives.any fun a => a.command.job == row.plan.planId) = true) ∧
    (t.occurrences.find? fun r => r.approvedJob.planId = row.plan.planId) =
      s.occurrences.find? fun r => r.approvedJob.planId = row.plan.planId)

theorem Settles.refl (hs : s.Intact) : s.Settles s :=
  ⟨rfl, List.prefix_rfl, List.prefix_rfl, hs.toUnique, checkOccurrences_iff.mpr hs.occurrences,
    fun row hrow => .inl (hs.listed row hrow)⟩

theorem Intact.settle (hs : s.Intact) (h : s.Settles t) : t.Intact := by
  have hdefinitions : t.definitions = s.definitions := by rw [h.rest]
  have hpolicies : t.authorizations = s.authorizations := by rw [h.rest]
  have hschedules : t.schedules = s.schedules := by rw [h.rest]
  have htriggers : t.triggers = s.triggers := by rw [h.rest]
  have hkeeps : s.Keeps t := .of_policies (.of_eq hdefinitions hpolicies) hschedules
  refine h.unique.intact (hdefinitions ▸ hs.stored) (checkOccurrences_iff.mp h.checked) fun row hrow => ?_
  rcases h.listed row hrow with hchecked | ⟨hold, harchives, hfind⟩
  · exact hchecked
  · obtain ⟨hreview, hjob⟩ := checkJob_iff.mp (hs.listed row hold)
    exact checkJob_iff.mpr ⟨hreview, validateJob_kept hkeeps (.of_eq htriggers _) harchives hfind
      (fun _ _ => .of_eq htriggers _) hjob⟩

theorem commitReservation_settles (hs : s.Intact) {q : Plan} {r : Reservation}
    (hreview : q.validateReview = .ok ()) (hjob : r.approvedJob.planId = q.planId)
    (h : s.commitReservation q r = .ok t) : s.Settles t := by
  simp only [commitReservation, bind_ok, ensure_ok, pure_ok] at h
  obtain ⟨u, hupdate, _, -, _, -, _, hfresh, _, hvalid, _, hchecked, rfl⟩ := h
  have hu := updateJob_ok hupdate
  subst hu
  refine ⟨rfl, List.prefix_append .., List.prefix_rfl, ⟨hs.definitions, hs.policies, hs.schedules,
    hs.jobs.replace ⟨q, q.reserve⟩, hs.reservations.insert ?_, hs.reserved.insert ?_⟩, hchecked,
    fun row hrow => ?_⟩
  · exact Table.find_none.mpr fun o ho => (hfresh o ho).1
  · exact Table.find_none.mpr fun o ho => hjob ▸ (hfresh o ho).2
  · obtain ⟨e, he, rfl⟩ := Table.mem_update.mp hrow
    by_cases heq : (e.plan.planId == q.planId) = true
    · rw [if_pos heq]
      exact .inl (checkJob_iff.mpr ⟨hreview, hvalid⟩)
    · rw [if_neg heq]
      refine .inr ⟨he, id, ?_⟩
      have hother : decide (r.approvedJob.planId = e.plan.planId) = false :=
        decide_eq_false fun hsame => heq (beq_iff_eq.mpr (hsame.symm.trans hjob))
      show (s.occurrences ++ [r]).find? _ = _
      rw [List.find?_append, List.find?_cons_of_neg (by rw [hother]; exact Bool.false_ne_true),
        List.find?_nil, Option.or_none]

theorem reserve_settles (hs : s.Intact) {c : Reserve} {runtime : String} {issuer : Option String}
    {now saved commit : Nat} {r : Reservation × Bool}
    (h : s.reserve c runtime issuer now saved commit = .ok (t, r)) : s.Settles t := by
  simp only [reserve, bind_ok] at h
  obtain ⟨_, -, _, -, _, -, h⟩ := h
  cases hretained : s.occurrences.find? fun r => r.id = c.operationId with
  | some old =>
    simp only [hretained, bind_ok, pure_ok] at h
    obtain ⟨_, -, h⟩ := h
    cases h
    exact .refl hs
  | none =>
    simp only [hretained, bind_ok, pure_ok] at h
    obtain ⟨issuer, -, _, -, a, -, definition, -, _, -, _, -, p, -, _, -, _, -, _, -, _, -, allowance, -,
      _, -, _, -, link, -, q, -, _, hreview, _, -, u, hcommit, _, -, h⟩ := h
    cases h
    exact commitReservation_settles hs hreview rfl hcommit

theorem commitArchive_settles (hs : s.Intact) {a : Archive} (h : s.commitArchive a = .ok t) :
    s.Settles t := by
  simp only [commitArchive, bind_ok, pure_ok] at h
  obtain ⟨old, -, _, -, _, -, _, -, _, hchecked, rfl⟩ := h
  refine ⟨rfl, List.prefix_rfl, List.prefix_append .., ⟨hs.definitions, hs.policies, hs.schedules,
    hs.jobs.filter _, hs.reservations, hs.reserved⟩, hchecked, fun row hrow => ?_⟩
  obtain ⟨hrow, hother⟩ := List.mem_filter.mp hrow
  refine .inr ⟨hrow, fun hany => ?_, rfl⟩
  obtain ⟨b, hb, heq⟩ := List.any_eq_true.mp hany
  rcases List.mem_append.mp hb with hb | hb
  · exact List.any_eq_true.mpr ⟨b, hb, heq⟩
  · rw [List.mem_singleton.mp hb] at heq
    exact absurd (beq_iff_eq.mp heq).symm (of_decide_eq_true hother)

theorem archive_settles (hs : s.Intact) {c : ArchiveCommand} {runtime : String} {now commit : Nat}
    {r : Archive × Bool} (h : s.archive c runtime now commit = .ok (t, r)) : s.Settles t := by
  simp only [archive, bind_ok] at h
  obtain ⟨_, -, _, -, _, -, h⟩ := h
  cases hretained : s.archives.find? fun a => a.id = c.operationId with
  | some old =>
    simp only [hretained, bind_ok, pure_ok] at h
    obtain ⟨_, -, _, -, h⟩ := h
    cases h
    exact .refl hs
  | none =>
    simp only [hretained, bind_ok, pure_ok] at h
    obtain ⟨other, -, policy, -, _, -, _, -, r, -, p, -, _, -, _, -, u, hcommit, _, -, h⟩ := h
    cases h
    exact commitArchive_settles hs hcommit

end Store

end

end Eef.Coordinator
