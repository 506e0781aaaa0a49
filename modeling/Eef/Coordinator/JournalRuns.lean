import Eef.Coordinator.JournalPolicies
import Eef.Coordinator.JournalSchedules
import Eef.Coordinator.JournalWork

/-!
# The audit along every run of a journal

Every command leaves an intact journal intact (`Changes.intact`), whatever it is given: a definition
may be removed and a policy revoked or superseded while schedules, claims, reservations and archives
of it are retained, and jobs come, go on and go. So the coordinator that wrote a journal can open it
again (`journal_opens`): the audit does not fail, every active schedule is interrupted, and every job
is listed.
-/

namespace Eef.Coordinator

open Eef.Lib Eef.Node

section
variable [F64] [PeerAdmission] [Sha256] [Planner] [Pairing] [ScopeCompiler]

namespace Store

variable {s t : Store}

/-! ## One command -/

/-- A command of the journal, whatever it is given. An edit keeps the identity and the request of its
job, the request of a claim is drawn anew, and the clock is 64 bits wide. -/
inductive Command : Store → Store → Prop where
  | define {s t : Store} {r : Definition × Bool} (c : Define) (origin : Option String) (now : Nat)
      (h : s.define c origin now = .ok (t, r)) : Command s t
  | remove {s t : Store} {r : Definition × Bool} (c : Remove) (origin : Option String)
      (h : s.remove c origin = .ok (t, r)) : Command s t
  | approve {s t : Store} {r : Authorization × Bool} (c : Approve) (candidate : Option Authorization)
      (runtime : String) (now : Nat) (h : s.approve c candidate runtime now = .ok (t, r)) :
      Command s t
  | revoke {s t : Store} {r : Authorization × Bool} (c : Revoke) (runtime : String) (now : Nat)
      (h : s.revoke c runtime now = .ok (t, r)) : Command s t
  | insert {s t : Store} {q : Plan} (p : Plan) (now saved : Nat)
      (h : s.insertJob p now saved = .ok (t, q)) : Command s t
  | request {s t : Store} {r : JobAdmission} (p : Plan) (now saved : Nat)
      (h : s.admitRequest p now saved = .ok (t, r)) : Command s t
  | edit {s t : Store} (id event : String) (gate : Option (String × String)) (now saved : Nat)
      (f : Plan → Result (Option Plan)) (hf : KeepsRequest f)
      (h : s.editJob id event gate now saved f = .ok t) : Command s t
  | removeFinished {s t : Store} (id : String) (h : s.removeFinished id = .ok t) : Command s t
  | reserve {s t : Store} {r : Reservation × Bool} (c : Reserve) (runtime : String)
      (issuer : Option String) (now saved commit : Nat)
      (h : s.reserve c runtime issuer now saved commit = .ok (t, r)) : Command s t
  | archive {s t : Store} {r : Archive × Bool} (c : ArchiveCommand) (runtime : String)
      (now commit : Nat) (h : s.archive c runtime now commit = .ok (t, r)) : Command s t
  | arm {s t : Store} {r : Schedule × Bool} (c : Arm) (runtime issuer : String) (now commit : Nat)
      (h : s.scheduleArm c runtime issuer now commit = .ok (t, r)) : Command s t
  | claim {s t : Store} {r : Option Trigger} (id runtime issuer : String) (drawn : Drawn)
      (now commit : Nat) (hfresh : s.FreshRequest drawn.request)
      (h : s.scheduleClaimDue id runtime issuer drawn now commit = .ok (t, r)) : Command s t
  | stop {s t : Store} {r : Schedule × Bool} (id operation : String) (revision now : Nat)
      (h : s.scheduleStop id revision operation now = .ok (t, r)) : Command s t
  | settle {s t : Store} {r : Schedule} (id runtime issuer : String) (now : Nat)
      (h : s.scheduleSettle id runtime issuer now = .ok (t, r)) : Command s t
  | beginLaunch {s t : Store} {r : Bool} (id runtime : String) (now commit : Nat)
      (hnow : now ≤ u64Max) (h : s.triggerBeginLaunch id runtime now commit = .ok (t, r)) :
      Command s t
  | recordRefusal {s t : Store} {r : Bool} (id runtime : String) (now : Nat) (hnow : now ≤ u64Max)
      (h : s.triggerRecordRefusal id runtime now = .ok (t, r)) : Command s t
  | resolveRefusal {s t : Store} {r : Schedule × Bool} (id trigger hash operation : String)
      (revision now : Nat)
      (h : s.resolveTriggerRefusal id revision trigger hash operation now = .ok (t, r)) : Command s t
  | interrupt {s t : Store} {r : Schedule} (id reason : String) (now : Nat)
      (h : s.scheduleInterruptNow id reason now = .ok (t, r)) : Command s t
  | interruptTrigger {s t : Store} {r : Schedule} (id reason : String) (now : Nat)
      (h : s.triggerInterruptNow id reason now = .ok (t, r)) : Command s t
  | reopen {s t : Store} (clock : Nat → Nat) (h : s.interruptOnOpen clock = .ok t) : Command s t
  -- other limits, or a row of a table that no check of these reads
  | other {s t : Store} (h : t = { s with
      maxCount := t.maxCount, maxBytes := t.maxBytes, intents := t.intents, checks := t.checks }) :
      Command s t

/-- Limits, or rows of a table that no check of these reads. -/
structure Leaves (s t : Store) : Prop where
  rest : t = { s with
    maxCount := t.maxCount, maxBytes := t.maxBytes, intents := t.intents, checks := t.checks }

/-- What a command can change. -/
inductive Changes (s t : Store) : Prop where
  | governs (h : s.Governs t)
  | employs (h : s.Employs t)
  | settles (h : s.Settles t)
  | arranges (h : Run Arranges s t)
  | leaves (h : s.Leaves t)

theorem Command.changes (h : Command s t) (hs : s.Intact) : s.Changes t := by
  cases h with
  | define c origin now h => exact .governs (define_governs hs h)
  | remove c origin h => exact .governs (remove_governs hs h)
  | approve c candidate runtime now h => exact .governs (approve_governs hs h)
  | revoke c runtime now h => exact .governs (revoke_governs hs h)
  | insert p now saved h => exact .employs (insertJob_employs hs h)
  | request p now saved h => exact .employs (admitRequest_employs hs h)
  | edit id event gate now saved f hf h => exact .employs (editJob_employs hs hf h)
  | removeFinished id h => exact .employs (removeFinished_employs hs h)
  | reserve c runtime issuer now saved commit h => exact .settles (reserve_settles hs h)
  | archive c runtime now commit h => exact .settles (archive_settles hs h)
  | arm c runtime issuer now commit h => exact .arranges (.single (scheduleArm_arranges h))
  | claim id runtime issuer drawn now commit hfresh h =>
    exact .arranges (.single (scheduleClaimDue_arranges hfresh h))
  | stop id operation revision now h => exact .arranges (.single (scheduleStop_arranges h))
  | settle id runtime issuer now h => exact .arranges (.single (scheduleSettle_arranges h))
  | beginLaunch id runtime now commit hnow h =>
    exact .arranges (.single (triggerBeginLaunch_arranges h))
  | recordRefusal id runtime now hnow h =>
    exact .arranges (.single (triggerRecordRefusal_arranges h))
  | resolveRefusal id trigger hash operation revision now h =>
    exact .arranges (.single (resolveTriggerRefusal_arranges h))
  | interrupt id reason now h => exact .arranges (.single (scheduleInterruptNow_arranges h))
  | interruptTrigger id reason now h => exact .arranges (.single (triggerInterruptNow_arranges h))
  | reopen clock h => exact .arranges (interruptOnOpen_arranges hs h)
  | other h => exact .leaves ⟨h⟩

theorem Intact.leave (hs : s.Intact) (h : s.Leaves t) : t.Intact := by
  have hdefinitions : t.definitions = s.definitions := by rw [h.rest]
  have hpolicies : t.authorizations = s.authorizations := by rw [h.rest]
  have hschedules : t.schedules = s.schedules := by rw [h.rest]
  have htriggers : t.triggers = s.triggers := by rw [h.rest]
  have hjobs : t.jobs = s.jobs := by rw [h.rest]
  have hoccurrences : t.occurrences = s.occurrences := by rw [h.rest]
  have hkeeps : s.KeepsPolicies t := .of_eq hdefinitions hpolicies
  have hwork : s.SameWork t := ⟨hjobs, hoccurrences, by rw [h.rest], fun _ _ => .of_eq htriggers _,
    fun _ _ => .of_eq htriggers _⟩
  exact hs.sameWork (.of_policies hkeeps hschedules) hwork
    ⟨hdefinitions ▸ hs.definitions, hpolicies ▸ hs.policies, hschedules ▸ hs.schedules,
      hjobs ▸ hs.jobs, hoccurrences ▸ hs.reservations, hoccurrences ▸ hs.reserved⟩
    (hdefinitions ▸ hs.stored)
    (hs.history.keep hkeeps (policies_kept hkeeps hpolicies hs.history.policies) hschedules htriggers
      fun _ _ => hwork.refusal htriggers)

theorem Changes.intact (h : s.Changes t) (hs : s.Intact) : t.Intact := by
  cases h with
  | governs h => exact hs.govern h
  | employs h => exact hs.employ h
  | settles h => exact hs.settle h
  | arranges h =>
    refine Run.invariant ?_ hs h
    exact fun _ _ hs h => h.intact hs
  | leaves h => exact hs.leave h

/-! ## What a type bounds -/

/-- The generations of an intact journal count its policies. -/
theorem Intact.generation_le (hs : s.Intact) {row : PolicyRow} (hrow : row ∈ s.authorizations) :
    row.record.generation ≤ s.authorizations.length := by
  obtain ⟨as, hread⟩ := hs.history.policies
  obtain ⟨-, hsorted, -⟩ := policies_iff.mp hread
  have hperm := sorted_iff.mp (hsorted row hrow)
  have hmem : row.record.generation ∈ s.generations row.record.creation.definition := by
    refine List.mem_map.mpr ⟨row.record, List.mem_filter.mpr ⟨List.mem_map_of_mem hrow, ?_⟩, rfl⟩
    exact decide_eq_true rfl
  have hle := (List.mem_range'_1.mp (hperm.subset hmem)).2
  have hlength : (s.generations row.record.creation.definition).length ≤ s.authorizations.length := by
    unfold generations
    rw [List.length_map]
    exact (List.length_filter_le _ _).trans_eq (List.length_map _)
  omega

/-- A turn of the journal: a command, after which the rows can still be counted. -/
structure Turn (s t : Store) : Prop where
  command : Command s t
  counted : t.authorizations.length ≤ u64Max

/-- To the table of schedules a turn is one of its steps. -/
theorem Turn.step (h : Turn s t) (hs : s.Intact) : Step s t := by
  have ht := (h.command.changes hs).intact hs
  have hother : t.schedules = s.schedules → Step s t := fun hschedules =>
    .other hschedules fun row hrow => (ht.generation_le hrow).trans h.counted
  cases h.command with
  | define c origin now h => exact hother (by rw [(define_governs hs h).rest])
  | remove c origin h => exact hother (by rw [(remove_governs hs h).rest])
  | approve c candidate runtime now h => exact hother (by rw [(approve_governs hs h).rest])
  | revoke c runtime now h => exact hother (by rw [(revoke_governs hs h).rest])
  | insert p now saved h => exact hother (by rw [(insertJob_employs hs h).rest])
  | request p now saved h => exact hother (by rw [(admitRequest_employs hs h).rest])
  | edit id event gate now saved f hf h => exact hother (by rw [(editJob_employs hs hf h).rest])
  | removeFinished id h => exact hother (by rw [(removeFinished_employs hs h).rest])
  | reserve c runtime issuer now saved commit h => exact hother (by rw [(reserve_settles hs h).rest])
  | archive c runtime now commit h => exact hother (by rw [(archive_settles hs h).rest])
  | arm c runtime issuer now commit h => exact .arm c runtime issuer now commit h
  | claim id runtime issuer drawn now commit hfresh h =>
    exact .claim id runtime issuer drawn now commit h
  | stop id operation revision now h => exact .stop id operation revision now h
  | settle id runtime issuer now h => exact .settle id runtime issuer now h
  | beginLaunch id runtime now commit hnow h => exact .beginLaunch id runtime now commit hnow h
  | recordRefusal id runtime now hnow h => exact .recordRefusal id runtime now hnow h
  | resolveRefusal id trigger hash operation revision now h =>
    exact .resolveRefusal id trigger hash operation revision now h
  | interrupt id reason now h => exact .interrupt id reason now h
  | interruptTrigger id reason now h => exact .interruptTrigger id reason now h
  | reopen clock h => exact .reopen clock h
  | other h => exact hother (by rw [h])

/-! ## Runs -/

/-- What holds of a journal that a coordinator wrote. -/
structure Sound (s : Store) : Prop where
  intact : s.Intact
  scheduled : s.Scheduled

theorem Turn.sound (h : Turn s t) (hs : s.Sound) : t.Sound :=
  ⟨(h.command.changes hs.intact).intact hs.intact, ((h.step hs.intact).puts hs.scheduled).1⟩

theorem fresh_sound (maxCount maxBytes : Nat) : (fresh maxCount maxBytes).Sound :=
  ⟨⟨⟨List.nodup_nil, List.nodup_nil, List.nodup_nil, List.nodup_nil, List.nodup_nil, List.nodup_nil⟩,
    rfl, fun _ h => absurd h List.not_mem_nil⟩, fresh_scheduled maxCount maxBytes⟩

/-- A coordinator wrote the journal. -/
def Written (s : Store) : Prop := ∃ maxCount maxBytes, Run Turn (fresh maxCount maxBytes) s

theorem Written.sound (h : s.Written) : s.Sound := by
  obtain ⟨maxCount, maxBytes, hrun⟩ := h
  exact Run.invariant (fun _ _ hs hturn => hturn.sound hs) (fresh_sound maxCount maxBytes) hrun

theorem Written.turn (h : s.Written) (hturn : Turn s t) : t.Written := by
  obtain ⟨maxCount, maxBytes, hrun⟩ := h
  exact ⟨maxCount, maxBytes, hrun.tail hturn⟩

/-! ## Opening a journal -/

/-- Every job of an intact journal is listed. -/
theorem Intact.list_eq (hs : s.Intact) : s.list = .ok (s.jobs.map (·.plan)) := by
  simp only [list, bind_ok, each_ok, pure_ok]
  exact ⟨(), hs.listed, trivial⟩

/-- And is read by its identity. -/
theorem Intact.readJob_eq (hs : s.Intact) {row : JobRow} (hrow : row ∈ s.jobs) :
    s.readJob row.plan.planId = .ok row.plan := by
  obtain ⟨hreview, hjob⟩ := checkJob_iff.mp (hs.listed row hrow)
  simp only [readJob, bind_ok, context_ok, pure_ok]
  exact ⟨row, Table.find_of_mem hs.jobs hrow, (), hreview, (), hjob, rfl⟩

/-- An active schedule can be interrupted while its revisions last. -/
theorem Sound.interrupts (hs : s.Sound) {row : ScheduleRow} (hrow : row ∈ s.schedules)
    (hactive : row.record.state.active = true) (hrevision : row.record.revision < u64Max)
    {now : Nat} (hpositive : 0 < now) (hnow : now ≤ u64Max) :
    ∃ next r, row.record.interrupted "restart" now = .ok next ∧ s.saveSchedule next false = .ok r := by
  have hhistory := hs.intact.occurrences.history
  obtain ⟨a, d, -, -, hvalid, -⟩ := checkSchedule_ok ((validatedHistory_ok hhistory).1 row hrow)
  have hstate : row.record.state = .waiting ∨ row.record.state = .inFlight := by
    cases hstate : row.record.state with
    | waiting => exact .inl rfl
    | inFlight => exact .inr rfl
    | _ =>
      rw [hstate] at hactive
      cases hactive
  have hstop : row.record.stop = none :=
    Schedule.stop_none hvalid (hstate.imp_right fun h => .inl h)
  have hresolved : row.record.state ≠ .resolved := by
    intro heq
    rw [heq] at hactive
    cases hactive
  have hsave := save_fence hs.scheduled hhistory hrow hresolved hrevision hpositive hnow
    (.inr ⟨rfl, rfl, (by decide : "restart" ∈ Schedule.interruptReasons)⟩)
  rw [Schedule.fenced, ← hstop] at hsave
  exact ⟨_, _, Schedule.interrupted_ok.mpr ⟨hrevision, rfl⟩, hsave⟩

/-- The schedules that are left to interrupt are all that are active. -/
theorem interruptAll_opens {clock : Nat → Nat} (hclock : ∀ i, 0 < clock i ∧ clock i ≤ u64Max)
    {rest : List Schedule} : ∀ {s : Store} {i : Nat}, s.Sound →
    (∀ sch ∈ rest, ∃ row ∈ s.schedules, row.record = sch) → (rest.map Schedule.id).Nodup →
    (∀ sch ∈ rest, sch.state.active = true → sch.revision < u64Max) →
    (∀ row ∈ s.schedules, row.record.state.active = true → row.record ∈ rest) →
    ∃ t, s.interruptAll clock i rest = .ok t ∧ t = { s with schedules := t.schedules } ∧
      ∀ row ∈ t.schedules, row.record.state.active = false := by
  induction rest with
  | nil =>
    intro s i hs _ _ _ hall
    refine ⟨s, rfl, rfl, fun row hrow => Bool.eq_false_iff.mpr fun hactive => ?_⟩
    exact List.not_mem_nil (hall row hrow hactive)
  | cons sch rest ih =>
    intro s i hs hrows hids hrevisions hall
    rw [List.map_cons, List.nodup_cons] at hids
    rw [interruptAll]
    by_cases hactive : sch.state.active = true
    · rw [if_pos hactive]
      obtain ⟨row, hrow, rfl⟩ := hrows sch (List.mem_cons_self ..)
      obtain ⟨next, ⟨u, r⟩, hnext, hsave⟩ := hs.interrupts hrow hactive
        (hrevisions _ (List.mem_cons_self ..) hactive) (hclock i).1 (hclock i).2
      obtain ⟨hgoes, hsame, hended⟩ := Schedule.interrupted_continues hnext
      have hid : next.id = row.record.id := by rw [hgoes.kept.same]
      have hread : s.scheduleOf row.record.id "" = .ok row.record := scheduleOf_iff.mpr
        ⟨row, Table.find_of_mem hs.intact.schedules hrow, hs.intact.history.schedules row hrow, rfl⟩
      have hu : u.Sound := ⟨(Arranges.save hread hsave hgoes (.inl hsame) (.ended hended)).intact hs.intact,
        (puts_save hread hsave (Schedule.interrupted_follows hnext)).scheduled hs.scheduled⟩
      obtain ⟨-, -, -, hframe, hrows'⟩ := saveSchedule_ok hsave
      rw [if_neg Bool.false_ne_true] at hrows'
      have hinactive : next.state.active = false := by
        obtain ⟨-, rfl⟩ := Schedule.interrupted_ok.mp hnext
        rfl
      have hothers : ∀ q ∈ rest, ∃ e ∈ u.schedules, e.record = q := by
        intro q hq
        obtain ⟨e, he, rfl⟩ := hrows q (List.mem_cons_of_mem _ hq)
        refine ⟨e, ?_, rfl⟩
        rw [hrows', Table.mem_update]
        refine ⟨e, he, (if_neg ?_).symm⟩
        rw [beq_iff_eq, hid]
        intro heq
        exact hids.1 (heq ▸ List.mem_map_of_mem hq)
      have hleft : ∀ e ∈ u.schedules, e.record.state.active = true → e.record ∈ rest := by
        intro e he hstate
        rw [hrows', Table.mem_update] at he
        obtain ⟨e', he', rfl⟩ := he
        by_cases heq : (e'.record.id == next.id) = true
        · rw [if_pos heq] at hstate
          obtain ⟨rfl, -⟩ := saveSchedule_ok hsave
          exact absurd (show next.state.active = true from hstate) (hinactive ▸ Bool.false_ne_true)
        · rw [if_neg heq] at hstate ⊢
          rcases List.mem_cons.mp (hall e' he' hstate) with hsame | hmem
          · exact absurd (beq_iff_eq.mpr (by rw [hsame, hid])) heq
          · exact hmem
      obtain ⟨t, hrest, ht, hdone⟩ := ih (i := i + 1) hu hothers hids.2
        (fun q hq => hrevisions q (List.mem_cons_of_mem _ hq)) hleft
      refine ⟨t, ?_, ?_, hdone⟩
      · rw [hnext, ok_bind, hsave, ok_bind]
        exact hrest
      · rw [ht, hframe]
    · rw [if_neg hactive]
      refine ih (i := i + 1) hs (fun q hq => hrows q (List.mem_cons_of_mem _ hq)) hids.2
        (fun q hq => hrevisions q (List.mem_cons_of_mem _ hq)) fun e he hstate => ?_
      rcases List.mem_cons.mp (hall e he hstate) with hsame | hmem
      · rw [hsame] at hstate
        exact absurd hstate hactive
      · exact hmem

/-- **A coordinator can open the journal that it wrote.** Whatever commands it ran, and in whatever
order, the audit passes and every job is listed and read; while the revisions of the active schedules
last, the start interrupts every one of them and changes nothing else, and the journal it leaves
passes again. -/
theorem journal_opens {s : Store} (hs : s.Written) :
    s.validateAutomations = .ok () ∧
    s.list = .ok (s.jobs.map (·.plan)) ∧
    (∀ row ∈ s.jobs, s.readJob row.plan.planId = .ok row.plan) ∧
    ∀ clock : Nat → Nat, (∀ i, 0 < clock i ∧ clock i ≤ u64Max) →
      (∀ row ∈ s.schedules, row.record.state.active = true → row.record.revision < u64Max) →
      ∃ t, s.interruptOnOpen clock = .ok t ∧ t = { s with schedules := t.schedules } ∧
        (∀ row ∈ t.schedules, row.record.state.active = false) ∧
        t.validateAutomations = .ok () ∧ t.list = .ok (s.jobs.map (·.plan)) := by
  have hsound := hs.sound
  refine ⟨hsound.intact.audited, hsound.intact.list_eq, fun row hrow => hsound.intact.readJob_eq hrow,
    fun clock hclock hrevisions => ?_⟩
  have hids : ((s.schedules.map (·.record)).map Schedule.id).Nodup := by
    rw [List.map_map]
    exact hsound.intact.schedules
  have hrevisions' : ∀ sch ∈ s.schedules.map (·.record), sch.state.active = true →
      sch.revision < u64Max := by
    intro sch hsch hactive
    obtain ⟨row, hrow, rfl⟩ := List.mem_map.mp hsch
    exact hrevisions row hrow hactive
  obtain ⟨t, hall, ht, hinactive⟩ := interruptAll_opens hclock (i := 0) hsound
    (fun sch hsch => List.mem_map.mp hsch) hids hrevisions' fun row hrow _ => List.mem_map_of_mem hrow
  have hopen : s.interruptOnOpen clock = .ok t := by
    have hrun := Interrupts.run (interruptAll_interrupts hsound.intact
      (fun sch hsch => List.mem_map.mp hsch) hids hall)
    have hintact := (Changes.arranges hrun).intact hsound.intact
    simp only [interruptOnOpen, bind_ok, each_ok, pure_ok]
    exact ⟨(), hsound.intact.history.schedules, t, hall, (), hintact.occurrences.history, rfl⟩
  have hintact := (Changes.arranges (interruptOnOpen_arranges hsound.intact hopen)).intact hsound.intact
  have hjobs : t.jobs = s.jobs := by rw [ht]
  refine ⟨t, hopen, ht, hinactive, hintact.audited, ?_⟩
  rw [← hjobs]
  exact hintact.list_eq

end Store

end

/-! ## A journal to open -/

section
attribute [local instance] F64.bits PeerAdmission.never scheduleSha schedulePlanner Pairing.never
  ScopeCompiler.always

namespace Store

variable {s : Store} {job request : String}

/-- The origin of such a request. -/
def incomingOrigin (request : String) : RequestContext :=
  { sampleGrant.requestContext with requestId := request }

/-- A valid request under a new receipt becomes a job. -/
theorem admitRequest_incoming (hs : s.Intact) (hroomy : s.Roomy) (hcount : s.count < s.maxCount)
    {now : Nat} (hnow : now ≤ i64Max) (hvalid : (incomingJob job request).validate = .ok ())
    (hsize : (openedJob job request now).toJson.size ≤ 1024 * 1024)
    (hauthority : s.sourceAuthority (incomingOrigin request) now = .ok ()) (harchives : s.archives = [])
    (hreceipt : ∀ row ∈ s.jobs,
      row.plan.receipt ≠ some ((incomingOrigin request).originNode, request))
    (hfresh : Table.find (fun row => row.plan.planId) job s.jobs = none) :
    s.admitRequest (incomingJob job request) now now =
      .ok ({ s with jobs := s.jobs ++ [⟨openedJob job request now, 1024⟩] },
        ⟨openedJob job request now, false⟩) := by
  have hread : ∀ row ∈ s.jobs, row.plan.validateReview = .ok () :=
    fun row hrow => (checkJob_iff.mp (hs.listed row hrow)).1
  have hrefuse : s.refuseArchivedRequest (incomingOrigin request) = .ok () := by
    unfold refuseArchivedRequest
    rw [harchives]
    rfl
  have hany : (s.archives.any fun a => a.command.job == job) ≠ true := by
    rw [harchives]
    exact Bool.false_ne_true
  have hinsert : s.insertJob (incomingJob job request) now now =
      .ok ({ s with jobs := s.jobs ++ [⟨openedJob job request now, 1024⟩] },
        openedJob job request now) := by
    unfold insertJob
    refine bind_ok.mpr ⟨(), hvalid, bind_ok.mpr ⟨(), each_ok.mpr fun origin horigin => ?_, ?_⟩⟩
    · rw [List.mem_singleton.mp horigin]
      exact hauthority
    refine bind_ok.mpr ⟨(), bailIf_ok.mpr hany, bind_ok.mpr ⟨(), ensure_ok.mpr hcount, ?_⟩⟩
    refine bind_ok.mpr ⟨openedJob job request now, rfl, bind_ok.mpr ⟨(), ?_, ?_⟩⟩
    · exact hroomy.checkSize (Nat.le_of_lt hcount) _ (cost_le hsize (by decide))
    · exact bind_ok.mpr ⟨(), ensure_ok.mpr hnow, bind_ok.mpr ⟨(), ensure_ok.mpr hfresh, rfl⟩⟩
  unfold admitRequest
  refine bind_ok.mpr ⟨(), hvalid, bind_ok.mpr ⟨incomingOrigin request, rfl, ?_⟩⟩
  refine bind_ok.mpr ⟨(), hrefuse, bind_ok.mpr ⟨none, findReceipt_absent hread hreceipt, ?_⟩⟩
  exact bind_ok.mpr ⟨_, hinsert, rfl⟩

/-- A job that no reservation is of is valid as long as its lineage is the same. -/
theorem validateJob_unreserved {p q : Plan} (hid : q.planId = p.planId)
    (hrequest : q.goal.requestContext = p.goal.requestContext) (happroval : q.approval = p.approval)
    (hexecution : q.execution = p.execution)
    (hnone : s.occurrences.find? (fun r => r.approvedJob.planId = p.planId) = none)
    (h : s.validateJob p = .ok ()) : s.validateJob q = .ok () := by
  have hdelegation : delegationOf q = delegationOf p := by
    unfold delegationOf
    rw [happroval]
  have hlinked : ∀ origin claim link, s.linkedTo q origin claim link = s.linkedTo p origin claim link := by
    intro origin claim link
    simp only [linkedTo, delegatedBy, happroval, hexecution]
    rfl
  unfold validateJob validateDelegation at h ⊢
  rw [hid, hrequest, hdelegation]
  simp only [hnone, hlinked] at h ⊢
  exact h

/-- Compiling it is an edit. -/
theorem editJob_compiled (hs : s.Intact) (hroomy : s.Roomy) (hcount : s.count ≤ s.maxCount)
    {now later : Nat} (hlater : later ≤ i64Max)
    (hrow : ⟨openedJob job request now, 1024⟩ ∈ s.jobs)
    (hauthority : s.sourceAuthority (incomingOrigin request) later = .ok ())
    (hreview : (compiledJob job request now later).validateReview = .ok ())
    (hsize : (compiledJob job request now later).toJson.size ≤ 1024 * 1024)
    (hnone : s.occurrences.find? (fun r => r.approvedJob.planId = job) = none) :
    s.editJob job "Concrete plan saved" none later later (fun p => .ok (some (compiled p))) =
      .ok { s with
        jobs := Table.update (fun row => row.plan.planId == job)
          (fun _ => ⟨compiledJob job request now later, 1024⟩) s.jobs } := by
  have hvalid : s.validateJob (openedJob job request now) = .ok () :=
    (checkJob_iff.mp (hs.listed _ hrow)).2
  unfold editJob
  refine bind_ok.mpr ⟨_, hs.readJob_eq hrow, bind_ok.mpr ⟨(), rfl, bind_ok.mpr ⟨_, rfl, ?_⟩⟩⟩
  refine bind_ok.mpr ⟨(), hauthority, bind_ok.mpr ⟨compiledJob job request now later, ?_, ?_⟩⟩
  · exact bind_ok.mpr ⟨(), rfl, bind_ok.mpr ⟨(), rfl, bind_ok.mpr ⟨_, rfl, bind_ok.mpr
      ⟨(), hreview, rfl⟩⟩⟩⟩
  refine bind_ok.mpr ⟨(), validateJob_unreserved (p := openedJob job request now) rfl rfl rfl rfl
    hnone hvalid, ?_⟩
  exact hroomy.updateJob hcount hsize (by decide : 1024 ≤ 4096) hlater

theorem compiled_keepsRequest : KeepsRequest fun p => .ok (some (compiled p)) := by
  intro p q h
  cases h
  exact ⟨rfl, rfl⟩

/-! The journal of `schedule_armed` comes of these commands: the request, its plan, the definition of
it and the policy for that. -/

/-- The journal with the request. -/
def requestedStore : Store :=
  { fresh 16 (64 * maxRecordBytes) with
    jobs := [⟨openedJob sampleGrant.jobId sampleGrant.requestContext.requestId 900, 1024⟩] }

/-- With its plan. -/
def compiledStore : Store :=
  { fresh 16 (64 * maxRecordBytes) with jobs := [⟨scheduleSource, 1024⟩] }

/-- With the definition of it. -/
def definedStore : Store := { compiledStore with definitions := [scheduleDefinition] }

theorem fresh_roomy {maxCount maxBytes : Nat} (h : (maxCount + 1) * maxRecordBytes ≤ maxBytes) :
    (fresh maxCount maxBytes).Roomy := by
  have hnone : ∀ {α : Type} {p : α → Prop}, ∀ a ∈ ([] : List α), p a :=
    fun _ ha => absurd ha List.not_mem_nil
  exact ⟨hnone, hnone, hnone, hnone, hnone, hnone, hnone, hnone, h⟩

/-- No claim is in the way of a request. -/
theorem sourceAuthority_free (h : s.triggers = []) (origin : RequestContext) (now : Nat) :
    s.sourceAuthority origin now = .ok () := by
  have hfind : Table.find (fun t : Trigger => t.requestContext.requestId) origin.requestId s.triggers
      = none := by
    rw [h]
    rfl
  unfold sourceAuthority triggerForRequest
  rw [hfind]
  rfl

/-- What is checked of the request. -/
theorem requested_documents :
    (incomingJob sampleGrant.jobId sampleGrant.requestContext.requestId).validate = .ok () ∧
    (openedJob sampleGrant.jobId sampleGrant.requestContext.requestId 900).toJson.size ≤
      1024 * 1024 := by
  decide +kernel

theorem requested_turn : Turn (fresh 16 (64 * maxRecordBytes)) requestedStore := by
  obtain ⟨hvalid, hsize⟩ := requested_documents
  have hrequest := admitRequest_incoming (fresh_sound 16 (64 * maxRecordBytes)).intact
    (fresh_roomy (by decide)) (by decide) (by decide) hvalid hsize
    (sourceAuthority_free rfl _ _) rfl (fun _ h => absurd h List.not_mem_nil) rfl
  exact ⟨.request _ _ _ hrequest, Nat.zero_le _⟩

theorem compiled_turn (hs : requestedStore.Sound) : Turn requestedStore compiledStore := by
  have hroomy : requestedStore.Roomy := (fresh_roomy (by decide)).withJobs
    (List.forall_mem_singleton.mpr (cost_le requested_documents.2 (by decide)))
  have hedit := editJob_compiled hs.intact hroomy (by decide) (by decide : 950 ≤ i64Max)
    (List.mem_singleton.mpr rfl) (sourceAuthority_free rfl _ _) schedule_documents.1
    scheduleSource_size rfl
  refine ⟨.edit _ _ _ _ _ _ compiled_keepsRequest (hedit.trans ?_), Nat.zero_le _⟩
  simp [Table.update, requestedStore, compiledStore, openedJob, incomingJob, scheduleSource]

theorem defined_turn (hs : compiledStore.Sound) : Turn compiledStore definedStore := by
  obtain ⟨hreview, -, hsize, -⟩ := schedule_documents
  have hvalid := schedule_validateFor.2
  have hcreation : scheduleDefinition.creation.validate = .ok () := by
    simp only [Definition.validate, bind_ok] at hvalid
    exact hvalid.choose_spec.1
  have hstored : scheduleDefinition.validateStored = .ok () :=
    bind_ok.mpr ⟨(), hvalid, bind_ok.mpr ⟨(), hreview, rfl⟩⟩
  have hroomy : compiledStore.Roomy := (fresh_roomy (by decide)).withJobs
    (List.forall_mem_singleton.mpr (cost_le scheduleSource_size (by decide)))
  have hdefine : compiledStore.define scheduleDefinition.creation none 1000 =
      .ok (definedStore, scheduleDefinition, false) := by
    unfold define
    refine bind_ok.mpr ⟨(), hcreation, bind_ok.mpr ⟨(), rfl, ?_⟩⟩
    rw [if_neg (by decide)]
    refine bind_ok.mpr ⟨_, hs.intact.readJob_eq (List.mem_singleton.mpr rfl), ?_⟩
    refine bind_ok.mpr ⟨sampleGrant.requestContext, rfl, bind_ok.mpr ⟨(), rfl, ?_⟩⟩
    refine bind_ok.mpr ⟨(), ensure_ok.mpr (by decide), ?_⟩
    exact bind_ok.mpr ⟨_, hroomy.saveDefinition (by decide) hstored hsize rfl, rfl⟩
  exact ⟨.define _ _ _ hdefine, Nat.zero_le _⟩

theorem approved_turn : Turn definedStore scheduleStore := by
  obtain ⟨hreview, hvalid, hsize, hcost, -, -, -, hruntime, -⟩ := schedule_documents
  have hcreation : schedulePolicy.creation.validate = .ok () := by
    have hpolicy := schedule_validateFor.1
    simp only [Authorization.validate, bind_ok] at hpolicy
    exact hpolicy.choose_spec.1
  have hroomy : definedStore.Roomy := by
    have hroom : (16 + 1) * maxRecordBytes ≤ 64 * maxRecordBytes := by decide
    have hjob : JobRow.cost ⟨scheduleSource, 1024⟩ ≤ maxRecordBytes :=
      cost_le scheduleSource_size (by decide)
    have h := (fresh_roomy hroom).withJobs (List.forall_mem_singleton.mpr hjob)
    exact ⟨h.jobs, List.forall_mem_singleton.mpr hsize, h.policies, h.occurrences, h.archives,
      h.schedules, h.triggers, h.intents, h.room⟩
  have happrove : definedStore.approve schedulePolicy.creation (some schedulePolicy)
      schedulePolicy.runtimeId 1000 = .ok (scheduleStore, schedulePolicy, false) := by
    unfold approve
    refine bind_ok.mpr ⟨(), hcreation, bind_ok.mpr ⟨(), ?_, bind_ok.mpr ⟨[], rfl, ?_⟩⟩⟩
    · rw [validateUuid, bind_ok] at hruntime
      exact hruntime.choose_spec.1
    refine bind_ok.mpr ⟨_, context_ok.mpr rfl, bind_ok.mpr ⟨_, schedule_readDefinition rfl, ?_⟩⟩
    refine bind_ok.mpr ⟨(), ensure_ok.mpr (by decide), ?_⟩
    exact bind_ok.mpr ⟨_, hroomy.savePolicy (by decide) (schedule_readDefinition rfl) hvalid hcost rfl,
      rfl⟩
  exact ⟨.approve _ _ _ _ happrove, by decide⟩

/-- So a coordinator wrote it. -/
theorem scheduleStore_written : scheduleStore.Written := by
  have hrequested : requestedStore.Written := ⟨_, _, .single requested_turn⟩
  have hcompiled : compiledStore.Written := hrequested.turn (compiled_turn hrequested.sound)
  have hdefined : definedStore.Written := hcompiled.turn (defined_turn hcompiled.sound)
  exact hdefined.turn approved_turn

theorem armed_turn : Turn scheduleStore armedStore :=
  ⟨.arm _ _ _ _ _ schedule_armed, by decide⟩

end Store

/-- The journal with an armed schedule opens: it passes the audit, its job is listed, and the schedule
that waited is interrupted. -/
theorem journal_opens_armed :
    armedStore.schedules.map (·.record.state) = [.waiting] ∧
    armedStore.validateAutomations = .ok () ∧ armedStore.list = .ok [scheduleSource] ∧
    ∃ t, armedStore.interruptOnOpen (fun _ => 3000) = .ok t ∧
      (∀ row ∈ t.schedules, row.record.state.active = false) ∧ t.validateAutomations = .ok () := by
  have hwritten : armedStore.Written := Store.scheduleStore_written.turn Store.armed_turn
  obtain ⟨haudited, hlisted, -, hopens⟩ := Store.journal_opens hwritten
  obtain ⟨t, hopen, -, hinactive, hagain, -⟩ := hopens (fun _ => 3000)
    (fun _ => ⟨by decide, by decide⟩) fun row hrow _ => by
      rw [List.mem_singleton.mp hrow]
      decide
  exact ⟨rfl, haudited, hlisted, t, hopen, hinactive, hagain⟩

end

end Eef.Coordinator
