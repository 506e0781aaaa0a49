import Eef.Coordinator.JournalBudgets

/-!
# One run at a time

A run is reserved only when the jobs of all earlier runs of its definition came to an end. A job that
came to an end stays so: it cannot be stopped again, no report of it is recorded, and its archive has
it as it was (`Operation.keepsEnds`). So along every run of reservations, archives, stops, reports and
revocations at most one run of a definition is unresolved (`OneAtATime`), next to the budget that is
kept and never refunded; and a reservation that was made is found again by its own command for ever
after (`reserve_again`).
-/

namespace Eef.Coordinator

open Eef.Lib Eef.Node

section
variable [F64] [PeerAdmission] [Sha256] [Planner] [Pairing] [ScopeCompiler]

namespace Store

variable {s t u : Store}

/-! ## Jobs that came to an end -/

/-- The jobs that came to an end stay so. -/
def KeepsEnds (s t : Store) : Prop :=
  ∀ row ∈ s.jobs, ∀ row' ∈ t.jobs, row'.plan.planId = row.plan.planId →
    row.plan.resolved = true → row'.plan.resolved = true

omit [F64] [PeerAdmission] [Sha256] [Planner] [Pairing] [ScopeCompiler] in
/-- Nothing is said of a journal where no job came to an end. -/
theorem KeepsEnds.of_unresolved (h : ∀ row ∈ s.jobs, row.plan.resolved = false) : s.KeepsEnds t := by
  intro row hrow _ _ _ hend
  rw [h row hrow] at hend
  cases hend

/-- No row is new. -/
theorem Intact.keepsEnds (hs : s.Intact) (h : t.jobs ⊆ s.jobs) : s.KeepsEnds t := by
  intro row hrow row' hrow' hid hend
  rw [hs.jobs.eq (h hrow') hrow hid]
  exact hend

/-- One row is replaced. -/
theorem Intact.keepsEnds_update (hs : s.Intact) {row : JobRow} (hrow : row ∈ s.jobs) {q : Plan}
    (hid : q.planId = row.plan.planId)
    (hjobs : t.jobs = Table.update (fun e => e.plan.planId == q.planId) (fun _ => ⟨q, q.reserve⟩) s.jobs)
    (hend : row.plan.resolved = true → q.resolved = true) : s.KeepsEnds t := by
  intro old hold new hnew hsame hended
  rw [hjobs] at hnew
  obtain ⟨e, he, rfl⟩ := Table.mem_update.mp hnew
  by_cases heq : (e.plan.planId == q.planId) = true
  · rw [if_pos heq] at hsame ⊢
    have hrow' : old = row := hs.jobs.eq hold hrow (hsame.symm.trans hid)
    exact hend (hrow' ▸ hended)
  · rw [if_neg heq] at hsame ⊢
    rw [hs.jobs.eq he hold hsame]
    exact hended

/-- An edit that does not reopen its job reopens none. -/
theorem editJob_keepsEnds (hs : s.Intact) {id event : String} {gate : Option (String × String)}
    {now saved : Nat} {f : Plan → Result (Option Plan)} (hf : KeepsRequest f)
    (hend : ∀ p q, f p = .ok (some q) → p.resolved = true → q.resolved = true)
    (h : s.editJob id event gate now saved f = .ok t) : s.KeepsEnds t := by
  obtain ⟨p, hread, rfl | ⟨q, q', hedit, hcommit, -, hupdate⟩⟩ := editJob_ok h
  · exact hs.keepsEnds (List.Subset.refl _)
  · simp only [Plan.commit, bind_ok, pure_ok] at hcommit
    obtain ⟨_, -, _, -, q'', hstamp, _, -, rfl⟩ := hcommit
    obtain ⟨-, history, rfl⟩ := Plan.stamp_ok hstamp
    simp only [readJob, bind_ok, context_ok, pure_ok] at hread
    obtain ⟨row, hfind, _, -, _, -, rfl⟩ := hread
    refine hs.keepsEnds_update (q := q.stamped saved history) (Table.find_some hfind).1
      (hf _ q hedit).1 ?_ fun hended => hend _ q hedit hended
    rw [updateJob_ok hupdate]

omit [F64] [PeerAdmission] [Sha256] [Planner] [Pairing] [ScopeCompiler] in
/-- The status of a job that came to an end. -/
theorem resolved_status {p : Plan} (h : p.resolved = true) :
    p.status = .completed ∨ p.status = .cancelled := by
  unfold Plan.resolved at h
  split at h
  · next hstatus => exact .inl hstatus
  · next hstatus => exact .inr hstatus
  · cases h

omit [F64] [PeerAdmission] [Sha256] [Planner] [Pairing] [ScopeCompiler] in
/-- It cannot be stopped. -/
theorem cancel_unresolved {runner : Bool} {now : Nat} {p q : Plan}
    (h : (do return some (← p.cancel runner now) : Result (Option Plan)) = .ok (some q)) :
    p.resolved ≠ true := by
  simp only [Plan.cancel, bind_ok, bailIf_ok, pure_ok] at h
  obtain ⟨_, ⟨_, -, _, hopen, -⟩, -⟩ := h
  intro hended
  rcases resolved_status hended with hstatus | hstatus
  · exact hopen (.inl hstatus)
  · exact hopen (.inr (.inr hstatus))

omit [Planner] [ScopeCompiler] in
/-- And no report of it is recorded. -/
theorem record_unresolved {grantId : String} {r : GrantReport} {p q : Plan}
    (h : p.record grantId r = .ok (some q)) : p.resolved ≠ true := by
  simp only [Plan.record, bind_ok, context_ok, ensure_ok, exists_const] at h
  obtain ⟨e, -, i, -, a, -, -, -, h⟩ := h
  split at h
  · cases h
  · simp only [bind_ok, ensure_ok, exists_const] at h
    obtain ⟨hlive, -⟩ := h
    intro hended
    rcases resolved_status hended with hstatus | hstatus
    · rw [hstatus] at hlive
      cases hlive
    · rw [hstatus] at hlive
      cases hlive

omit [Planner] [ScopeCompiler] in
/-- A report keeps the request of its job. -/
theorem record_keepsRequest (grantId : String) (r : GrantReport) :
    KeepsRequest fun p => p.record grantId r := by
  intro p q h
  simp only [Plan.record, bind_ok, context_ok, ensure_ok, exists_const] at h
  obtain ⟨e, -, i, -, a, -, -, -, h⟩ := h
  split at h
  · cases h
  · simp only [bind_ok, ensure_ok, exists_const] at h
    obtain ⟨-, h⟩ := h
    split at h
    · simp only [bind_ok, ensure_ok, exists_const, pure_ok, Option.some.injEq] at h
      obtain ⟨-, rfl⟩ := h
      exact ⟨rfl, rfl⟩
    · simp only [bind_ok, ensure_ok, exists_const, context_ok, pure_ok, Option.some.injEq] at h
      obtain ⟨-, j, -, rfl⟩ := h
      have hsettle : ∀ p : Plan, (p.settleReport r).planId = p.planId ∧
          (p.settleReport r).goal = p.goal := by
        intro p
        unfold Plan.settleReport Plan.settlePair
        repeat' split
        all_goals exact ⟨rfl, rfl⟩
      obtain ⟨hid, hgoal⟩ := hsettle (p.applyReport i j a.grant r)
      rw [hid, hgoal]
      exact ⟨rfl, rfl⟩

/-! ## Reservations -/

/-- What a reservation does: it finds the one that was made by this very command, or it approves an
unapproved job when the earlier runs of the definition came to an end. -/
theorem reserve_ok {c : Reserve} {runtime : String} {issuer : Option String} {now saved commit : Nat}
    {r : Reservation} {reused : Bool}
    (h : s.reserve c runtime issuer now saved commit = .ok (t, r, reused)) :
    c.validate = .ok () ∧ r.id = c.operationId ∧ r.command = c ∧
    ((reused = true ∧ t = s ∧ r ∈ s.occurrences) ∨
      (reused = false ∧ t.occurrences = s.occurrences ++ [r] ∧ t.archives = s.archives ∧
        (∀ o ∈ s.occurrences, o.delegation.definitionId = r.delegation.definitionId →
          s.resolvedOccurrence o = true) ∧
        ∃ p, s.readJob c.job = .ok p ∧ p.status = .awaitingApproval ∧
          r.approvedJob.planId = p.planId ∧
          t.jobs = Table.update (fun e => e.plan.planId == r.approvedJob.planId)
            (fun _ => ⟨r.approvedJob, r.approvedJob.reserve⟩) s.jobs)) := by
  simp only [reserve, bind_ok] at h
  obtain ⟨_, hvalid, _, -, _, -, h⟩ := h
  refine ⟨hvalid, ?_⟩
  cases hretained : s.occurrences.find? fun r => r.id = c.operationId with
  | some old =>
    simp only [hretained, bind_ok, ensure_ok, pure_ok] at h
    obtain ⟨_, hcommand, h⟩ := h
    cases h
    have hid := List.find?_some (p := fun r : Reservation => r.id = c.operationId) hretained
    exact ⟨of_decide_eq_true hid, hcommand, .inl ⟨rfl, rfl, List.mem_of_find?_eq_some hretained⟩⟩
  | none =>
    simp only [hretained, bind_ok, ensure_ok, each_ok, pure_ok] at h
    obtain ⟨issuer, -, _, -, a, -, definition, -, _, -, _, -, p, hread, _, hunapproved, _, -, _, -, _,
      hprevious, allowance, -, _, -, _, -, link, -, q, hstamp, _, -, _, -, u, hcommit, _, -, h⟩ := h
    cases h
    obtain ⟨-, history, rfl⟩ := Plan.stamp_ok hstamp
    simp only [commitReservation, bind_ok, pure_ok] at hcommit
    obtain ⟨v, hupdate, _, -, _, -, _, -, _, -, _, -, rfl⟩ := hcommit
    have hv := updateJob_ok hupdate
    subst hv
    refine ⟨rfl, rfl, .inr ⟨rfl, rfl, rfl, fun o ho hsame => ?_, p, hread, hunapproved.2.1, rfl, rfl⟩⟩
    obtain ⟨p', hplan, hresolved⟩ := hprevious o (List.mem_filter.mpr ⟨ho, decide_eq_true hsame⟩)
    unfold resolvedOccurrence
    rw [hplan]
    exact hresolved

/-- The job that is approved had not come to an end. -/
theorem reserve_keepsEnds (hs : s.Intact) {c : Reserve} {runtime : String} {issuer : Option String}
    {now saved commit : Nat} {r : Reservation × Bool}
    (h : s.reserve c runtime issuer now saved commit = .ok (t, r)) : s.KeepsEnds t := by
  obtain ⟨-, -, -, ⟨-, rfl, -⟩ | ⟨-, -, -, -, p, hread, hstatus, hid, hjobs⟩⟩ := reserve_ok h
  · exact hs.keepsEnds (List.Subset.refl _)
  · simp only [readJob, bind_ok, context_ok, pure_ok] at hread
    obtain ⟨row, hfind, _, -, _, -, rfl⟩ := hread
    refine hs.keepsEnds_update (Table.find_some hfind).1 hid hjobs fun hended => ?_
    rcases resolved_status hended with hended | hended
    · rw [hstatus] at hended
      cases hended
    · rw [hstatus] at hended
      cases hended

theorem archive_jobs {c : ArchiveCommand} {runtime : String} {now commit : Nat} {r : Archive × Bool}
    (h : s.archive c runtime now commit = .ok (t, r)) :
    t.jobs ⊆ s.jobs ∧ t.occurrences = s.occurrences := by
  simp only [archive, bind_ok] at h
  obtain ⟨_, -, _, -, _, -, h⟩ := h
  cases hretained : s.archives.find? fun a => a.id = c.operationId with
  | some old =>
    simp only [hretained, bind_ok, pure_ok] at h
    obtain ⟨_, -, _, -, h⟩ := h
    cases h
    exact ⟨List.Subset.refl _, rfl⟩
  | none =>
    simp only [hretained, bind_ok, pure_ok] at h
    obtain ⟨other, -, policy, -, _, -, _, -, r, -, p, -, _, -, _, -, u, hcommit, _, -, h⟩ := h
    cases h
    simp only [commitArchive, bind_ok, pure_ok] at hcommit
    obtain ⟨old, -, _, -, _, -, _, -, _, -, rfl⟩ := hcommit
    exact ⟨List.filter_subset_self _, rfl⟩

/-! ## Operations -/

/-- What is done with reserved runs. A job is stopped, or a report of it recorded, by an edit. The rest
of the commands of the journal, other edits among them, do not reopen a job that came to an end. -/
inductive Operation : Store → Store → Prop where
  | reserve {s t : Store} {r : Reservation × Bool} (c : Reserve) (runtime : String)
      (issuer : Option String) (now saved commit : Nat)
      (h : s.reserve c runtime issuer now saved commit = .ok (t, r)) : Operation s t
  | archive {s t : Store} {r : Archive × Bool} (c : ArchiveCommand) (runtime : String)
      (now commit : Nat) (h : s.archive c runtime now commit = .ok (t, r)) : Operation s t
  | cancel {s t : Store} (id : String) (runner : Bool) (now saved : Nat)
      (h : s.editJob id "Stop requested; completed actions are not undone" none now saved
        (fun p => do return some (← p.cancel runner now)) = .ok t) : Operation s t
  | record {s t : Store} (id grantId : String) (report : GrantReport) (now saved : Nat)
      (h : s.editJob id "Scoped node grant report durably saved" none now saved
        (fun p => p.record grantId report) = .ok t) : Operation s t
  | revoke {s t : Store} {r : Authorization × Bool} (c : Revoke) (runtime : String) (now : Nat)
      (h : s.revoke c runtime now = .ok (t, r)) : Operation s t
  | other {s t : Store} (h : Command s t) (hends : s.KeepsEnds t) : Operation s t

/-- An operation, after which the rows can still be counted. -/
structure Spends (s t : Store) : Prop where
  operation : Operation s t
  counted : t.authorizations.length ≤ u64Max

theorem Operation.command (h : Operation s t) : Command s t := by
  cases h with
  | reserve c runtime issuer now saved commit h => exact .reserve c runtime issuer now saved commit h
  | archive c runtime now commit h => exact .archive c runtime now commit h
  | cancel id runner now saved h => exact .edit _ _ _ _ _ _ (cancel_keepsRequest runner now) h
  | record id grantId report now saved h =>
    exact .edit _ _ _ _ _ _ (record_keepsRequest grantId report) h
  | revoke c runtime now h => exact .revoke c runtime now h
  | other h hends => exact h

/-- No operation reopens a job that came to an end. -/
theorem Operation.keepsEnds (h : Operation s t) (hs : s.Intact) : s.KeepsEnds t := by
  cases h with
  | reserve c runtime issuer now saved commit h => exact reserve_keepsEnds hs h
  | archive c runtime now commit h => exact hs.keepsEnds (archive_jobs h).1
  | cancel id runner now saved h =>
    exact editJob_keepsEnds hs (cancel_keepsRequest runner now)
      (fun p q hedit hended => absurd hended (cancel_unresolved hedit)) h
  | record id grantId report now saved h =>
    exact editJob_keepsEnds hs (record_keepsRequest grantId report)
      (fun p q hedit hended => absurd hended (record_unresolved hedit)) h
  | revoke c runtime now h =>
    refine hs.keepsEnds ?_
    rw [(revoke_governs hs h).rest]
    exact List.Subset.refl _
  | other h hends => exact hends

/-! ## One run at a time -/

/-- Of the runs of a definition one at most is unresolved. -/
def OneAtATime (s : Store) : Prop :=
  ∀ r ∈ s.occurrences, ∀ r' ∈ s.occurrences, r'.delegation.definitionId = r.delegation.definitionId →
    s.resolvedOccurrence r = false → s.resolvedOccurrence r' = false → r' = r

theorem retainedPlan_cases {r : Reservation} {p : Plan} (h : s.retainedPlan r = .ok p) :
    (∃ a, s.archived r = some a ∧ s.checkArchive a = .ok () ∧ a.terminalJob = p) ∨
    (s.archived r = none ∧ ∃ row ∈ s.jobs, row.plan.planId = r.approvedJob.planId ∧ row.plan = p) := by
  unfold retainedPlan at h
  cases hfind : s.archives.find? fun a => a.command.reservation = r.id with
  | some a =>
    simp only [hfind, bind_ok, pure_ok] at h
    obtain ⟨_, hcheck, rfl⟩ := h
    exact .inl ⟨a, hfind, hcheck, rfl⟩
  | none =>
    simp only [hfind, bind_ok, context_ok, pure_ok] at h
    obtain ⟨row, hrow, _, -, _, -, rfl⟩ := h
    obtain ⟨hmem, hid⟩ := Table.find_some hrow
    exact .inr ⟨hfind, row, hmem, hid, rfl⟩

/-- A run that is resolved stays resolved: its job stays as it came to an end, and is archived so. -/
theorem KeepsEnds.resolved (hends : s.KeepsEnds t) (hs : s.Intact) (ht : t.Intact) (hgrows : s.Grows t)
    {r : Reservation} (hr : r ∈ s.occurrences) (hresolved : s.resolvedOccurrence r = true) :
    t.resolvedOccurrence r = true := by
  obtain ⟨p, hp⟩ := hs.occurrences.plans r hr
  obtain ⟨q, hq⟩ := ht.occurrences.plans r (hgrows.reserved.subset hr)
  unfold resolvedOccurrence at hresolved ⊢
  rw [hp] at hresolved
  rw [hq]
  rcases retainedPlan_cases hq with ⟨a, -, hcheck, rfl⟩ | ⟨hnone, row', hrow', hid', rfl⟩
  · simp only [checkArchive, bind_ok, ensure_ok] at hcheck
    obtain ⟨_, -, _, -, _, -, _, ⟨-, -, -, hended⟩, -⟩ := hcheck
    exact hended
  · rcases retainedPlan_cases hp with ⟨a, hfind, -⟩ | ⟨-, row, hrow, hid, rfl⟩
    · -- an archive is never taken back
      obtain ⟨rest, hrest⟩ := hgrows.archived
      rw [archived, ← hrest, List.find?_append, show s.archives.find? _ = some a from hfind] at hnone
      cases hnone
    · exact hends row hrow row' hrow' (hid'.trans hid.symm) hresolved

theorem Arranges.occurrences (h : s.Arranges t) : t.occurrences = s.occurrences := by
  cases h with
  | keeps h => rw [h]
  | goes h htriggers hgoes hrefusal hrests => rw [h.rest]
  | claims h htriggers hclaims hfresh hrequest hhistory hresolved => rw [h.rest]
  | arms hunclaimed hchecked hfresh halone hresolved h => rw [h]

/-- A command makes no reservation, or one whose earlier runs came to an end. -/
theorem Command.occurrences (h : Command s t) (hs : s.Intact) :
    t.occurrences = s.occurrences ∨ ∃ r, t.occurrences = s.occurrences ++ [r] ∧
      ∀ o ∈ s.occurrences, o.delegation.definitionId = r.delegation.definitionId →
        s.resolvedOccurrence o = true := by
  cases h with
  | reserve c runtime issuer now saved commit h =>
    obtain ⟨-, -, -, ⟨-, rfl, -⟩ | ⟨-, hnew, -, hprevious, -⟩⟩ := reserve_ok h
    · exact .inl rfl
    · exact .inr ⟨_, hnew, hprevious⟩
  | archive c runtime now commit h => exact .inl (archive_jobs h).2
  | define c origin now h => exact .inl (by rw [(define_governs hs h).rest])
  | remove c origin h => exact .inl (by rw [(remove_governs hs h).rest])
  | approve c candidate runtime now h => exact .inl (by rw [(approve_governs hs h).rest])
  | revoke c runtime now h => exact .inl (by rw [(revoke_governs hs h).rest])
  | insert p now saved h => exact .inl (by rw [(insertJob_employs hs h).rest])
  | request p now saved h => exact .inl (by rw [(admitRequest_employs hs h).rest])
  | edit id event gate now saved f hf h => exact .inl (by rw [(editJob_employs hs hf h).rest])
  | removeFinished id h => exact .inl (by rw [(removeFinished_employs hs h).rest])
  | arm c runtime issuer now commit h => exact .inl (scheduleArm_arranges h).occurrences
  | claim id runtime issuer drawn now commit hfresh h =>
    exact .inl (scheduleClaimDue_arranges hfresh h).occurrences
  | stop id operation revision now h => exact .inl (scheduleStop_arranges h).occurrences
  | settle id runtime issuer now h => exact .inl (scheduleSettle_arranges h).occurrences
  | beginLaunch id runtime now commit hnow h => exact .inl (triggerBeginLaunch_arranges h).occurrences
  | recordRefusal id runtime now hnow h => exact .inl (triggerRecordRefusal_arranges h).occurrences
  | resolveRefusal id trigger hash operation revision now h =>
    exact .inl (resolveTriggerRefusal_arranges h).occurrences
  | interrupt id reason now h => exact .inl (scheduleInterruptNow_arranges h).occurrences
  | interruptTrigger id reason now h => exact .inl (triggerInterruptNow_arranges h).occurrences
  | reopen clock h =>
    exact .inl (Run.invariant (I := fun u => u.occurrences = s.occurrences)
      (fun _ _ hu h => h.occurrences.trans hu) rfl (interruptOnOpen_arranges hs h))
  | other h => exact .inl (by rw [h])

theorem OneAtATime.step (hone : s.OneAtATime) (hs : s.Sound) (h : Spends s t) : t.OneAtATime := by
  have hcommand := h.operation.command
  have ht := (hcommand.changes hs.intact).intact hs.intact
  have hgrows := (hcommand.changes hs.intact).grows hs.intact
  have hstays : ∀ o ∈ s.occurrences, t.resolvedOccurrence o = false → s.resolvedOccurrence o = false := by
    intro o ho hopen
    cases hresolved : s.resolvedOccurrence o with
    | false => rfl
    | true =>
      rw [(h.operation.keepsEnds hs.intact).resolved hs.intact ht hgrows ho hresolved] at hopen
      cases hopen
  rcases hcommand.occurrences hs.intact with hsame | ⟨r, hnew, hprevious⟩
  · intro o ho o' ho' hdefinition hopen hopen'
    rw [hsame] at ho ho'
    exact hone o ho o' ho' hdefinition (hstays o ho hopen) (hstays o' ho' hopen')
  · -- an earlier run of the definition that is reserved now came to an end
    have hearlier : ∀ o ∈ s.occurrences, o.delegation.definitionId = r.delegation.definitionId →
        t.resolvedOccurrence o ≠ false := by
      intro o ho hdefinition hopen
      have hresolved := hstays o ho hopen
      rw [hprevious o ho hdefinition] at hresolved
      cases hresolved
    intro o ho o' ho' hdefinition hopen hopen'
    rw [hnew, List.mem_append, List.mem_singleton] at ho ho'
    rcases ho with ho | rfl
    · rcases ho' with ho' | rfl
      · exact hone o ho o' ho' hdefinition (hstays o ho hopen) (hstays o' ho' hopen')
      · exact absurd hopen (hearlier o ho hdefinition.symm)
    · rcases ho' with ho' | rfl
      · exact absurd hopen' (hearlier o' ho' hdefinition)
      · rfl

/-! ## Runs -/

/-- What holds of a journal that only such operations wrote. -/
structure Spent.Kept (s : Store) : Prop where
  sound : s.Sound
  one : s.OneAtATime
  counted : s.authorizations.length ≤ u64Max

theorem Spends.turn (h : Spends s t) : Turn s t := ⟨h.operation.command, h.counted⟩

theorem Spent.Kept.step (hs : Spent.Kept s) (h : Spends s t) : Spent.Kept t :=
  ⟨h.turn.sound hs.sound, hs.one.step hs.sound h, h.counted⟩

theorem Spent.Kept.run (hs : Spent.Kept s) (h : Run Spends s t) : Spent.Kept t :=
  Run.invariant (fun _ _ hs h => hs.step h) hs h

theorem Spent.Kept.grows (hs : Spent.Kept s) (h : Run Spends s t) : s.Grows t :=
  hs.sound.grows (Relation.ReflTransGen.mono (fun _ _ h => Spends.turn h) s t h)

theorem fresh_kept (maxCount maxBytes : Nat) : Spent.Kept (fresh maxCount maxBytes) :=
  ⟨fresh_sound maxCount maxBytes, fun _ h => absurd h List.not_mem_nil, Nat.zero_le _⟩

/-- A reservation is found by the command that made it, and nothing changes. -/
theorem Intact.reserve_again (hs : s.Intact) {r : Reservation} (hr : r ∈ s.occurrences)
    (hvalid : r.command.validate = .ok ()) (hid : r.id = r.command.operationId) {runtime : String}
    (hruntime : validateUuid runtime = .ok ()) (issuer : Option String) (now saved commit : Nat) :
    s.reserve r.command runtime issuer now saved commit = .ok (s, r, true) := by
  have hfind : s.occurrences.find? (fun o => o.id = r.command.operationId) = some r := by
    rw [← hid]
    exact Table.find_of_mem hs.reservations hr
  unfold reserve
  refine bind_ok.mpr ⟨(), hvalid, bind_ok.mpr ⟨(), hruntime, bind_ok.mpr
    ⟨(), checkOccurrences_iff.mpr hs.occurrences, ?_⟩⟩⟩
  rw [hfind]
  exact bind_ok.mpr ⟨(), ensure_ok.mpr rfl, rfl⟩

/-- The journal after a reservation was asked for: a transaction that fails is rolled back. -/
def asked (s : Store) (c : Reserve) (runtime : String) (issuer : Option String)
    (now saved commit : Nat) : Store :=
  match s.reserve c runtime issuer now saved commit with
  | .ok (t, _) => t
  | .error _ => s

/-- **A budget is spent once, one run at a time.** Whatever reservations, archives, stops, reports and
revocations come in whatever order, the reservations of a policy are numbered 1, 2, ... within the
limits it was approved with, which it keeps; what it spent is never given back; of the runs of a
definition one at most is unresolved; no job is reserved twice. A reservation that fails changes
nothing, and one that was made is found by its own command ever after. -/
theorem budget_spent_once {maxCount maxBytes : Nat} (h : Run Spends (fresh maxCount maxBytes) s) :
    (∀ row ∈ s.authorizations,
      (s.group row.record.id).map (·.ordinal) = List.range' 1 (s.spent row.record.id).runs ∧
      (s.spent row.record.id).runs ≤ row.record.creation.maxRuns ∧
      (s.spent row.record.id).executionMs ≤ row.record.creation.maxReservedExecutionMs ∧
      (s.spent row.record.id).resultBytes ≤ row.record.creation.maxReservedResultBytes) ∧
    (∀ r ∈ s.occurrences, ∀ r' ∈ s.occurrences,
      r'.delegation.definitionId = r.delegation.definitionId → s.resolvedOccurrence r = false →
      s.resolvedOccurrence r' = false → r' = r) ∧
    (s.occurrences.map fun r => r.approvedJob.planId).Nodup ∧
    (∀ t, Run Spends s t → ∀ row ∈ s.authorizations, ∃ row' ∈ t.authorizations,
      row'.record.id = row.record.id ∧ row'.record.creation = row.record.creation ∧
      (s.spent row.record.id).runs ≤ (t.spent row.record.id).runs ∧
      (s.spent row.record.id).executionMs ≤ (t.spent row.record.id).executionMs ∧
      (s.spent row.record.id).resultBytes ≤ (t.spent row.record.id).resultBytes) ∧
    ∀ c runtime issuer now saved commit,
      (∀ e, s.reserve c runtime issuer now saved commit = .error e →
        s.asked c runtime issuer now saved commit = s) ∧
      ∀ t r reused, s.reserve c runtime issuer now saved commit = .ok (t, r, reused) →
        ∀ u, Run Spends t u → ∀ runtime' issuer' now' saved' commit',
          validateUuid runtime' = .ok () →
          u.reserve c runtime' issuer' now' saved' commit' = .ok (u, r, true) := by
  have hs := (fresh_kept maxCount maxBytes).run h
  refine ⟨fun row hrow => hs.sound.intact.budget hrow, hs.one, hs.sound.intact.reserved,
    fun t ht row hrow => ?_, fun c runtime issuer now saved commit => ⟨fun e he => ?_, ?_⟩⟩
  · have hgrows := hs.grows ht
    obtain ⟨row', hrow', hkept⟩ := hgrows.policies row hrow
    refine ⟨row', hrow', ?_, ?_, hgrows.spent row.record.id⟩
    · rw [hkept.same]
    · rw [hkept.same]
  · unfold asked
    rw [he]
  · intro t r reused hreserve u hu runtime' issuer' now' saved' commit' hruntime
    have hstep : Spends s t := by
      refine ⟨.reserve c runtime issuer now saved commit hreserve, ?_⟩
      rw [(reserve_settles hs.sound.intact hreserve).rest]
      exact hs.counted
    obtain ⟨hvalid, hid, rfl, hmade⟩ := reserve_ok hreserve
    have hr : r ∈ t.occurrences := by
      rcases hmade with ⟨-, rfl, hr⟩ | ⟨-, hnew, -⟩
      · exact hr
      · rw [hnew]
        exact List.mem_append_right _ (List.mem_singleton.mpr rfl)
    have ht := hs.step hstep
    exact (ht.run hu).sound.intact.reserve_again ((ht.grows hu).reserved.subset hr) hvalid hid hruntime
      issuer' now' saved' commit'

end Store

end

/-! ## A run that is cancelled -/

section
attribute [local instance] F64.bits PeerAdmission.never scheduleSha schedulePlanner Pairing.never
  ScopeCompiler.always

namespace Store

/-- While no job came to an end, none can be reopened. -/
theorem Turn.spends {s t : Store} (h : Turn s t) (hopen : ∀ row ∈ s.jobs, row.plan.resolved = false) :
    Spends s t := ⟨.other h.command (.of_unresolved hopen), h.counted⟩

/-- The journal with a reservation comes of such operations. -/
theorem reservedStore_run : Run Spends (fresh 16 (64 * maxRecordBytes)) (reservedStore reservedJob) := by
  have hrequested := requested_turn.sound (fresh_sound _ _)
  have hcompiled := (compiled_turn hrequested).sound hrequested
  have hincoming := repeated_requested.sound scheduleStore_written.sound
  have hrepeated := (repeated_compiled hincoming).sound hincoming
  -- none of the two jobs came to an end on the way
  have hsource : scheduleSource.resolved = false := rfl
  have hopened : (openedJob sampleGrant.jobId sampleGrant.requestContext.requestId 900).resolved = false :=
    rfl
  have hnone : Spends (fresh 16 (64 * maxRecordBytes)) requestedStore :=
    requested_turn.spends fun _ h => absurd h List.not_mem_nil
  have hcompile := (compiled_turn hrequested).spends (List.forall_mem_singleton.mpr hopened)
  have hdefine := (defined_turn hcompiled).spends (List.forall_mem_singleton.mpr hsource)
  have happrove := approved_turn.spends (List.forall_mem_singleton.mpr hsource)
  have hrequest := repeated_requested.spends (List.forall_mem_singleton.mpr hsource)
  have hrepeat := (repeated_compiled hincoming).spends fun row hrow => by
    rcases List.mem_pair.mp hrow with rfl | rfl
    · exact hsource
    · rfl
  have hreserve : Spends (repeatedStore repeatedSource) (reservedStore reservedJob) :=
    ⟨.reserve _ _ _ _ _ _ (repeated_reserved hrepeated), by decide⟩
  exact .head hnone (.head hcompile (.head hdefine (.head happrove (.head hrequest (.head hrepeat
    (.single hreserve))))))

/-- And its job is cancelled by one. -/
theorem cancelledStore_run : Run Spends (reservedStore reservedJob) (reservedStore cancelledJob) :=
  .single ⟨.cancel _ _ _ _ (reserved_edit reservedStore_written.sound), by decide⟩

end Store

/-- A run is reserved and its job cancelled: the job came to an end and the run stays spent, and the
command that reserved it finds it again, without an issuer and at any time. -/
theorem budget_spent_once_cancelled :
    cancelledJob.resolved = true ∧
    1 ≤ ((reservedStore cancelledJob).spent schedulePolicy.id).runs ∧
    ∀ now saved commit, (reservedStore cancelledJob).reserve reserveCommand schedulePolicy.runtimeId none
      now saved commit = .ok (reservedStore cancelledJob, sampleReservation, true) := by
  have hpolicy : ⟨schedulePolicy, 1024⟩ ∈ (reservedStore reservedJob).authorizations :=
    List.mem_singleton.mpr rfl
  obtain ⟨-, -, -, -, -, -, -, hruntime, -⟩ := schedule_documents
  obtain ⟨-, -, -, hspent, hasked⟩ := Store.budget_spent_once Store.reservedStore_run
  obtain ⟨_, -, -, -, hruns, -⟩ := hspent _ Store.cancelledStore_run _ hpolicy
  -- the command is found where it was reserved, so it is found after the stop
  have hagain : (reservedStore reservedJob).reserve reserveCommand schedulePolicy.runtimeId none 0 0 0 =
      .ok (reservedStore reservedJob, sampleReservation, true) :=
    Store.reservedStore_written.sound.intact.reserve_again (r := sampleReservation)
      (List.mem_singleton.mpr rfl) (by decide +kernel) rfl hruntime none 0 0 0
  refine ⟨rfl, ?_, fun now saved commit => (hasked _ _ _ _ _ _).2 _ _ _ hagain _
    Store.cancelledStore_run _ _ now saved commit hruntime⟩
  simpa only [Store.spent, Store.reservedStore_group, List.length_singleton] using hruns

end

end Eef.Coordinator
