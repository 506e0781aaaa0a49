import Eef.Coordinator.Review
import Eef.Lib.Run

/-!
# The engine's runners and the stored jobs

`TaskEngine` keeps a set of running jobs beside the journal. A job becomes active only by
`claim`, which saves the start and registers the runner under one lock, and by a stop that
finds a runner; `ActiveJob::drop` retires the runner under the same lock, after it has
interrupted what is still active. `Inv` says that every stored job is valid and that an
active one has its runner. `drop` keeps it because an interruption is never refused
(`Plan.interrupt_saves`), and everything else because no other edit makes a job active.

`Reservations` is what `automation_occurrences::validate_job` compares a job with.
-/

namespace Eef.Coordinator

open Eef.Lib Eef.Node

/-! ## What the closures keep -/

namespace Plan

section
variable [F64] [PeerAdmission] [Sha256] [Pairing] {p q : Plan}

omit [F64] [PeerAdmission] [Sha256] [Pairing] in
theorem start_kept {c : ExecuteCommand} {now : Nat} (h : p.start c now = .ok q) :
    q.requestReview = p.requestReview := by
  simp only [start, bind_ok, pure_ok] at h
  obtain ⟨_, -, _, -, _, -, _, -, rfl⟩ := h
  rfl

omit [Sha256] in
theorem issueNext_kept {grantId session : String} {now : Nat}
    (h : p.issueNext grantId session now = .ok q) :
    q.requestReview = p.requestReview ∧ q.status = p.status := by
  simp only [issueNext, issue, bind_ok, pure_ok] at h
  obtain ⟨g, -, _, -, _, -, _, -, _, -, _, -, _, -, rfl⟩ := h
  exact ⟨rfl, rfl⟩

theorem issuePair_kept {g₁ g₂ : ExecutionGrant} {issuance : Json}
    (h : p.issuePair g₁ g₂ issuance = .ok q) :
    q.requestReview = p.requestReview ∧ q.status = p.status := by
  simp only [issuePair, bind_ok, pure_ok] at h
  obtain ⟨_, -, _, -, _, -, rfl⟩ := h
  exact ⟨rfl, rfl⟩

/-- A report is recorded only while the plan runs. -/
theorem record_kept {grantId : String} {r : GrantReport}
    (h : p.record grantId r = .ok (some q)) :
    q.requestReview = p.requestReview ∧ p.status.live = true := by
  simp only [record, bind_ok, context_ok, ensure_ok, exists_const] at h
  obtain ⟨e, he, i, -, a, ha, -, -, h⟩ := h
  split at h
  · cases h
  · simp only [bind_ok, ensure_ok, exists_const] at h
    obtain ⟨hlive, h⟩ := h
    refine ⟨?_, hlive⟩
    split at h
    · simp only [bind_ok, ensure_ok, exists_const, pure_ok, Option.some.injEq] at h
      obtain ⟨-, rfl⟩ := h
      rfl
    · simp only [bind_ok, ensure_ok, exists_const, context_ok, pure_ok, Option.some.injEq] at h
      obtain ⟨-, j, -, rfl⟩ := h
      have hsettle : ∀ p : Plan, (p.settleReport r).requestReview = p.requestReview := by
        intro p
        unfold settleReport settlePair
        repeat' split
        all_goals rfl
      rw [hsettle]
      rfl

omit [F64] [PeerAdmission] [Sha256] [Pairing] in
theorem deliverStop_kept {g : ExecutionGrant} {now : Nat}
    (h : p.deliverStop g now = .ok (some q)) :
    q.requestReview = p.requestReview ∧ q.status = p.status := by
  simp only [deliverStop, bind_ok] at h
  obtain ⟨e, -, h⟩ := h
  split at h
  · cases h
  · simp only [bind_ok] at h
    obtain ⟨_, -, _, -, _, -, h⟩ := h
    split at h
    · cases h
    · cases h
      exact ⟨rfl, rfl⟩

omit [Pairing] in
theorem confirmStop_kept {g : ExecutionGrant} {r : StopReport}
    (h : p.confirmStop g r = .ok (some q)) :
    q.requestReview = p.requestReview ∧ q.status = p.status := by
  simp only [confirmStop, bind_ok] at h
  obtain ⟨_, -, _, -, _, -, _, -, _, -, h⟩ := h
  split at h
  · simp only [bind_ok, pure_ok, reduceCtorEq, and_false, exists_false] at h
  · cases h
    exact ⟨rfl, rfl⟩

omit [F64] [PeerAdmission] [Sha256] [Pairing] in
theorem cancel_kept {runner : Bool} {now : Nat} (h : p.cancel runner now = .ok q) :
    q.requestReview = p.requestReview ∧ (q.status.active = true → runner = true) := by
  simp only [cancel, bind_ok, pure_ok] at h
  obtain ⟨_, -, _, -, rfl⟩ := h
  cases runner
  · exact ⟨rfl, fun hact => by cases hact⟩
  · exact ⟨rfl, fun _ => rfl⟩

theorem recover_kept {c : RecoverCommand} {origin : Option String} {unavailable : Bool}
    {evidence : RetainedResult} {now : Nat}
    (h : p.recover c origin unavailable evidence now = .ok (some q)) :
    q.requestReview = p.requestReview ∧ q.status.active = false := by
  simp only [recover, bind_ok] at h
  obtain ⟨reused, -, h⟩ := h
  split at h
  · cases h
  · simp only [bind_ok, pure_ok, Option.some.injEq] at h
    obtain ⟨a, -, _, -, _, -, report, -, rfl⟩ := h
    obtain ⟨status, c, -, hsettle, hcase⟩ := settleRecovery_cases
      (p := p.applyRecovery (p.attempts.length - 1) a.grant _ report) report.success
    rw [hsettle]
    refine ⟨rfl, ?_⟩
    rcases hcase with ⟨-, rfl, -⟩ | ⟨-, -, rfl, -⟩ | ⟨-, -, rfl, -⟩ <;> rfl

theorem abandon_kept {c : AbandonCommand} {origin : Option String} {unavailable : Bool} {now : Nat}
    (h : p.abandon c origin unavailable now = .ok (some q)) :
    q.requestReview = p.requestReview ∧ q.status.active = false := by
  simp only [abandon, bind_ok] at h
  obtain ⟨_, -, _, -, _, -, _, -, h⟩ := h
  split at h
  · simp only [bind_ok, pure_ok, reduceCtorEq, and_false, exists_false] at h
  · simp only [bind_ok, pure_ok, Option.some.injEq] at h
    obtain ⟨_, -, rfl⟩ := h
    exact ⟨rfl, rfl⟩

end

end Plan

/-! ## The engine -/

/-- The retained occurrences, as `automation_occurrences::validate_job` reads them: a live
job keeps the definition and the approval it was reserved with, at a later revision. -/
class Reservations where
  validateJob : PlanDefinition → Option ApprovalRecord → Nat → Result Unit
  later : ∀ {d a n m}, n ≤ m → validateJob d a n = .ok () → validateJob d a m = .ok ()

/-- The stored jobs, the jobs with a runner, and whether admission is closed. -/
structure Engine where
  jobs : List (String × Plan)
  active : List String
  closing : Bool

/-- One step of the engine or of a driver. -/
inductive Event where
  | claim (c : ExecuteCommand) (fenced : Bool) (now : Nat)
  | issue (id grantId session : String) (fenced : Bool) (now : Nat)
  | issuePair (id : String) (g₁ g₂ : ExecutionGrant) (issuance : Json) (fenced : Bool)
  | record (id grantId : String) (r : GrantReport)
  | deliver (id : String) (g : ExecutionGrant) (now : Nat)
  | confirm (id : String) (g : ExecutionGrant) (r : StopReport)
  | cancel (id : String) (now : Nat)
  | settle (id : String)
  | recover (c : RecoverCommand) (origin : Option String) (evidence : RetainedResult) (now : Nat)
  | abandon (c : AbandonCommand) (origin : Option String) (now : Nat)
  | shutdown
  | drop (id : String)

section
variable [F64] [PeerAdmission] [Sha256] [Pairing] [Planner] [Reservations]

/-- `read`, and what an edit checks again before it writes. -/
def Plan.validateStored (p : Plan) : Result Unit := do
  p.validateReview
  Reservations.validateJob p.definition p.approval p.revision

namespace Engine

/-- `JobStore::edit` under a fence that may refuse. -/
def edit (s : Engine) (id event : String) (fenced : Bool) (saved : Nat)
    (f : Plan → Result (Option Plan)) : Result Engine := do
  let p ← context (s.jobs.lookup id) "Job not found"
  p.validateStored
  bailIf (fenced = true) "Delegated occurrence policy is not current"
  match ← f p with
  | none => return s
  | some q =>
    let q ← p.commit q event saved
    Reservations.validateJob q.definition q.approval q.revision
    return { s with jobs := Assoc.set id q s.jobs }

/-- `TaskEngine::claim` with the start of `execute_reviewed`. -/
def claim (s : Engine) (c : ExecuteCommand) (fenced : Bool) (now saved : Nat) : Result Engine := do
  bailIf (s.closing = true) "Coordinator is stopping; no new job execution is accepted"
  bailIf (c.id ∈ s.active) "Job is already running"
  let s ← s.edit c.id
    "Owner-approved execution requested; grants require a separate durable checkpoint" fenced saved
    fun p => return some (← p.start c now)
  return { s with active := c.id :: s.active }

/-- `JobStore::interrupt`. -/
def interrupt (s : Engine) (id : String) (saved : Nat) : Result Engine :=
  s.edit id "Execution interrupted; review before resuming" false saved fun p =>
    if p.status.active then .ok (some p.interrupt) else .ok none

/-- `ActiveJob::drop`: a failed checkpoint is logged, and the runner is gone. -/
def drop (s : Engine) (id : String) (saved : Nat) : Engine :=
  let s' := match s.interrupt id saved with
    | .ok s' => s'
    | .error _ => s
  { s' with active := s'.active.filter (· ≠ id) }

/-- A step; what fails leaves the engine as it is. -/
def step (s : Engine) (saved : Nat) : Event → Result Engine
  | .claim c fenced now => s.claim c fenced now saved
  | .issue id grantId session fenced now =>
    s.edit id "Exact execution grant saved before dispatch" fenced saved fun p =>
      return some (← p.issueNext grantId session now)
  | .issuePair id g₁ g₂ issuance fenced =>
    s.edit id "Both peer grants and sealed delivery saved atomically before either dispatch" fenced
      saved fun p => return some (← p.issuePair g₁ g₂ issuance)
  | .record id grantId r =>
    s.edit id "Scoped node grant report durably saved" false saved fun p => p.record grantId r
  | .deliver id g now =>
    s.edit id "Exact stop delivery saved before one network attempt" false saved fun p =>
      p.deliverStop g now
  | .confirm id g r =>
    s.edit id "Exact durable node stop intent acknowledged; effects remain unknown" false saved
      fun p => p.confirmStop g r
  | .cancel id now =>
    s.edit id "Stop requested; completed actions are not undone" false saved fun p =>
      return some (← p.cancel (s.active.contains id) now)
  | .settle id =>
    s.edit id "Stop settled before further grant issuance" false saved fun p =>
      .ok (some p.settleStop)
  | .recover c origin evidence now =>
    s.edit c.id "Explicit retained-completion reconciliation; no replay or remaining-step dispatch"
      false saved fun p =>
        p.recover c origin (s.closing || s.active.contains c.id) evidence now
  | .abandon c origin now =>
    s.edit c.id ("Explicit tracking abandonment; remote effects remain unknown; "
      ++ "no stop or retry authorized") false saved fun p =>
        p.abandon c origin (s.closing || s.active.contains c.id) now
  | .shutdown => .ok { s with closing := true }
  | .drop id => .ok (if id ∈ s.active then s.drop id saved else s)

/-- The engine after a step. -/
def run (s : Engine) (saved : Nat) (event : Event) : Engine :=
  match s.step saved event with
  | .ok s' => s'
  | .error _ => s

/-- No revision counter has run out: the journal can save another edit of every job. -/
def Writable (s : Engine) : Prop := ∀ id p, s.jobs.lookup id = some p → p.revision < u64Max

/-- A step of the system, at any clock reading. -/
def Step (s s' : Engine) : Prop := s.Writable ∧ ∃ saved event, s' = s.run saved event

/-- What holds of every engine. -/
structure Inv (s : Engine) : Prop where
  stored : ∀ id p, s.jobs.lookup id = some p → p.validateStored = .ok ()
  reviewed : ∀ id p, s.jobs.lookup id = some p → p.requestReview.isSome = true
  running : ∀ id p, s.jobs.lookup id = some p → p.status.active = true → id ∈ s.active

/-- A coordinator that has opened its journal of reviewed jobs: nothing runs. -/
structure Initial (s : Engine) : Prop where
  stored : ∀ id p, s.jobs.lookup id = some p → p.validateStored = .ok ()
  reviewed : ∀ id p, s.jobs.lookup id = some p → p.requestReview.isSome = true
  idle : ∀ id p, s.jobs.lookup id = some p → p.status.active = false
  active : s.active = []

theorem Initial.inv {s : Engine} (h : s.Initial) : s.Inv := by
  refine ⟨h.stored, h.reviewed, fun id p hp hact => ?_⟩
  rw [h.idle id p hp] at hact
  cases hact

variable {s s' : Engine} {id event : String} {fenced : Bool} {saved : Nat}
  {f : Plan → Result (Option Plan)}

/-! ## Edits -/

/-- What a successful edit did. -/
theorem edit_ok (h : s.edit id event fenced saved f = .ok s') :
    s' = s ∨ ∃ p q hist, s.jobs.lookup id = some p ∧ f p = .ok (some q)
      ∧ (q.stamped saved hist).validateStored = .ok ()
      ∧ s' = { s with jobs := Assoc.set id (q.stamped saved hist) s.jobs } := by
  simp only [edit, bind_ok, context_ok, bailIf_ok, exists_const] at h
  obtain ⟨p, hp, _, -, -, o, ho, h⟩ := h
  cases o with
  | none =>
    simp only [pure_ok] at h
    exact Or.inl h.symm
  | some q =>
    simp only [bind_ok, pure_ok] at h
    obtain ⟨q', hcommit, _, hjob, rfl⟩ := h
    simp only [Plan.commit, bind_ok, pure_ok] at hcommit
    obtain ⟨_, -, _, -, q1, hstamp, _, hvalid, rfl⟩ := hcommit
    obtain ⟨-, hist, rfl⟩ := Plan.stamp_ok hstamp
    refine Or.inr ⟨p, q, hist, hp, ho, ?_, rfl⟩
    simp only [Plan.validateStored, hvalid, ok_bind]
    exact hjob

/-- An edit keeps the invariant when it makes no job active but one with a runner. -/
theorem edit_inv (h : s.Inv) (hs : s.edit id event fenced saved f = .ok s') {A : List String}
    (hsub : ∀ j ∈ s.active, j ∈ A)
    (hf : ∀ p q, s.jobs.lookup id = some p → f p = .ok (some q) →
      q.requestReview = p.requestReview ∧ (q.status.active = true → p.status.active = true ∨ id ∈ A)) :
    Inv { s' with active := A } := by
  rcases edit_ok hs with rfl | ⟨p, q, hist, hp, hq, hstored, rfl⟩
  · exact ⟨h.stored, h.reviewed, fun j p hp hact => hsub j (h.running j p hp hact)⟩
  · obtain ⟨hreview, hactive⟩ := hf p q hp hq
    refine ⟨fun j r hr => ?_, fun j r hr => ?_, fun j r hr hact => ?_⟩
    · rw [Assoc.lookup_set] at hr
      split at hr
      · cases hr
        exact hstored
      · exact h.stored j r hr
    · rw [Assoc.lookup_set] at hr
      split at hr
      · cases hr
        exact (congrArg Option.isSome hreview).trans (h.reviewed id p hp)
      · exact h.reviewed j r hr
    · rw [Assoc.lookup_set] at hr
      split at hr
      · rename_i hj
        cases hr
        rw [hj]
        exact (hactive hact).elim (fun hold => hsub id (h.running id p hp hold)) fun hin => hin
      · exact hsub j (h.running j r hr hact)

/-- An edit goes through when what its closure leaves can be saved. -/
theorem edit_saves {p q : Plan} (hp : s.jobs.lookup id = some p) (hstored : p.validateStored = .ok ())
    (hf : f p = .ok (some q)) (hstop : Plan.preserveStop p q = .ok ())
    (hwork : Plan.preserveWorkload p q = .ok ())
    (hvalid : ∀ hist, (q.stamped saved hist).validateReview = .ok ())
    (hdef : q.definition = p.definition) (happroval : q.approval = p.approval)
    (hrev : q.revision = p.revision) (hlt : p.revision < u64Max) :
    ∃ hist, s.edit id event false saved f
        = .ok { s with jobs := Assoc.set id (q.stamped saved hist) s.jobs }
      ∧ (q.stamped saved hist).validateStored = .ok () := by
  have hjob := hstored
  simp only [Plan.validateStored, bind_ok] at hjob
  obtain ⟨_, -, hjob⟩ := hjob
  obtain ⟨hist, hstamp⟩ := Plan.stamp_eq (p := q) (by rw [hrev]; exact hlt) event saved
  have hcommit : p.commit q event saved = .ok (q.stamped saved hist) := by
    simp only [Plan.commit, hstop, hwork, hstamp, ok_bind, hvalid hist]
    rfl
  have hjob' : Reservations.validateJob (q.stamped saved hist).definition
      (q.stamped saved hist).approval (q.stamped saved hist).revision = .ok () := by
    have hd : (q.stamped saved hist).definition = p.definition := hdef
    have ha : (q.stamped saved hist).approval = p.approval := happroval
    have hle : p.revision ≤ (q.stamped saved hist).revision := by
      show p.revision ≤ q.revision + 1
      omega
    rw [hd, ha]
    exact Reservations.later hle hjob
  refine ⟨hist, ?_, ?_⟩
  · simp only [edit, hp, context, ok_bind, hstored, bailIf, Bool.false_eq_true, if_false, hf, hcommit,
      hjob']
    rfl
  · simp only [Plan.validateStored, hvalid hist, ok_bind]
    exact hjob'

/-! ## The runner's exit -/

/-- Interrupting a stored job never fails while its revisions last, and leaves it idle. -/
theorem interrupt_ok (h : s.Inv) (hwrite : s.Writable) {p : Plan}
    (hp : s.jobs.lookup id = some p) (saved : Nat) :
    ∃ s' p', s.interrupt id saved = .ok s' ∧ s'.active = s.active ∧ p'.status.active = false
      ∧ p'.validateStored = .ok () ∧ p'.requestReview.isSome = true
      ∧ ∀ j, s'.jobs.lookup j = if j = id then some p' else s.jobs.lookup j := by
  have hstored := h.stored id p hp
  have hreviewed := h.reviewed id p hp
  have hvalid := hstored
  simp only [Plan.validateStored, bind_ok] at hvalid
  obtain ⟨_, hvalid, -⟩ := hvalid
  by_cases hactive : p.status.active = true
  · obtain ⟨h1, h2, h3⟩ := Plan.interrupt_saves hvalid hreviewed hactive saved
    have hrev : p.interrupt.revision = p.revision := by
      unfold Plan.interrupt
      repeat' split
      all_goals rfl
    have happroval : p.interrupt.approval = p.approval := by
      unfold Plan.interrupt
      repeat' split
      all_goals rfl
    have hidle : p.interrupt.status.active = false := by
      rw [Plan.interrupt, if_pos hactive]
      split <;> rfl
    obtain ⟨hist, hedit, hstored'⟩ : ∃ hist, s.interrupt id saved
        = .ok { s with jobs := Assoc.set id (p.interrupt.stamped saved hist) s.jobs }
        ∧ (p.interrupt.stamped saved hist).validateStored = .ok () :=
      edit_saves (f := fun p => if p.status.active then .ok (some p.interrupt) else .ok none) hp
        hstored (if_pos hactive) h1 h2 h3 p.definition_interrupt happroval hrev (hwrite id p hp)
    refine ⟨_, p.interrupt.stamped saved hist, hedit, rfl, hidle, hstored', ?_,
      fun j => Assoc.lookup_set _ _ _ _⟩
    obtain ⟨-, -, -, hreview⟩ := Plan.planning_of_definition p.definition_interrupt
    exact (congrArg Option.isSome hreview).trans hreviewed
  · refine ⟨s, p, ?_, rfl, by simpa using hactive, hstored, hreviewed, fun j => ?_⟩
    · simp only [interrupt, edit, hp, context, ok_bind, hstored, bailIf, Bool.false_eq_true, if_false,
        hactive]
      rfl
    · split
      · rename_i hj
        rw [hj, hp]
      · rfl

theorem drop_inv (h : s.Inv) (hwrite : s.Writable) (id : String) (saved : Nat) :
    (s.drop id saved).Inv := by
  cases hp : s.jobs.lookup id with
  | none =>
    -- nothing is stored under the id, so no job loses its runner
    have herr : s.interrupt id saved = .error "Job not found" := by
      simp only [interrupt, edit, hp, context, error_bind]
    rw [drop, herr]
    refine ⟨h.stored, h.reviewed, fun j p hj hact => ?_⟩
    refine List.mem_filter.2 ⟨h.running j p hj hact, ?_⟩
    by_cases hjd : j = id
    · rw [hjd, hp] at hj
      cases hj
    · simpa using hjd
  | some p =>
    obtain ⟨s', p', hs', hactive, hidle, hstored, hreviewed, hlookup⟩ := interrupt_ok h hwrite hp saved
    rw [drop, hs']
    refine ⟨fun j r hr => ?_, fun j r hr => ?_, fun j r hr hact => ?_⟩
    · rw [hlookup] at hr
      split at hr
      · cases hr
        exact hstored
      · exact h.stored j r hr
    · rw [hlookup] at hr
      split at hr
      · cases hr
        exact hreviewed
      · exact h.reviewed j r hr
    · rw [hlookup] at hr
      split at hr
      · cases hr
        rw [hidle] at hact
        cases hact
      · rename_i hj
        refine List.mem_filter.2 ⟨?_, by simpa using hj⟩
        rw [hactive]
        exact h.running j r hr hact

/-! ## Steps and runs -/

/-- A closure that leaves the status alone. -/
theorem edit_inv_kept (h : s.Inv) (hs : s.edit id event fenced saved f = .ok s')
    (hf : ∀ p q, f p = .ok (some q) → q.requestReview = p.requestReview
      ∧ (q.status.active = true → p.status.active = true)) : s'.Inv := by
  have hact : s'.active = s.active := by
    rcases edit_ok hs with rfl | ⟨p, q, hist, -, -, -, rfl⟩ <;> rfl
  have hinv := edit_inv h hs (fun _ hj => hj) fun p q _ hq =>
    ⟨(hf p q hq).1, fun ha => Or.inl ((hf p q hq).2 ha)⟩
  rw [← hact] at hinv
  exact hinv

theorem claim_inv {c : ExecuteCommand} {now : Nat} (h : s.Inv)
    (hs : s.claim c fenced now saved = .ok s') : s'.Inv := by
  simp only [claim, bind_ok, pure_ok] at hs
  obtain ⟨_, -, _, -, s1, hedit, rfl⟩ := hs
  have hact : s1.active = s.active := by
    rcases edit_ok hedit with rfl | ⟨p, q, hist, -, -, -, rfl⟩ <;> rfl
  refine edit_inv h hedit (fun j hj => List.mem_cons_of_mem _ (hact ▸ hj)) fun p q _ hq => ?_
  simp only [bind_ok, pure_ok, Option.some.injEq] at hq
  obtain ⟨q', hq, rfl⟩ := hq
  exact ⟨Plan.start_kept hq, fun _ => Or.inr (List.mem_cons_self ..)⟩

theorem cancel_inv {now : Nat} (h : s.Inv) (hs : s.step saved (.cancel id now) = .ok s') :
    s'.Inv := by
  have hact : s'.active = s.active := by
    rcases edit_ok hs with rfl | ⟨p, q, hist, -, -, -, rfl⟩ <;> rfl
  have hinv := edit_inv h hs (fun _ hj => hj) fun p q _ hq => ?_
  · rw [← hact] at hinv
    exact hinv
  · simp only [bind_ok, pure_ok, Option.some.injEq] at hq
    obtain ⟨q', hq, rfl⟩ := hq
    obtain ⟨hreview, hrunner⟩ := Plan.cancel_kept hq
    exact ⟨hreview, fun ha => Or.inr (by simpa using hrunner ha)⟩

theorem step_inv {event : Event} (h : s.Inv) (hwrite : s.Writable)
    (hs : s.step saved event = .ok s') : s'.Inv := by
  cases event with
  | claim c fenced now => exact claim_inv h hs
  | issue id grantId session fenced now =>
    refine edit_inv_kept h hs fun p q hq => ?_
    simp only [bind_ok, pure_ok, Option.some.injEq] at hq
    obtain ⟨q', hq, rfl⟩ := hq
    obtain ⟨hreview, hstatus⟩ := Plan.issueNext_kept hq
    exact ⟨hreview, fun ha => hstatus ▸ ha⟩
  | issuePair id g₁ g₂ issuance fenced =>
    refine edit_inv_kept h hs fun p q hq => ?_
    simp only [bind_ok, pure_ok, Option.some.injEq] at hq
    obtain ⟨q', hq, rfl⟩ := hq
    obtain ⟨hreview, hstatus⟩ := Plan.issuePair_kept hq
    exact ⟨hreview, fun ha => hstatus ▸ ha⟩
  | record id grantId r =>
    refine edit_inv_kept h hs fun p q hq => ?_
    obtain ⟨hreview, hlive⟩ := Plan.record_kept hq
    exact ⟨hreview, fun _ => PlanStatus.active_of_live hlive⟩
  | deliver id g now =>
    refine edit_inv_kept h hs fun p q hq => ?_
    obtain ⟨hreview, hstatus⟩ := Plan.deliverStop_kept hq
    exact ⟨hreview, fun ha => hstatus ▸ ha⟩
  | confirm id g r =>
    refine edit_inv_kept h hs fun p q hq => ?_
    obtain ⟨hreview, hstatus⟩ := Plan.confirmStop_kept hq
    exact ⟨hreview, fun ha => hstatus ▸ ha⟩
  | cancel id now => exact cancel_inv h hs
  | settle id =>
    refine edit_inv_kept h hs fun p q hq => ?_
    cases hq
    exact ⟨rfl, fun ha => by cases ha⟩
  | recover c origin evidence now =>
    refine edit_inv_kept h hs fun p q hq => ?_
    obtain ⟨hreview, hidle⟩ := Plan.recover_kept hq
    exact ⟨hreview, fun ha => absurd (hidle.symm.trans ha) (by simp)⟩
  | abandon c origin now =>
    refine edit_inv_kept h hs fun p q hq => ?_
    obtain ⟨hreview, hidle⟩ := Plan.abandon_kept hq
    exact ⟨hreview, fun ha => absurd (hidle.symm.trans ha) (by simp)⟩
  | shutdown =>
    cases hs
    exact ⟨h.stored, h.reviewed, h.running⟩
  | drop id =>
    simp only [step, Except.ok.injEq] at hs
    split at hs
    · rw [← hs]
      exact drop_inv h hwrite id saved
    · rw [← hs]
      exact h

theorem run_inv (h : s.Inv) (hs : s.Step s') : s'.Inv := by
  obtain ⟨hwrite, saved, event, rfl⟩ := hs
  unfold run
  split
  · rename_i hstep
    exact step_inv h hwrite hstep
  · exact h

/-- No edit removes a job. -/
theorem edit_stored (hs : s.edit id event fenced saved f = .ok s') {j : String}
    (hj : (s.jobs.lookup j).isSome = true) : (s'.jobs.lookup j).isSome = true := by
  rcases edit_ok hs with rfl | ⟨p, q, hist, -, -, -, rfl⟩
  · exact hj
  · rw [Assoc.lookup_set]
    split
    · rfl
    · exact hj

theorem step_stored {event : Event} (hs : s.step saved event = .ok s') {j : String}
    (hj : (s.jobs.lookup j).isSome = true) : (s'.jobs.lookup j).isSome = true := by
  cases event with
  | claim c fenced now =>
    simp only [step, claim, bind_ok, pure_ok] at hs
    obtain ⟨_, -, _, -, s1, hedit, rfl⟩ := hs
    exact edit_stored hedit hj
  | shutdown =>
    cases hs
    exact hj
  | drop id =>
    simp only [step, Except.ok.injEq] at hs
    split at hs
    · rw [← hs, drop]
      cases hi : s.interrupt id saved with
      | ok s1 => exact edit_stored hi hj
      | error _ => exact hj
    · rw [← hs]
      exact hj
  | _ => exact edit_stored hs hj

theorem run_stored {s s' : Engine} (hrun : Run Step s s') {j : String}
    (hj : (s.jobs.lookup j).isSome = true) : (s'.jobs.lookup j).isSome = true := by
  have hstep : ∀ a b : Engine, (a.jobs.lookup j).isSome = true → a.Step b →
      (b.jobs.lookup j).isSome = true := by
    rintro a b ha ⟨-, saved, event, rfl⟩
    unfold run
    split
    · rename_i hs
      exact step_stored hs ha
    · exact ha
  exact Run.invariant hstep hj hrun

/-- Without a runner no stored job is pending, running, pausing or stopping, whatever the
order of the steps; so a stop that found a runner is settled once the runner is gone. -/
theorem no_orphaned_job {s₀ s : Engine} (h₀ : s₀.Initial) (hrun : Run Step s₀ s) :
    (∀ id p, s.jobs.lookup id = some p → id ∉ s.active → p.status.active = false)
      ∧ ∀ id now saved s₁ s', id ∈ s.active → s.Writable →
        s.step saved (.cancel id now) = .ok s₁ → Run Step s₁ s' → id ∉ s'.active →
        ∃ p, s'.jobs.lookup id = some p ∧ p.status ≠ .running ∧ p.status ≠ .stopping := by
  have hstep : ∀ a b : Engine, a.Inv → a.Step b → b.Inv := fun _ _ => run_inv
  have hidle : ∀ {s : Engine}, s.Inv → ∀ id p, s.jobs.lookup id = some p → id ∉ s.active →
      p.status.active = false := by
    intro s h id p hp hid
    by_contra hact
    exact hid (h.running id p hp (by simpa using hact))
  have h : s.Inv := Run.invariant hstep h₀.inv hrun
  refine ⟨hidle h, fun id now saved s₁ s' _ hwrite hcancel hrun' hid => ?_⟩
  have h₁ : s₁.Inv := step_inv h hwrite hcancel
  have h' : s'.Inv := Run.invariant hstep h₁ hrun'
  have hjob : (s.jobs.lookup id).isSome = true := by
    have hc := hcancel
    simp only [step, edit, bind_ok, context_ok] at hc
    obtain ⟨p, hp, -⟩ := hc
    rw [hp]
    rfl
  obtain ⟨p, hp⟩ := Option.isSome_iff_exists.1 (run_stored hrun' (step_stored hcancel hjob))
  have hdone := hidle h' id p hp hid
  refine ⟨p, hp, fun hs => ?_, fun hs => ?_⟩ <;>
  · rw [hs] at hdone
    cases hdone

end Engine

end

/-- A journal without occurrences. -/
@[reducible]
def Reservations.empty : Reservations where
  validateJob _ ap _ :=
    ensure (∀ a ∈ ap, a.delegation = none) "Delegated job has no durable reservation"
  later _ h := h

section
attribute [local instance] F64.bits PeerAdmission.never approvalSha samplePlanner Pairing.never
  Reservations.empty

namespace Engine

/-- A coordinator with the approved sample. -/
def sample : Engine := ⟨[(samplePlan.planId, samplePlan)], [], false⟩

theorem sample_lookup {id : String} {p : Plan} (h : sample.jobs.lookup id = some p) :
    p = samplePlan := by
  have := Assoc.mem_of_lookup h
  simp only [sample, List.mem_singleton, Prod.mk.injEq] at this
  exact this.2

theorem sample_initial : sample.Initial := by
  refine ⟨fun id p hp => ?_, fun id p hp => ?_, fun id p hp => ?_, rfl⟩
  · rw [sample_lookup hp, Plan.validateStored, samplePlan_valid]
    decide
  · rw [sample_lookup hp]
    rfl
  · rw [sample_lookup hp]
    rfl

/-- The sample while it runs, while it is stopping, and once its runner is gone. -/
def claimed : Engine := sample.run 1500 (.claim sampleExecute false 1500)

@[inherit_doc claimed]
def stopping : Engine := claimed.run 1600 (.cancel samplePlan.planId 1600)

@[inherit_doc claimed]
def retired : Engine := stopping.run 1700 (.drop samplePlan.planId)

/-- The sample is claimed, and its stop finds the runner. -/
theorem sample_stopping : claimed.active = [samplePlan.planId]
    ∧ (∀ e ∈ claimed.jobs, e.2.revision < u64Max)
    ∧ (∀ e ∈ stopping.jobs, e.2.revision < u64Max)
    ∧ isOk (claimed.step 1600 (.cancel samplePlan.planId 1600)) = true := by
  decide +kernel

theorem writable_of_jobs {s : Engine} (h : ∀ e ∈ s.jobs, e.2.revision < u64Max) : s.Writable :=
  fun _ _ hp => h _ (Assoc.mem_of_lookup hp)

theorem run_ok {s s' : Engine} {saved : Nat} {event : Event} (h : s.step saved event = .ok s') :
    s.run saved event = s' := by
  unfold run
  rw [h]

theorem drop_retires (s : Engine) (id : String) (saved : Nat) :
    id ∉ (s.run saved (.drop id)).active := by
  simp only [run, step]
  by_cases hid : id ∈ s.active
  · rw [if_pos hid]
    simp [drop]
  · rwa [if_neg hid]

theorem no_orphaned_job_claimed :
    (∀ id p, stopping.jobs.lookup id = some p → id ∉ stopping.active → p.status.active = false)
    ∧ samplePlan.planId ∉ retired.active
    ∧ ∃ p, retired.jobs.lookup samplePlan.planId = some p ∧ p.status ≠ .running
      ∧ p.status ≠ .stopping := by
  obtain ⟨hactive, hclaimed, hstopping, hcancel⟩ := sample_stopping
  obtain ⟨s₁, hs₁⟩ := isOk_iff.mp hcancel
  have heq : stopping = s₁ := run_ok hs₁
  have hwrite : sample.Writable := writable_of_jobs (by decide)
  have hrun : Run Step sample claimed := .single ⟨hwrite, 1500, _, rfl⟩
  have hstop : Step claimed stopping := ⟨writable_of_jobs hclaimed, 1600, _, rfl⟩
  have hdrop : Step stopping retired := ⟨writable_of_jobs hstopping, 1700, _, rfl⟩
  have hgone : samplePlan.planId ∉ retired.active := drop_retires stopping samplePlan.planId 1700
  refine ⟨(no_orphaned_job sample_initial (hrun.tail hstop)).1, hgone, ?_⟩
  refine (no_orphaned_job sample_initial hrun).2 samplePlan.planId 1600 1600 s₁ retired ?_
    (writable_of_jobs hclaimed) hs₁ (.single (heq ▸ hdrop)) hgone
  rw [hactive]
  exact List.mem_singleton_self _

end Engine

end

end Eef.Coordinator
