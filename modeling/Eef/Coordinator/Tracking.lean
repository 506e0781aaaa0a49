import Eef.Coordinator.Review
import Eef.Lib.Run

/-!
# The life of a reviewed plan

A plan with its runner and the wall clock (`Tracked`), moved by start, issuance, reports,
stops, the runner's exit, recovery and abandonment in any order (`Move`). `Inv` says that
the stored plan passes `validateReview` and that a plan which runs has its runner, unless
its revisions ran out and nothing can be saved any more;
`Eef.Coordinator.Reviewed` shows that every step keeps it.

`Outcome` is what a move makes of such a plan. `Inv.outcome` reduces it, for a plan that
executes by grants, to the execution the closure leaves.
-/

namespace Eef.Coordinator

open Eef.Lib Eef.Node

/-- One thing that can happen to a reviewed plan. -/
inductive Move where
  | start (c : ExecuteCommand) (now : Nat)
  | issue (grantId session : String) (now : Nat)
  | record (grantId : String) (r : GrantReport)
  | cancel (now : Nat)
  | interrupt
  | recover (c : RecoverCommand) (origin : Option String) (closing : Bool)
      (evidence : RetainedResult) (now : Nat)
  | abandon (c : AbandonCommand) (origin : Option String) (closing : Bool) (now : Nat)

namespace Move

/-- The text a move enters in the history. -/
def event : Move → String
  | start .. => "Owner-approved execution requested; grants require a separate durable checkpoint"
  | issue .. => "Exact execution grant saved before dispatch"
  | record .. => "Scoped node grant report durably saved"
  | cancel .. => "Stop requested; completed actions are not undone"
  | interrupt => "Execution interrupted; review before resuming"
  | recover .. =>
    "Explicit retained-completion reconciliation; no replay or remaining-step dispatch"
  | abandon .. => ("Explicit tracking abandonment; remote effects remain unknown; "
      ++ "no stop or retry authorized")

/-- Whether a runner is registered after a move that was saved. -/
def runnerAfter : Move → Bool → Bool
  | start .., _ => true
  | interrupt, _ => false
  | _, runner => runner

/-- Whether the move reconciles an attempt from retained evidence. -/
def recovering : Move → Bool
  | recover .. => true
  | _ => false

/-- The clock reading a move takes before it is saved. -/
def reading : Move → Option Nat
  | start _ now | issue _ _ now | cancel now | recover _ _ _ _ now | abandon _ _ _ now => some now
  | record .. | interrupt => none

end Move

/-- The statuses a plan ends in. -/
def PlanStatus.terminal (s : PlanStatus) : Bool :=
  s == .completed || s == .failed || s == .cancelled || s == .abandoned

/-- The moves the state of an attempt makes. -/
inductive AttemptMove (recovering : Bool) : AttemptState → AttemptState → Prop
  | stay (s : AttemptState) : AttemptMove recovering s s
  | accept : AttemptMove recovering .issued .accepted
  | reject : AttemptMove recovering .issued .rejected
  | lose : AttemptMove recovering .issued .unknown
  | complete : AttemptMove recovering .accepted .completed
  | loseAccepted : AttemptMove recovering .accepted .unknown
  | recover (h : recovering = true) : AttemptMove recovering .unknown .completed

/-- A stored plan, whether a runner is registered for it, and the latest clock reading. -/
structure Tracked where
  plan : Plan
  runner : Bool
  clock : Nat

section
variable [F64] [PeerAdmission] [Sha256] [Pairing]

namespace Tracked

/-- The closure of a move. -/
def closure (s : Tracked) : Move → Result (Option Plan)
  | .start c now => do
    bailIf s.runner "Job is already running"
    let q ← s.plan.start c now
    return some q
  | .issue grantId session now => do
    let q ← s.plan.issueNext grantId session now
    return some q
  | .record grantId r => s.plan.record grantId r
  | .cancel now => do
    let q ← s.plan.cancel s.runner now
    return some q
  | .interrupt => if s.plan.status.active then .ok (some s.plan.interrupt) else .ok none
  | .recover c origin closing evidence now =>
    s.plan.recover c origin (closing || s.runner) evidence now
  | .abandon c origin closing now => s.plan.abandon c origin (closing || s.runner) now

variable [Planner]

/-- The state after a move that is saved at `saved`. -/
def run (s : Tracked) (m : Move) (saved : Nat) : Tracked :=
  -- a runner that exits is gone, saved or not; one that starts is registered once saved
  let left : Tracked :=
    { s with clock := saved, runner := s.runner && m.runnerAfter s.runner }
  match s.closure m with
  | .ok (some q) =>
    match s.plan.commit q m.event saved with
    | .ok q => ⟨q, m.runnerAfter s.runner, saved⟩
    | .error _ => left
  | _ => left

/-- The clock does not go back, and stays within what the journal stores. -/
def Timed (s : Tracked) (m : Move) (saved : Nat) : Prop :=
  s.clock ≤ saved ∧ saved ≤ i64Max ∧ ∀ now ∈ m.reading, s.clock ≤ now ∧ now ≤ saved

/-- The identity of a new grant is new to the plan. -/
def Fresh (s : Tracked) : Move → Prop
  | .issue grantId _ _ => s.plan.operationUsed grantId = false
  | _ => True

/-- A start names an operation of its own, and no stop is asked of an issued workload. -/
def Admissible (s : Tracked) : Move → Prop
  | .start c _ => s.plan.operationUsed c.operationId = false
  | .cancel _ => s.plan.workloadOf = none
  | _ => True

/-- A step of the system. -/
def Step (s s' : Tracked) : Prop :=
  ∃ m saved, s.Timed m saved ∧ s.Fresh m ∧ s' = s.run m saved

/-- What holds of every tracked plan. -/
structure Inv (s : Tracked) : Prop where
  retained : s.plan.validateReview = .ok ()
  reviewed : s.plan.requestReview.isSome = true
  unpaired : s.plan.pairDefinition = .ok false
  running : s.plan.revision < u64Max → s.plan.status.active = true → s.runner = true
  executing : s.runner = true → s.plan.execution.isSome = true
  uncertain : s.runner = true → s.plan.status = .interrupted →
    ∃ a ∈ s.plan.attempts, a.state = .unknown
  updated : s.plan.updatedAtMs ≤ s.clock
  started : ∀ e ∈ s.plan.execution, e.startedAtMs ≤ s.clock
  storable : s.clock ≤ i64Max

/-- An unpaired reviewed plan as a coordinator finds it: stored, and run by nobody. -/
structure Initial (s : Tracked) : Prop where
  retained : s.plan.validateReview = .ok ()
  reviewed : s.plan.requestReview.isSome = true
  unpaired : s.plan.pairDefinition = .ok false
  idle : s.runner = false ∧ s.plan.status.active = false
  updated : s.plan.updatedAtMs ≤ s.clock
  started : ∀ e ∈ s.plan.execution, e.startedAtMs ≤ s.clock
  storable : s.clock ≤ i64Max

theorem Initial.inv {s : Tracked} (h : s.Initial) : s.Inv := by
  obtain ⟨h1, h2, h3, ⟨h4, h5⟩, h6, h7, h8⟩ := h
  refine ⟨h1, h2, h3, ?_, ?_, ?_, h6, h7, h8⟩
  · intro _ ha
    rw [h5] at ha
    cases ha
  · intro hr
    rw [h4] at hr
    cases hr
  · intro hr
    rw [h4] at hr
    cases hr

/-- What a closure leaves, when it is saved at `saved`. -/
structure Outcome (s : Tracked) (m : Move) (q : Plan) (saved : Nat) : Prop where
  saves : s.plan.revision < u64Max → s.Admissible m → Plan.preserveStop s.plan q = .ok ()
    ∧ Plan.preserveWorkload s.plan q = .ok ()
    ∧ ∀ hist, (q.stamped saved hist).validateReview = .ok ()
  definition : q.definition = s.plan.definition
  revision : q.revision = s.plan.revision
  running : s.plan.revision < u64Max → q.status.active = true → m.runnerAfter s.runner = true
  executing : m.runnerAfter s.runner = true → q.execution.isSome = true
  uncertain : m.runnerAfter s.runner = true → q.status = .interrupted →
    ∃ a ∈ q.attempts, a.state = .unknown
  started : ∀ e ∈ q.execution, e.startedAtMs ≤ saved
  kept : s.plan.attempts.map (·.grant) <+: q.attempts.map (·.grant)
  issued : s.plan.attempts.length < q.attempts.length → ∀ a ∈ s.plan.attempts, a.succeeded
  states : ∀ (i : Nat) a a', s.plan.attempts[i]? = some a → q.attempts[i]? = some a' →
    AttemptMove m.recovering a.state a'.state
  unfinished : s.plan.status.terminal = false

variable {s : Tracked}

/-- The execution of a tracked plan, by grants. -/
theorem Inv.executed (h : s.Inv) {e : ExecutionRecord} (he : s.plan.execution = some e)
    (hw : e.workload = none) :
    ∃ ap pl dr, s.plan.approval = some ap ∧ s.plan.planning = some pl
      ∧ s.plan.requestReview = some dr ∧ (s.plan.tasks.map (·.taskId)).Nodup
      ∧ s.plan.Executed e ap pl dr false := by
  obtain ⟨ap, pl, dr, paired, hap, hpl, hdr, hids, hx⟩ :=
    Plan.executed_of_review h.retained h.reviewed he hw
  have hfalse : paired = false := by
    have := (Plan.pairDefinition_of_validatePair hx.pair).symm.trans h.unpaired
    cases this
    rfl
  subst hfalse
  exact ⟨ap, pl, dr, hap, hpl, hdr, hids, hx⟩

/-- A plan with an attempt is no workload. -/
theorem Inv.workload_none (h : s.Inv) {e : ExecutionRecord} (he : s.plan.execution = some e)
    {a : GrantedAttempt} (ha : a ∈ e.attempts) : e.workload = none := by
  by_contra hne
  obtain ⟨w, hw⟩ := Option.ne_none_iff_exists'.1 hne
  obtain ⟨_, _, _, -, -, -, -, -, -, -, hfixed, -⟩ :=
    (Plan.validateWorkload_ok he hw).1 (Plan.workload_of_review h.retained h.reviewed he hw)
  rw [hfixed.1] at ha
  cases ha

/-- What has to be shown of a closure on a plan that executes by grants. -/
theorem Inv.outcome (h : s.Inv) {m : Move} {q : Plan} {saved : Nat} {e e' : ExecutionRecord}
    {ap : ApprovalRecord} {pl : PlanningRecord} {dr : DraftRecord}
    (he : s.plan.execution = some e) (hw : e.workload = none) (hap : s.plan.approval = some ap)
    (hpl : s.plan.planning = some pl) (hdr : s.plan.requestReview = some dr)
    (hids : (s.plan.tasks.map (·.taskId)).Nodup) (hx : s.plan.Executed e ap pl dr false)
    (hexec : q.execution = some e')
    (hq : ∀ hist, (q.stamped saved hist).Executed e' ap pl dr false)
    (hdef : q.definition = s.plan.definition) (hapq : q.approval = s.plan.approval)
    (hrev : q.revision = s.plan.revision) (hworkload : e'.workload = none)
    (hstart : e'.startedAtMs = e.startedAtMs)
    (hstop : ∀ t ∈ e.stopRequestedAtMs, e'.stopRequestedAtMs = some t)
    (hdeliveries : q.deliveries = s.plan.deliveries) (hsaved : s.clock ≤ saved)
    (hrunning : s.plan.revision < u64Max → q.status.active = true →
      m.runnerAfter s.runner = true)
    (huncertain : m.runnerAfter s.runner = true → q.status = .interrupted →
      ∃ a ∈ e'.attempts, a.state = .unknown)
    (hkept : e.attempts.map (·.grant) <+: e'.attempts.map (·.grant))
    (hissued : e.attempts.length < e'.attempts.length → ∀ a ∈ e.attempts, a.succeeded)
    (hstates : ∀ (i : Nat) a a', e.attempts[i]? = some a → e'.attempts[i]? = some a' →
      AttemptMove m.recovering a.state a'.state)
    (hunfinished : s.plan.status.terminal = false) : s.Outcome m q saved := by
  have hp : s.plan.attempts = e.attempts := by simp [Plan.attempts, he]
  have hq' : q.attempts = e'.attempts := by simp [Plan.attempts, hexec]
  refine ⟨fun _ _ => Plan.saves_of_execution h.retained he hw hap hpl hdr hids hx hexec hq hdef hapq
    hrev hworkload hstop hdeliveries, hdef, hrev, hrunning, fun _ => by rw [hexec]; rfl, ?_,
    ?_, by rw [hp, hq']; exact hkept, by rw [hp, hq']; exact hissued,
    by rw [hp, hq']; exact hstates, hunfinished⟩
  · rw [hq']
    exact huncertain
  · intro x hxe
    rw [hexec] at hxe
    cases hxe
    have := h.started e he
    omega

/-- What has to be shown of a closure that changes one attempt. -/
theorem Inv.outcome_modify (h : s.Inv) {m : Move} {saved : Nat} {e : ExecutionRecord}
    {ap : ApprovalRecord} {pl : PlanningRecord} {dr : DraftRecord}
    (he : s.plan.execution = some e) (hw : e.workload = none) (hap : s.plan.approval = some ap)
    (hpl : s.plan.planning = some pl) (hdr : s.plan.requestReview = some dr)
    (hids : (s.plan.tasks.map (·.taskId)).Nodup) (hx : s.plan.Executed e ap pl dr false)
    {i : Nat} {a : GrantedAttempt} (ha : e.attempts[i]? = some a)
    {F : GrantedAttempt → GrantedAttempt} (hgrant : ∀ a, (F a).grant = a.grant)
    (hstop : ∀ a, (F a).stop = a.stop) {e' : ExecutionRecord}
    (he' : e' = { e with attempts := e.attempts.modify i F }) {ts : List Task}
    {rs : List (String × TaskResult)} {st : PlanStatus} {q : Plan}
    (hq : q = { s.plan with execution := some e', tasks := ts, results := rs, status := st })
    (hx' : ∀ hist, (q.stamped saved hist).Executed e' ap pl dr false)
    (hts : ts.map Task.fresh = s.plan.tasks.map Task.fresh) (hsaved : s.clock ≤ saved)
    (hrunning : s.plan.revision < u64Max → st.active = true → m.runnerAfter s.runner = true)
    (huncertain : m.runnerAfter s.runner = true → st = .interrupted → (F a).state = .unknown)
    (hmove : AttemptMove m.recovering a.state (F a).state)
    (hunfinished : s.plan.status.terminal = false) : s.Outcome m q saved := by
  subst he' hq
  refine h.outcome he hw hap hpl hdr hids hx rfl hx' (by simp only [Plan.definition]; rw [hts]) rfl
    rfl hw rfl (fun _ => id) ?_ hsaved hrunning (fun hr hst => ?_) ?_ (by simp) ?_ hunfinished
  · simp only [Plan.deliveries, Plan.attempts, he, Option.map_some, Option.getD_some]
    exact filterMap_modify_of_eq _ _ _ fun b => by rw [hgrant, hstop]
  · refine ⟨F a, List.mem_of_getElem? (i := i) ?_, huncertain hr hst⟩
    rw [List.getElem?_modify, ha]
    simp
  · simp only [map_modify_of_eq GrantedAttempt.grant e.attempts i hgrant, List.prefix_rfl]
  · intro j b b' hb hb'
    rw [List.getElem?_modify, hb] at hb'
    by_cases hij : i = j
    · subst hij
      cases ha.symm.trans hb
      have hb' : F a = b' := by simpa using hb'
      rw [← hb']
      exact hmove
    · have hb' : b = b' := by simpa [hij] using hb'
      rw [← hb']
      exact .stay _

end Tracked

end

end Eef.Coordinator
