import Eef.Lib.Dependency
import Eef.Coordinator.Quota

/-!
# Validation of a new job

`validate` of `jobs.rs`. A job without a review brings its tasks: each is fresh, has an identity of
its own, and the dependencies among them can be resolved. The source resolves them by passes until
all are resolved or a pass resolves nothing; `dependencyLoop_ok` says what that comes to.
-/

namespace Eef.Coordinator

open Eef.Lib Eef.Node

/-- The loop of `validate` over the dependencies. -/
def dependencyLoop (tasks : List Task) (resolved : Finset String) : Result Unit :=
  let next := Dependency.pass Task.taskId Task.dependencies tasks resolved
  if next.card = tasks.length then .ok ()
  else if resolved.card = next.card then
    .error "Job dependencies contain a cycle or missing task"
  else dependencyLoop tasks next
termination_by ((tasks.map Task.taskId).toFinset \ resolved).card
decreasing_by exact Dependency.left_lt ‹_›

/-- The tasks depend on each other without a cycle, and on no other. -/
def wellOrdered (tasks : List Task) : Prop :=
  Dependency.Closed Task.taskId Task.dependencies tasks
    ∧ Dependency.Acyclic Task.taskId Task.dependencies tasks

theorem wellOrdered.perm {tasks tasks' : List Task} (h : wellOrdered tasks)
    (hperm : tasks.Perm tasks') : wellOrdered tasks' :=
  ⟨h.1.perm hperm, h.2.perm hperm⟩

/-- The loop accepts the tasks exactly when their dependencies are resolvable. -/
theorem dependencyLoop_ok {tasks : List Task} (hids : (tasks.map Task.taskId).Nodup)
    (resolved : Finset String)
    (hresolved : Dependency.Resolved Task.taskId Task.dependencies tasks resolved) :
    dependencyLoop tasks resolved = .ok () ↔ wellOrdered tasks := by
  have hnext := hresolved.pass hids (fun t ht => ht)
  induction resolved using dependencyLoop.induct tasks with
  | case1 resolved next hall =>
    rw [dependencyLoop, if_pos hall]
    exact iff_of_true rfl (hnext.closed_acyclic ((hnext.card_eq_iff hids).mp hall))
  | case2 resolved next hall hstuck =>
    rw [dependencyLoop, if_neg hall, if_pos hstuck]
    refine iff_of_false nofun fun hordered => hall ((hnext.card_eq_iff hids).mpr ?_)
    -- the pass resolved nothing, so all was resolved before it
    have heq : resolved = next := Finset.eq_of_subset_of_card_le
      (Dependency.subset_pass tasks resolved) (Nat.le_of_eq hstuck.symm)
    rw [show Dependency.pass Task.taskId Task.dependencies tasks resolved = resolved from heq.symm]
    exact Dependency.Resolved.all_of_pass heq.symm hordered.1 hordered.2
  | case3 resolved next hall hmoved ih =>
    rw [dependencyLoop, if_neg hall, if_neg hmoved]
    exact ih hnext (hnext.pass hids (fun t ht => ht))

/-- A task that nothing has happened to. -/
def Task.isNew (t : Task) : Prop :=
  t.status = .pending ∧ t.result = none ∧ t.attempts = 0 ∧ t.assignments = []

instance (t : Task) : Decidable t.isNew := inferInstanceAs (Decidable (_ ∧ _))

/-- The bounds of a task, its identity apart. -/
def Task.bounded (t : Task) : Prop :=
  t.taskId ≠ "" ∧ t.taskId.utf8ByteSize ≤ 128 ∧ t.retryCount ≤ 10 ∧ t.timeoutMs ≠ 0
    ∧ t.timeoutMs ≤ 3600000 ∧ t.retryDelayMs ≤ 60000

instance (t : Task) : Decidable t.bounded := inferInstanceAs (Decidable (_ ∧ _))

namespace Plan

/-- The loop of `validate` over the tasks. -/
def validateTasks (p : Plan) : List String → List Task → Result Unit
  | _, [] => .ok ()
  | seen, t :: tasks => do
    ensure t.isNew "New tasks must have fresh pending state"
    ensure (t.bounded ∧ t.taskId ∉ seen) "Invalid task identity, retry count or timeout"
    ensure (t.requestContext = p.goal.requestContext) "Task origin must match its job"
    p.validateTasks (t.taskId :: seen) tasks

theorem validateTasks_ok {p : Plan} : ∀ {tasks : List Task} {seen : List String} {u : Unit},
    p.validateTasks seen tasks = .ok u ↔
      (∀ t ∈ tasks, t.isNew ∧ t.bounded ∧ t.requestContext = p.goal.requestContext)
        ∧ (∀ t ∈ tasks, t.taskId ∉ seen) ∧ (tasks.map Task.taskId).Nodup
  | [], _, _ => by simp [validateTasks]
  | t :: tasks, seen, _ => by
    simp only [validateTasks, bind_ok, ensure_ok, @validateTasks_ok p tasks, exists_const,
      List.map_cons, List.nodup_cons, List.mem_cons, not_or, forall_eq_or_imp]
    constructor
    · rintro ⟨hnew, ⟨hbounds, hseen⟩, horigin, hall, hrest, hnodup⟩
      refine ⟨⟨⟨hnew, hbounds, horigin⟩, hall⟩, ⟨hseen, fun u hu => (hrest u hu).2⟩, ?_, hnodup⟩
      intro hmem
      obtain ⟨u, hu, hid⟩ := List.mem_map.mp hmem
      exact (hrest u hu).1 hid
    · rintro ⟨⟨⟨hnew, hbounds, horigin⟩, hall⟩, ⟨hseen, hrest⟩, hid, hnodup⟩
      refine ⟨hnew, ⟨hbounds, hseen⟩, horigin, hall, fun u hu => ⟨fun he => hid ?_, hrest u hu⟩,
        hnodup⟩
      exact he ▸ List.mem_map_of_mem hu

section
variable [F64] [PeerAdmission] [Sha256] [Planner] [Pairing]

/-- `jobs::validate`; the draft's own check is part of `validateReview`. -/
def validate (p : Plan) : Result Unit := do
  p.validateReview
  ensure ((p.status = .pending ∨ p.status = .review) ∧ p.results = [] ∧ p.revision = 0
    ∧ p.history = []) "New jobs must have fresh pending state"
  match p.requestReview with
  | some draft => do
    ensure (p.status = .review ∧ p.planning = none ∧ p.tasks = [] ∧ draft.proposals.length = 1
      ∧ draft.answers = [] ∧ (p.goal.requestContext.any fun c => draft.proposals = [c.requestId]))
      "New review records must be fresh, origin-bound and non-executable"
    ensure (p.planId.utf8ByteSize = 32) "Invalid review identity"
    validateDraftId p.planId
  | none => do
    bailIf (p.status = .review) "Review record is missing its validated proposal"
    ensure (p.planId ≠ "" ∧ p.planId.utf8ByteSize ≤ 128 ∧ p.tasks ≠ [] ∧ p.tasks.length ≤ 128)
      "Jobs require an ID and between 1 and 128 tasks"
    p.validateTasks [] p.tasks
    dependencyLoop p.tasks ∅

/-- A new job without a review, before its tasks are looked at. -/
structure NewJob (p : Plan) : Prop where
  status : p.status = .pending
  untouched : p.results = [] ∧ p.revision = 0 ∧ p.history = []
  unplanned : p.requestReview = none ∧ p.planning = none ∧ p.approval = none ∧ p.execution = none
  id : p.planId ≠ "" ∧ p.planId.utf8ByteSize ≤ 128
  size : p.tasks ≠ [] ∧ p.tasks.length ≤ 128
  tasks : ∀ t ∈ p.tasks, t.isNew ∧ t.bounded ∧ t.requestContext = p.goal.requestContext

/-- A job without a review is valid exactly when it is new, and its tasks have identities of their
own and resolvable dependencies. -/
theorem validate_ok {p : Plan} (hreview : p.requestReview = none) :
    p.validate = .ok () ↔
      p.NewJob ∧ (p.tasks.map Task.taskId).Nodup ∧ wellOrdered p.tasks := by
  have hempty : Dependency.Resolved Task.taskId Task.dependencies p.tasks ∅ :=
    Dependency.Resolved.empty p.tasks
  unfold validate validateReview
  rw [hreview]
  simp only [bind_ok, ensure_ok, bailIf_ok, exists_const, validateTasks_ok, not_or]
  simp only [Option.not_isSome_iff_eq_none]
  constructor
  · rintro ⟨⟨-, hplanning, happroval, hexecution⟩, ⟨hstatus, huntouched⟩, hnot,
      ⟨hid, hlength, hsize⟩, ⟨htasks, -, hids⟩, hloop⟩
    exact ⟨⟨hstatus.resolve_right hnot, huntouched, ⟨hreview, hplanning, happroval, hexecution⟩,
      ⟨hid, hlength⟩, hsize, htasks⟩, hids, (dependencyLoop_ok hids ∅ hempty).mp hloop⟩
  · rintro ⟨h, hids, hordered⟩
    refine ⟨⟨?_, h.unplanned.2⟩, ⟨.inl h.status, h.untouched⟩, ?_, ⟨h.id.1, h.id.2, h.size⟩,
      ⟨h.tasks, fun _ _ => List.not_mem_nil, hids⟩, (dependencyLoop_ok hids ∅ hempty).mpr hordered⟩
    · rw [h.status]
      decide
    · rw [h.status]
      decide

end

end Plan

end Eef.Coordinator
