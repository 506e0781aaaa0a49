import Eef.Node.ModelControl
import Eef.Node.ModelLifecycle

/-!
# Lifecycle operations run at most once

`Change` says what a step does to the receipts, to the identities that are on their way to the
worker, and to what the worker has in hand. Two facts carry everything: an identity is queued
once, when its receipt is made (`Books.once`), and the receipt of the operation in hand is
running, to be cancelled, or was interrupted (`Books.hand`), so that what the worker writes at
the end never touches a receipt that is final.
-/

namespace Eef.Node.ModelLifecycle

open Eef.Lib
open Eef.Node.ModelServer (Server)

variable {drawn : String → Prop} {ids : List String} {rt t : ModelRuntime} {id : String}

/-! ## Receipts -/

/-- What holds of every receipt under its identity. -/
structure Receipt.Sound (id : String) (r : Receipt) : Prop where
  selected : r.command.selected = some id
  operates : r.command.operates
  valid : r.command.validate = .ok ()
  error : r.errorCode.isSome ↔ r.phase = .failed ∨ r.phase = .interrupted
  short : ∀ e, r.errorCode = some e → e.utf8ByteSize ≤ 64
  preparation : r.preparation.isSome ↔ r.command.prepares ∧ r.phase = .completed
  observed : ∀ p model digest operationId, r.preparation = some p →
    r.command = .prepareOllama model digest operationId →
    p.providerReportedDigest = digest ∧ p.observedContextTokens ≠ some 0
  shared : r.sharedServiceEffectsPossible = r.command.prepares

/-- What a record may become: its command stays, a cancellation stays requested, and a receipt
that is final stays as it is. -/
structure Operation.Later (op op' : Operation) : Prop where
  command : op'.receipt.command = op.receipt.command
  cancel : op.cancel → op'.cancel
  final : op.receipt.phase.live = false → op'.receipt = op.receipt

theorem Operation.Later.refl (op : Operation) : op.Later op := ⟨rfl, id, fun _ => rfl⟩

theorem Operation.Later.trans {a b c : Operation} (h : a.Later b) (h' : b.Later c) :
    a.Later c := by
  refine ⟨h'.command.trans h.command, fun hc => h'.cancel (h.cancel hc), fun hf => ?_⟩
  have hb := h.final hf
  exact (h'.final (by rw [hb]; exact hf)).trans hb

theorem Receipt.Sound.quiet {r : Receipt} (h : r.Sound id) (hlive : r.phase.live) :
    r.errorCode = none ∧ r.preparation = none := by
  constructor
  · cases he : r.errorCode with
    | none => rfl
    | some e =>
      have := h.error.1 (by rw [he]; rfl)
      rcases this with hp | hp <;> simp [hp, Phase.live] at hlive
  · cases hp : r.preparation with
    | none => rfl
    | some p =>
      have := (h.preparation.1 (by rw [hp]; rfl)).2
      simp [this, Phase.live] at hlive

theorem Operation.sound_admitted {command : LifecycleCommand} {remote : Bool}
    (hsel : command.selected = some id) (hop : command.operates)
    (hvalid : command.validate = .ok ()) : (Operation.admitted command remote).receipt.Sound id := by
  refine ⟨hsel, hop, hvalid, ?_, nofun, ?_, nofun, rfl⟩
  · simp [Operation.admitted]
  · simp [Operation.admitted]

/-- A receipt between two live phases. -/
theorem Receipt.Sound.phase {r : Receipt} (h : r.Sound id) (hlive : r.phase.live) {p : Phase}
    (hp : p.live) : ({ r with phase := p } : Receipt).Sound id := by
  obtain ⟨he, hprep⟩ := h.quiet hlive
  refine ⟨h.selected, h.operates, h.valid, ?_, h.short, ?_, h.observed, h.shared⟩
  · rw [he]
    cases p <;> simp_all [Phase.live]
  · rw [hprep]
    cases p <;> simp_all [Phase.live]

theorem Operation.sound_interrupt {op : Operation} (h : op.receipt.Sound id) :
    op.interrupt.receipt.Sound id := by
  unfold Operation.interrupt
  split
  · rename_i hlive
    obtain ⟨-, hprep⟩ := h.quiet hlive
    refine ⟨h.selected, h.operates, h.valid, by simp, ?_, ?_, h.observed, h.shared⟩
    · intro e he
      cases Option.some.inj he
      decide
    · simp [hprep]
  · exact h

theorem Operation.later_interrupt (op : Operation) : op.Later op.interrupt := by
  unfold Operation.interrupt
  split
  · rename_i hlive
    exact ⟨rfl, fun _ => rfl, fun hf => by rw [hlive] at hf; cases hf⟩
  · exact .refl op

/-! ## What the worker has -/

/-- The identity that the worker has received and not yet begun. -/
def Worker.holds : Worker → List String
  | .popped id | .cleared id | .taken id _ => [id]
  | _ => []

/-- The operation that the worker has taken and not yet written the end of. -/
def Worker.hands : Worker → Option (String × LifecycleCommand)
  | .taken id command | .running id command | .over id command .. | .released id command .. =>
    some (id, command)
  | _ => none

/-- How the operation in hand has ended. -/
def Worker.outcome : Worker → Option (LifecycleCommand × Bool ×
    Result (Option OllamaPreparationObservation))
  | .over _ command cancelled outcome | .released _ command cancelled outcome =>
    some (command, cancelled, outcome)
  | _ => none

/-- A cancelled operation yields nothing, any other what its command yields. -/
def Ended (command : LifecycleCommand) (cancelled : Bool)
    (outcome : Result (Option OllamaPreparationObservation)) : Prop :=
  (cancelled = true ∧ outcome = .ok none) ∨
    (cancelled = false ∧ ∃ answer, outcome = command.outcome answer)

/-- The receipt of an operation in hand. -/
def Phase.inHand : Phase → Bool
  | .running | .cancelRequested | .interrupted => true
  | _ => false

theorem Phase.live_of_inHand {p : Phase} (h : p.inHand) (hne : p ≠ .interrupted) : p.live := by
  cases p <;> simp_all [Phase.inHand, Phase.live]

/-- What `settle` leaves alone, and what it makes of a receipt that close has not reached. -/
theorem Operation.later_settle {op : Operation} {command : LifecycleCommand} {cancelled : Bool}
    {outcome : Result (Option OllamaPreparationObservation)} (hhand : op.receipt.phase.inHand) :
    op.Later (op.settle command cancelled outcome) := by
  unfold Operation.settle
  split
  · exact .refl op
  · rename_i hne
    have hlive := Phase.live_of_inHand hhand hne
    have hno : ¬op.receipt.phase.live = false := by simp [hlive]
    cases outcome with
    | ok preparation => exact ⟨rfl, fun hc => hc, fun hf => absurd hf hno⟩
    | error msg => exact ⟨rfl, fun hc => hc, fun hf => absurd hf hno⟩

theorem LifecycleCommand.outcome_prepares {c : LifecycleCommand} {answer : Result (Option Nat)}
    {p : Option OllamaPreparationObservation} (h : c.outcome answer = .ok p) :
    (p.isSome ↔ c.prepares) ∧ ∀ q model digest operationId, p = some q →
      c = .prepareOllama model digest operationId →
      q.providerReportedDigest = digest ∧ q.observedContextTokens ≠ some 0 := by
  cases c with
  | prepareOllama model digest operationId =>
    simp only [outcome, bind_ok, bailIf_ok, pure_ok] at h
    obtain ⟨tokens, -, _, hne, rfl⟩ := h
    refine ⟨by simp [prepares], ?_⟩
    rintro q _ _ _ hq ⟨⟩
    cases Option.some.inj hq
    exact ⟨rfl, hne⟩
  | _ =>
    simp only [outcome, bind_ok, pure_ok] at h
    obtain ⟨_, -, rfl⟩ := h
    exact ⟨by simp [prepares], (by intros; contradiction)⟩

theorem Operation.sound_settle {op : Operation} {cancelled : Bool}
    {outcome : Result (Option OllamaPreparationObservation)} (h : op.receipt.Sound id)
    (hhand : op.receipt.phase.inHand) (hend : Ended op.receipt.command cancelled outcome) :
    (op.settle op.receipt.command cancelled outcome).receipt.Sound id := by
  unfold Operation.settle
  split
  · exact h
  · rename_i hne
    obtain ⟨hquiet, hprep⟩ := h.quiet (Phase.live_of_inHand hhand hne)
    rcases hend with ⟨rfl, rfl⟩ | ⟨rfl, answer, rfl⟩
    · refine ⟨h.selected, h.operates, h.valid, ?_, h.short, ?_, nofun, h.shared⟩
      · simp [hquiet]
      · simp
    · cases ho : op.receipt.command.outcome answer with
      | ok p =>
        obtain ⟨hp, hobs⟩ := LifecycleCommand.outcome_prepares ho
        refine ⟨h.selected, h.operates, h.valid, ?_, h.short, ?_, hobs, h.shared⟩
        · simp [hquiet, isOk]
        · simpa [isOk] using hp
      | error msg =>
        refine ⟨h.selected, h.operates, h.valid, ?_, ?_, ?_, ?_, h.shared⟩
        · simp [isOk]
        · intro e he
          cases Option.some.inj he
          split <;> decide
        · simp [hprep, isOk]
        · intro p _ _ _ hp
          rw [hprep] at hp
          cases hp

/-! ## Records -/

theorem lookup_onRecords (f : String → Operation → Operation) (rt : ModelRuntime) (i : String) :
    (rt.onRecords f).records.lookup i = (rt.records.lookup i).map (f i) :=
  Assoc.lookup_map f i rt.records

theorem lookup_onRecord (f : Operation → Operation) (rt : ModelRuntime) (id i : String) :
    (rt.onRecord id f).records.lookup i =
      (rt.records.lookup i).map fun op => if i = id then f op else op :=
  lookup_onRecords _ rt i

/-! ## Steps -/

/-- The identities on their way to the operation that is run. -/
def ModelRuntime.line (rt : ModelRuntime) : List String := rt.worker.holds ++ rt.queue

/-- What a step does to the receipts and the line. -/
inductive Change (drawn : String → Prop) (rt t : ModelRuntime) : Prop where
  /-- Receipts and what has been started stay; the line only loses identities. -/
  | kept (hrecords : t.records = rt.records) (hstarted : t.started = rt.started)
    (hline : ∀ id, id ≠ "" → t.line.count id ≤ rt.line.count id)
    (hhand : ∀ p, t.worker.hands = some p → rt.worker.hands = some p)
    (hend : ∀ p, t.worker.outcome = some p → rt.worker.outcome = some p ∨ Ended p.1 p.2.1 p.2.2)
  /-- A new receipt, and its identity is last in line. -/
  | admitted (id : String) (command : LifecycleCommand) (remote : Bool)
    (hnew : rt.records.lookup id = none) (hforeign : ¬drawn id)
    (hsel : command.selected = some id) (hop : command.operates) (hvalid : command.validate = .ok ())
    (hroom : rt.records.length < rt.policy.receiptCapacity)
    (hrecords : t.records = Assoc.set id (.admitted command remote) rt.records)
    (hstarted : t.started = rt.started) (hworker : t.worker = rt.worker)
    (hqueue : t.queue = rt.queue ++ [id])
  /-- Receipts that are live are marked by a cancellation or by `close`. -/
  | marked (f : String → Operation → Operation)
    (hf : ∀ i op, rt.records.lookup i = some op → f i op = op ∨ f i op = op.interrupt ∨
      (f i op = op.requestCancel ∧ op.receipt.phase.live))
    (hrecords : t.records = (rt.onRecords f).records) (hstarted : t.started = rt.started)
    (hworker : t.worker = rt.worker) (hqueue : t.queue = rt.queue)
  /-- The worker takes an operation. -/
  | taken (id : String) (op : Operation) (hworker : rt.worker = .cleared id)
    (hop : rt.records.lookup id = some op)
    (hphase : op.receipt.phase = .queued ∨ op.receipt.phase = .cancelRequested)
    (ht : t = { rt.onRecord id Operation.start with worker := .taken id op.receipt.command })
  /-- The worker begins an operation that nobody has cancelled. -/
  | begun (id : String) (command : LifecycleCommand) (hworker : rt.worker = .taken id command)
    (hcancel : (rt.records.lookup id).any (·.cancel) = false)
    (ht : t = { rt with
      worker := .running id command
      started := id :: rt.started })
  /-- The worker writes how an operation ended. -/
  | settled (id : String) (command : LifecycleCommand) (cancelled : Bool)
    (outcome : Result (Option OllamaPreparationObservation))
    (hworker : rt.worker = .released id command cancelled outcome)
    (ht : t = { rt.onRecord id (Operation.settle command cancelled outcome) with
      worker := .waiting })

/-- The call that holds the records lock: a load or unload without a receipt. -/
structure Admitting (drawn : String → Prop) (rt : ModelRuntime) (command : LifecycleCommand)
    (model id : String) : Prop where
  controls : command.controls = some model
  selected : command.selected = some id
  valid : command.validate = .ok ()
  new : rt.records.lookup id = none
  room : rt.records.length < rt.policy.receiptCapacity
  foreign : ¬drawn id

/-- The holder of the records lock is admitting. -/
def Locked (drawn : String → Prop) (rt : ModelRuntime) : Prop :=
  ∀ command remote, rt.admission = some (command, remote) →
    ∃ model id, Admitting drawn rt command model id

theorem command_valid {closed : Bool} {request : LifecycleRequest}
    (h : rt.addressed closed request = .ok ()) : request.command.validate = .ok () := by
  simp only [ModelRuntime.addressed, LifecycleRequest.validate, bind_ok, bailIf_ok] at h
  obtain ⟨_, ⟨_, -, _, -, _, -, _, -, hvalid⟩, -⟩ := h
  exact hvalid

theorem reuse_false {command : LifecycleCommand} (h : rt.reuse command id = .ok false) :
    rt.records.lookup id = none ∧ rt.records.length < rt.policy.receiptCapacity := by
  unfold ModelRuntime.reuse at h
  cases hl : rt.records.lookup id with
  | some old =>
    simp only [hl, bind_ok, pure_ok] at h
    obtain ⟨_, -, hfalse⟩ := h
    cases hfalse
  | none =>
    simp only [hl, bind_ok, bailIf_ok, pure_ok, not_le] at h
    obtain ⟨_, hroom, -⟩ := h
    exact ⟨rfl, hroom⟩

theorem trySend_ok {queue : List String} (h : rt.trySend id = .ok queue) :
    rt.queue.length < rt.policy.queueCapacity ∧ queue = rt.queue ++ [id] := by
  simp only [ModelRuntime.trySend, bind_ok, bailIf_ok, ensure_ok, pure_ok] at h
  obtain ⟨_, -, _, hroom, rfl⟩ := h
  exact ⟨hroom, rfl⟩

/-- What an admission that succeeds has found and done. -/
inductive Admission (rt t : ModelRuntime) (command : LifecycleCommand) (remote : Bool) : Prop where
  | unchanged (ht : t = rt)
  | cancelled (id : String) (op : Operation) (hop : rt.records.lookup id = some op)
    (hlive : op.receipt.phase.live) (ht : t = rt.onRecord id Operation.requestCancel)
  | prepared (id : String) (queue : List String) (hsel : command.selected = some id)
    (hop : command.prepares) (hreuse : rt.reuse command id = .ok false)
    (hqueue : rt.trySend id = .ok queue) (ht : t = rt.insert id (.admitted command remote) queue)
  | reserved (model id : String) (generation : Nat) (load : Bool) (s s' : Server)
    (hctl : command.controls = some model) (hsel : command.selected = some id)
    (hreuse : rt.reuse command id = .ok false) (hserver : rt.server = some s)
    (hs : s.reserveControl model generation id load = .ok s')
    (ht : t = { rt with
      server := some s'
      admission := some (command, remote) })

theorem reserve_ok {engine : Option Engine} {config : Result Json} {command : LifecycleCommand}
    {model : String} {generation : Nat} {load remote : Bool}
    (h : rt.reserve engine config command model generation id load remote = .ok t) :
    ∃ s s', rt.server = some s ∧ s.reserveControl model generation id load = .ok s' ∧
      t = { rt with
        server := some s'
        admission := some (command, remote) } := by
  simp only [ModelRuntime.reserve, bind_ok, context_ok, pure_ok] at h
  obtain ⟨s, hs, _, -, _, -, s', hs', rfl⟩ := h
  exact ⟨s, s', hs, hs', rfl⟩

theorem admitPreparation_ok {engine : Option Engine} {config : Result Json}
    {model digest : String} {remote : Bool}
    (h : rt.admitPreparation engine config model digest id remote = .ok t) :
    ∃ queue, rt.trySend id = .ok queue ∧
      t = rt.insert id (.admitted (.prepareOllama model digest id) remote) queue := by
  simp only [ModelRuntime.admitPreparation, bind_ok, context_ok, bailIf_ok, pure_ok] at h
  obtain ⟨_, -, _, -, _, -, _, -, queue, hqueue, rfl⟩ := h
  exact ⟨queue, hqueue, rfl⟩

theorem cancel_ok {config : Result Json} {remote reused : Bool}
    (h : rt.cancel config id remote = .ok (t, reused)) :
    t = rt ∨ ∃ op, rt.records.lookup id = some op ∧ op.receipt.phase.live ∧
      t = rt.onRecord id Operation.requestCancel := by
  simp only [ModelRuntime.cancel, bind_ok, context_ok, ensure_ok] at h
  obtain ⟨op, hop, _, -, h⟩ := h
  split at h
  · rename_i hphase
    simp only [bind_ok, bailIf_ok, pure_ok, Prod.mk.injEq] at h
    obtain ⟨_, -, _, -, rfl, -⟩ := h
    refine Or.inr ⟨op, hop, ?_, rfl⟩
    rcases hphase with hp | hp <;> simp [hp, Phase.live]
  · simp only [pure_ok, Prod.mk.injEq] at h
    exact Or.inl h.1.symm

theorem admit_ok {engine : Option Engine} {config : Result Json} {command : LifecycleCommand}
    {remote reused : Bool} (h : rt.admitCommand engine config command remote = .ok (t, reused)) :
    Admission rt t command remote := by
  have operate {id : String} {new : Result ModelRuntime}
      (h : (do
        let reused ← rt.reuse command id
        if reused then return (rt, true)
        else do
          let t ← new
          return (t, false) : Result (ModelRuntime × Bool)) = .ok (t, reused)) :
      t = rt ∨ rt.reuse command id = .ok false ∧ new = .ok t := by
    rw [bind_ok] at h
    obtain ⟨known, hknown, h⟩ := h
    cases known with
    | true =>
      rw [if_pos rfl, pure_ok, Prod.mk.injEq] at h
      exact Or.inl h.1.symm
    | false =>
      simp only [Bool.false_eq_true, if_false, bind_ok, pure_ok, Prod.mk.injEq] at h
      obtain ⟨u, hu, rfl, -⟩ := h
      exact Or.inr ⟨hknown, hu⟩
  cases command with
  | inspect operationId =>
    simp only [ModelRuntime.admitCommand, Except.ok.injEq, Prod.mk.injEq] at h
    exact .unchanged h.1.symm
  | cancel operationId =>
    rcases cancel_ok h with ht | ⟨op, hop, hlive, ht⟩
    · exact .unchanged ht
    · exact .cancelled operationId op hop hlive ht
  | prepareOllama model digest operationId =>
    rcases operate h with ht | ⟨hreuse, hnew⟩
    · exact .unchanged ht
    · obtain ⟨queue, hqueue, ht⟩ := admitPreparation_ok hnew
      exact .prepared operationId queue rfl rfl hreuse hqueue ht
  | load model generation operationId =>
    rcases operate h with ht | ⟨hreuse, hnew⟩
    · exact .unchanged ht
    · obtain ⟨s, s', hs, hs', ht⟩ := reserve_ok hnew
      exact .reserved model operationId generation true s s' rfl rfl hreuse hs hs' ht
  | unload model generation operationId =>
    rcases operate h with ht | ⟨hreuse, hnew⟩
    · exact .unchanged ht
    · obtain ⟨s, s', hs, hs', ht⟩ := reserve_ok hnew
      exact .reserved model operationId generation false s s' rfl rfl hreuse hs hs' ht

/-- What the second half of an admission does. -/
theorem enqueue_cases (hlock : Locked drawn rt) :
    rt.admission = none ∧ rt.enqueue = (rt, .ok ()) ∨
    ∃ command remote model id, rt.admission = some (command, remote) ∧
      Admitting drawn rt command model id ∧
      ((∃ queue, rt.trySend id = .ok queue ∧ rt.enqueue =
        ({ rt.insert id (.admitted command remote) queue with admission := none }, .ok ())) ∨
      ∃ msg, rt.trySend id = .error msg ∧ rt.enqueue =
        ({ rt with
          server := rt.server.map (·.releaseControl model id)
          admission := none }, .error msg)) := by
  cases ha : rt.admission with
  | none =>
    refine Or.inl ⟨rfl, ?_⟩
    unfold ModelRuntime.enqueue
    rw [ha]
  | some p =>
    obtain ⟨command, remote⟩ := p
    obtain ⟨model, id, hadm⟩ := hlock command remote ha
    refine Or.inr ⟨command, remote, model, id, rfl, hadm, ?_⟩
    unfold ModelRuntime.enqueue
    rw [ha]
    simp only [hadm.controls, hadm.selected]
    cases hsend : rt.trySend id with
    | ok queue => exact Or.inl ⟨queue, rfl, rfl⟩
    | error msg => exact Or.inr ⟨msg, rfl, rfl⟩

theorem operates_of_controls {c : LifecycleCommand} {model : String}
    (h : c.controls = some model) : c.operates := by
  unfold LifecycleCommand.operates
  rw [h]
  rfl

/-- A step that leaves the receipts, the queue and the worker alone. -/
theorem Change.same (hrecords : t.records = rt.records) (hstarted : t.started = rt.started)
    (hqueue : t.queue = rt.queue) (hworker : t.worker = rt.worker) : Change drawn rt t := by
  refine .kept hrecords hstarted (fun id _ => ?_) (fun p hp => ?_) (fun p hp => ?_)
  · unfold ModelRuntime.line
    rw [hqueue, hworker]
  · rw [← hworker]
    exact hp
  · rw [← hworker]
    exact Or.inl hp

/-- A step of the worker that has nothing in hand afterwards and takes nothing from the queue. -/
theorem Change.idle (worker : Worker) (hholds : worker.holds = []) (hhands : worker.hands = none)
    (hend : worker.outcome = none) : Change drawn rt { rt with worker } := by
  refine .kept rfl rfl (fun id _ => ?_) (fun p hp => ?_) (fun p hp => ?_)
  · change (worker.holds ++ rt.queue).count id ≤ (rt.worker.holds ++ rt.queue).count id
    rw [hholds, List.nil_append, List.count_append]
    omega
  · change worker.hands = some p at hp
    rw [hhands] at hp
    cases hp
  · change worker.outcome = some p at hp
    rw [hend] at hp
    cases hp

/-- `release` only touches the model server. -/
theorem ModelRuntime.release_eq (rt : ModelRuntime) (id : String) (command : LifecycleCommand) :
    (rt.release id command).records = rt.records ∧ (rt.release id command).started = rt.started ∧
      (rt.release id command).queue = rt.queue ∧
      (rt.release id command).admission = rt.admission := by
  unfold ModelRuntime.release
  split <;> exact ⟨rfl, rfl, rfl, rfl⟩

theorem Step.change (hlock : Locked drawn rt) (hstep : Step drawn ids rt t) : Change drawn rt t := by
  cases hstep with
  | admitted _ closed request engine config remote reused hrequest hid hfree h =>
    have hvalid := command_valid hrequest
    cases admit_ok h with
    | unchanged ht =>
      subst ht
      exact .same rfl rfl rfl rfl
    | cancelled id op hop hlive ht =>
      subst ht
      refine .marked (fun i op => if i = id then op.requestCancel else op) ?_ rfl rfl rfl rfl
      intro i op' hop'
      split
      · rename_i hi
        subst hi
        obtain rfl : op = op' := Option.some.inj (hop.symm.trans hop')
        exact Or.inr (Or.inr ⟨rfl, hlive⟩)
      · exact Or.inl rfl
    | prepared id queue hsel hop hreuse hqueue ht =>
      subst ht
      obtain ⟨hnew, hroom⟩ := reuse_false hreuse
      obtain ⟨-, rfl⟩ := trySend_ok hqueue
      refine .admitted id request.command remote hnew (hid id hsel) hsel ?_ hvalid hroom rfl rfl rfl rfl
      unfold LifecycleCommand.operates
      rw [hop, Bool.or_true]
    | reserved model id generation load s s' hctl hsel hreuse hserver hs ht =>
      subst ht
      exact .same rfl rfl rfl rfl
  | enqueue =>
    rcases enqueue_cases hlock with ⟨-, he⟩ | ⟨command, remote, model, id, -, hadm,
      ⟨queue, hqueue, he⟩ | ⟨msg, -, he⟩⟩
    · rw [he]
      exact .same rfl rfl rfl rfl
    · rw [he]
      obtain ⟨-, rfl⟩ := trySend_ok hqueue
      exact .admitted id command remote hadm.new hadm.foreign hadm.selected (operates_of_controls hadm.controls)
        hadm.valid hadm.room rfl rfl rfl rfl
    · rw [he]
      exact .same rfl rfl rfl rfl
  | closeInterrupt _ _ =>
    exact .marked (fun _ => Operation.interrupt) (fun i op _ => Or.inr (Or.inl rfl)) rfl rfl rfl rfl
  | closeWake _ =>
    refine .kept rfl rfl (fun id hid => ?_) (fun p hp => hp) (fun p hp => Or.inl hp)
    change (rt.worker.holds ++ (rt.trySend "").toOption.getD rt.queue).count id ≤
      (rt.worker.holds ++ rt.queue).count id
    cases hsend : rt.trySend "" with
    | error msg => exact le_refl _
    | ok queue =>
      obtain ⟨-, rfl⟩ := trySend_ok hsend
      simp [Except.toOption, List.count_append, Ne.symm hid]
  | run _ => exact .idle _ rfl rfl rfl
  | tick _ _ => exact .idle _ (by split <;> rfl) (by split <;> rfl) (by split <;> rfl)
  | idled _ => exact .idle _ rfl rfl rfl
  | abandon _ => exact .idle _ rfl rfl rfl
  | recv id queue h hqueue =>
    refine .kept rfl rfl (fun i _ => ?_) nofun nofun
    change ([id] ++ queue).count i ≤ (rt.worker.holds ++ rt.queue).count i
    rw [h, hqueue]
    exact le_refl _
  | check id h =>
    by_cases hc : rt.closed = true
    · rw [if_pos hc]
      exact .idle _ rfl rfl rfl
    · rw [if_neg hc]
      refine .kept rfl rfl (fun i _ => ?_) nofun nofun
      change ([id] ++ rt.queue).count i ≤ (rt.worker.holds ++ rt.queue).count i
      rw [h]
      exact le_refl _
  | take id h _ =>
    unfold ModelRuntime.take
    cases hop : rt.records.lookup id with
    | none => exact .idle _ rfl rfl rfl
    | some op =>
      by_cases hphase : op.receipt.phase = .queued ∨ op.receipt.phase = .cancelRequested
      · exact .taken id op h hop hphase (if_pos hphase)
      · simp only [if_neg hphase]
        exact .idle _ rfl rfl rfl
  | begin id command h =>
    unfold ModelRuntime.begin
    by_cases hcancel : (rt.records.lookup id).any (·.cancel) = true
    · rw [if_pos hcancel]
      refine .kept rfl rfl (fun i _ => ?_) (fun p hp => ?_) (fun p hp => ?_)
      · change ([] ++ rt.queue).count i ≤ (rt.worker.holds ++ rt.queue).count i
        simp [List.count_append]
      · rw [h]
        exact hp
      · cases hp
        exact Or.inr (Or.inl ⟨rfl, rfl⟩)
    · rw [if_neg hcancel]
      exact .begun id command h (Bool.eq_false_iff.2 hcancel) rfl
  | cancelled id command h _ _ =>
    refine .kept rfl rfl (fun i _ => ?_) (fun p hp => ?_) (fun p hp => ?_)
    · change ([] ++ rt.queue).count i ≤ (rt.worker.holds ++ rt.queue).count i
      rw [h]
      exact le_refl _
    · rw [h]
      exact hp
    · cases hp
      exact Or.inr (Or.inl ⟨rfl, rfl⟩)
  | finished id command answer h _ =>
    refine .kept rfl rfl (fun i _ => ?_) (fun p hp => ?_) (fun p hp => ?_)
    · change ([] ++ rt.queue).count i ≤ (rt.worker.holds ++ rt.queue).count i
      rw [h]
      exact le_refl _
    · rw [h]
      exact hp
    · cases hp
      exact Or.inr (Or.inr ⟨rfl, answer, rfl⟩)
  | release id command cancelled outcome h =>
    obtain ⟨hrecords, hstarted, hqueue, -⟩ := rt.release_eq id command
    refine .kept hrecords hstarted (fun i _ => ?_) (fun p hp => ?_) (fun p hp => ?_)
    · change ([] ++ (rt.release id command).queue).count i ≤ (rt.worker.holds ++ rt.queue).count i
      rw [h, hqueue]
      exact le_refl _
    · rw [h]
      exact hp
    · rw [h]
      exact Or.inl hp
  | settle id command cancelled outcome h _ =>
    exact .settled id command cancelled outcome h rfl
  | _ => exact .same rfl rfl rfl rfl

/-! ## The books -/

/-- The invariant of receipts, line and worker. -/
structure Books (drawn : String → Prop) (rt : ModelRuntime) : Prop where
  capacity : rt.records.length ≤ rt.policy.receiptCapacity
  receipts : ∀ id op, rt.records.lookup id = some op → op.receipt.Sound id
  foreign : ∀ id op, rt.records.lookup id = some op → ¬drawn id
  once : ∀ id, id ≠ "" → rt.started.count id + rt.line.count id ≤ 1
  known : ∀ id, id ∈ rt.started ∨ id ∈ rt.line → id = "" ∨ (rt.records.lookup id).isSome
  named : "" ∉ rt.started
  hand : ∀ id command, rt.worker.hands = some (id, command) →
    ∃ op, rt.records.lookup id = some op ∧ op.receipt.command = command ∧ op.receipt.phase.inHand
  ended : ∀ p, rt.worker.outcome = some p → Ended p.1 p.2.1 p.2.2

/-- Only a canonical UUID names a receipt. -/
theorem uuid_of_operates {c : LifecycleCommand} (hop : c.operates) (hsel : c.selected = some id)
    (hvalid : c.validate = .ok ()) : uuid id = true := by
  cases c with
  | inspect => cases hop
  | cancel => cases hop
  | prepareOllama model digest operationId =>
    obtain rfl := Option.some.inj hsel
    simp only [LifecycleCommand.validate, bind_ok, validateUuid_ok, ensure_ok] at hvalid
    obtain ⟨_, -, _, huuid, -⟩ := hvalid
    exact huuid
  | load model generation operationId =>
    obtain rfl := Option.some.inj hsel
    simp only [LifecycleCommand.validate, bind_ok, validateUuid_ok] at hvalid
    obtain ⟨_, -, huuid⟩ := hvalid
    exact huuid
  | unload model generation operationId =>
    obtain rfl := Option.some.inj hsel
    simp only [LifecycleCommand.validate, bind_ok, validateUuid_ok] at hvalid
    obtain ⟨_, -, huuid⟩ := hvalid
    exact huuid

theorem ne_empty_of_uuid (h : uuid id = true) : id ≠ "" := by
  rintro rfl
  revert h
  decide

theorem Receipt.Sound.named {r : Receipt} (h : r.Sound id) : id ≠ "" :=
  ne_empty_of_uuid (uuid_of_operates h.operates h.selected h.valid)

/-- A step that maps the records, each to a later one. -/
theorem Books.mapped (h : Books drawn rt) (f : String → Operation → Operation)
    (hrecords : t.records = (rt.onRecords f).records) (hpolicy : t.policy = rt.policy)
    (hsound : ∀ i op, rt.records.lookup i = some op → (f i op).receipt.Sound i)
    (hstarted : t.started = rt.started)
    (hline : ∀ i, i ≠ "" → t.line.count i ≤ rt.line.count i)
    (hhand : ∀ i command, t.worker.hands = some (i, command) →
      ∃ op, rt.records.lookup i = some op ∧ (f i op).receipt.command = command ∧
        (f i op).receipt.phase.inHand)
    (hended : ∀ p, t.worker.outcome = some p → Ended p.1 p.2.1 p.2.2) : Books drawn t := by
  have hlookup (i : String) : t.records.lookup i = (rt.records.lookup i).map (f i) := by
    rw [hrecords]
    exact lookup_onRecords f rt i
  refine ⟨?_, ?_, ?_, ?_, ?_, ?_, ?_, hended⟩
  · rw [hrecords, hpolicy]
    exact (List.length_map _).trans_le h.capacity
  · intro i op hop
    rw [hlookup, Option.map_eq_some_iff] at hop
    obtain ⟨op, hop, rfl⟩ := hop
    exact hsound i op hop
  · intro i op hop
    rw [hlookup, Option.map_eq_some_iff] at hop
    obtain ⟨op, hop, -⟩ := hop
    exact h.foreign i op hop
  · intro i hi
    rw [hstarted]
    have := h.once i hi
    have := hline i hi
    omega
  · intro i hi
    rw [hlookup, Option.isSome_map]
    by_cases hne : i = ""
    · exact Or.inl hne
    · rw [hstarted] at hi
      refine h.known i (hi.imp (fun hi => hi) fun hi => ?_)
      have := hline i hne
      have := List.count_pos_iff.2 hi
      exact List.count_pos_iff.1 (by omega)
  · rw [hstarted]
    exact h.named
  · intro i command hi
    obtain ⟨op, hop, hcommand, hphase⟩ := hhand i command hi
    exact ⟨f i op, by rw [hlookup, hop]; rfl, hcommand, hphase⟩

/-- A cancellation or `close` leaves a receipt in hand in hand. -/
theorem inHand_marked {op op' : Operation} (h : op' = op ∨ op' = op.interrupt ∨
    (op' = op.requestCancel ∧ op.receipt.phase.live)) (hhand : op.receipt.phase.inHand) :
    op'.receipt.command = op.receipt.command ∧ op'.receipt.phase.inHand := by
  rcases h with rfl | rfl | ⟨rfl, -⟩
  · exact ⟨rfl, hhand⟩
  · refine ⟨op.later_interrupt.command, ?_⟩
    unfold Operation.interrupt
    split
    · rfl
    · exact hhand
  · exact ⟨rfl, rfl⟩

theorem sound_marked {op op' : Operation} (h : op' = op ∨ op' = op.interrupt ∨
    (op' = op.requestCancel ∧ op.receipt.phase.live)) (hsound : op.receipt.Sound id) :
    op'.receipt.Sound id := by
  rcases h with rfl | rfl | ⟨rfl, hlive⟩
  · exact hsound
  · exact Operation.sound_interrupt hsound
  · exact hsound.phase hlive rfl

theorem live_of_takes {p : Phase} (h : p = .queued ∨ p = .cancelRequested) : p.live := by
  rcases h with rfl | rfl <;> rfl

theorem Change.books (h : Books drawn rt) (hpolicy : t.policy = rt.policy) (hchange : Change drawn rt t) :
    Books drawn t := by
  cases hchange with
  | kept hrecords hstarted hline hhand hend =>
    refine h.mapped (fun _ op => op) ?_ hpolicy h.receipts hstarted hline ?_ ?_
    · rw [hrecords]
      exact (List.map_id _).symm
    · exact fun i command hi => h.hand i command (hhand _ hi)
    · exact fun p hp => (hend p hp).elim (h.ended p) id
  | marked f hf hrecords hstarted hworker hqueue =>
    have hline : t.line = rt.line := by
      unfold ModelRuntime.line
      rw [hworker, hqueue]
    refine h.mapped f hrecords hpolicy ?_ hstarted (fun i _ => by rw [hline]) ?_ ?_
    · exact fun i op hop => sound_marked (hf i op hop) (h.receipts i op hop)
    · intro i command hi
      rw [hworker] at hi
      obtain ⟨op, hop, hcommand, hphase⟩ := h.hand i command hi
      obtain ⟨hc, hp⟩ := inHand_marked (hf i op hop) hphase
      exact ⟨op, hop, hc.trans hcommand, hp⟩
    · rw [hworker]
      exact h.ended
  | admitted id command remote hnew hforeign hsel hop hvalid hroom hrecords hstarted hworker
    hqueue =>
    have hne : id ≠ "" := ne_empty_of_uuid (uuid_of_operates hop hsel hvalid)
    have hlookup (i : String) : t.records.lookup i =
        if i = id then some (.admitted command remote) else rt.records.lookup i := by
      rw [hrecords, Assoc.lookup_set]
    have hline : t.line = rt.line ++ [id] := by
      unfold ModelRuntime.line
      rw [hworker, hqueue, List.append_assoc]
    -- An identity without a receipt was neither started nor in line.
    have hout : id ∉ rt.started ∧ id ∉ rt.line := by
      have hno : ¬(id = "" ∨ (rt.records.lookup id).isSome) := by simp [hne, hnew]
      exact ⟨fun hi => hno (h.known id (Or.inl hi)), fun hi => hno (h.known id (Or.inr hi))⟩
    refine ⟨?_, ?_, ?_, ?_, ?_, ?_, ?_, ?_⟩
    · rw [hrecords, hpolicy, Assoc.length_set hnew]
      exact hroom
    · intro i op hop'
      rw [hlookup] at hop'
      split at hop'
      · rename_i hi
        subst hi
        obtain rfl := Option.some.inj hop'
        exact Operation.sound_admitted hsel hop hvalid
      · exact h.receipts i op hop'
    · intro i op hop'
      rw [hlookup] at hop'
      split at hop'
      · rename_i hi
        exact hi ▸ hforeign
      · exact h.foreign i op hop'
    · intro i hi
      rw [hstarted, hline, List.count_append]
      have := h.once i hi
      by_cases hid : i = id
      · subst hid
        have h₁ := List.count_eq_zero.2 hout.1
        have h₂ := List.count_eq_zero.2 hout.2
        simp [h₁, h₂]
      · simp [Ne.symm hid]
        exact this
    · intro i hi
      rw [hlookup]
      split
      · exact Or.inr rfl
      · rename_i hid
        rw [hstarted, hline, List.mem_append, List.mem_singleton] at hi
        refine h.known i ?_
        rcases hi with hi | hi | hi
        · exact Or.inl hi
        · exact Or.inr hi
        · exact absurd hi hid
    · rw [hstarted]
      exact h.named
    · intro i c hi
      rw [hworker] at hi
      obtain ⟨op, hop', hrest⟩ := h.hand i c hi
      refine ⟨op, ?_, hrest⟩
      rw [hlookup, if_neg]
      · exact hop'
      · rintro rfl
        rw [hnew] at hop'
        cases hop'
    · rw [hworker]
      exact h.ended
  | taken id op hworker hop hphase ht =>
    subst ht
    have hsound := h.receipts id op hop
    refine h.mapped (fun i op => if i = id then op.start else op) rfl rfl ?_ rfl ?_ ?_ nofun
    · intro i op' hop'
      split
      · rename_i hi
        subst hi
        obtain rfl : op = op' := Option.some.inj (hop.symm.trans hop')
        exact hsound.phase (live_of_takes hphase) rfl
      · exact h.receipts i op' hop'
    · intro i _
      change ([id] ++ rt.queue).count i ≤ (rt.worker.holds ++ rt.queue).count i
      rw [hworker]
      exact le_refl _
    · rintro i command ⟨⟩
      refine ⟨op, hop, ?_, ?_⟩
      · rw [if_pos rfl]
        rfl
      · rw [if_pos rfl]
        rfl
  | begun id command hworker hcancel ht =>
    subst ht
    obtain ⟨op, hop, hrest⟩ := h.hand id command (by rw [hworker]; rfl)
    have hne := (h.receipts id op hop).named
    have hline : rt.line = id :: rt.queue := by
      unfold ModelRuntime.line
      rw [hworker]
      rfl
    refine ⟨h.capacity, h.receipts, h.foreign, ?_, ?_, ?_, ?_, nofun⟩
    · intro i hi
      change (id :: rt.started).count i + rt.queue.count i ≤ 1
      have := h.once i hi
      rw [hline] at this
      rw [List.count_cons] at this ⊢
      omega
    · intro i hi
      change i ∈ id :: rt.started ∨ i ∈ rt.queue at hi
      rw [List.mem_cons] at hi
      refine h.known i ?_
      rw [hline, List.mem_cons]
      rcases hi with (hi | hi) | hi
      · exact Or.inr (Or.inl hi)
      · exact Or.inl hi
      · exact Or.inr (Or.inr hi)
    · change "" ∉ id :: rt.started
      rw [List.mem_cons, not_or]
      exact ⟨Ne.symm hne, h.named⟩
    · rintro i c ⟨⟩
      exact ⟨op, hop, hrest⟩
  | settled id command cancelled outcome hworker ht =>
    subst ht
    obtain ⟨op, hop, rfl, hphase⟩ := h.hand id command (by rw [hworker]; rfl)
    have hend : Ended op.receipt.command cancelled outcome :=
      h.ended (op.receipt.command, cancelled, outcome) (by rw [hworker]; rfl)
    refine h.mapped
      (fun i op' => if i = id then op'.settle op.receipt.command cancelled outcome else op') rfl rfl
      ?_ rfl ?_ nofun nofun
    · intro i op' hop'
      split
      · rename_i hi
        subst hi
        obtain rfl : op = op' := Option.some.inj (hop.symm.trans hop')
        exact Operation.sound_settle (h.receipts i op hop) hphase hend
      · exact h.receipts i op' hop'
    · intro i _
      change ([] ++ rt.queue).count i ≤ (rt.worker.holds ++ rt.queue).count i
      rw [hworker]
      exact le_refl _

/-- Every record stays, as a later one. -/
theorem Change.later (h : Books drawn rt) (hchange : Change drawn rt t) {op : Operation}
    (hop : rt.records.lookup id = some op) :
    ∃ op', t.records.lookup id = some op' ∧ op.Later op' := by
  cases hchange with
  | kept hrecords hstarted hline hhand hend => exact ⟨op, by rw [hrecords, hop], .refl op⟩
  | admitted i command remote hnew _ hsel _ hvalid hroom hrecords hstarted hworker hqueue =>
    refine ⟨op, ?_, .refl op⟩
    rw [hrecords, Assoc.lookup_set, if_neg]
    · exact hop
    · rintro rfl
      rw [hnew] at hop
      cases hop
  | marked f hf hrecords hstarted hworker hqueue =>
    refine ⟨f id op, ?_, ?_⟩
    · rw [hrecords, lookup_onRecords, hop]
      rfl
    · rcases hf id op hop with he | he | ⟨he, hlive⟩
      · rw [he]
        exact .refl op
      · rw [he]
        exact op.later_interrupt
      · rw [he]
        exact ⟨rfl, fun _ => rfl, fun hf => by rw [hlive] at hf; cases hf⟩
  | taken i op' hworker hop' hphase ht =>
    subst ht
    refine ⟨_, (lookup_onRecord Operation.start rt i id).trans (by rw [hop]; rfl), ?_⟩
    split
    · rename_i hi
      subst hi
      obtain rfl : op = op' := Option.some.inj (hop.symm.trans hop')
      have hlive := live_of_takes hphase
      exact ⟨rfl, fun hc => hc, fun hf => by rw [hlive] at hf; cases hf⟩
    · exact .refl op
  | begun i command hworker hcancel ht => exact ⟨op, by rw [ht]; exact hop, .refl op⟩
  | settled i command cancelled outcome hworker ht =>
    subst ht
    refine ⟨_, (lookup_onRecord (Operation.settle command cancelled outcome) rt i id).trans
      (by rw [hop]; rfl), ?_⟩
    split
    · rename_i hi
      subst hi
      obtain ⟨op', hop', -, hphase⟩ := h.hand id command (by rw [hworker]; rfl)
      obtain rfl : op = op' := Option.some.inj (hop.symm.trans hop')
      exact Operation.later_settle hphase
    · exact .refl op

/-- An operation that is cancelled before it is begun is never begun. -/
theorem Change.never (hchange : Change drawn rt t) {op : Operation}
    (hop : rt.records.lookup id = some op) (hcancel : op.cancel) (hno : id ∉ rt.started) :
    id ∉ t.started := by
  cases hchange with
  | kept _ hstarted => rwa [hstarted]
  | admitted _ _ _ _ _ _ _ _ _ _ hstarted => rwa [hstarted]
  | marked _ _ _ hstarted => rwa [hstarted]
  | taken _ _ _ _ _ ht => rwa [ht]
  | begun i command hworker hnot ht =>
    rw [ht, List.mem_cons, not_or]
    refine ⟨?_, hno⟩
    rintro rfl
    rw [hop, Option.any_some, hcancel] at hnot
    cases hnot
  | settled _ _ _ _ _ ht => rwa [ht]

/-- What no step changes. -/
theorem Step.fixed (hlock : Locked drawn rt) (hstep : Step drawn ids rt t) :
    t.policy = rt.policy ∧ t.nodeId = rt.nodeId ∧ t.id = rt.id ∧
      t.server.isSome = rt.server.isSome := by
  cases hstep with
  | admitted _ closed request engine config remote reused hrequest hid hfree h =>
    cases admit_ok h with
    | unchanged ht => exact ht ▸ ⟨rfl, rfl, rfl, rfl⟩
    | cancelled id op hop hlive ht => exact ht ▸ ⟨rfl, rfl, rfl, rfl⟩
    | prepared id queue hsel hop hreuse hqueue ht => exact ht ▸ ⟨rfl, rfl, rfl, rfl⟩
    | reserved model id generation load s s' hctl hsel hreuse hserver hs ht =>
      rw [ht]
      exact ⟨rfl, rfl, rfl, by rw [hserver]; rfl⟩
  | enqueue =>
    rcases enqueue_cases hlock with ⟨-, he⟩ | ⟨command, remote, model, id, -, hadm,
      ⟨queue, hqueue, he⟩ | ⟨msg, -, he⟩⟩
    · exact he ▸ ⟨rfl, rfl, rfl, rfl⟩
    · exact he ▸ ⟨rfl, rfl, rfl, rfl⟩
    · rw [he]
      exact ⟨rfl, rfl, rfl, Option.isSome_map⟩
  | closeServer _ => exact ⟨rfl, rfl, rfl, Option.isSome_map⟩
  | take id _ _ =>
    unfold ModelRuntime.take
    split
    · split <;> exact ⟨rfl, rfl, rfl, rfl⟩
    · exact ⟨rfl, rfl, rfl, rfl⟩
  | begin id command _ =>
    unfold ModelRuntime.begin
    split <;> exact ⟨rfl, rfl, rfl, rfl⟩
  | release id command cancelled outcome _ =>
    unfold ModelRuntime.release
    split
    · exact ⟨rfl, rfl, rfl, Option.isSome_map⟩
    · exact ⟨rfl, rfl, rfl, rfl⟩
  | server a s s' h _ _ => exact ⟨rfl, rfl, rfl, by rw [h]; rfl⟩
  | _ => exact ⟨rfl, rfl, rfl, rfl⟩

/-- While a call holds the records lock, no other touches the receipts. -/
theorem Step.locked (hlock : Locked drawn rt) (hstep : Step drawn ids rt t) : Locked drawn t := by
  have hsame (hrecords : t.records = rt.records) (hadm : t.admission = rt.admission)
      (hpolicy : t.policy = rt.policy) : Locked drawn t := by
    intro command remote h
    rw [hadm] at h
    obtain ⟨model, id, ha⟩ := hlock command remote h
    exact ⟨model, id, ha.controls, ha.selected, ha.valid, by rw [hrecords]; exact ha.new,
      by rw [hrecords, hpolicy]; exact ha.room, ha.foreign⟩
  have hfree (h : t.admission = none) : Locked drawn t := by
    intro command remote hadm
    rw [h] at hadm
    cases hadm
  cases hstep with
  | admitted _ closed request engine config remote reused hrequest hid hnone h =>
    cases admit_ok h with
    | unchanged ht => exact ht ▸ hlock
    | cancelled id op hop hlive ht =>
      refine hfree ?_
      rw [ht]
      exact hnone
    | prepared id queue hsel hop hreuse hqueue ht =>
      refine hfree ?_
      rw [ht]
      exact hnone
    | reserved model id generation load s s' hctl hsel hreuse hserver hs ht =>
      subst ht
      rintro command remote' ⟨⟩
      obtain ⟨hnew, hroom⟩ := reuse_false hreuse
      exact ⟨model, id, hctl, hsel, command_valid hrequest, hnew, hroom, hid id hsel⟩
  | enqueue =>
    rcases enqueue_cases hlock with ⟨hnone, he⟩ | ⟨command, remote, model, id, -, hadm,
      ⟨queue, hqueue, he⟩ | ⟨msg, -, he⟩⟩
    · exact hfree (by rw [he]; exact hnone)
    · exact hfree (by rw [he])
    · exact hfree (by rw [he])
  | closeInterrupt _ hnone => exact hfree hnone
  | take id _ hnone =>
    refine hfree ?_
    unfold ModelRuntime.take
    split
    · split <;> exact hnone
    · exact hnone
  | settle id command cancelled outcome _ hnone => exact hfree hnone
  | begin id command _ =>
    refine hsame ?_ ?_ ?_ <;> (unfold ModelRuntime.begin; split <;> rfl)
  | release id command cancelled outcome _ =>
    obtain ⟨hrecords, -, -, hadm⟩ := rt.release_eq id command
    refine hsame hrecords hadm ?_
    unfold ModelRuntime.release
    split <;> rfl
  | _ => exact hsame rfl rfl rfl

end Eef.Node.ModelLifecycle
