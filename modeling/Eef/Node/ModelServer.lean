import Eef.Lib.Assoc
import Eef.Lib.Run
import Eef.Node.Identity
import Eef.Node.Lease

/-!
# Owned model processes and their residency

`model_server.rs`: a node's model slots, the processes it spawned for them, and the
inference pins on them. Three locks guard the state. The gate (`residency`) is held by
every short section below, and a section is one step. The operation lock is held across
whole starts, stops, loads and unloads, so at most one of them is under way; `Operation`
says which, and how far it has come. Calls of other tasks step in between. A future that
is dropped at an await point runs its guards, innermost first, and each guard is a step.

A section that only reads, or that refuses, leaves the state alone and is no step of its
own. `changed` is a section that may run at any time. Only a holder of the operation lock
reads what it publishes, so where one holder makes a slot resident, in `set_all` and at the
end of a load, publishing belongs to that section: it is over before the next holder comes.

`terminate_until`, `try_wait` and the clock are what the steps take as parameters. `seen`
records the processes whose exit a call has observed, and `spawned` every process there
was; no function reads them.
-/

namespace Eef.Node.ModelServer

open Eef.Lib

/-- `ModelLifecycle`. -/
inductive ModelLifecycle where
  | unloaded
  | loading
  | unloading
  | unloadUnconfirmed
  | ready
  | active
  | warmIdle
  | error
  deriving DecidableEq, Repr

/-- `Ready | Active | WarmIdle`. -/
def ModelLifecycle.resident : ModelLifecycle → Bool
  | .ready | .active | .warmIdle => true
  | _ => false

/-- `Unloading | UnloadUnconfirmed`. -/
def ModelLifecycle.withdrawn : ModelLifecycle → Bool
  | .unloading | .unloadUnconfirmed => true
  | _ => false

/-- `Unloaded | Error`. -/
def ModelLifecycle.vacant : ModelLifecycle → Bool
  | .unloaded | .error => true
  | _ => false

/-- `SlotResidency`; instants are readings of one monotonic clock. -/
structure SlotResidency where
  state : ModelLifecycle
  generation : Nat
  active : Nat
  control : Option String
  idleSince : Option Nat
  deriving DecidableEq, Repr

/-! ## What becomes of a slot -/

/-- `u64::saturating_add(1)`. -/
def bump (generation : Nat) : Nat := min (generation + 1) u64Max

/-- The slot of a model before anything was loaded. -/
def SlotResidency.fresh : SlotResidency := ⟨.unloaded, 0, 0, none, none⟩

/-- What `set_all` makes of a slot: a withdrawn job keeps its fence. -/
def SlotResidency.reset (now : Nat) (state : ModelLifecycle) (r : SlotResidency) : SlotResidency :=
  let state := if r.state.withdrawn then .unloadUnconfirmed else state
  { state
    generation := bump r.generation
    active := 0
    control := none
    idleSince := if state = .ready then some now else none }

/-- A slot under the control of an operation. -/
def SlotResidency.reserve (id : String) (r : SlotResidency) : SlotResidency :=
  { r with control := some id }

/-- What a pin makes of its slot. -/
def SlotResidency.pin (r : SlotResidency) : SlotResidency :=
  { r with
    active := r.active + 1
    state := .active
    idleSince := none }

/-- What dropping a pin of `generation` makes of its slot. -/
def SlotResidency.unpin (now generation : Nat) (r : SlotResidency) : SlotResidency :=
  if r.generation = generation ∧ 0 < r.active then
    if r.active = 1 ∧ r.state = .active then
      { r with
        active := 0
        state := .warmIdle
        idleSince := some now }
    else { r with active := r.active - 1 }
  else r

/-- `idle_eligible`. -/
def SlotResidency.idleEligible (now idle : Nat) (r : SlotResidency) : Bool :=
  r.active == 0 && r.control.isNone && (r.state == .ready || r.state == .warmIdle)
    && r.idleSince.any fun since => decide (idle ≤ now - since)

/-- What a group stop makes of the slot of a model it took a process of. -/
def SlotResidency.fence (id : String) (r : SlotResidency) : SlotResidency :=
  { state := .unloading
    generation := bump r.generation
    active := 0
    control := some id
    idleSince := none }

/-- What `close` makes of a slot. -/
def SlotResidency.shut (retired : Bool) (r : SlotResidency) : SlotResidency :=
  { state := if r.state.withdrawn || retired then .unloadUnconfirmed else .unloaded
    generation := bump r.generation
    active := 0
    control := none
    idleSince := none }

/-- What `GroupStopCleanup::finish` makes of a slot with a fence. -/
def SlotResidency.finish (fence : Option (Nat × Bool)) (r : SlotResidency) : SlotResidency :=
  match fence with
  | some (_, sticky) =>
    { r with
      state := if sticky then .unloadUnconfirmed else .unloaded
      control := none }
  | none => r

/-- What `GroupStopCleanup::drop` makes of a slot with a fence. -/
def SlotResidency.forsake (id : String) (fence : Option (Nat × Bool)) (r : SlotResidency) :
    SlotResidency :=
  match fence with
  | some (generation, _) =>
    if r.generation = generation ∧ r.control = some id then
      { r with
        state := .unloadUnconfirmed
        control := none }
    else r
  | none => r

/-- A load begins. -/
def SlotResidency.beginLoad (r : SlotResidency) : SlotResidency :=
  { r with
    state := .loading
    idleSince := none
    generation := r.generation + 1 }

/-- A load has succeeded, with or without a pin of its own. -/
def SlotResidency.endLoad (now : Nat) (pin : Bool) (r : SlotResidency) : SlotResidency :=
  { r with
    state := if pin then .active else .ready
    active := if pin then 1 else 0
    idleSince := if pin then none else some now
    control := none }

/-- What `SlotStartupCleanup::drop` makes of the slot it still controls. -/
def SlotResidency.failLoad (r : SlotResidency) : SlotResidency :=
  { r with
    state := .error
    idleSince := none
    control := none
    generation := bump r.generation }

/-- An unload begins. -/
def SlotResidency.beginUnload (r : SlotResidency) : SlotResidency :=
  { r with
    state := .unloading
    idleSince := none
    generation := r.generation + 1 }

/-- What `SlotUnloadCleanup::finish` makes of its slot. -/
def SlotResidency.endUnload (confirmed : Bool) (r : SlotResidency) : SlotResidency :=
  { r with
    state := if confirmed then .unloaded else .unloadUnconfirmed
    control := none }

/-- What `SlotUnloadCleanup::drop` makes of its slot. -/
def SlotResidency.failUnload (armed : Bool) (id : String) (generation : Nat) (r : SlotResidency) :
    SlotResidency :=
  if armed ∧ r.generation = generation ∧ r.control = some id ∧ r.state = .unloading then
    { r with
      state := .unloadUnconfirmed
      control := none }
  else r

/-! ## The server -/

/-- `ModelUse`, a live inference pin. -/
structure ModelUse where
  model : String
  generation : Nat
  deriving DecidableEq, Repr

/-- Who runs `stop_children_until`: `start` after a failure, `stop`, or the monitor. -/
inductive Owner where
  | start
  | stop
  | monitor
  deriving DecidableEq, Repr

/-- The holder of the operation lock, and how far it has come. -/
inductive Operation where
  /-- Nobody holds the lock. -/
  | free
  /-- `start` has found nothing that forbids a startup. -/
  | startChecked
  /-- `start` has found the group not ready. -/
  | startCleared
  /-- `start_inner`, with the slots it has yet to spawn; `StartupCleanup` is armed. -/
  | starting (todo : List String)
  /-- `start_inner` has returned `Ok`. -/
  | startHealthy
  /-- `StartupCleanup` is being dropped. -/
  | abandoned
  /-- `retire_children` of that drop. -/
  | retiring
  /-- That drop has chosen the state it leaves behind. -/
  | settling (state : ModelLifecycle)
  /-- About to run `stop_children_until`. -/
  | group (owner : Owner)
  /-- `stop_children_until` awaits the exits of what it took; `GroupStopCleanup` is armed. -/
  | stopping (owner : Owner) (id : String) (fences : List (String × Nat × Bool)) (missing : Bool)
  /-- `GroupStopCleanup` has been dropped, and what was taken is being put back. -/
  | stopDropping (owner : Owner) (cancelled : Bool)
  /-- `stop_children_until` has returned. -/
  | stopped (owner : Owner) (ok : Bool)
  /-- The monitor has found the group ready. -/
  | monitorChecked
  /-- The monitor has found a process missing. -/
  | monitorFailed
  /-- `acquire_demand_pin` has reserved control. -/
  | reserved (model id : String)
  /-- `load_reserved_inner` before its process is spawned; `SlotStartupCleanup` is armed. -/
  | loading (model id : String) (pin : Bool)
  /-- `load_reserved_inner` awaits the health of its process. -/
  | loaded (model id : String) (pin : Bool)
  /-- `unload_reserved_checked` awaits the exit of what it took. -/
  | unloading (model id : String) (generation : Nat)
  /-- What an unload took is being put back; `SlotUnloadCleanup` may still be armed. -/
  | unloadDropping (model id : String) (generation : Nat) (armed : Bool)
  deriving DecidableEq, Repr

/-- `ModelServer`. A process is a model and the identity of its handle; `pending` are the
handles that the running operation has taken. -/
structure Server where
  closed : Bool
  slots : List (String × SlotResidency)
  processes : List (String × Nat)
  retired : List (String × Nat)
  exitObserved : Bool
  lifecycle : ModelLifecycle
  operation : Operation
  pending : List (String × Nat)
  pins : List ModelUse
  spawned : List (String × Nat)
  seen : List Nat
  exited : List Nat
  deriving DecidableEq, Repr

namespace Server

/-- `ModelServer::new`. -/
def new : Server := ⟨false, [], [], [], false, .unloaded, .free, [], [], [], [], []⟩

/-- `gate.slots.get(model)`. -/
def slot (s : Server) (model : String) : Option SlotResidency := s.slots.lookup model

/-- Changes each slot. -/
def onSlots (f : String → SlotResidency → SlotResidency) (s : Server) : Server :=
  { s with slots := s.slots.map fun e => (e.1, f e.1 e.2) }

/-- Changes one slot. -/
def onSlot (model : String) (f : SlotResidency → SlotResidency) (s : Server) : Server :=
  s.onSlots fun m r => if m = model then f r else r

/-- The handles that are held, wherever they are. -/
def handles (s : Server) : List (String × Nat) := s.processes ++ (s.retired ++ s.pending)

/-! ## Publishing -/

/-- Some slot is in one of the states. -/
def anyState (s : Server) (p : ModelLifecycle → Bool) : Bool := s.slots.any fun e => p e.2.state

/-- The state `changed` sends. -/
def published (s : Server) : ModelLifecycle :=
  if s.anyState ModelLifecycle.resident then .ready
  else if s.anyState (· == .unloading) then .unloading
  else if s.anyState (· == .unloadUnconfirmed) then .unloadUnconfirmed
  else if s.anyState (· == .loading) then .loading
  else if s.anyState (· == .error) then .error
  else .unloaded

/-- `changed`. -/
def changed (s : Server) : Server := { s with lifecycle := s.published }

/-- `set_all`. -/
def setAll (now : Nat) (state : ModelLifecycle) (s : Server) : Server :=
  let t := s.onSlots fun _ => SlotResidency.reset now state
  { t with lifecycle := if s.slots.isEmpty then state else t.published }

/-! ## Calls that do not hold the operation lock -/

/-- `model_selection::validate_id`. -/
def validateId (id : String) : Result Unit :=
  ensure (id ≠ "" ∧ id.utf8ByteSize ≤ 256 ∧ isTrimmed id ∧ ¬id.toList.any isControl)
    "model ID must contain 1-256 bytes without surrounding whitespace or control characters"

/-- The loop of `initialize_residency`: what it has inserted, and whether it got through. -/
def insertSlots : List String → List (String × SlotResidency) →
    List (String × SlotResidency) × Result Unit
  | [], slots => (slots, .ok ())
  | id :: ids, slots =>
    match validateId id with
    | .error msg => (slots, .error msg)
    | .ok () =>
      if (slots.lookup id).isSome then
        (Assoc.set id SlotResidency.fresh slots, .error "duplicate model selection")
      else insertSlots ids (Assoc.set id SlotResidency.fresh slots)

theorem lookup_insertSlots {m : String} {r : SlotResidency} :
    ∀ (ids : List String) (slots : List (String × SlotResidency)),
      (insertSlots ids slots).1.lookup m = some r →
      slots.lookup m = some r ∨ r = SlotResidency.fresh
  | [], _, h => Or.inl h
  | id :: ids, slots, h => by
    have hset : (Assoc.set id SlotResidency.fresh slots).lookup m = some r →
        slots.lookup m = some r ∨ r = SlotResidency.fresh := by
      intro hl
      rw [Assoc.lookup_set] at hl
      split at hl
      · exact Or.inr (Option.some.inj hl).symm
      · exact Or.inl hl
    unfold insertSlots at h
    split at h
    · exact Or.inl h
    · split at h
      · exact hset h
      · rcases lookup_insertSlots ids _ h with hl | hl
        · exact hset hl
        · exact Or.inr hl

/-- `initialize_residency`, of the configured `ids`. A failure keeps what was inserted. -/
def initializeResidency (ids : List String) (s : Server) : Server × Result Unit :=
  if s.closed then (s, .error "model runtime closed; no new load or inference")
  else if 256 < ids.length then (s, .error "selected local model capacity exceeded")
  else
    let (slots, outcome) := if s.slots.isEmpty then insertSlots ids s.slots else (s.slots, .ok ())
    ({ s with slots }, do
      outcome
      ensure (slots.length = ids.length) "invalid model selection history")

/-- A handle that `release_observed_errors` lets go: its model is in error, and root and tree
were seen to have exited. -/
def released (s : Server) (saw : Nat → Bool) (p : String × Nat) : Bool :=
  ((s.slot p.1).any fun r => r.state == .error) && saw p.2

/-- `release_observed_errors`; `saw` is what it observes of a process. -/
def releaseObservedErrors (saw : Nat → Bool) (s : Server) : Server :=
  if s.closed then s
  else { s with
    retired := s.retired.filter fun p => !s.released saw p
    seen := s.seen ++ (s.retired.filter (s.released saw)).map Prod.snd }

/-- A model's process is in the resident map and runs. -/
def runs (s : Server) (alive : Nat → Bool) (model : String) : Bool :=
  (s.processes.lookup model).any alive

/-- `pin`; `alive` is what `try_wait` says. -/
def pin (alive : Nat → Bool) (model : String) (s : Server) : Result Server := do
  let r ← context (s.slot model) "Selected local model missing"
  bailIf s.closed "model runtime closed"
  bailIf (r.control.isSome ∨ ¬r.state.resident) "model_not_ready: selected model not ready"
  ensure (s.runs alive model) "model_not_ready: owned process missing/exited"
  ensure (r.active + 1 < 2 ^ 32) "model pin capacity exceeded"
  return { s.onSlot model SlotResidency.pin with pins := ⟨model, r.generation⟩ :: s.pins }

/-- `ModelUse::drop`. -/
def unpin (now : Nat) (u : ModelUse) (s : Server) : Server :=
  { s.onSlot u.model (SlotResidency.unpin now u.generation) with pins := s.pins.erase u }

/-- `reserve_control`. -/
def reserveControl (model : String) (generation : Nat) (id : String) (load : Bool) (s : Server) :
    Result Server := do
  bailIf s.closed "model runtime closed"
  let r ← context (s.slot model) "model not selected"
  bailIf (r.state = .unloadUnconfirmed)
    "previous model unload was not confirmed; inspect its receipt and restart the node before another load"
  bailIf (load ∧ (s.retired.lookup model).isSome)
    "previous owned model exit is not confirmed; inspect lifecycle before another load"
  bailIf (r.generation ≠ generation ∨ r.active ≠ 0 ∨ r.control.isSome ∨ r.state = .loading
    ∨ r.state = .unloading) "model generation changed, busy or in use"
  bailIf (load ∧ (s.processes.lookup model).isSome)
    "previous owned model is still resident; inspect lifecycle before another load"
  bailIf (load ∧ ¬r.state.vacant) "model already resident; inspect exact receipt"
  bailIf (¬load ∧ r.state ≠ .ready ∧ r.state ≠ .warmIdle) "model not resident"
  return s.onSlot model (SlotResidency.reserve id)

/-- `release_control`. -/
def releaseControl (model id : String) (s : Server) : Server :=
  s.onSlot model fun r => if r.control = some id then { r with control := none } else r

/-- `reserve_idle`. -/
def reserveIdle (model : String) (generation now idle : Nat) (id : String) (s : Server) :
    Result Server := do
  bailIf s.closed "model runtime closed"
  let r ← context (s.slot model) "idle model missing"
  bailIf (r.generation ≠ generation ∨ ¬r.idleEligible now idle)
    "idle candidate changed, pending or in use"
  return s.onSlot model (SlotResidency.reserve id)

/-- `retire_children`, under the gate. -/
def retireChildren (s : Server) : Server :=
  { s with
    processes := []
    retired := s.retired ++ s.processes
    exitObserved := s.exitObserved && s.processes.isEmpty }

/-- `close`. -/
def close (s : Server) : Server :=
  let t := s.retireChildren
  { t.onSlots fun m => SlotResidency.shut (t.retired.lookup m).isSome with closed := true }

/-- `spawn_slot`, from the gate on; `process` is the handle of the child. -/
def spawnSlot (model : String) (control : Option String) (process : Nat) (s : Server) :
    Result Server := do
  bailIf s.closed "model runtime closed before spawn"
  let r ← context (s.slot model) "model state missing before spawn"
  bailIf (r.state ≠ .loading ∨ r.control ≠ control) "model load ownership withdrawn before spawn"
  bailIf (s.processes.lookup model).isSome "owned model already present"
  return { s with
    processes := s.processes ++ [(model, process)]
    exitObserved := false
    spawned := (model, process) :: s.spawned }

/-! ## `start` -/

/-- The first section of `start`. -/
def startCheck (s : Server) : Result Server := do
  ensure (s.operation = .free) "model operation already running"
  bailIf (s.anyState (· == .unloadUnconfirmed))
    "previous model unload was not confirmed; no startup retry in this runtime"
  ensure s.retired.isEmpty "previous owned model exit is not confirmed; no startup retry"
  bailIf (s.slots.any fun e => decide (0 < e.2.active) || e.2.control.isSome || e.2.state.withdrawn)
    "explicit model control/inference already owns startup"
  return { s with operation := .startChecked }

/-- `start` reads what was published. -/
def startClear (s : Server) : Result Server := do
  ensure (s.operation = .startChecked) "start has not been admitted"
  bailIf (s.lifecycle = .ready) "model group already started"
  return { s with operation := .startCleared }

/-- `check_children`. -/
def checkChildren (alive : Nat → Bool) (s : Server) : Result Unit := do
  ensure (s.processes.length
      = s.slots.countP fun e => e.2.state == .loading || e.2.state.resident)
    "model group does not own every configured process"
  ensure (s.processes.all fun p => alive p.2) "model process exited"

/-! ## `stop_children_until` -/

/-- The handles a group stop takes. -/
def taken (s : Server) : List (String × Nat) := s.retired ++ s.processes

/-- The fences of a group stop: the slots it withdrew, under which generation, and whether an
earlier exit was left unconfirmed. -/
def fences (s : Server) : List (String × Nat × Bool) :=
  (s.slots.filter fun e => (s.taken.lookup e.1).isSome).map fun e =>
    (e.1, bump e.2.generation, decide (e.2.state = .unloadUnconfirmed))

/-- The first section of `stop_children_until`, under the identity it draws. -/
def stopChildren (owner : Owner) (id : String) (s : Server) : Server :=
  let t := s.retireChildren
  { t.onSlots fun m r => if (s.taken.lookup m).isSome then SlotResidency.fence id r else r with
    retired := []
    pending := s.taken
    operation := .stopping owner id s.fences
      (!t.exitObserved && s.slots.any fun e =>
        e.2.state == .unloadUnconfirmed && (s.taken.lookup e.1).isNone) }

/-- `GroupStopCleanup::finish` requires every fence to stand. -/
def stands (s : Server) (id : String) (fence : String × Nat × Bool) : Bool :=
  (s.slot fence.1).any fun r =>
    r.generation == fence.2.1 && r.control == some id && r.state == .unloading

/-- `stop_children_until` after every `terminate_until` returned `Ok`. -/
def stopFinish (s : Server) : Result Server :=
  match s.operation with
  | .stopping owner id fences missing => do
    ensure (∀ p ∈ s.pending, p.2 ∈ s.seen) "model group termination observation timed out"
    bailIf missing "model termination evidence unavailable"
    ensure (fences.all (s.stands id)) "model group stop ownership changed"
    return { s.onSlots fun m => SlotResidency.finish (fences.lookup m) with
      pending := []
      exitObserved := true
      operation := .stopped owner true }
  | _ => .error "no group stop"

/-- `GroupStopCleanup::drop`. -/
def stopDrop (cancelled : Bool) (s : Server) : Result Server :=
  match s.operation with
  | .stopping owner id fences _ =>
    .ok { s.onSlots fun m => SlotResidency.forsake id (fences.lookup m) with
      operation := .stopDropping owner cancelled }
  | _ => .error "no group stop"

/-- What the caller of `stop_children_until` does when that has returned. -/
def stopReturned (now : Nat) (owner : Owner) (ok : Bool) (s : Server) : Server :=
  match owner with
  | .start | .monitor => s.setAll now .error
  | .stop => if ok then s.setAll now .unloaded else s

/-! ## Loads -/

/-- The first section of `load_reserved_inner`. -/
def loadAdmit (model id : String) (pin : Bool) (s : Server) : Result Server := do
  ensure (s.operation = if pin then .reserved model id else .free) "model operation already running"
  bailIf s.closed "model runtime closed"
  let r ← context (s.slot model) "model state missing"
  bailIf (r.control ≠ some id ∨ r.active ≠ 0 ∨ ¬r.state.vacant) "reserved model state changed"
  ensure (r.generation + 1 ≤ u64Max) "model generation exhausted"
  return { s.onSlot model SlotResidency.beginLoad with operation := .loading model id pin }

/-- The last section of `load_reserved_inner`. -/
def loadReady (alive : Nat → Bool) (now : Nat) (s : Server) : Result Server :=
  match s.operation with
  | .loaded model id pin => do
    bailIf s.closed "model runtime closed before load confirmation"
    ensure (s.runs alive model) "owned model missing before readiness handoff"
    let r ← context (s.slot model) "model state missing"
    ensure (r.control = some id) "model load ownership changed"
    return { (s.onSlot model (SlotResidency.endLoad now pin)).changed with
      pins := if pin then ⟨model, r.generation⟩ :: s.pins else s.pins
      operation := .free }
  | _ => .error "no load"

/-- `SlotStartupCleanup::drop`, and the load is over. -/
def loadDrop (s : Server) : Result Server :=
  match s.operation with
  | .loading model id _ | .loaded model id _ =>
    if (s.slot model).any fun r => r.control == some id then
      .ok { s.onSlot model SlotResidency.failLoad with
        processes := Assoc.erase model s.processes
        retired := s.retired ++ s.processes.filter (·.1 = model)
        exitObserved := s.exitObserved && (s.processes.lookup model).isNone
        operation := .free }
    else .ok { s with operation := .free }
  | _ => .error "no load"

/-! ## Unloads -/

/-- The first section of `unload_reserved_checked`. -/
def unloadAdmit (model id : String) (s : Server) : Result Server := do
  ensure (s.operation = .free) "model operation already running"
  bailIf s.closed "model runtime closed"
  let r ← context (s.slot model) "model state missing"
  bailIf (r.control ≠ some id ∨ r.active ≠ 0 ∨ (r.state ≠ .ready ∧ r.state ≠ .warmIdle))
    "reserved model unload state changed"
  ensure (r.generation + 1 ≤ u64Max) "model generation exhausted"
  return { s.onSlot model SlotResidency.beginUnload with
    processes := Assoc.erase model s.processes
    pending := s.processes.filter (·.1 = model)
    operation := .unloading model id (r.generation + 1) }

/-- `SlotUnloadCleanup::finish`, and what the unload does with its process then. -/
def unloadFinish (confirmed : Bool) (s : Server) : Result Server :=
  match s.operation with
  | .unloading model id generation => do
    ensure (s.pending ≠ []) "reserved model has no owned process to observe"
    ensure (confirmed → ∀ p ∈ s.pending, p.2 ∈ s.seen)
      "owned model termination observation timed out"
    bailIf s.closed "model runtime closed during termination observation"
    let r ← context (s.slot model) "model state missing"
    bailIf (r.generation ≠ generation ∨ r.control ≠ some id ∨ r.state ≠ .unloading)
      "model termination ownership changed"
    return { s.onSlot model (SlotResidency.endUnload confirmed) with
      pending := if confirmed then [] else s.pending
      operation := if confirmed then .free else .unloadDropping model id generation false }
  | _ => .error "no unload"

/-- `SlotUnloadCleanup::drop`, and the unload is over. -/
def unloadDrop (s : Server) : Result Server :=
  match s.operation with
  | .unloadDropping model id generation armed => do
    ensure s.pending.isEmpty "a process is still pending"
    return { s.onSlot model (SlotResidency.failUnload armed id generation) with
      operation := .free }
  | _ => .error "no unload"

/-! ## Handles that are put back -/

/-- The operation puts back what it took. -/
def dropping (s : Server) : Bool :=
  match s.operation with
  | .retiring | .stopDropping .. | .unloadDropping .. => true
  | _ => false

/-- `PendingProcess::drop`, or one round of `retire_children`: `retire_process`. -/
def retireProcess (s : Server) : Result Server :=
  match s.pending with
  | p :: pending => do
    ensure s.dropping "no process is being put back"
    return { s with
      pending
      retired := s.retired ++ [p]
      exitObserved := false }
  | [] => .error "no process is being put back"

/-- The operation is a load, unload or group stop of the model under the identity. -/
def runsUnder (s : Server) (model id : String) : Bool :=
  match s.operation with
  | .reserved m i | .loading m i _ | .loaded m i _ | .unloading m i _ | .unloadDropping m i _ _ =>
    m == model && i == id
  | .stopping _ i _ _ => i == id
  | _ => false

/-! ## What a section that succeeds has found and done -/

variable {s t : Server}

theorem pin_ok {alive : Nat → Bool} {model : String} (h : s.pin alive model = .ok t) :
    ∃ r, s.slot model = some r ∧ s.closed = false ∧ r.control = none ∧ r.state.resident ∧
      t = { s.onSlot model SlotResidency.pin with
        pins := ⟨model, r.generation⟩ :: s.pins } := by
  simp only [pin, bind_ok, bailIf_ok, ensure_ok, context_ok, pure_ok, not_or, not_not] at h
  obtain ⟨r, hr, _, hopen, _, ⟨hctl, hres⟩, _, -, _, -, rfl⟩ := h
  exact ⟨r, hr, by simpa using hopen, by simpa using hctl, hres, rfl⟩

theorem reserveControl_ok {model : String} {generation : Nat} {id : String} {load : Bool}
    (h : s.reserveControl model generation id load = .ok t) :
    ∃ r, s.slot model = some r ∧ s.closed = false ∧ r.generation = generation ∧ r.active = 0 ∧
      r.control = none ∧ r.state ≠ .unloadUnconfirmed ∧ r.state ≠ .loading ∧
      r.state ≠ .unloading ∧
      (r.state.vacant → (s.retired.lookup model).isSome = false ∧
        (s.processes.lookup model).isSome = false) ∧
      (load = true → r.state.vacant) ∧
      t = s.onSlot model (SlotResidency.reserve id) := by
  simp only [reserveControl, bind_ok, bailIf_ok, context_ok, pure_ok, not_and, not_or, ne_eq,
    not_not] at h
  obtain ⟨_, hopen, r, hr, _, hun, _, hret, _, ⟨hgen, hact, hctl, hload, hunl⟩, _, hproc, _, hvac,
    _, hnot, rfl⟩ := h
  refine ⟨r, hr, by simpa using hopen, hgen, hact, by simpa using hctl, hun, hload, hunl, ?_, hvac,
    rfl⟩
  intro hv
  have hl : load = true := by
    cases load
    · have hready := hnot (by simp)
      by_cases hs : r.state = .ready
      · rw [hs] at hv
        cases hv
      · rw [hready hs] at hv
        cases hv
    · rfl
  exact ⟨Bool.eq_false_iff.2 (hret hl), Bool.eq_false_iff.2 (hproc hl)⟩

theorem reserveIdle_ok {model : String} {generation now idle : Nat} {id : String}
    (h : s.reserveIdle model generation now idle id = .ok t) :
    ∃ r, s.slot model = some r ∧ s.closed = false ∧ r.generation = generation ∧ r.active = 0 ∧
      r.control = none ∧ (r.state = .ready ∨ r.state = .warmIdle) ∧
      t = s.onSlot model (SlotResidency.reserve id) := by
  simp only [reserveIdle, bind_ok, bailIf_ok, context_ok, pure_ok, not_or, not_not, ne_eq,
    SlotResidency.idleEligible, Bool.and_eq_true, Bool.or_eq_true, beq_iff_eq] at h
  obtain ⟨_, hopen, r, hr, _, ⟨hgen, ⟨⟨⟨hact, hctl⟩, hstate⟩, -⟩⟩, rfl⟩ := h
  exact ⟨r, hr, by simpa using hopen, hgen, hact, by simpa using hctl, hstate, rfl⟩

theorem spawnSlot_ok {model : String} {control : Option String} {process : Nat}
    (h : s.spawnSlot model control process = .ok t) :
    ∃ r, s.slot model = some r ∧ s.closed = false ∧ r.state = .loading ∧ r.control = control ∧
      (s.processes.lookup model).isSome = false ∧
      t = { s with
        processes := s.processes ++ [(model, process)]
        exitObserved := false
        spawned := (model, process) :: s.spawned } := by
  simp only [spawnSlot, bind_ok, bailIf_ok, context_ok, pure_ok, not_or, not_not, ne_eq] at h
  obtain ⟨_, hopen, r, hr, _, ⟨hload, hctl⟩, _, hproc, rfl⟩ := h
  exact ⟨r, hr, by simpa using hopen, hload, hctl, Bool.eq_false_iff.2 hproc, rfl⟩

theorem startCheck_ok (h : s.startCheck = .ok t) :
    s.operation = .free ∧ s.retired = [] ∧ t = { s with operation := .startChecked } := by
  simp only [startCheck, bind_ok, ensure_ok, bailIf_ok, pure_ok] at h
  obtain ⟨_, hfree, _, -, _, hret, _, -, rfl⟩ := h
  exact ⟨hfree, List.isEmpty_iff.1 hret, rfl⟩

theorem startClear_ok (h : s.startClear = .ok t) :
    s.operation = .startChecked ∧ s.lifecycle ≠ .ready ∧
      t = { s with operation := .startCleared } := by
  simp only [startClear, bind_ok, ensure_ok, bailIf_ok, pure_ok] at h
  obtain ⟨_, hop, _, hready, rfl⟩ := h
  exact ⟨hop, hready, rfl⟩

theorem stopFinish_ok (h : s.stopFinish = .ok t) :
    ∃ owner id fences missing, s.operation = .stopping owner id fences missing ∧
      (∀ p ∈ s.pending, p.2 ∈ s.seen) ∧ (∀ fence ∈ fences, s.stands id fence) ∧
      t = { s.onSlots fun m => SlotResidency.finish (fences.lookup m) with
        pending := []
        exitObserved := true
        operation := .stopped owner true } := by
  unfold stopFinish at h
  split at h
  · rename_i owner id fences missing hop
    simp only [bind_ok, ensure_ok, bailIf_ok, pure_ok] at h
    obtain ⟨_, hseen, _, -, _, hstands, rfl⟩ := h
    exact ⟨owner, id, fences, missing, hop, hseen, List.all_eq_true.1 hstands, rfl⟩
  · cases h

theorem stopDrop_ok {cancelled : Bool} (h : s.stopDrop cancelled = .ok t) :
    ∃ owner id fences missing, s.operation = .stopping owner id fences missing ∧
      t = { s.onSlots fun m => SlotResidency.forsake id (fences.lookup m) with
        operation := .stopDropping owner cancelled } := by
  unfold stopDrop at h
  split at h
  · rename_i owner id fences missing hop
    exact ⟨owner, id, fences, missing, hop, (Except.ok.inj h).symm⟩
  · cases h

theorem retireProcess_ok (h : s.retireProcess = .ok t) :
    ∃ p pending, s.pending = p :: pending ∧ s.dropping ∧
      t = { s with
        pending
        retired := s.retired ++ [p]
        exitObserved := false } := by
  unfold retireProcess at h
  split at h
  · rename_i p pending hpend
    simp only [bind_ok, ensure_ok, pure_ok] at h
    obtain ⟨_, hdrop, rfl⟩ := h
    exact ⟨p, pending, hpend, hdrop, rfl⟩
  · cases h

theorem loadAdmit_ok {model id : String} {pin : Bool} (h : s.loadAdmit model id pin = .ok t) :
    s.operation = (if pin then .reserved model id else .free) ∧
    ∃ r, s.slot model = some r ∧ r.control = some id ∧ r.active = 0 ∧ r.state.vacant ∧
      r.generation < u64Max ∧
      t = { s.onSlot model SlotResidency.beginLoad with operation := .loading model id pin } := by
  simp only [loadAdmit, bind_ok, ensure_ok, bailIf_ok, context_ok, pure_ok, not_or, not_not,
    ne_eq] at h
  obtain ⟨_, hop, _, -, r, hr, _, ⟨hctl, hact, hvac⟩, _, hgen, rfl⟩ := h
  exact ⟨hop, r, hr, hctl, hact, hvac, hgen, rfl⟩

theorem loadReady_ok {alive : Nat → Bool} {now : Nat} (h : s.loadReady alive now = .ok t) :
    ∃ model id pin r, s.operation = .loaded model id pin ∧ s.closed = false ∧
      s.slot model = some r ∧ r.control = some id ∧
      t = { (s.onSlot model (SlotResidency.endLoad now pin)).changed with
        pins := if pin then ⟨model, r.generation⟩ :: s.pins else s.pins
        operation := .free } := by
  unfold loadReady at h
  split at h
  · rename_i model id pin hop
    simp only [bind_ok, ensure_ok, bailIf_ok, context_ok, pure_ok] at h
    obtain ⟨_, hopen, _, -, r, hr, _, hctl, rfl⟩ := h
    exact ⟨model, id, pin, r, hop, by simpa using hopen, hr, hctl, rfl⟩
  · cases h

theorem loadDrop_ok (h : s.loadDrop = .ok t) :
    ∃ model id pin, (s.operation = .loading model id pin ∨ s.operation = .loaded model id pin) ∧
      ((∃ r, s.slot model = some r ∧ r.control = some id ∧
        t = { s.onSlot model SlotResidency.failLoad with
          processes := Assoc.erase model s.processes
          retired := s.retired ++ s.processes.filter (·.1 = model)
          exitObserved := s.exitObserved && (s.processes.lookup model).isNone
          operation := .free }) ∨
      (∀ r, s.slot model = some r → r.control ≠ some id) ∧ t = { s with operation := .free }) := by
  have key (model id : String) :
      ((∃ r, s.slot model = some r ∧ r.control = some id) ∧
        ((s.slot model).any fun r => r.control == some id) = true) ∨
      ((∀ r, s.slot model = some r → r.control ≠ some id) ∧
        ((s.slot model).any fun r => r.control == some id) = false) := by
    cases hr : s.slot model with
    | none => exact Or.inr ⟨nofun, rfl⟩
    | some r =>
      by_cases hc : r.control = some id
      · exact Or.inl ⟨⟨r, rfl, hc⟩, by simp [hc]⟩
      · exact Or.inr ⟨fun r' hr' => Option.some.inj hr' ▸ hc, by simp [hc]⟩
  unfold loadDrop at h
  split at h
  case h_3 => cases h
  all_goals
    rename_i model id pin hop
    rcases key model id with ⟨⟨r, hr, hc⟩, hany⟩ | ⟨hno, hany⟩
    · rw [if_pos hany] at h
      refine ⟨model, id, pin, ?_, Or.inl ⟨r, hr, hc, (Except.ok.inj h).symm⟩⟩
      first | exact Or.inl hop | exact Or.inr hop
    · rw [hany] at h
      refine ⟨model, id, pin, ?_, Or.inr ⟨hno, (Except.ok.inj h).symm⟩⟩
      first | exact Or.inl hop | exact Or.inr hop

theorem unloadAdmit_ok {model id : String} (h : s.unloadAdmit model id = .ok t) :
    s.operation = .free ∧
    ∃ r, s.slot model = some r ∧ r.control = some id ∧ r.active = 0 ∧
      (r.state = .ready ∨ r.state = .warmIdle) ∧ r.generation < u64Max ∧
      t = { s.onSlot model SlotResidency.beginUnload with
        processes := Assoc.erase model s.processes
        pending := s.processes.filter (·.1 = model)
        operation := .unloading model id (r.generation + 1) } := by
  simp only [unloadAdmit, bind_ok, ensure_ok, bailIf_ok, context_ok, pure_ok, not_or, not_not,
    ne_eq] at h
  obtain ⟨_, hop, _, -, r, hr, _, ⟨hctl, hact, hstate⟩, _, hgen, rfl⟩ := h
  refine ⟨hop, r, hr, hctl, hact, ?_, hgen, rfl⟩
  by_cases hs : r.state = .ready
  · exact Or.inl hs
  · exact Or.inr (by simpa [hs] using hstate)

theorem unloadFinish_ok {confirmed : Bool} (h : s.unloadFinish confirmed = .ok t) :
    ∃ model id generation r, s.operation = .unloading model id generation ∧
      (confirmed = true → ∀ p ∈ s.pending, p.2 ∈ s.seen) ∧ s.slot model = some r ∧
      r.state = .unloading ∧
      t = { s.onSlot model (SlotResidency.endUnload confirmed) with
        pending := if confirmed then [] else s.pending
        operation := if confirmed then .free else .unloadDropping model id generation false } := by
  unfold unloadFinish at h
  split at h
  · rename_i model id generation hop
    simp only [bind_ok, ensure_ok, bailIf_ok, context_ok, pure_ok, not_or, not_not, ne_eq] at h
    obtain ⟨_, -, _, hseen, _, -, r, hr, _, ⟨-, -, hstate⟩, rfl⟩ := h
    exact ⟨model, id, generation, r, hop, hseen, hr, hstate, rfl⟩
  · cases h

theorem unloadDrop_ok (h : s.unloadDrop = .ok t) :
    ∃ model id generation armed, s.operation = .unloadDropping model id generation armed ∧
      s.pending = [] ∧
      t = { s.onSlot model (SlotResidency.failUnload armed id generation) with
        operation := .free } := by
  unfold unloadDrop at h
  split at h
  · rename_i model id generation armed hop
    simp only [bind_ok, ensure_ok, pure_ok] at h
    obtain ⟨_, hempty, rfl⟩ := h
    exact ⟨model, id, generation, armed, hop, List.isEmpty_iff.1 hempty, rfl⟩
  · cases h

/-- `initialize_residency` only ever fills an empty table. -/
theorem initializeResidency_slots (ids : List String) (s : Server) :
    (s.initializeResidency ids).1 = s ∨
    ∃ slots, (s.initializeResidency ids).1 = { s with slots } ∧ s.slots = [] ∧
      ∀ m r, slots.lookup m = some r → r = SlotResidency.fresh := by
  unfold initializeResidency
  split
  · exact Or.inl rfl
  · split
    · exact Or.inl rfl
    · by_cases hempty : s.slots.isEmpty = true
      · have hnil : s.slots = [] := List.isEmpty_iff.1 hempty
        refine Or.inr ⟨(insertSlots ids s.slots).1, by simp [hempty], hnil, ?_⟩
        intro m r hr
        rcases lookup_insertSlots ids _ hr with hl | hl
        · rw [hnil] at hl
          cases hl
        · exact hl
      · exact Or.inl (by simp [hempty])

end Server

/-! ## Steps -/

/-- The sections, named. -/
inductive Act where
  | initializeResidency
  | releaseObservedErrors
  | changed
  | pin (model : String)
  | unpin (u : ModelUse)
  | reserveControl (model id : String)
  | releaseControl (model id : String)
  | reserveIdle (model id : String)
  | close
  | exit (process : Nat)
  | startCheck
  | startClear
  | startRefuse
  | startLoad
  | startSpawn (process : Nat)
  | startInner
  | startReady
  | startFail
  | startCancel
  | startRetire
  | startSettle
  | startAbandon
  | stopBegin
  | stopChildren (id : String)
  | stopRefuse
  | terminated (process : Nat)
  | stopFinish
  | stopDrop
  | retireProcess
  | stopDropped
  | stopReturn
  | monitorCheck
  | monitorPass
  | monitorFail
  | monitorWithdraw
  | demandReserve (model id : String)
  | demandRefuse
  | loadAdmit (model id : String)
  | loadSpawn (process : Nat)
  | loadReady
  | loadDrop
  | unloadAdmit (model id : String)
  | unloadFinish
  | unloadAbandon
  | unloadDrop
  deriving DecidableEq, Repr

/-- One section of one task. A pin that is dropped is live, a process identity is new, and
control is released by the task that reserved it once its load or unload is over. -/
inductive Step (ids : List String) : Act → Server → Server → Prop where
  | initializeResidency (s : Server) :
    Step ids .initializeResidency s (s.initializeResidency ids).1
  | releaseObservedErrors (s : Server) (saw : Nat → Bool) (h : ∀ p, saw p → p ∈ s.exited) :
    Step ids .releaseObservedErrors s (s.releaseObservedErrors saw)
  | changed (s : Server) : Step ids .changed s s.changed
  | pin (s t : Server) (alive : Nat → Bool) (model : String) (h : s.pin alive model = .ok t) :
    Step ids (.pin model) s t
  | unpin (s : Server) (now : Nat) (u : ModelUse) (h : u ∈ s.pins) :
    Step ids (.unpin u) s (s.unpin now u)
  | reserveControl (s t : Server) (model : String) (generation : Nat) (id : String) (load : Bool)
    (h : s.reserveControl model generation id load = .ok t) :
    Step ids (.reserveControl model id) s t
  | releaseControl (s : Server) (model id : String) (h : s.runsUnder model id = false) :
    Step ids (.releaseControl model id) s (s.releaseControl model id)
  | reserveIdle (s t : Server) (model : String) (generation now idle : Nat) (id : String)
    (h : s.reserveIdle model generation now idle id = .ok t) :
    Step ids (.reserveIdle model id) s t
  | close (s : Server) : Step ids .close s s.close
  | exit (s : Server) (process : Nat) :
    Step ids (.exit process) s { s with exited := process :: s.exited }
  | startCheck (s t : Server) (h : s.startCheck = .ok t) : Step ids .startCheck s t
  | startClear (s t : Server) (h : s.startClear = .ok t) : Step ids .startClear s t
  | startRefuse (s : Server) (h : s.operation = .startChecked) :
    Step ids .startRefuse s { s with operation := .free }
  | startLoad (s : Server) (now : Nat) (h : s.operation = .startCleared) :
    Step ids .startLoad s { s.setAll now .loading with operation := .starting ids }
  | startSpawn (s t : Server) (model : String) (todo : List String) (process : Nat)
    (h : s.operation = .starting (model :: todo)) (hnew : process ∉ s.spawned.map Prod.snd)
    (ht : s.spawnSlot model none process = .ok t) :
    Step ids (.startSpawn process) s { t with operation := .starting todo }
  | startInner (s : Server) (alive : Nat → Bool) (h : s.operation = .starting [])
    (hok : s.checkChildren alive = .ok ()) :
    Step ids .startInner s { s with operation := .startHealthy }
  | startReady (s : Server) (now : Nat) (h : s.operation = .startHealthy) :
    Step ids .startReady s { s.setAll now .ready with operation := .free }
  | startFail (s : Server) (todo : List String) (h : s.operation = .starting todo) :
    Step ids .startFail s { s with operation := .group .start }
  | startCancel (s : Server) (todo : List String) (h : s.operation = .starting todo) :
    Step ids .startCancel s { s with operation := .abandoned }
  | startRetire (s : Server) (h : s.operation = .abandoned) :
    Step ids .startRetire s
      { s with
        processes := []
        pending := s.processes
        operation := .retiring }
  | startSettle (s : Server) (h : s.operation = .retiring) (hempty : s.pending = []) :
    Step ids .startSettle s
      { s with operation := .settling (if s.retired.isEmpty then .unloaded else .error) }
  | startAbandon (s : Server) (now : Nat) (state : ModelLifecycle)
    (h : s.operation = .settling state) :
    Step ids .startAbandon s { s.setAll now state with operation := .free }
  | stopBegin (s : Server) (h : s.operation = .free) :
    Step ids .stopBegin s { s with operation := .group .stop }
  | stopChildren (s : Server) (owner : Owner) (id : String) (h : s.operation = .group owner) :
    Step ids (.stopChildren id) s (s.stopChildren owner id)
  | stopRefuse (s : Server) (owner : Owner) (h : s.operation = .group owner) :
    Step ids .stopRefuse s { s with operation := .stopped owner false }
  | terminated (s : Server) (process : Nat) (h : process ∈ s.exited)
    (hpending : process ∈ s.pending.map Prod.snd) :
    Step ids (.terminated process) s { s with seen := process :: s.seen }
  | stopFinish (s t : Server) (h : s.stopFinish = .ok t) : Step ids .stopFinish s t
  | stopDrop (s t : Server) (cancelled : Bool) (h : s.stopDrop cancelled = .ok t) :
    Step ids .stopDrop s t
  | retireProcess (s t : Server) (h : s.retireProcess = .ok t) : Step ids .retireProcess s t
  | stopDropped (s : Server) (owner : Owner) (cancelled : Bool)
    (h : s.operation = .stopDropping owner cancelled) (hempty : s.pending = []) :
    Step ids .stopDropped s
      { s with
        operation :=
          if cancelled then if owner = .start then .abandoned else .free
          else .stopped owner false }
  | stopReturn (s : Server) (now : Nat) (owner : Owner) (ok : Bool)
    (h : s.operation = .stopped owner ok) :
    Step ids .stopReturn s
      { s.stopReturned now owner ok with operation := .free }
  | monitorCheck (s : Server) (h : s.operation = .free) (hready : s.lifecycle = .ready) :
    Step ids .monitorCheck s { s with operation := .monitorChecked }
  | monitorPass (s : Server) (h : s.operation = .monitorChecked) :
    Step ids .monitorPass s { s with operation := .free }
  | monitorFail (s : Server) (alive : Nat → Bool) (h : s.operation = .monitorChecked)
    (hfail : s.slots.any fun e => e.2.state.resident && !s.runs alive e.1) :
    Step ids .monitorFail s { s with operation := .monitorFailed }
  | monitorWithdraw (s : Server) (now : Nat) (h : s.operation = .monitorFailed) :
    Step ids .monitorWithdraw s { s.setAll now .error with operation := .group .monitor }
  | demandReserve (s t : Server) (model : String) (generation : Nat) (id : String)
    (h : s.operation = .free) (ht : s.reserveControl model generation id true = .ok t) :
    Step ids (.demandReserve model id) s { t with operation := .reserved model id }
  | demandRefuse (s : Server) (model id : String) (h : s.operation = .reserved model id)
    (hno : ∀ t, s.loadAdmit model id true ≠ .ok t) :
    Step ids .demandRefuse s { s with operation := .free }
  | loadAdmit (s t : Server) (model id : String) (pin : Bool)
    (h : s.loadAdmit model id pin = .ok t) : Step ids (.loadAdmit model id) s t
  | loadSpawn (s t : Server) (model id : String) (pin : Bool) (process : Nat)
    (h : s.operation = .loading model id pin) (hnew : process ∉ s.spawned.map Prod.snd)
    (ht : s.spawnSlot model (some id) process = .ok t) :
    Step ids (.loadSpawn process) s { t with operation := .loaded model id pin }
  | loadReady (s t : Server) (alive : Nat → Bool) (now : Nat) (h : s.loadReady alive now = .ok t) :
    Step ids .loadReady s t
  | loadDrop (s t : Server) (h : s.loadDrop = .ok t) : Step ids .loadDrop s t
  | unloadAdmit (s t : Server) (model id : String) (h : s.unloadAdmit model id = .ok t) :
    Step ids (.unloadAdmit model id) s t
  | unloadFinish (s t : Server) (confirmed : Bool) (h : s.unloadFinish confirmed = .ok t) :
    Step ids .unloadFinish s t
  | unloadAbandon (s : Server) (model id : String) (generation : Nat)
    (h : s.operation = .unloading model id generation) :
    Step ids .unloadAbandon s { s with operation := .unloadDropping model id generation true }
  | unloadDrop (s t : Server) (h : s.unloadDrop = .ok t) : Step ids .unloadDrop s t

end Eef.Node.ModelServer
