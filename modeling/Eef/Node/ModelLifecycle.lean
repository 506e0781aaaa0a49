import Eef.Node.ModelServer

/-!
# Model lifecycle commands

`model_lifecycle.rs`: a runtime admits loads, unloads and Ollama preparations under operation
identities that the caller chooses, keeps one receipt for each, and runs them on one worker in
the order of a bounded queue.

The records lock guards the receipts. A call of `model_lifecycle_command` is one section under
it, except that the admission of a load or unload lets go of the gate of the model server
between reserving control and what follows: `admission` is the call that then holds the
records lock. The worker and `close` are split where they hold no lock. Steps of the model
server come in between, under identities that the node drew itself, or as the load or unload
that the worker is running.

`started` records the operations whose future the worker has begun to poll; no function reads
it.
-/

namespace Eef.Node.ModelLifecycle

open Eef.Lib
open Eef.Node.ModelServer (Server SlotResidency)

/-- `LifecycleCommand`; `inspect` is `Show`. -/
inductive LifecycleCommand where
  | inspect (operationId : Option String)
  | load (model : String) (generation : Nat) (operationId : String)
  | prepareOllama (model digest operationId : String)
  | unload (model : String) (generation : Nat) (operationId : String)
  | cancel (operationId : String)
  deriving DecidableEq, Repr

namespace LifecycleCommand

/-- The operation the command is about. -/
def selected : LifecycleCommand → Option String
  | .inspect operationId => operationId
  | .load _ _ operationId | .prepareOllama _ _ operationId | .unload _ _ operationId
  | .cancel operationId => some operationId

/-- `Load | Unload`, with the model whose control it reserves. -/
def controls : LifecycleCommand → Option String
  | .load model .. | .unload model .. => some model
  | _ => none

/-- `PrepareOllama`. -/
def prepares : LifecycleCommand → Bool
  | .prepareOllama .. => true
  | _ => false

/-- `Show`. -/
def inspects : LifecycleCommand → Bool
  | .inspect _ => true
  | _ => false

/-- `Load | Unload | PrepareOllama`: what a receipt is kept for. -/
def operates (c : LifecycleCommand) : Bool := c.controls.isSome || c.prepares

/-- `Load | PrepareOllama`. -/
def cancellable : LifecycleCommand → Bool
  | .load .. | .prepareOllama .. => true
  | _ => false

/-- `valid_provider_digest`. -/
def validProviderDigest (digest : String) : Bool := hexDigest digest

/-- The part of `LifecycleRequest::validate` that looks at the command. -/
def validate : LifecycleCommand → Result Unit
  | .prepareOllama model digest operationId => do
    Server.validateId model
    validateUuid operationId
    ensure (validProviderDigest digest) "Inspect the installed Ollama model's exact SHA-256 digest"
  | .load model _ operationId | .unload model _ operationId => do
    Server.validateId model
    validateUuid operationId
  | .cancel operationId => validateUuid operationId
  | .inspect operationId => each validateUuid operationId.toList

end LifecycleCommand

/-- `LifecycleRequest`. -/
structure LifecycleRequest where
  schemaVersion : Nat
  expectedNodeId : String
  expectedRuntimeId : Option String
  command : LifecycleCommand
  deriving DecidableEq, Repr

/-- `LifecycleRequest::validate`. -/
def LifecycleRequest.validate (r : LifecycleRequest) : Result Unit := do
  ensure (r.schemaVersion = 1) "Unsupported model lifecycle schema"
  validateRemoteNodeId r.expectedNodeId
  bailIf (¬r.command.inspects ∧ r.expectedRuntimeId.isNone)
    "Exact runtime required for model lifecycle mutation"
  each validateUuid r.expectedRuntimeId.toList
  r.command.validate

/-! ## The saved policy -/

/-- `StartupMode`. -/
inductive StartupMode where
  | eager
  | manual
  | onDemand
  deriving DecidableEq, Repr

/-- `ThinkingMode`. -/
inductive ThinkingMode where
  | inherit
  | disabled
  | enabled
  deriving DecidableEq, Repr

/-- `InterpreterSampling`. -/
structure InterpreterSampling where
  temperatureMilli : Nat
  topPMilli : Option Nat
  topK : Option Nat
  minPMilli : Option Nat
  presencePenaltyMilli : Option Int
  repeatPenaltyMilli : Option Nat
  seed : Option Nat
  deriving DecidableEq, Repr

/-- `ModelLifecyclePolicy`. -/
structure ModelLifecyclePolicy where
  startup : StartupMode
  idleUnloadSeconds : Option Nat
  queueCapacity : Nat
  receiptCapacity : Nat
  loadTimeoutSeconds : Nat
  terminationWaitSeconds : Nat
  ollamaKeepAliveSeconds : Option Int
  ollamaContextTokens : Option Nat
  thinkingMode : ThinkingMode
  interpreterSampling : InterpreterSampling
  deriving DecidableEq, Repr

/-- A signed integer of `width` bits. -/
def asInt (width : Nat) : Json → Option Int
  | .num n => (Json.Number.asI64 n).filter fun i =>
    decide (-2 ^ (width - 1) ≤ i) && decide (i < 2 ^ (width - 1))
  | _ => none

/-- Derived `Deserialize`. -/
def StartupMode.decode (j : Json) : Option StartupMode :=
  match j.asVariant with
  | some "eager" => some .eager
  | some "manual" => some .manual
  | some "on_demand" => some .onDemand
  | _ => none

@[inherit_doc StartupMode.decode]
def ThinkingMode.decode (j : Json) : Option ThinkingMode :=
  match j.asVariant with
  | some "inherit" => some .inherit
  | some "disabled" => some .disabled
  | some "enabled" => some .enabled
  | _ => none

namespace InterpreterSampling

/-- `InterpreterSampling::default`. -/
def default : InterpreterSampling := ⟨0, none, none, none, none, none, none⟩

@[inherit_doc StartupMode.decode]
def decode (j : Json) : Option InterpreterSampling := do
  let fs ← j.struct ["temperature_milli", "top_p_milli", "top_k", "min_p_milli",
    "presence_penalty_milli", "repeat_penalty_milli", "seed"] 0
  let temperatureMilli ← Json.defaultField fs "temperature_milli" (Json.asUInt 16) 0
  let topPMilli ← Json.optField fs "top_p_milli" (Json.asUInt 16)
  let topK ← Json.optField fs "top_k" (Json.asUInt 16)
  let minPMilli ← Json.optField fs "min_p_milli" (Json.asUInt 16)
  let presencePenaltyMilli ← Json.optField fs "presence_penalty_milli" (asInt 16)
  let repeatPenaltyMilli ← Json.optField fs "repeat_penalty_milli" (Json.asUInt 16)
  let seed ← Json.optField fs "seed" (Json.asUInt 32)
  return ⟨temperatureMilli, topPMilli, topK, minPMilli, presencePenaltyMilli, repeatPenaltyMilli,
    seed⟩

/-- `InterpreterSampling::validate`. -/
def validate (s : InterpreterSampling) : Result Unit :=
  bailIf (2000 < s.temperatureMilli ∨ s.topPMilli.any (fun v => decide (v < 1 ∨ 1000 < v))
    ∨ s.topK.any (fun v => decide (1024 < v)) ∨ s.minPMilli.any (fun v => decide (1000 < v))
    ∨ s.presencePenaltyMilli.any (fun v => decide (v < -2000 ∨ 2000 < v))
    ∨ s.repeatPenaltyMilli.any (fun v => decide (v < 100 ∨ 2000 < v))
    ∨ s.seed = some (2 ^ 32 - 1)) "Invalid interpreter sampling bounds"

end InterpreterSampling

namespace ModelLifecyclePolicy

/-- `ModelLifecyclePolicy::default`. -/
def default : ModelLifecyclePolicy :=
  ⟨.eager, none, 8, 256, 300, 5, none, none, .inherit, .default⟩

@[inherit_doc StartupMode.decode]
def decode (j : Json) : Option ModelLifecyclePolicy := do
  let fs ← j.struct ["startup", "idle_unload_seconds", "queue_capacity", "receipt_capacity",
    "load_timeout_seconds", "termination_wait_seconds", "ollama_keep_alive_seconds",
    "ollama_context_tokens", "thinking_mode", "interpreter_sampling"] 0
  let startup ← Json.defaultField fs "startup" StartupMode.decode .eager
  let idleUnloadSeconds ← Json.optField fs "idle_unload_seconds" (Json.asUInt 64)
  let queueCapacity ← Json.defaultField fs "queue_capacity" (Json.asUInt 64) 8
  let receiptCapacity ← Json.defaultField fs "receipt_capacity" (Json.asUInt 64) 256
  let loadTimeoutSeconds ← Json.defaultField fs "load_timeout_seconds" (Json.asUInt 64) 300
  let terminationWaitSeconds ← Json.defaultField fs "termination_wait_seconds" (Json.asUInt 64) 5
  let ollamaKeepAliveSeconds ← Json.optField fs "ollama_keep_alive_seconds" (asInt 64)
  let ollamaContextTokens ← Json.optField fs "ollama_context_tokens" (Json.asUInt 32)
  let thinkingMode ← Json.defaultField fs "thinking_mode" ThinkingMode.decode .inherit
  let interpreterSampling ←
    Json.defaultField fs "interpreter_sampling" InterpreterSampling.decode .default
  return ⟨startup, idleUnloadSeconds, queueCapacity, receiptCapacity, loadTimeoutSeconds,
    terminationWaitSeconds, ollamaKeepAliveSeconds, ollamaContextTokens, thinkingMode,
    interpreterSampling⟩

/-- `ModelLifecyclePolicy::validate`. -/
def validate (p : ModelLifecyclePolicy) : Result Unit := do
  p.interpreterSampling.validate
  bailIf (p.queueCapacity < 1 ∨ 64 < p.queueCapacity ∨ p.receiptCapacity < 1
    ∨ 4096 < p.receiptCapacity ∨ p.receiptCapacity < p.queueCapacity
    ∨ p.loadTimeoutSeconds < 1 ∨ 3600 < p.loadTimeoutSeconds
    ∨ p.terminationWaitSeconds < 1 ∨ 30 < p.terminationWaitSeconds
    ∨ p.idleUnloadSeconds.any (fun n => decide (n < 1 ∨ 86400 < n))
    ∨ p.ollamaKeepAliveSeconds.any (fun n => decide (n < -1 ∨ 86400 < n))
    ∨ p.ollamaContextTokens.any (fun n => decide (n < 512 ∨ 1048576 < n)))
    "Invalid model lifecycle policy bounds"

/-- `ModelLifecyclePolicy::revision_from_config`. -/
def revisionFromConfig (config : Json) : Result Nat :=
  match config.get? "model_lifecycle_revision" with
  | none => .ok 0
  | some value =>
    context (value.asUInt 64) "Invalid saved model policy revision; retain configuration"

/-- `ModelLifecyclePolicy::from_config`. -/
def fromConfig (config : Json) : Result ModelLifecyclePolicy := do
  let _ ← revisionFromConfig config
  let policy ← context (decode ((config.get? "model_lifecycle").getD (.obj [])))
    "invalid model lifecycle policy"
  policy.validate
  return policy

end ModelLifecyclePolicy

/-! ## Receipts -/

/-- The phases of a receipt. -/
inductive Phase where
  | queued
  | running
  | cancelRequested
  | completed
  | failed
  | cancelled
  | interrupted
  deriving DecidableEq, Repr

/-- `queued`, `running` and `cancel_requested`: what `close` still interrupts. -/
def Phase.live : Phase → Bool
  | .queued | .running | .cancelRequested => true
  | _ => false

/-- `OllamaPreparationObservation`. -/
structure OllamaPreparationObservation where
  providerReportedDigest : String
  observedContextTokens : Option Nat
  deriving DecidableEq, Repr

/-- `Receipt`. -/
structure Receipt where
  command : LifecycleCommand
  phase : Phase
  errorCode : Option String
  sharedServiceEffectsPossible : Bool
  preparation : Option OllamaPreparationObservation
  deriving DecidableEq, Repr

/-- `Operation`; `cancel` is what its `watch::Sender` holds. -/
structure Operation where
  receipt : Receipt
  cancel : Bool
  remote : Bool
  deriving DecidableEq, Repr

/-- What an operation yields: `Ok(None)` for a load or unload, and for a preparation what the
provider has answered about the context. -/
def LifecycleCommand.outcome (answer : Result (Option Nat)) :
    LifecycleCommand → Result (Option OllamaPreparationObservation)
  | .prepareOllama _ digest _ => do
    let observedContextTokens ← answer
    bailIf (observedContextTokens = some 0) "Invalid context report"
    return some ⟨digest, observedContextTokens⟩
  | _ => do
    let _ ← answer
    return none

/-- The record of a new operation. -/
def Operation.admitted (command : LifecycleCommand) (remote : Bool) : Operation where
  receipt := ⟨command, .queued, none, command.prepares, none⟩
  cancel := false
  remote

/-- A cancellation of an operation that is queued or running. -/
def Operation.requestCancel (op : Operation) : Operation :=
  { op with
    cancel := true
    receipt := { op.receipt with phase := .cancelRequested } }

/-- What `close` makes of a record. -/
def Operation.interrupt (op : Operation) : Operation :=
  if op.receipt.phase.live then
    { op with
      cancel := true
      receipt := { op.receipt with
        phase := .interrupted
        errorCode := some "runtime_closed" } }
  else op

/-- The worker takes an operation. -/
def Operation.start (op : Operation) : Operation :=
  { op with receipt := { op.receipt with phase := .running } }

/-- The worker writes how an operation ended, unless `close` was there first. -/
def Operation.settle (command : LifecycleCommand) (cancelled : Bool)
    (outcome : Result (Option OllamaPreparationObservation)) (op : Operation) : Operation :=
  if op.receipt.phase = .interrupted then op
  else
    let phase := if cancelled then .cancelled else if isOk outcome then .completed else .failed
    match outcome with
    | .ok preparation =>
      { op with receipt := { op.receipt with phase, preparation } }
    | .error _ =>
      { op with receipt := { op.receipt with
        phase
        errorCode := some (if command.prepares then "ollama_preparation_failed"
          else "owned_model_operation_failed") } }

/-! ## The runtime -/

/-- `IdleEvent`. -/
structure IdleEvent where
  modelId : String
  generation : Nat
  completed : Bool
  deriving DecidableEq, Repr

/-- The worker, `ModelRuntime::run`. -/
inductive Worker where
  /-- The receiver has not been taken. -/
  | unstarted
  /-- Awaits the queue or the idle tick. -/
  | waiting
  /-- `unload_idle`. -/
  | idling
  /-- Has received an identity. -/
  | popped (id : String)
  /-- Has then found the runtime open. -/
  | cleared (id : String)
  /-- Has then set the phase to `running`. -/
  | taken (id : String) (command : LifecycleCommand)
  /-- Polls the operation. -/
  | running (id : String) (command : LifecycleCommand)
  /-- The operation is over. -/
  | over (id : String) (command : LifecycleCommand) (cancelled : Bool)
    (outcome : Result (Option OllamaPreparationObservation))
  /-- Control is released. -/
  | released (id : String) (command : LifecycleCommand) (cancelled : Bool)
    (outcome : Result (Option OllamaPreparationObservation))
  /-- The loop has ended or was dropped, and the receiver with it. -/
  | gone

/-- How far `close` has come. -/
inductive Closing where
  | live
  /-- The flag is set. -/
  | swapped
  /-- The receipts are marked. -/
  | marked
  /-- The model server is closed. -/
  | shut
  | done
  deriving DecidableEq, Repr

/-- `ModelRuntime`, of the service `nodeId`. -/
structure ModelRuntime where
  nodeId : String
  id : String
  models : Json
  policy : ModelLifecyclePolicy
  policyRevision : Nat
  server : Option Server
  idleEvents : List IdleEvent
  closing : Closing
  records : List (String × Operation)
  queue : List String
  admission : Option (LifecycleCommand × Bool)
  worker : Worker
  started : List String

/-- What a weak reference to the engine gives, as far as it is asked here. -/
structure Engine where
  canPrepareOllama : String → Bool
  supportsOllamaPreparation : Bool

/-- `/management/allow_remote` of the saved configuration is `true`. -/
def allowRemote (config : Json) : Bool :=
  (config.get? "management").bind (·.get? "allow_remote") == some (.bool true)

/-- `/models/provider` of the saved configuration. -/
def provider (config : Json) : String :=
  (((config.get? "models").bind (·.get? "provider")).bind Json.asStr).getD "auto"

namespace ModelRuntime

/-- `closed`. -/
def closed (rt : ModelRuntime) : Bool := rt.closing != .live

/-- Changes each record. -/
def onRecords (f : String → Operation → Operation) (rt : ModelRuntime) : ModelRuntime :=
  { rt with records := rt.records.map fun e => (e.1, f e.1 e.2) }

/-- Changes one record. -/
def onRecord (id : String) (f : Operation → Operation) (rt : ModelRuntime) : ModelRuntime :=
  rt.onRecords fun i op => if i = id then f op else op

/-! ## Admission -/

/-- The first section of `model_lifecycle_command`; `closed` is what it reads of the flag. -/
def addressed (closed : Bool) (request : LifecycleRequest) (rt : ModelRuntime) : Result Unit := do
  request.validate
  bailIf (request.expectedNodeId ≠ rt.nodeId) "Model lifecycle node identity changed"
  bailIf (request.expectedRuntimeId.any (· != rt.id) ∨ closed)
    "Model lifecycle runtime changed; no automatic retry"

/-- `authorized`, where the service is known to be there. -/
def authorized (engine : Option Engine) (config : Json) (remote : Bool) (rt : ModelRuntime) :
    Result Unit := do
  let changed := "model runtime/settings changed before application"
  bailIf (rt.closed ∨ engine.isNone ∨ config.index "node_id" ≠ .str rt.nodeId
    ∨ config.index "models" ≠ rt.models) changed
  let policy ← ModelLifecyclePolicy.fromConfig config
  bailIf (policy ≠ rt.policy) changed
  let revision ← ModelLifecyclePolicy.revisionFromConfig config
  bailIf (revision ≠ rt.policyRevision) changed
  bailIf (remote ∧ ¬allowRemote config) "model management approval revoked before application"

/-- The checks that the admission of a load or unload makes in their place. -/
def admissible (engine : Option Engine) (config : Json) (remote : Bool) (rt : ModelRuntime) :
    Result Unit := do
  let changed := "Saved model settings changed; explicitly restart before lifecycle changes"
  bailIf (rt.closed ∨ engine.isNone) "Model runtime closed"
  bailIf (config.index "node_id" ≠ .str rt.nodeId ∨ config.index "models" ≠ rt.models) changed
  let policy ← ModelLifecyclePolicy.fromConfig config
  bailIf (policy ≠ rt.policy) changed
  let revision ← ModelLifecyclePolicy.revisionFromConfig config
  bailIf (revision ≠ rt.policyRevision) changed
  bailIf (remote ∧ ¬allowRemote config)
    "Model lifecycle requires current local owner management approval"

/-- `queue.try_send`: the receiver lives, and there is room. -/
def trySend (id : String) (rt : ModelRuntime) : Result (List String) := do
  bailIf (rt.worker matches .gone) "channel closed"
  ensure (rt.queue.length < rt.policy.queueCapacity) "no available capacity"
  return rt.queue ++ [id]

/-- What an operation finds under its identity: `true` for its own receipt. -/
def reuse (command : LifecycleCommand) (id : String) (rt : ModelRuntime) : Result Bool :=
  match rt.records.lookup id with
  | some old => do
    bailIf (old.receipt.command ≠ command) "Model lifecycle receipt conflicts; inspect original"
    return true
  | none => do
    bailIf (rt.policy.receiptCapacity ≤ rt.records.length)
      "Model lifecycle receipt capacity reached; no admission"
    return false

/-- A new receipt. -/
def insert (id : String) (op : Operation) (queue : List String) (rt : ModelRuntime) :
    ModelRuntime :=
  { rt with
    queue
    records := Assoc.set id op rt.records }

/-- `PrepareOllama`, where there is no receipt yet. -/
def admitPreparation (engine : Option Engine) (config : Result Json) (model digest id : String)
    (remote : Bool) (rt : ModelRuntime) : Result ModelRuntime := do
  let engine ← context engine "Model runtime closed"
  let config ← config
  rt.authorized (some engine) config remote
  bailIf ((provider config ≠ "auto" ∧ provider config ≠ "ollama") ∨ ¬engine.canPrepareOllama model
    ∨ rt.policy.ollamaKeepAliveSeconds = some 0)
    "Applied Ollama preparation unavailable; inspect selection and retention"
  let queue ← rt.trySend id
  return rt.insert id (.admitted (.prepareOllama model digest id) remote) queue

/-- `Load` and `Unload`, where there is no receipt yet, up to `reserve_control`. -/
def reserve (engine : Option Engine) (config : Result Json) (command : LifecycleCommand)
    (model : String) (generation : Nat) (id : String) (load remote : Bool) (rt : ModelRuntime) :
    Result ModelRuntime := do
  let server ← context rt.server
    "Owned GGUF lifecycle unavailable for this active backend; no fallback or external unload"
  let config ← config
  rt.admissible engine config remote
  let server ← server.reserveControl model generation id load
  return { rt with
    server := some server
    admission := some (command, remote) }

/-- `Cancel`. -/
def cancel (config : Result Json) (id : String) (remote : Bool) (rt : ModelRuntime) :
    Result (ModelRuntime × Bool) := do
  let old ← context (rt.records.lookup id) "Model lifecycle receipt unavailable"
  ensure old.receipt.command.cancellable "Only an exact load or preparation can be cancelled"
  if old.receipt.phase = .queued ∨ old.receipt.phase = .running then do
    let config ← config
    bailIf (remote ∧ ¬allowRemote config)
      "Model lifecycle requires current local owner management approval"
    return (rt.onRecord id Operation.requestCancel, false)
  else return (rt, true)

/-- The section of `model_lifecycle_command` under the records lock, up to `reserve_control`
for a load or unload; with it `reused`. -/
def admitCommand (engine : Option Engine) (config : Result Json) (command : LifecycleCommand)
    (remote : Bool) (rt : ModelRuntime) : Result (ModelRuntime × Bool) :=
  let operate (id : String) (new : Result ModelRuntime) : Result (ModelRuntime × Bool) := do
    let reused ← rt.reuse command id
    if reused then return (rt, true)
    else do
      let t ← new
      return (t, false)
  match command with
  | .inspect _ => .ok (rt, false)
  | .cancel id => rt.cancel config id remote
  | .prepareOllama model digest id =>
    operate id (rt.admitPreparation engine config model digest id remote)
  | .load model generation id =>
    operate id (rt.reserve engine config command model generation id true remote)
  | .unload model generation id =>
    operate id (rt.reserve engine config command model generation id false remote)

/-- The rest of the admission of a load or unload. A queue that refuses gives up the control. -/
def enqueue (rt : ModelRuntime) : ModelRuntime × Result Unit :=
  match rt.admission with
  | some (command, remote) =>
    match command.controls, command.selected with
    | some model, some id =>
      match rt.trySend id with
      | .ok queue =>
        ({ rt.insert id (.admitted command remote) queue with admission := none }, .ok ())
      | .error msg =>
        ({ rt with
          server := rt.server.map (·.releaseControl model id)
          admission := none }, .error msg)
    | _, _ => (rt, .ok ())
  | none => (rt, .ok ())

/-! ## The worker and `close` -/

/-- The worker takes the operation it has received, or passes over it. -/
def take (id : String) (rt : ModelRuntime) : ModelRuntime :=
  match rt.records.lookup id with
  | some op =>
    if op.receipt.phase = .queued ∨ op.receipt.phase = .cancelRequested then
      { rt.onRecord id Operation.start with worker := .taken id op.receipt.command }
    else { rt with worker := .waiting }
  | none => { rt with worker := .waiting }

/-- The worker begins the operation it has taken, unless a cancellation was there first. -/
def begin (id : String) (command : LifecycleCommand) (rt : ModelRuntime) : ModelRuntime :=
  if (rt.records.lookup id).any (·.cancel) then { rt with worker := .over id command true (.ok none) }
  else { rt with
    worker := .running id command
    started := id :: rt.started }

/-- The worker releases the control of a load or unload that is over. -/
def release (id : String) (command : LifecycleCommand) (rt : ModelRuntime) : ModelRuntime :=
  match command.controls with
  | some model => { rt with server := rt.server.map (·.releaseControl model id) }
  | none => rt

/-- `close` marks the receipts. -/
def interrupt (rt : ModelRuntime) : ModelRuntime :=
  { rt.onRecords fun _ => Operation.interrupt with closing := .marked }

/-- No future of the model server runs under the identity. -/
def quiet (rt : ModelRuntime) (id : String) (command : LifecycleCommand) : Bool :=
  match command.controls with
  | some model => rt.server.all fun s => !s.runsUnder model id
  | none => true

/-- `unload_idle` keeps the last 32 events. -/
def pushIdle (event : IdleEvent) (rt : ModelRuntime) : ModelRuntime :=
  { rt with
    idleEvents := (if rt.idleEvents.length = 32 then rt.idleEvents.drop 1 else rt.idleEvents)
      ++ [event] }

end ModelRuntime

/-! ## Steps -/

/-- The identity a section of the model server is called under. -/
def identity : ModelServer.Act → Option String
  | .reserveControl _ id | .releaseControl _ id | .reserveIdle _ id | .stopChildren id
  | .demandReserve _ id | .loadAdmit _ id | .unloadAdmit _ id => some id
  | _ => none

/-- The section is the load or unload that the worker is running. -/
def Worker.calls (worker : Worker) (a : ModelServer.Act) : Prop :=
  match worker with
  | .running id (.load model _ _) => a = .loadAdmit model id
  | .running id (.unload model _ _) => a = .unloadAdmit model id
  | _ => False

/-- The worker awaits, and its future can be dropped. -/
def Worker.awaits : Worker → Bool
  | .waiting | .idling | .running .. => true
  | _ => false

/-- One step of a task. `drawn` are the identities that the node draws with `Uuid::new_v4`: no
request names one, and whatever is not called by the worker runs under one of them. -/
inductive Step (drawn : String → Prop) (ids : List String) : ModelRuntime → ModelRuntime → Prop where
  | admitted (rt t : ModelRuntime) (closed : Bool) (request : LifecycleRequest)
    (engine : Option Engine) (config : Result Json) (remote reused : Bool)
    (hrequest : rt.addressed closed request = .ok ())
    (hid : ∀ id, request.command.selected = some id → ¬drawn id) (hlock : rt.admission = none)
    (h : rt.admitCommand engine config request.command remote = .ok (t, reused)) : Step drawn ids rt t
  | enqueue (rt : ModelRuntime) : Step drawn ids rt rt.enqueue.1
  | closeSwap (rt : ModelRuntime) (h : rt.closing = .live) :
    Step drawn ids rt { rt with closing := .swapped }
  | closeInterrupt (rt : ModelRuntime) (h : rt.closing = .swapped) (hlock : rt.admission = none) :
    Step drawn ids rt rt.interrupt
  | closeServer (rt : ModelRuntime) (h : rt.closing = .marked) :
    Step drawn ids rt
      { rt with
        server := rt.server.map Server.close
        closing := .shut }
  | closeWake (rt : ModelRuntime) (h : rt.closing = .shut) :
    Step drawn ids rt
      { rt with
        queue := (rt.trySend "").toOption.getD rt.queue
        closing := .done }
  | run (rt : ModelRuntime) (h : rt.worker = .unstarted) :
    Step drawn ids rt { rt with worker := .waiting }
  | tick (rt : ModelRuntime) (h : rt.worker = .waiting)
    (hidle : rt.policy.idleUnloadSeconds.isSome) :
    Step drawn ids rt { rt with worker := if rt.closed then .gone else .idling }
  | idleEvent (rt : ModelRuntime) (event : IdleEvent) (h : rt.worker = .idling) :
    Step drawn ids rt (rt.pushIdle event)
  | idled (rt : ModelRuntime) (h : rt.worker = .idling) :
    Step drawn ids rt { rt with worker := .waiting }
  | recv (rt : ModelRuntime) (id : String) (queue : List String) (h : rt.worker = .waiting)
    (hqueue : rt.queue = id :: queue) :
    Step drawn ids rt
      { rt with
        queue
        worker := .popped id }
  | check (rt : ModelRuntime) (id : String) (h : rt.worker = .popped id) :
    Step drawn ids rt { rt with worker := if rt.closed then .gone else .cleared id }
  | take (rt : ModelRuntime) (id : String) (h : rt.worker = .cleared id)
    (hlock : rt.admission = none) : Step drawn ids rt (rt.take id)
  | begin (rt : ModelRuntime) (id : String) (command : LifecycleCommand)
    (h : rt.worker = .taken id command) : Step drawn ids rt (rt.begin id command)
  | cancelled (rt : ModelRuntime) (id : String) (command : LifecycleCommand)
    (h : rt.worker = .running id command) (hcancel : (rt.records.lookup id).any (·.cancel))
    (hquiet : rt.quiet id command) :
    Step drawn ids rt { rt with worker := .over id command true (.ok none) }
  | finished (rt : ModelRuntime) (id : String) (command : LifecycleCommand)
    (answer : Result (Option Nat)) (h : rt.worker = .running id command)
    (hquiet : rt.quiet id command) :
    Step drawn ids rt { rt with worker := .over id command false (command.outcome answer) }
  | release (rt : ModelRuntime) (id : String) (command : LifecycleCommand) (cancelled : Bool)
    (outcome : Result (Option OllamaPreparationObservation))
    (h : rt.worker = .over id command cancelled outcome) :
    Step drawn ids rt
      { rt.release id command with worker := .released id command cancelled outcome }
  | settle (rt : ModelRuntime) (id : String) (command : LifecycleCommand) (cancelled : Bool)
    (outcome : Result (Option OllamaPreparationObservation))
    (h : rt.worker = .released id command cancelled outcome) (hlock : rt.admission = none) :
    Step drawn ids rt
      { rt.onRecord id (Operation.settle command cancelled outcome) with worker := .waiting }
  | abandon (rt : ModelRuntime) (h : rt.worker.awaits) : Step drawn ids rt { rt with worker := .gone }
  | server (rt : ModelRuntime) (a : ModelServer.Act) (s s' : Server) (h : rt.server = some s)
    (hstep : ModelServer.Step ids a s s')
    (hwho : (∀ id, identity a = some id → drawn id) ∨ rt.worker.calls a) :
    Step drawn ids rt { rt with server := some s' }

/-! ## Replies -/

/-- `JobAccounting`. -/
inductive JobAccounting where
  | available (jobCommitLimitBytes : Option Nat) (peakJobCommitBytes activeProcesses
      totalUserCpu100ns totalKernelCpu100ns : Nat)
  | noOwnedJob
  | unsupported
  | unavailable
  deriving DecidableEq, Repr

/-- `JobAccounting::validate`. -/
def JobAccounting.validate : JobAccounting → Bool
  | .available (some bytes) .. =>
    bytes % (1024 * 1024) == 0 && decide (64 ≤ bytes / (1024 * 1024))
      && decide (bytes / (1024 * 1024) ≤ 1048576)
  | _ => true

/-- `Snapshot`. -/
structure Snapshot where
  modelId : String
  state : ModelServer.ModelLifecycle
  generation : Nat
  activeRequests : Nat
  controlPending : Bool
  ownedPid : Option Nat
  jobAccounting : Option JobAccounting
  deriving DecidableEq, Repr

/-- `Report`, less what the reply always says. -/
structure Report where
  nodeId : String
  runtimeId : String
  command : LifecycleCommand
  supported : Bool
  ollamaPreparationSupported : Bool
  models : List Snapshot
  idleEvents : List IdleEvent
  receipt : Option Receipt
  reused : Bool
  deriving DecidableEq, Repr

/-- One model of `ModelServer::snapshot`; `observe` gives the process identity of a handle and
the accounting of its job. -/
def snapshotOf (observe : Nat → Option Nat × JobAccounting) (s : Server) (model : String)
    (r : SlotResidency) : Snapshot where
  modelId := model
  state := r.state
  generation := r.generation
  activeRequests := r.active
  controlPending := r.control.isSome
  ownedPid := (s.processes.lookup model).bind fun process => (observe process).1
  jobAccounting := some <|
    match s.processes.lookup model with
    | some process => (observe process).2
    | none =>
      if r.state.withdrawn || (s.retired.lookup model).isSome then .unavailable else .noOwnedJob

/-- `ModelServer::snapshot`, of the configured `ids`. -/
def snapshot (ids : List String) (saw : Nat → Bool) (observe : Nat → Option Nat × JobAccounting)
    (s : Server) : Result (List Snapshot) := do
  (s.initializeResidency ids).2
  let t := (s.initializeResidency ids).1.releaseObservedErrors saw
  return (t.slots.map fun e => snapshotOf observe t e.1 e.2).mergeSort
    fun a b => decide (a.modelId ≤ b.modelId)

/-- What `confirmed` requires of one model. -/
def Snapshot.confirmed (s : Snapshot) : Bool :=
  let withdrawn := match s.jobAccounting with
    | none | some .unavailable => true
    | _ => false
  isOk (Server.validateId s.modelId) && s.ownedPid != some 0
    && s.jobAccounting.all (fun sample =>
      sample.validate && !(sample == .noOwnedJob && s.ownedPid.isSome))
    && !(decide (0 < s.activeRequests) && s.state != .active)
    && !(s.state == .unloading && (!s.controlPending || s.ownedPid.isSome || !withdrawn))
    && !(s.state == .unloadUnconfirmed && (s.controlPending || s.ownedPid.isSome))

/-- What `confirmed` requires of a receipt, in the reply of a runtime to a command. -/
def Receipt.confirmed (report : Report) (request : LifecycleRequest) (receipt : Receipt) : Bool :=
  let nested : LifecycleRequest := ⟨1, report.nodeId, some report.runtimeId, receipt.command⟩
  let shared := receipt.command.prepares
  let failed := receipt.phase == .failed || receipt.phase == .interrupted
  isOk nested.validate
    && (if shared then report.ollamaPreparationSupported else report.supported)
    && receipt.sharedServiceEffectsPossible == shared
    && receipt.preparation.isSome == (shared && receipt.phase == .completed)
    && (match request.command with
      | .cancel _ => receipt.command.cancellable
      | _ => true)
    && failed == receipt.errorCode.isSome
    && receipt.errorCode.all (fun e => decide (e.utf8ByteSize ≤ 64))
    && (match receipt.command with
      | .prepareOllama _ digest operationId =>
        request.command.selected == some operationId && receipt.preparation.all fun p =>
          p.providerReportedDigest == digest
            && LifecycleCommand.validProviderDigest p.providerReportedDigest
            && p.observedContextTokens != some 0
      | .load _ _ operationId | .unload _ _ operationId =>
        request.command.selected == some operationId
      | _ => false)
    && (!request.command.operates || receipt.command == request.command)

/-- Model identities in ascending order. -/
def ascending : List Snapshot → Bool
  | a :: b :: rest => decide (a.modelId < b.modelId) && ascending (b :: rest)
  | _ => true

/-- `confirmed`. -/
def confirmed (r : Report) (request : LifecycleRequest) : Bool :=
  isOk request.validate && r.nodeId == request.expectedNodeId && r.command == request.command
    && uuid r.runtimeId && request.expectedRuntimeId.all (· == r.runtimeId)
    && decide (r.models.length ≤ 256) && decide (r.idleEvents.length ≤ 32)
    && r.idleEvents.all (fun event => isOk (Server.validateId event.modelId))
    && r.models.all Snapshot.confirmed && ascending r.models
    && !(!r.supported && (!r.models.isEmpty || !r.idleEvents.isEmpty))
    && !(request.command.inspects && r.reused)
    && request.command.selected.isSome == r.receipt.isSome
    && r.receipt.all (Receipt.confirmed r request)

/-- The receipt that a reply shows. -/
def ModelRuntime.receipt (command : LifecycleCommand) (rt : ModelRuntime) :
    Result (Option Receipt) :=
  match command.selected with
  | none => .ok none
  | some id => do
    let op ← context (rt.records.lookup id) "Receipt unavailable"
    return some op.receipt

/-- The sections of `model_lifecycle_command` after the admission: the receipt is read of `rt`,
the models of `models`, which runs later, and the idle events after that. -/
def reply (request : LifecycleRequest) (engine : Option Engine) (reused : Bool) (rt : ModelRuntime)
    (models : Result (List Snapshot)) (idleEvents : List IdleEvent) : Result Report := do
  let receipt ← rt.receipt request.command
  let models ← models
  let report : Report := {
    nodeId := rt.nodeId
    runtimeId := rt.id
    command := request.command
    supported := rt.server.isSome
    ollamaPreparationSupported := engine.any Engine.supportsOllamaPreparation
    models
    idleEvents
    receipt
    reused }
  ensure (confirmed report request)
    "Model lifecycle reply not confirmed; inspect exact receipt"
  return report

end Eef.Node.ModelLifecycle
