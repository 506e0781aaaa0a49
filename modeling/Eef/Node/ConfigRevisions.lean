import Eef.Lib.Versioned
import Eef.Node.ModelBootstrap
import Eef.Node.ModelLifecycle

/-!
# Revision fences of the saved configuration

`save_config_inner` (`service.rs`) is the one way a configuration is saved: by generic saves,
restores and resets with a document of the caller's, and by the typed commands `Set`
(`model_lifecycle_policy.rs`) and `Configure` (`model_bootstrap.rs`). It drops the two
revisions that the document carries and counts its own, one for each policy, by the policies
it decodes. So a revision never comes back, and a command that names the version it has read
finds out about every change in between.

The configuration is the value that `read_config` returns. `Checks` stands for the checks of
members that nothing here reads, and for the reading of the model catalog.
-/

namespace Eef.Node.Configuration

open Eef.Lib
open Eef.Node.Listening (assign strip)
open Eef.Node.ModelBootstrap (CatalogPin Policy Saved checkedSucc storeRevision)
open Eef.Node.ModelLifecycle (ModelLifecyclePolicy InterpreterSampling StartupMode ThinkingMode)

/-! ## Versions of the lifecycle policy -/

/-- A signed integer. -/
def int : Int → Json
  | .ofNat n => .nat n
  | .negSucc n => .num (.negInt n)

/-- A member that is left out where it is `none`. -/
def present {α : Type} (key : String) (f : α → Json) : Option α → List (String × Json)
  | none => []
  | some a => [(key, f a)]

/-- Derived `Serialize`. -/
def startupName : StartupMode → String
  | .eager => "eager"
  | .manual => "manual"
  | .onDemand => "on_demand"

@[inherit_doc startupName]
def thinkingName : ThinkingMode → String
  | .inherit => "inherit"
  | .disabled => "disabled"
  | .enabled => "enabled"

@[inherit_doc startupName]
def samplingJson (s : InterpreterSampling) : Json :=
  .obj ([("temperature_milli", .nat s.temperatureMilli)]
    ++ present "top_p_milli" Json.nat s.topPMilli ++ present "top_k" Json.nat s.topK
    ++ present "min_p_milli" Json.nat s.minPMilli
    ++ present "presence_penalty_milli" int s.presencePenaltyMilli
    ++ present "repeat_penalty_milli" Json.nat s.repeatPenaltyMilli
    ++ present "seed" Json.nat s.seed)

@[inherit_doc startupName]
def policyJson (p : ModelLifecyclePolicy) : Json :=
  .obj ([("startup", .str (startupName p.startup)),
      ("idle_unload_seconds", Json.ofOption Json.nat p.idleUnloadSeconds),
      ("queue_capacity", .nat p.queueCapacity), ("receipt_capacity", .nat p.receiptCapacity),
      ("load_timeout_seconds", .nat p.loadTimeoutSeconds),
      ("termination_wait_seconds", .nat p.terminationWaitSeconds),
      ("ollama_keep_alive_seconds", Json.ofOption int p.ollamaKeepAliveSeconds)]
    ++ present "ollama_context_tokens" Json.nat p.ollamaContextTokens
    ++ (if p.thinkingMode = .inherit then []
      else [("thinking_mode", .str (thinkingName p.thinkingMode))])
    ++ (if p.interpreterSampling = .default then []
      else [("interpreter_sampling", samplingJson p.interpreterSampling)]))

/-- What `versioned_digest` hashes. -/
def version (p : ModelLifecyclePolicy) (revision : Nat) : Json :=
  .obj [("schema_version", .nat 1), ("revision", .nat revision), ("policy", policyJson p)]

/-- `versioned_digest`. -/
def versionedDigest [Sha256] (p : ModelLifecyclePolicy) (revision : Nat) : Result String := do
  p.validate
  return Sha256.raw (version p revision)

/-! ## The save -/

/-- What a save relies on and nothing here reads: the checks that `validate_config_shape` makes
of the other members, `validate_model_references`, and `CatalogPin::from_config`. -/
structure Checks where
  shape : Json → Result Unit
  references : Json → Json → Result Unit
  catalogPin : Json → String → Result CatalogPin

/-- `validate_config_shape`. -/
def validateConfigShape (env : Checks) (value : Json) : Result Unit := do
  let _ ← Listening.Consent.fromConfig value
  let _ ← Listening.revision value
  let _ ← ModelLifecyclePolicy.fromConfig value
  env.shape value

/-- `setup::validate_name`. -/
def validateName (name : String) : Result Unit :=
  bailIf (name.toList.all isWhitespace ∨ 100 < name.length ∨ name.toList.any isControl)
    "Choose a node name between 1 and 100 characters"

/-- A member that the document omits is the old one. -/
def inheritMember (key : String) (old value : Json) : Result Json :=
  match value.get? key, old.get? key with
  | none, some v => assign value key v
  | _, _ => .ok value

/-- The node identity is the old one. -/
def keepIdentity (old value : Json) : Result Json :=
  match old.get? "node_id" with
  | some id => assign value "node_id" id
  | none => .ok value

/-- `SECRET_PLACEHOLDER`. -/
def secretPlaceholder : String := "__KEEP_EXISTING_SECRET__"

/-- The placeholder stands for the old secret. -/
def keepSecret (old value : Json) : Result Json :=
  if (value.get? "psk").bind Json.asStr = some secretPlaceholder then
    match old.get? "psk" with
    | some secret => assign value "psk" secret
    | none => .ok (strip value "psk")
  else .ok value

/-- The revision of the lifecycle policy that comes in. -/
def nextRevision (previous incoming : ModelLifecyclePolicy) (revision : Nat) : Result Nat :=
  if previous ≠ incoming then
    checkedSucc revision "Model policy revision exhausted; no wrap or reset"
  else .ok revision

/-- The lifecycle policy of a document, and the revision it is saved under. -/
def preserveLifecycle (old value : Json) : Result Json := do
  let previousPolicy ← ModelLifecyclePolicy.fromConfig old
  let incomingPolicy ← context
    (ModelLifecyclePolicy.decode ((value.get? "model_lifecycle").getD (.obj [])))
    "invalid model lifecycle policy"
  incomingPolicy.validate
  let previousRevision ← ModelLifecyclePolicy.revisionFromConfig old
  let revision ← nextRevision previousPolicy incomingPolicy previousRevision
  storeRevision "model_lifecycle_revision" old value revision

/-- The members that are carried over from the old configuration. -/
def carryMembers (old value : Json) : Result Json := do
  let value ← inheritMember "auth_mode" old value
  let value ← inheritMember "coordinator_certificate" old value
  let value ← keepIdentity old value
  match value.get? "name" with
  | some name => validateName (name.asStr.getD "")
  | none => .ok ()
  keepSecret old value

/-- `save_config_inner`: the configuration that is stored. -/
def saveConfigInner [Sha256] (env : Checks) (old value : Json)
    (bootstrapAuthorized listeningAuthorized : Bool) : Result Json := do
  ensure value.isObject "node configuration must be a JSON object"
  let value ← ModelBootstrap.preserveRevision old value bootstrapAuthorized
  let value ← Listening.preserveRevision old value listeningAuthorized
  let value ← preserveLifecycle old value
  let value ← carryMembers old value
  validateConfigShape env value
  env.references value old
  return value

/-! ## The typed commands -/

/-- `SamplingPatch`. -/
structure SamplingPatch where
  temperatureMilli : Option Nat
  topPMilli : Option Nat
  topK : Option Nat
  minPMilli : Option Nat
  presencePenaltyMilli : Option Int
  repeatPenaltyMilli : Option Nat
  seed : Option Nat
  reset : Bool
  deriving DecidableEq, Repr

namespace SamplingPatch

/-- `SamplingPatch::default`. -/
def empty : SamplingPatch := ⟨none, none, none, none, none, none, none, false⟩

/-- `apply_unchecked`. -/
def applyUnchecked (p : SamplingPatch) (before : InterpreterSampling) : InterpreterSampling :=
  if p.reset then .default
  else {
    temperatureMilli := p.temperatureMilli.getD before.temperatureMilli
    topPMilli := p.topPMilli.or before.topPMilli
    topK := p.topK.or before.topK
    minPMilli := p.minPMilli.or before.minPMilli
    presencePenaltyMilli := p.presencePenaltyMilli.or before.presencePenaltyMilli
    repeatPenaltyMilli := p.repeatPenaltyMilli.or before.repeatPenaltyMilli
    seed := p.seed.or before.seed }

/-- `SamplingPatch::validate`. -/
def validate (p : SamplingPatch) : Result Unit := do
  bailIf (p.reset ∧ { p with reset := false } ≠ empty)
    "Interpreter sampling reset conflicts with explicit choices"
  (p.applyUnchecked .default).validate

/-- `SamplingPatch::apply`. -/
def apply (p : SamplingPatch) (before : InterpreterSampling) : Result InterpreterSampling := do
  p.validate
  let next := p.applyUnchecked before
  next.validate
  return next

end SamplingPatch

/-- `PolicyCommand::Set`. -/
structure PolicySet where
  expectedDigest : String
  startup : Option StartupMode
  idleUnloadSeconds : Option Nat
  queueCapacity : Option Nat
  receiptCapacity : Option Nat
  loadTimeoutSeconds : Option Nat
  terminationWaitSeconds : Option Nat
  ollamaKeepAliveSeconds : Option Int
  ollamaKeepAliveDefault : Bool
  ollamaContextTokens : Option Nat
  ollamaContextDefault : Bool
  thinkingMode : Option ThinkingMode
  interpreterSampling : SamplingPatch
  deriving DecidableEq, Repr

namespace PolicySet

/-- No field is chosen. -/
def empty (c : PolicySet) : Bool :=
  c.startup.isNone && c.idleUnloadSeconds.isNone && c.queueCapacity.isNone
    && c.receiptCapacity.isNone && c.loadTimeoutSeconds.isNone && c.terminationWaitSeconds.isNone
    && c.ollamaKeepAliveSeconds.isNone && !c.ollamaKeepAliveDefault
    && c.ollamaContextTokens.isNone && !c.ollamaContextDefault && c.thinkingMode.isNone
    && c.interpreterSampling == .empty

/-- The part of `PolicyRequest::validate` that looks at the command. -/
def validate (c : PolicySet) : Result Unit := do
  ensure (hexDigest c.expectedDigest) "Exact lowercase policy digest required"
  bailIf c.empty "Choose at least one lifecycle policy field"
  c.interpreterSampling.validate
  bailIf (c.idleUnloadSeconds.any (fun n => decide (86400 < n))
    ∨ c.queueCapacity.any (fun n => decide (n < 1 ∨ 64 < n))
    ∨ c.receiptCapacity.any (fun n => decide (n < 1 ∨ 4096 < n))
    ∨ c.loadTimeoutSeconds.any (fun n => decide (n < 1 ∨ 3600 < n))
    ∨ c.terminationWaitSeconds.any (fun n => decide (n < 1 ∨ 30 < n))
    ∨ c.ollamaKeepAliveSeconds.any (fun n => decide (n < -1 ∨ 86400 < n))
    ∨ (c.ollamaKeepAliveDefault ∧ c.ollamaKeepAliveSeconds.isSome)
    ∨ c.ollamaContextTokens.any (fun n => decide (n < 512 ∨ 1048576 < n))
    ∨ (c.ollamaContextDefault ∧ c.ollamaContextTokens.isSome)) "Invalid lifecycle policy choice"

/-- `PolicyCommand::apply`. -/
def apply [Sha256] (c : PolicySet) (current : ModelLifecyclePolicy) (revision : Nat) :
    Result ModelLifecyclePolicy := do
  let digest ← versionedDigest current revision
  bailIf (c.expectedDigest ≠ digest)
    "Saved model policy changed; inspect before a new owner decision"
  bailIf (c.ollamaContextDefault ∧ c.ollamaContextTokens.isSome)
    "Choose Ollama context tokens or inherited context, not both"
  let interpreterSampling ← c.interpreterSampling.apply current.interpreterSampling
  let next : ModelLifecyclePolicy := {
    startup := c.startup.getD current.startup
    idleUnloadSeconds :=
      match c.idleUnloadSeconds with
      | some n => if n ≠ 0 then some n else none
      | none => current.idleUnloadSeconds
    queueCapacity := c.queueCapacity.getD current.queueCapacity
    receiptCapacity := c.receiptCapacity.getD current.receiptCapacity
    loadTimeoutSeconds := c.loadTimeoutSeconds.getD current.loadTimeoutSeconds
    terminationWaitSeconds := c.terminationWaitSeconds.getD current.terminationWaitSeconds
    ollamaKeepAliveSeconds :=
      if c.ollamaKeepAliveDefault then none
      else c.ollamaKeepAliveSeconds.or current.ollamaKeepAliveSeconds
    ollamaContextTokens :=
      if c.ollamaContextDefault then none
      else c.ollamaContextTokens.or current.ollamaContextTokens
    thinkingMode := c.thinkingMode.getD current.thinkingMode
    interpreterSampling }
  next.validate
  return next

end PolicySet

/-- `PolicyRequest`, with `Set` for its command. -/
structure PolicyRequest where
  schemaVersion : Nat
  expectedNodeId : String
  expectedRuntimeId : Option String
  command : PolicySet
  deriving DecidableEq, Repr

/-- `PolicyRequest::validate`. -/
def PolicyRequest.validate (r : PolicyRequest) : Result Unit := do
  ensure (r.schemaVersion = 1) "Unsupported model lifecycle policy schema"
  validateRemoteNodeId r.expectedNodeId
  each validateUuid r.expectedRuntimeId.toList
  r.command.validate

/-- `model_lifecycle_policy_command` for `Set`, on a node whose open runtime is `runtime`: the
configuration after it. -/
def setPolicy [Sha256] (env : Checks) (nodeId : String) (runtime : Option String)
    (request : PolicyRequest) (remote offline : Bool) (config : Json) : Result Json := do
  request.validate
  bailIf (request.expectedNodeId ≠ nodeId) "Model policy node identity changed"
  bailIf (offline ∧ runtime.isSome) "Offline model policy cannot control a running runtime"
  bailIf (¬offline ∧ runtime.isNone) "Model policy runtime unavailable"
  bailIf (request.expectedRuntimeId.any (fun id => some id != runtime)
    ∨ (¬offline ∧ request.expectedRuntimeId.isNone))
    "Exact current runtime required; no automatic refresh"
  bailIf (config.index "node_id" ≠ .str nodeId) "Saved node identity changed"
  bailIf (remote ∧ ¬ModelLifecycle.allowRemote config)
    "Model policy requires current local owner management approval"
  let before ← ModelLifecyclePolicy.fromConfig config
  let revision ← ModelLifecyclePolicy.revisionFromConfig config
  let saved ← request.command.apply before revision
  let _ ← nextRevision before saved revision
  if saved = before then return config
  else do
    let next ← assign config "model_lifecycle" (policyJson saved)
    saveConfigInner env config next false false

/-- `Target`. -/
inductive Target where
  | keep
  | projectDefault
  | catalog (modelId : String)
  deriving DecidableEq, Repr

/-- `Command::Configure`. -/
structure Configure where
  previous : Saved
  mode : Option ModelBootstrap.Mode
  target : Target
  automation : Option Bool
  restartAfterSetup : Option Bool
  deriving DecidableEq, Repr

/-- `Command::validate` for `Configure`. -/
def Configure.validate [Sha256] (c : Configure) : Result Unit := do
  c.previous.validate
  bailIf (c.mode.isNone ∧ c.target = .keep ∧ c.automation.isNone ∧ c.restartAfterSetup.isNone)
    "Choose a bootstrap preference; use show to inspect"
  match c.target with
  | .catalog modelId => ModelServer.Server.validateId modelId
  | _ => .ok ()

/-- `Request`, with `Configure` for its command. -/
structure ConfigureRequest where
  schemaVersion : Nat
  expectedNodeId : String
  expectedRuntimeId : String
  command : Configure
  deriving DecidableEq, Repr

/-- `Request::validate`. -/
def ConfigureRequest.validate [Sha256] (r : ConfigureRequest) : Result Unit := do
  validateRemoteNodeId r.expectedNodeId
  validateUuid r.expectedRuntimeId
  ensure (r.schemaVersion = 1) "Unsupported bootstrap policy command schema"
  r.command.validate

/-- The catalog binding that `Configure` leaves. -/
def Target.resolve (env : Checks) (config : Json) (current : Option CatalogPin) :
    Target → Result (Option CatalogPin)
  | .keep => .ok current
  | .projectDefault => .ok none
  | .catalog modelId => do
    let pin ← env.catalogPin config modelId
    return some pin

/-- `model_bootstrap_policy` for `Configure`, on a node whose engine is bound to `runtime`: the
configuration after it. -/
def configure [Sha256] (env : Checks) (nodeId : String) (runtime live : Option String)
    (request : ConfigureRequest) (remote : Bool) (config : Json) : Result Json := do
  request.validate
  bailIf (request.expectedNodeId ≠ nodeId) "Bootstrap preferences target another node"
  let bound ← context runtime "Node runtime unavailable"
  bailIf (bound ≠ request.expectedRuntimeId) "Node permission runtime changed"
  bailIf (config.index "node_id" ≠ .str nodeId ∨ live ≠ some request.expectedRuntimeId)
    "Bootstrap preferences runtime/identity changed"
  let saved ← Saved.fromConfig config
  bailIf (remote ∧ ¬ModelLifecycle.allowRemote config)
    "Current local owner approval required for remote bootstrap preferences"
  bailIf (request.command.previous ≠ saved)
    "Bootstrap preferences changed; inspect before deciding what to do"
  let catalog ← request.command.target.resolve env config saved.policy.catalog
  let policy : Policy := { saved.policy with
    mode := request.command.mode.getD saved.policy.mode
    automation := request.command.automation.getD saved.policy.automation
    restartAfterSetup := request.command.restartAfterSetup.getD saved.policy.restartAfterSetup
    catalog }
  policy.validate
  if policy = saved.policy then return config
  else do
    let next ← assign config "model_bootstrap" policy.toJson
    saveConfigInner env config next true false

/-! ## What a save makes of the two versions -/

/-- The lifecycle policy of a configuration, under its revision. -/
def lifecycleVersion (config : Json) : Option (ModelLifecyclePolicy × Nat) :=
  match ModelLifecyclePolicy.fromConfig config, ModelLifecyclePolicy.revisionFromConfig config with
  | .ok policy, .ok revision => some (policy, revision)
  | _, _ => none

/-- The bootstrap policy of a configuration, under its revision. -/
def bootstrapVersion [Sha256] (config : Json) : Option (Policy × Nat) :=
  match Saved.fromConfig config with
  | .ok saved => some (saved.policy, saved.revision)
  | .error _ => none

theorem lifecycleVersion_some {config : Json} {policy : ModelLifecyclePolicy} {revision : Nat} :
    lifecycleVersion config = some (policy, revision) ↔
      ModelLifecyclePolicy.fromConfig config = .ok policy ∧
        ModelLifecyclePolicy.revisionFromConfig config = .ok revision := by
  unfold lifecycleVersion
  cases ModelLifecyclePolicy.fromConfig config with
  | error msg => simp
  | ok p =>
    cases ModelLifecyclePolicy.revisionFromConfig config with
    | error msg => simp
    | ok r => simp

theorem lifecycleVersion_congr {c c' : Json}
    (h : c'.get? "model_lifecycle" = c.get? "model_lifecycle")
    (hr : c'.get? "model_lifecycle_revision" = c.get? "model_lifecycle_revision") :
    lifecycleVersion c' = lifecycleVersion c := by
  unfold lifecycleVersion ModelLifecyclePolicy.fromConfig ModelLifecyclePolicy.revisionFromConfig
  rw [h, hr]

theorem bootstrapVersion_some [Sha256] {config : Json} {saved : Saved}
    (h : Saved.fromConfig config = .ok saved) :
    bootstrapVersion config = some (saved.policy, saved.revision) := by
  unfold bootstrapVersion
  rw [h]

theorem bootstrapVersion_none [Sha256] {config : Json} :
    bootstrapVersion config = none ↔ ∃ msg, Saved.fromConfig config = .error msg := by
  unfold bootstrapVersion
  cases Saved.fromConfig config with
  | error msg => simp
  | ok saved => simp

theorem bootstrapVersion_congr [Sha256] {c c' : Json}
    (h : c'.get? "model_bootstrap" = c.get? "model_bootstrap")
    (hr : c'.get? "model_bootstrap_revision" = c.get? "model_bootstrap_revision") :
    bootstrapVersion c' = bootstrapVersion c := by
  unfold bootstrapVersion
  rw [ModelBootstrap.saved_congr h hr]

/-- A version that goes up by one with each change of the policy, within 64 bits. -/
structure Counted {π : Type} [DecidableEq π] (read : Json → Option (π × Nat)) (old saved : Json)
    (before after : π) (previous current : Nat) : Prop where
  found : read old = some (before, previous)
  written : read saved = some (after, current)
  counted : current = if after = before then previous else previous + 1
  bounded : current ≤ u64Max

theorem Counted.later {π : Type} [DecidableEq π] {read : Json → Option (π × Nat)}
    {old saved : Json} {before after : π} {previous current : Nat}
    (h : Counted read old saved before after previous current) : Later read old saved :=
  Later.of_counted h.found h.written h.counted

theorem nextRevision_ok {previous incoming : ModelLifecyclePolicy} {revision next : Nat}
    (hle : revision ≤ u64Max) (h : nextRevision previous incoming revision = .ok next) :
    next = (if incoming = previous then revision else revision + 1) ∧ next ≤ u64Max := by
  unfold nextRevision at h
  by_cases hsame : incoming = previous
  · rw [if_neg (fun hne => hne hsame.symm)] at h
    cases h
    rw [if_pos hsame]
    exact ⟨rfl, hle⟩
  · rw [if_pos (fun e => hsame e.symm)] at h
    rw [if_neg hsame]
    unfold checkedSucc at h
    split at h
    · cases h
      exact ⟨rfl, by omega⟩
    · cases h

theorem lifecycle_revision_le {config : Json} {revision : Nat}
    (h : ModelLifecyclePolicy.revisionFromConfig config = .ok revision) : revision ≤ u64Max := by
  unfold ModelLifecyclePolicy.revisionFromConfig at h
  split at h
  · cases h
    exact Nat.zero_le _
  · rw [context_ok] at h
    have := ModelBootstrap.asUInt_lt h
    unfold u64Max
    omega

/-- The lifecycle policy of the document is counted; its other members are left as they are. -/
theorem preserveLifecycle_ok {old value saved : Json}
    (h : preserveLifecycle old value = .ok saved) :
    (∃ before after previous current,
      Counted lifecycleVersion old saved before after previous current) ∧
    ∀ k, k ≠ "model_lifecycle_revision" → saved.get? k = value.get? k := by
  simp only [preserveLifecycle, bind_ok] at h
  obtain ⟨before, hbefore, after, hafter, _, hvalid, previous, hprevious, current, hnext, hstore⟩ := h
  obtain ⟨hcount, hle⟩ := nextRevision_ok (lifecycle_revision_le hprevious) hnext
  have hother := ModelBootstrap.storeRevision_get? hstore
  have hlt : current < 2 ^ 64 := by
    unfold u64Max at hle
    omega
  have hread : ModelLifecyclePolicy.revisionFromConfig saved = .ok current := by
    unfold ModelLifecyclePolicy.revisionFromConfig
    rcases ModelBootstrap.storeRevision_key hstore with hk | ⟨hk, rfl⟩
    · simp only [hk, Json.asUInt_nat hlt]
      rfl
    · simp only [hk]
  have hpolicy : ModelLifecyclePolicy.fromConfig saved = .ok after := by
    simp only [ModelLifecyclePolicy.fromConfig, bind_ok, pure_ok]
    refine ⟨current, hread, after, ?_, (), hvalid, rfl⟩
    rw [hother _ (by decide)]
    exact hafter
  refine ⟨⟨before, after, previous, current, ?_, ?_, hcount, hle⟩, hother⟩
  · exact lifecycleVersion_some.mpr ⟨hbefore, hprevious⟩
  · exact lifecycleVersion_some.mpr ⟨hpolicy, hread⟩

theorem inheritMember_get? {key : String} {old value saved : Json}
    (h : inheritMember key old value = .ok saved) (k : String) (hk : k ≠ key) :
    saved.get? k = value.get? k := by
  unfold inheritMember at h
  split at h
  · rw [Listening.get?_assign h, if_neg hk]
  · cases h
    rfl

theorem keepIdentity_get? {old value saved : Json} (h : keepIdentity old value = .ok saved)
    (k : String) (hk : k ≠ "node_id") : saved.get? k = value.get? k := by
  unfold keepIdentity at h
  split at h
  · rw [Listening.get?_assign h, if_neg hk]
  · cases h
    rfl

theorem keepSecret_get? {old value saved : Json} (h : keepSecret old value = .ok saved)
    (k : String) (hk : k ≠ "psk") : saved.get? k = value.get? k := by
  unfold keepSecret at h
  split at h
  · split at h
    · rw [Listening.get?_assign h, if_neg hk]
    · cases h
      rw [Listening.get?_strip, if_neg hk]
  · cases h
    rfl

/-- The members that belong to neither version are the only ones that are carried over. -/
theorem carryMembers_get? {old value saved : Json} (h : carryMembers old value = .ok saved)
    (k : String) (hk : k ∉ ["auth_mode", "coordinator_certificate", "node_id", "psk"]) :
    saved.get? k = value.get? k := by
  simp only [List.mem_cons, List.not_mem_nil, or_false, not_or] at hk
  obtain ⟨hmode, hcert, hid, hpsk⟩ := hk
  simp only [carryMembers, bind_ok] at h
  obtain ⟨v₁, h₁, v₂, h₂, v₃, h₃, h⟩ := h
  have hsecret : keepSecret old v₃ = .ok saved := by
    split at h
    · rw [bind_ok] at h
      exact h.choose_spec.2
    · exact h
  rw [keepSecret_get? hsecret k hpsk, keepIdentity_get? h₃ k hid,
    inheritMember_get? h₂ k hcert, inheritMember_get? h₁ k hmode]

/-- What a save makes of the bootstrap policy: it is counted and not enabled by the way, or it
cannot be read and stays as it is. -/
inductive Fenced [Sha256] (old saved : Json) (authorized : Bool) : Prop where
  | counted (before after : Policy) (previous current : Nat)
      (h : Counted bootstrapVersion old saved before after previous current)
      (enabled : authorized = false → after.enabled → after = before)
  | carried (unread : bootstrapVersion old = none)
      (policy : saved.get? "model_bootstrap" = old.get? "model_bootstrap")
      (revision : saved.get? "model_bootstrap_revision" = old.get? "model_bootstrap_revision")

theorem Fenced.later [Sha256] {old saved : Json} {authorized : Bool}
    (h : Fenced old saved authorized) : Later bootstrapVersion old saved := by
  cases h with
  | counted before after previous current h enabled => exact h.later
  | carried unread policy revision =>
    intro p n hread
    rw [unread] at hread
    cases hread

/-- Step: one save. -/
theorem saveConfigInner_ok [Sha256] {env : Checks} {old value saved : Json}
    {bootstrapAuthorized listeningAuthorized : Bool}
    (h : saveConfigInner env old value bootstrapAuthorized listeningAuthorized = .ok saved) :
    (∃ before after previous current,
      Counted lifecycleVersion old saved before after previous current) ∧
    Fenced old saved bootstrapAuthorized := by
  simp only [saveConfigInner, bind_ok, pure_ok] at h
  obtain ⟨_, -, v₁, h₁, v₂, h₂, v₃, h₃, v₄, h₄, _, -, _, -, rfl⟩ := h
  obtain ⟨hversion, hother⟩ := ModelBootstrap.preserveRevision_ok h₁
  obtain ⟨⟨before, after, previous, current, hcount⟩, hlife⟩ := preserveLifecycle_ok h₃
  -- the later hooks leave the members of the earlier ones alone
  have hboot : ∀ k, k = "model_bootstrap" ∨ k = "model_bootstrap_revision" →
      v₄.get? k = v₁.get? k := by
    rintro k (rfl | rfl)
    · rw [carryMembers_get? h₄ _ (by decide), hlife _ (by decide),
        Listening.preserveRevision_get? h₂ _ (by decide) (by decide)]
    · rw [carryMembers_get? h₄ _ (by decide), hlife _ (by decide),
        Listening.preserveRevision_get? h₂ _ (by decide) (by decide)]
  have hpolicy := hboot _ (Or.inl rfl)
  have hrevision := hboot _ (Or.inr rfl)
  refine ⟨⟨before, after, previous, current, hcount.found, ?_, hcount.counted, hcount.bounded⟩, ?_⟩
  · rw [lifecycleVersion_congr (carryMembers_get? h₄ _ (by decide))
      (carryMembers_get? h₄ _ (by decide))]
    exact hcount.written
  · rcases hversion with ⟨b, a, hadv⟩ | ⟨hunread, hcarried⟩
    · have hwritten : Saved.fromConfig v₄ = .ok a :=
        (ModelBootstrap.saved_congr hpolicy hrevision).trans hadv.written
      refine .counted b.policy a.policy b.revision a.revision ?_ hadv.enabled
      exact ⟨bootstrapVersion_some hadv.read, bootstrapVersion_some hwritten, hadv.counted,
        (Saved.fromConfig_ok hwritten).2.2⟩
    · exact .carried (bootstrapVersion_none.mpr hunread) (hpolicy.trans hcarried.policy)
        (hrevision.trans hcarried.revision)

/-! ## Runs -/

section Runs

variable [Sha256]

/-- What a command meets besides the configuration: the running node and the checks. -/
structure Moment where
  env : Checks
  nodeId : String
  runtime : Option String
  live : Option String

/-- The ways to a save. A restore and a reset are saves of a document. -/
inductive Command where
  | save (document : Json) (listeningAuthorized : Bool)
  | set (request : PolicyRequest) (remote offline : Bool)
  | configure (request : ConfigureRequest) (remote : Bool)

/-- Only `Configure` is bootstrap-authorized. -/
def Command.authorized : Command → Bool
  | .configure _ _ => true
  | _ => false

/-- The configuration after a command. -/
def Command.apply (m : Moment) (config : Json) : Command → Result Json
  | .save document listeningAuthorized =>
    saveConfigInner m.env config document false listeningAuthorized
  | .set request remote offline => setPolicy m.env m.nodeId m.runtime request remote offline config
  | .configure request remote =>
    Configuration.configure m.env m.nodeId m.runtime m.live request remote config

/-- A command that succeeds. -/
def Step (config saved : Json) : Prop :=
  ∃ (m : Moment) (c : Command), c.apply m config = .ok saved

theorem setPolicy_ok {env : Checks} {nodeId : String} {runtime : Option String}
    {request : PolicyRequest} {remote offline : Bool} {config saved : Json}
    (h : setPolicy env nodeId runtime request remote offline config = .ok saved) :
    (∃ policy revision, lifecycleVersion config = some (policy, revision) ∧
      versionedDigest policy revision = .ok request.command.expectedDigest) ∧
    (saved = config ∨ ∃ value, saveConfigInner env config value false false = .ok saved) := by
  simp only [setPolicy, bind_ok] at h
  obtain ⟨_, -, _, -, _, -, _, -, _, -, _, -, _, -, before, hbefore, revision, hrevision, next,
    happly, _, -, h⟩ := h
  refine ⟨⟨before, revision, lifecycleVersion_some.mpr ⟨hbefore, hrevision⟩, ?_⟩, ?_⟩
  · simp only [PolicySet.apply, bind_ok, bailIf_ok, not_not] at happly
    obtain ⟨digest, hdigest, _, hexpected, -⟩ := happly
    rw [hdigest, hexpected]
  · split at h
    · cases h
      exact Or.inl rfl
    · rw [bind_ok] at h
      obtain ⟨value, -, hsave⟩ := h
      exact Or.inr ⟨value, hsave⟩

theorem configure_ok {env : Checks} {nodeId : String} {runtime live : Option String}
    {request : ConfigureRequest} {remote : Bool} {config saved : Json}
    (h : configure env nodeId runtime live request remote config = .ok saved) :
    Saved.fromConfig config = .ok request.command.previous ∧
    (saved = config ∨ ∃ value, saveConfigInner env config value true false = .ok saved) := by
  simp only [configure, bind_ok, bailIf_ok, not_not] at h
  obtain ⟨_, -, _, -, _, -, _, -, _, -, version, hversion, _, -, _, hprevious, _, -, _, -, h⟩ := h
  refine ⟨by rw [hversion, hprevious], ?_⟩
  split at h
  · cases h
    exact Or.inl rfl
  · rw [bind_ok] at h
    obtain ⟨value, -, hsave⟩ := h
    exact Or.inr ⟨value, hsave⟩

/-- Step: a command leaves the configuration alone or makes one save. -/
theorem Command.apply_ok {m : Moment} {c : Command} {config saved : Json}
    (h : c.apply m config = .ok saved) :
    saved = config ∨
      (∃ before after previous current,
        Counted lifecycleVersion config saved before after previous current) ∧
      Fenced config saved c.authorized := by
  cases c with
  | save document listeningAuthorized => exact Or.inr (saveConfigInner_ok h)
  | set request remote offline =>
    rcases (setPolicy_ok h).2 with hsame | ⟨value, hsave⟩
    · exact Or.inl hsame
    · exact Or.inr (saveConfigInner_ok hsave)
  | configure request remote =>
    rcases (configure_ok h).2 with hsame | ⟨value, hsave⟩
    · exact Or.inl hsame
    · exact Or.inr (saveConfigInner_ok hsave)

theorem Step.later {config saved : Json} (h : Step config saved) :
    Later lifecycleVersion config saved ∧ Later bootstrapVersion config saved := by
  obtain ⟨m, c, happly⟩ := h
  rcases c.apply_ok happly with rfl | ⟨⟨_, _, _, _, hcount⟩, hfenced⟩
  · exact ⟨Later.refl _, Later.refl _⟩
  · exact ⟨hcount.later, hfenced.later⟩

/-- A bootstrap version that cannot be read is carried over, and so it still cannot be read. -/
theorem Step.carried {config saved : Json} (h : Step config saved)
    (hnone : bootstrapVersion config = none) :
    saved.get? "model_bootstrap" = config.get? "model_bootstrap" ∧
      saved.get? "model_bootstrap_revision" = config.get? "model_bootstrap_revision" ∧
      bootstrapVersion saved = none := by
  obtain ⟨m, c, happly⟩ := h
  rcases c.apply_ok happly with rfl | ⟨-, hfenced⟩
  · exact ⟨rfl, rfl, hnone⟩
  · cases hfenced with
    | counted before after previous current h enabled =>
      have hfound := h.found
      rw [hnone] at hfound
      cases hfound
    | carried unread policy revision =>
      exact ⟨policy, revision, (bootstrapVersion_congr policy revision).trans hnone⟩

/-- Run: carried over from save to save. -/
theorem Run.carried {config saved : Json} (h : Run Step config saved)
    (hnone : bootstrapVersion config = none) :
    saved.get? "model_bootstrap" = config.get? "model_bootstrap" ∧
      saved.get? "model_bootstrap_revision" = config.get? "model_bootstrap_revision" ∧
      bootstrapVersion saved = none := by
  induction h with
  | refl => exact ⟨rfl, rfl, hnone⟩
  | tail _ hlast ih =>
    obtain ⟨hp, hr, hn⟩ := ih
    obtain ⟨hp', hr', hn'⟩ := hlast.carried hn
    exact ⟨hp'.trans hp, hr'.trans hr, hn'⟩

/-- An automatic policy is enabled by `Configure` alone. -/
theorem Command.enabled_ok {m : Moment} {c : Command} {config saved : Json} {policy : Policy}
    (h : c.apply m config = .ok saved) (hno : c.authorized = false)
    (hpolicy : Policy.fromConfig saved = .ok policy) (hen : policy.enabled) :
    Policy.fromConfig config = .ok policy := by
  rcases c.apply_ok h with rfl | ⟨-, hfenced⟩
  · exact hpolicy
  · cases hfenced with
    | counted before after previous current h enabled =>
      have hread : ∀ (d : Json) (p : Policy) (n : Nat), bootstrapVersion d = some (p, n) →
          Policy.fromConfig d = .ok p := by
        intro d p n hd
        unfold bootstrapVersion at hd
        split at hd
        · rename_i version hversion
          cases hd
          exact (Saved.fromConfig_ok hversion).2.1
        · cases hd
      have hafter : policy = after := Except.ok.inj (hpolicy.symm.trans (hread _ _ _ h.written))
      rw [hafter] at hen ⊢
      rw [enabled hno hen]
      exact hread _ _ _ h.found
    | carried unread hsame hrevision =>
      rw [← ModelBootstrap.policy_congr hsame]
      exact hpolicy

/-- The revisions count the changes of their policies, whatever document is saved; a command
that names a version read earlier succeeds only where nothing has happened to it since; an
automatic policy comes from `Configure` alone; and what cannot be read is carried over. -/
theorem revision_fences :
    (∀ (m : Moment) (c : Command) (config saved : Json), c.apply m config = .ok saved →
      saved = config ∨
        (∃ before after previous current,
          Counted lifecycleVersion config saved before after previous current) ∧
        Fenced config saved c.authorized)
    ∧ (∀ (m : Moment) (s t u saved : Json) (request : PolicyRequest) (remote offline : Bool)
        (policy : ModelLifecyclePolicy) (revision : Nat),
      Run Step s t → Run Step t u → lifecycleVersion s = some (policy, revision) →
      versionedDigest policy revision = .ok request.command.expectedDigest →
      -- the hash keeps the version that was read apart from the one that is there
      (∀ p n, lifecycleVersion u = some (p, n) →
        Sha256.raw (version p n) = Sha256.raw (version policy revision) →
        version p n = version policy revision) →
      Command.apply m u (.set request remote offline) = .ok saved →
        lifecycleVersion t = some (policy, revision) ∧
          lifecycleVersion u = some (policy, revision))
    ∧ (∀ (m : Moment) (s t u saved : Json) (request : ConfigureRequest) (remote : Bool),
      Run Step s t → Run Step t u → Saved.fromConfig s = .ok request.command.previous →
      Command.apply m u (.configure request remote) = .ok saved →
        bootstrapVersion t = bootstrapVersion s ∧ bootstrapVersion u = bootstrapVersion s)
    ∧ (∀ (m : Moment) (c : Command) (config saved : Json) (policy : Policy),
      c.apply m config = .ok saved → c.authorized = false →
      Policy.fromConfig saved = .ok policy → policy.enabled →
        Policy.fromConfig config = .ok policy)
    ∧ (∀ s t : Json, Run Step s t → bootstrapVersion s = none →
      t.get? "model_bootstrap" = s.get? "model_bootstrap" ∧
        t.get? "model_bootstrap_revision" = s.get? "model_bootstrap_revision") := by
  refine ⟨fun m c config saved h => c.apply_ok h, ?_, ?_, ?_, ?_⟩
  · intro m s t u saved request remote offline policy revision hst htu hs hdigest hinj h
    obtain ⟨⟨p, n, hu, hexpected⟩, -⟩ := setPolicy_ok h
    -- the digest that was expected fixes the revision
    have hsame : version p n = version policy revision := by
      refine hinj p n hu ?_
      have heq := hexpected.trans hdigest.symm
      simp only [versionedDigest] at heq hexpected hdigest
      rw [bind_ok] at hexpected hdigest
      obtain ⟨_, -, he⟩ := hexpected
      obtain ⟨_, -, hd⟩ := hdigest
      rw [pure_ok] at he hd
      exact he.trans hd.symm
    have hn : n = revision := by
      unfold version at hsame
      injection hsame with hfields
      have hpair : n = revision ∧ policyJson p = policyJson policy := by
        simpa [Json.nat] using hfields
      exact hpair.1
    subst hn
    have hlater := Run.later (fun _ _ hstep => (Step.later hstep).1) hst
    have hlater' := Run.later (fun _ _ hstep => (Step.later hstep).1) htu
    obtain ⟨ht, hpolicy⟩ := Later.unchanged hlater hlater' hs hu
    rw [hpolicy] at hu
    exact ⟨ht, hu⟩
  · intro m s t u saved request remote hst htu hs h
    obtain ⟨hu, -⟩ := configure_ok h
    have hlater := Run.later (fun _ _ hstep => (Step.later hstep).2) hst
    have hlater' := Run.later (fun _ _ hstep => (Step.later hstep).2) htu
    rw [bootstrapVersion_some hs]
    exact ⟨(Later.unchanged hlater hlater' (bootstrapVersion_some hs) (bootstrapVersion_some hu)).1,
      bootstrapVersion_some hu⟩
  · intro m c config saved policy h hno hpolicy hen
    exact c.enabled_ok h hno hpolicy hen
  · intro s t h hnone
    obtain ⟨hp, hr, -⟩ := Run.carried h hnone
    exact ⟨hp, hr⟩

end Runs

/-! ## A sample node -/

/-- The hash that knows one digest. -/
@[reducible]
def sampleHash : Sha256 := Sha256.constant _ hexDigest_a

/-- Other members are in order, and there is no catalog. -/
def inOrder : Checks := ⟨fun _ => .ok (), fun _ _ => .ok (), fun _ _ => .error "no catalog"⟩

/-- A running node. -/
def awake : Moment :=
  ⟨inOrder, "node-a", some "00000000-0000-4000-8000-000000000001",
    some "00000000-0000-4000-8000-000000000001"⟩

/-- A configuration that is saved twice, under one name and then another. -/
def unnamed : Json := .obj [("node_id", .str "node-a")]

@[inherit_doc unnamed]
def named : Json := .obj [("node_id", .str "node-a"), ("name", .str "Hall")]

@[inherit_doc unnamed]
def renamed : Json := .obj [("node_id", .str "node-a"), ("name", .str "Den")]

/-- The owner wants models started by hand. -/
def startByHand : PolicyRequest :=
  ⟨1, "node-a", some "00000000-0000-4000-8000-000000000001",
    ⟨String.ofList (List.replicate 64 'a'), some .manual, none, none, none, none, none, none, false,
      none, false, none, .empty⟩⟩

/-- The owner wants to be asked. -/
def askFirst : ConfigureRequest :=
  ⟨1, "node-a", "00000000-0000-4000-8000-000000000001",
    ⟨⟨.default, 0, String.ofList (List.replicate 64 'a')⟩, some .prompt, .keep, none, none⟩⟩

/-- A bootstrap policy that sets up models of its own accord, and one that nothing can read, each with
the document that a save without the member leaves. -/
def automatic : List (String × Json) :=
  [("model_bootstrap", .obj [("mode", .str "auto"), ("automation", .bool true)])]

@[inherit_doc automatic]
def unreadable : List (String × Json) := [("model_bootstrap", .nat 5)]

/-- The member that such a save brings. -/
def hallName : List (String × Json) := [("name", .str "Hall")]

section Sample

attribute [local instance] sampleHash

/-- The configuration after the owner's choice. -/
def byHand : Json :=
  .obj [("node_id", .str "node-a"), ("name", .str "Den"),
    ("model_lifecycle", policyJson { ModelLifecyclePolicy.default with startup := .manual }),
    ("model_lifecycle_revision", .nat 1)]

@[inherit_doc byHand]
def asked : Json :=
  .obj [("node_id", .str "node-a"), ("name", .str "Den"),
    ("model_bootstrap", { Policy.default with mode := .prompt }.toJson),
    ("model_bootstrap_revision", .nat 1)]

/-- What the commands make of these documents, and what their versions are. -/
theorem sample_applied : Command.apply awake unnamed (.save named false) = .ok named
    ∧ Command.apply awake named (.save renamed false) = .ok renamed
    ∧ Command.apply awake renamed (.set startByHand false false) = .ok byHand
    ∧ Command.apply awake renamed (.configure askFirst false) = .ok asked
    ∧ Command.apply awake (.obj automatic) (.save (.obj hallName) false)
      = .ok (.obj (hallName ++ automatic))
    ∧ Command.apply awake (.obj unreadable) (.save (.obj hallName) false)
      = .ok (.obj (hallName ++ unreadable))
    ∧ lifecycleVersion unnamed = some (.default, 0) ∧ lifecycleVersion renamed = some (.default, 0)
    ∧ versionedDigest .default 0 = .ok startByHand.command.expectedDigest
    ∧ Saved.fromConfig unnamed = .ok askFirst.command.previous
    ∧ Policy.fromConfig (.obj (hallName ++ automatic)) = .ok ⟨1, .auto, none, true, false⟩
    ∧ bootstrapVersion (.obj unreadable) = none := by
  decide +kernel

/-- Two new names do not get in the way of the owner's choices; a document without the member
neither turns an automatic policy off nor repairs one that cannot be read. -/
theorem revision_fences_renamed :
    (byHand = renamed ∨
      (∃ before after previous current,
        Counted lifecycleVersion renamed byHand before after previous current) ∧
      Fenced renamed byHand false)
    ∧ (lifecycleVersion named = some (.default, 0) ∧ lifecycleVersion renamed = some (.default, 0))
    ∧ (bootstrapVersion named = bootstrapVersion unnamed
      ∧ bootstrapVersion renamed = bootstrapVersion unnamed)
    ∧ Policy.fromConfig (.obj automatic) = .ok ⟨1, .auto, none, true, false⟩
    ∧ ((Json.obj (hallName ++ unreadable)).get? "model_bootstrap"
        = (Json.obj unreadable).get? "model_bootstrap"
      ∧ (Json.obj (hallName ++ unreadable)).get? "model_bootstrap_revision"
        = (Json.obj unreadable).get? "model_bootstrap_revision") := by
  obtain ⟨hname, hrename, hset, hconfigure, hkept, hcarried, hunnamed, hfound, hdigest, hsaved,
    hpolicy, hunread⟩ := sample_applied
  have hnamed : Run Step unnamed named := .single ⟨awake, .save named false, hname⟩
  have hrenamed : Run Step named renamed := .single ⟨awake, .save renamed false, hrename⟩
  refine ⟨revision_fences.1 awake (.set startByHand false false) renamed byHand hset, ?_, ?_, ?_, ?_⟩
  · refine revision_fences.2.1 awake unnamed named renamed byHand startByHand false false .default 0
      hnamed hrenamed hunnamed hdigest ?_ hset
    intro p n h _
    rw [hfound] at h
    cases h
    rfl
  · exact revision_fences.2.2.1 awake unnamed named renamed asked askFirst false
      hnamed hrenamed hsaved hconfigure
  · exact revision_fences.2.2.2.1 awake (.save (.obj hallName) false) (.obj automatic) _ _ hkept rfl
      hpolicy (by decide)
  · exact revision_fences.2.2.2.2 (.obj unreadable) _
      (.single ⟨awake, .save (.obj hallName) false, hcarried⟩) hunread

end Sample

end Eef.Node.Configuration
