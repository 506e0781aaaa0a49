import Eef.Node.Lease

/-!
# Continuous workload definitions

`workload_definition.rs`: the exact reviewed session a workload grant stands for.
`WorkloadDefinition.Valid` lists what validation guarantees, `scope_ok` that the
control scope and the lease contract of a valid definition are the expected ones,
and `fromJson_toJson` that the text the journal stores reads back as the same
definition.
-/

namespace Eef.Node

open Eef.Lib

/-- `EnergyParameters`. -/
structure EnergyParameters where
  sampleRate : Nat
  channels : Nat
  blockFrames : Nat
  maxBlocks : Nat
  activationLevel : Nat
  deactivationLevel : Nat
  deriving DecidableEq, Repr

/-- `Source`: the one reviewed source shape, `microphone_energy`. -/
structure Source where
  resourceId : String
  resourceSha256 : String
  adapterSha256 : String
  parameters : EnergyParameters
  deriving DecidableEq, Repr

/-- `Limits`. -/
structure Limits where
  maxSessionMs : Nat
  maxLeaseMs : Nat
  maxJobMemoryMib : Nat
  maxSourceFrames : Nat
  deriving DecidableEq, Repr

/-- `EventMode`. -/
inductive EventMode where
  | activityTransitions
  deriving DecidableEq, Repr

/-- `Overflow`. -/
inductive Overflow where
  | stop
  deriving DecidableEq, Repr

/-- `Events`. -/
structure Events where
  mode : EventMode
  minIntervalMs : Nat
  maxEvents : Nat
  maxEventBytes : Nat
  maxTotalBytes : Nat
  maxPending : Nat
  overflow : Overflow
  deriving DecidableEq, Repr

/-- `workload_leases::definition::Definition`. -/
structure WorkloadDefinition where
  schemaVersion : Nat
  grantId : String
  issuerId : String
  sessionId : String
  executorNode : String
  jobId : String
  taskId : String
  attempt : Nat
  planSha256 : String
  requestContext : RequestContext
  priority : Int
  source : Source
  limits : Limits
  events : Events
  deriving DecidableEq, Repr

/-! ## Encoding -/

def EnergyParameters.toJson (p : EnergyParameters) : Json :=
  .obj [("sample_rate", .nat p.sampleRate), ("channels", .nat p.channels),
    ("block_frames", .nat p.blockFrames), ("max_blocks", .nat p.maxBlocks),
    ("activation_level", .nat p.activationLevel),
    ("deactivation_level", .nat p.deactivationLevel)]

def EnergyParameters.fromJson (j : Json) : Option EnergyParameters := do
  let fs ← j.struct ["sample_rate", "channels", "block_frames", "max_blocks", "activation_level",
    "deactivation_level"] 6
  let sampleRate ← Json.field fs "sample_rate" (Json.asUInt 32)
  let channels ← Json.field fs "channels" (Json.asUInt 32)
  let blockFrames ← Json.field fs "block_frames" (Json.asUInt 32)
  let maxBlocks ← Json.field fs "max_blocks" (Json.asUInt 32)
  let activationLevel ← Json.field fs "activation_level" (Json.asUInt 32)
  let deactivationLevel ← Json.field fs "deactivation_level" (Json.asUInt 32)
  return { sampleRate, channels, blockFrames, maxBlocks, activationLevel, deactivationLevel }

/-- The variant is named by its `kind` field. -/
def sourceKind (j : Json) : Option Unit :=
  if j = .str "microphone_energy" then some () else none

def Source.toJson (s : Source) : Json :=
  .obj [("kind", .str "microphone_energy"), ("resource_id", .str s.resourceId),
    ("resource_sha256", .str s.resourceSha256), ("adapter_sha256", .str s.adapterSha256),
    ("parameters", s.parameters.toJson)]

def Source.fromJson (j : Json) : Option Source := do
  let fs ← j.struct ["kind", "resource_id", "resource_sha256", "adapter_sha256", "parameters"] 5
  let _ ← Json.field fs "kind" sourceKind
  let resourceId ← Json.field fs "resource_id" Json.asStr
  let resourceSha256 ← Json.field fs "resource_sha256" Json.asStr
  let adapterSha256 ← Json.field fs "adapter_sha256" Json.asStr
  let parameters ← Json.field fs "parameters" EnergyParameters.fromJson
  return { resourceId, resourceSha256, adapterSha256, parameters }

def Limits.toJson (l : Limits) : Json :=
  .obj [("max_session_ms", .nat l.maxSessionMs), ("max_lease_ms", .nat l.maxLeaseMs),
    ("max_job_memory_mib", .nat l.maxJobMemoryMib), ("max_source_frames", .nat l.maxSourceFrames)]

def Limits.fromJson (j : Json) : Option Limits := do
  let fs ← j.struct ["max_session_ms", "max_lease_ms", "max_job_memory_mib", "max_source_frames"] 4
  let maxSessionMs ← Json.field fs "max_session_ms" (Json.asUInt 64)
  let maxLeaseMs ← Json.field fs "max_lease_ms" (Json.asUInt 64)
  let maxJobMemoryMib ← Json.field fs "max_job_memory_mib" (Json.asUInt 64)
  let maxSourceFrames ← Json.field fs "max_source_frames" (Json.asUInt 64)
  return { maxSessionMs, maxLeaseMs, maxJobMemoryMib, maxSourceFrames }

def EventMode.fromJson (j : Json) : Option EventMode :=
  match j.asVariant with
  | some "activity_transitions" => some .activityTransitions
  | _ => none

def Overflow.fromJson (j : Json) : Option Overflow :=
  match j.asVariant with
  | some "stop" => some .stop
  | _ => none

def Events.toJson (e : Events) : Json :=
  .obj [("mode", .str "activity_transitions"), ("min_interval_ms", .nat e.minIntervalMs),
    ("max_events", .nat e.maxEvents), ("max_event_bytes", .nat e.maxEventBytes),
    ("max_total_bytes", .nat e.maxTotalBytes), ("max_pending", .nat e.maxPending),
    ("overflow", .str "stop")]

def Events.fromJson (j : Json) : Option Events := do
  let fs ← j.struct ["mode", "min_interval_ms", "max_events", "max_event_bytes", "max_total_bytes",
    "max_pending", "overflow"] 7
  let mode ← Json.field fs "mode" EventMode.fromJson
  let minIntervalMs ← Json.field fs "min_interval_ms" (Json.asUInt 64)
  let maxEvents ← Json.field fs "max_events" (Json.asUInt 64)
  let maxEventBytes ← Json.field fs "max_event_bytes" (Json.asUInt 64)
  let maxTotalBytes ← Json.field fs "max_total_bytes" (Json.asUInt 64)
  let maxPending ← Json.field fs "max_pending" (Json.asUInt 64)
  let overflow ← Json.field fs "overflow" Overflow.fromJson
  return { mode, minIntervalMs, maxEvents, maxEventBytes, maxTotalBytes, maxPending, overflow }

/-- `strict_context`. -/
def strictContext (j : Json) : Option RequestContext := do
  let fs ← j.struct ["request_id", "origin_node", "origin_area"] 3
  let requestId ← Json.field fs "request_id" Json.asStr
  let originNode ← Json.field fs "origin_node" Json.asStr
  let originArea ← Json.field fs "origin_area" (Json.asList Json.asStr)
  (RequestContext.new requestId originNode originArea).toOption

/-- An `i32`. -/
def asI32 : Json → Option Int
  | .num (.posInt n) => if n < 2 ^ 31 then some n else none
  | .num (.negInt n) => if n < 2 ^ 31 then some (.negSucc n) else none
  | _ => none

def WorkloadDefinition.toJson (d : WorkloadDefinition) : Json :=
  .obj [("schema_version", .nat d.schemaVersion), ("grant_id", .str d.grantId),
    ("issuer_id", .str d.issuerId), ("session_id", .str d.sessionId),
    ("executor_node", .str d.executorNode), ("job_id", .str d.jobId), ("task_id", .str d.taskId),
    ("attempt", .nat d.attempt), ("plan_sha256", .str d.planSha256),
    ("request_context", d.requestContext.toJson), ("priority", intJson d.priority),
    ("source", d.source.toJson), ("limits", d.limits.toJson), ("events", d.events.toJson)]

def WorkloadDefinition.fromJson (j : Json) : Option WorkloadDefinition := do
  let fs ← j.struct ["schema_version", "grant_id", "issuer_id", "session_id", "executor_node",
    "job_id", "task_id", "attempt", "plan_sha256", "request_context", "priority", "source",
    "limits", "events"] 14
  let schemaVersion ← Json.field fs "schema_version" (Json.asUInt 32)
  let grantId ← Json.field fs "grant_id" Json.asStr
  let issuerId ← Json.field fs "issuer_id" Json.asStr
  let sessionId ← Json.field fs "session_id" Json.asStr
  let executorNode ← Json.field fs "executor_node" Json.asStr
  let jobId ← Json.field fs "job_id" Json.asStr
  let taskId ← Json.field fs "task_id" Json.asStr
  let attempt ← Json.field fs "attempt" (Json.asUInt 32)
  let planSha256 ← Json.field fs "plan_sha256" Json.asStr
  let requestContext ← Json.field fs "request_context" strictContext
  let priority ← Json.field fs "priority" asI32
  let source ← Json.field fs "source" Source.fromJson
  let limits ← Json.field fs "limits" Limits.fromJson
  let events ← Json.field fs "events" Events.fromJson
  return { schemaVersion, grantId, issuerId, sessionId, executorNode, jobId, taskId, attempt,
           planSha256, requestContext, priority, source, limits, events }

/-! ## Validation -/

/-- `EnergyParameters::validate`. -/
def EnergyParameters.validate (p : EnergyParameters) : Result Unit :=
  ensure ((8000 ≤ p.sampleRate ∧ p.sampleRate ≤ 48000) ∧ (1 ≤ p.channels ∧ p.channels ≤ 2)
    ∧ (80 ≤ p.blockFrames ∧ p.blockFrames ≤ 4096) ∧ (1 ≤ p.maxBlocks ∧ p.maxBlocks ≤ 100000)
    ∧ (1 ≤ p.activationLevel ∧ p.activationLevel ≤ 32768)
    ∧ p.deactivationLevel ≤ p.activationLevel) "Invalid microphone energy parameters"

/-- `resource_id.strip_prefix(&format!("{node}::")).unwrap_or("")`. -/
def localResource (node resourceId : String) : String :=
  let start := node.toList ++ [':', ':']
  if start.isPrefixOf resourceId.toList then
    String.ofList (resourceId.toList.drop start.length)
  else ""

/-- `validate_components`. -/
def validateComponents (node : String) (priority : Int) (source : Source) (limits : Limits)
    (events : Events) : Result Unit := do
  validateRemoteNodeId node
  ensure (-1000 ≤ priority ∧ priority ≤ 1000) "Invalid workload priority"
  ensure (64 ≤ limits.maxJobMemoryMib ∧ limits.maxJobMemoryMib ≤ 1048576)
    "Owned-process job memory limit must be 64-1048576 MiB, or explicit default"
  ensure ((1 ≤ limits.maxSessionMs ∧ limits.maxSessionMs ≤ maxSessionMs)
    ∧ (1 ≤ limits.maxLeaseMs ∧ limits.maxLeaseMs ≤ maxLeaseMs)
    ∧ limits.maxLeaseMs ≤ limits.maxSessionMs
    ∧ (1 ≤ limits.maxSourceFrames ∧ limits.maxSourceFrames ≤ 409600000))
    "Invalid workload session or source limits"
  ensure ((10 ≤ events.minIntervalMs ∧ events.minIntervalMs ≤ 60000)
    ∧ (1 ≤ events.maxEvents ∧ events.maxEvents ≤ 100000)
    ∧ (128 ≤ events.maxEventBytes ∧ events.maxEventBytes ≤ 4096)
    ∧ (1024 ≤ events.maxTotalBytes ∧ events.maxTotalBytes ≤ 4 * 1024 * 1024)
    ∧ events.maxEventBytes ≤ events.maxTotalBytes
    ∧ (1 ≤ events.maxPending ∧ events.maxPending ≤ 64)) "Invalid workload event bounds"
  source.parameters.validate
  let name := localResource node source.resourceId
  ensure (name ≠ "" ∧ name.utf8ByteSize ≤ 100 ∧ name.toList.all isIdentifierChar
    ∧ hexDigest source.resourceSha256 ∧ hexDigest source.adapterSha256
    ∧ source.parameters.blockFrames * source.parameters.maxBlocks ≤ limits.maxSourceFrames)
    "Workload source resource, adapter or frame budget changed"

namespace WorkloadDefinition

/-- `Definition::identity_scope`. -/
def identityScope (d : WorkloadDefinition) (grantSha256 : String) : Scope where
  grantId := d.grantId
  grantSha256 := grantSha256
  issuerId := d.issuerId
  sessionId := d.sessionId
  executorNode := d.executorNode
  jobId := d.jobId
  taskId := d.taskId
  attempt := d.attempt

section
variable [F64]

/-- `Definition::validate`. -/
def validate (d : WorkloadDefinition) : Result Unit := do
  ensure (d.schemaVersion = 2 ∧ hexDigest d.planSha256 ∧ (-1000 ≤ d.priority ∧ d.priority ≤ 1000)
    ∧ d.toJson.size ≤ 64 * 1024) "Invalid workload definition version, plan or size"
  (d.identityScope (String.ofList (List.replicate 64 '0'))).validate
  validateRemoteNodeId d.requestContext.originNode
  validateUuid d.requestContext.requestId
  ensure (validArea d.requestContext.originArea)
    "area must have at most 16 nonempty levels without slashes or control characters"
  validateComponents d.executorNode d.priority d.source d.limits d.events

variable [Sha256]

/-- `definition_digest(&json!(self))`. -/
def digest (d : WorkloadDefinition) : String := Sha256.definition d.toJson

/-- `Definition::scope`. -/
def scope (d : WorkloadDefinition) : Result Scope := do
  d.validate
  return d.identityScope d.digest

/-- `Definition::lease_contract`. -/
def leaseContract (d : WorkloadDefinition) : Result Contract := do
  let scope ← d.scope
  return { schemaVersion := 2, scope, maxSessionMs := d.limits.maxSessionMs,
           maxLeaseMs := d.limits.maxLeaseMs }

end

/-- What a validated definition guarantees. -/
structure Valid [F64] (d : WorkloadDefinition) : Prop where
  version : d.schemaVersion = 2
  plan : hexDigest d.planSha256 = true
  size : d.toJson.size ≤ 64 * 1024
  identity : ∀ digest, hexDigest digest = true → (d.identityScope digest).Valid
  originNode : remoteNodeId d.requestContext.originNode = true
  requestId : uuid d.requestContext.requestId = true
  area : validArea d.requestContext.originArea = true
  priority : -1000 ≤ d.priority ∧ d.priority ≤ 1000
  memory : d.limits.maxJobMemoryMib ≤ 1048576
  session : 1 ≤ d.limits.maxSessionMs ∧ d.limits.maxSessionMs ≤ maxSessionMs
  lease : 1 ≤ d.limits.maxLeaseMs ∧ d.limits.maxLeaseMs ≤ maxLeaseMs
  leaseSession : d.limits.maxLeaseMs ≤ d.limits.maxSessionMs
  frames : d.limits.maxSourceFrames ≤ 409600000
  interval : 10 ≤ d.events.minIntervalMs ∧ d.events.minIntervalMs ≤ 60000
  maxEvents : 1 ≤ d.events.maxEvents ∧ d.events.maxEvents ≤ 100000
  eventBytes : 128 ≤ d.events.maxEventBytes ∧ d.events.maxEventBytes ≤ 4096
  totalBytes : 1024 ≤ d.events.maxTotalBytes ∧ d.events.maxTotalBytes ≤ 4 * 1024 * 1024
  pending : d.events.maxPending ≤ 64
  sampleRate : d.source.parameters.sampleRate ≤ 48000
  channels : d.source.parameters.channels ≤ 2
  blockFrames : 80 ≤ d.source.parameters.blockFrames ∧ d.source.parameters.blockFrames ≤ 4096
  maxBlocks : 1 ≤ d.source.parameters.maxBlocks ∧ d.source.parameters.maxBlocks ≤ 100000
  activation : d.source.parameters.activationLevel ≤ 32768
  deactivation : d.source.parameters.deactivationLevel ≤ d.source.parameters.activationLevel
  budget : d.source.parameters.blockFrames * d.source.parameters.maxBlocks
    ≤ d.limits.maxSourceFrames

variable [F64]

theorem validate_valid {d : WorkloadDefinition} (h : d.validate = .ok ()) : d.Valid := by
  simp only [validate, validateComponents, EnergyParameters.validate, bind_ok, ensure_ok,
    validateRemoteNodeId_ok, validateUuid_ok, Scope.validate_ok, exists_and_left,
    exists_const] at h
  obtain ⟨⟨hv, hp, -, hs⟩, hscope, hon, hri, ha, -, hpr, hm, ⟨hse, hle, hls, hfr⟩,
    ⟨hin, hme, heb, htb, -, hpe⟩, ⟨hsr, hch, hbf, hmb, hac, hde⟩, -, -, -, -, -, hbu⟩ := h
  refine ⟨hv, hp, hs, ?_, hon, hri, ha, hpr, hm.2, hse, hle, hls, hfr.2, hin, hme, heb, htb,
    hpe.2, hsr.2, hch.2, hbf, hmb, hac.2, hde, hbu⟩
  intro digest hd
  exact { hscope with grantSha256 := hd }

variable [Sha256]

/-- The scope of a definition is its identity under the digest of its whole text. -/
theorem scope_ok {d : WorkloadDefinition} {s : Scope} :
    d.scope = .ok s ↔ d.validate = .ok () ∧ s = d.identityScope d.digest := by
  simp only [scope, bind_ok, pure_ok]
  constructor
  · rintro ⟨_, hv, rfl⟩
    exact ⟨hv, rfl⟩
  · rintro ⟨hv, rfl⟩
    exact ⟨(), hv, rfl⟩

theorem leaseContract_ok {d : WorkloadDefinition} {c : Contract} :
    d.leaseContract = .ok c ↔ d.validate = .ok () ∧
      c = { schemaVersion := 2, scope := d.identityScope d.digest,
            maxSessionMs := d.limits.maxSessionMs, maxLeaseMs := d.limits.maxLeaseMs } := by
  simp only [leaseContract, bind_ok, scope_ok, pure_ok]
  constructor
  · rintro ⟨s, ⟨hv, rfl⟩, rfl⟩
    exact ⟨hv, rfl⟩
  · rintro ⟨hv, rfl⟩
    exact ⟨_, ⟨hv, rfl⟩, rfl⟩

/-! ## The stored text reads back -/

omit [F64] [Sha256] in
theorem parameters_roundTrip {p : EnergyParameters} (hs : p.sampleRate < 2 ^ 32)
    (hc : p.channels < 2 ^ 32) (hb : p.blockFrames < 2 ^ 32) (hm : p.maxBlocks < 2 ^ 32)
    (ha : p.activationLevel < 2 ^ 32) (hd : p.deactivationLevel < 2 ^ 32) :
    EnergyParameters.fromJson p.toJson = some p := by
  rw [EnergyParameters.toJson, EnergyParameters.fromJson]
  refine Eq.trans (Json.struct_bind ?_ ?_) ?_
  · rfl
  · decide
  refine (Json.field_bind rfl (Json.asUInt_nat hs)).trans ?_
  refine (Json.field_bind rfl (Json.asUInt_nat hc)).trans ?_
  refine (Json.field_bind rfl (Json.asUInt_nat hb)).trans ?_
  refine (Json.field_bind rfl (Json.asUInt_nat hm)).trans ?_
  refine (Json.field_bind rfl (Json.asUInt_nat ha)).trans ?_
  refine (Json.field_bind rfl (Json.asUInt_nat hd)).trans ?_
  rfl

omit [F64] [Sha256] in
theorem source_roundTrip {s : Source} (h : EnergyParameters.fromJson s.parameters.toJson =
    some s.parameters) : Source.fromJson s.toJson = some s := by
  rw [Source.toJson, Source.fromJson]
  refine Eq.trans (Json.struct_bind ?_ ?_) ?_
  · rfl
  · decide
  refine (Json.field_bind (a := ()) rfl rfl).trans ?_
  refine (Json.field_bind (a := s.resourceId) rfl rfl).trans ?_
  refine (Json.field_bind (a := s.resourceSha256) rfl rfl).trans ?_
  refine (Json.field_bind (a := s.adapterSha256) rfl rfl).trans ?_
  refine (Json.field_bind rfl h).trans ?_
  rfl

omit [F64] [Sha256] in
theorem limits_roundTrip {l : Limits} (hs : l.maxSessionMs < 2 ^ 64) (hl : l.maxLeaseMs < 2 ^ 64)
    (hm : l.maxJobMemoryMib < 2 ^ 64) (hf : l.maxSourceFrames < 2 ^ 64) :
    Limits.fromJson l.toJson = some l := by
  rw [Limits.toJson, Limits.fromJson]
  refine Eq.trans (Json.struct_bind ?_ ?_) ?_
  · rfl
  · decide
  refine (Json.field_bind rfl (Json.asUInt_nat hs)).trans ?_
  refine (Json.field_bind rfl (Json.asUInt_nat hl)).trans ?_
  refine (Json.field_bind rfl (Json.asUInt_nat hm)).trans ?_
  refine (Json.field_bind rfl (Json.asUInt_nat hf)).trans ?_
  rfl

omit [F64] [Sha256] in
theorem events_roundTrip {e : Events} (hi : e.minIntervalMs < 2 ^ 64) (hm : e.maxEvents < 2 ^ 64)
    (he : e.maxEventBytes < 2 ^ 64) (ht : e.maxTotalBytes < 2 ^ 64) (hp : e.maxPending < 2 ^ 64) :
    Events.fromJson e.toJson = some e := by
  obtain ⟨⟨⟩, interval, count, bytes, total, pending, ⟨⟩⟩ := e
  rw [Events.toJson, Events.fromJson]
  refine Eq.trans (Json.struct_bind ?_ ?_) ?_
  · rfl
  · decide
  refine (Json.field_bind (a := EventMode.activityTransitions) rfl rfl).trans ?_
  refine (Json.field_bind rfl (Json.asUInt_nat hi)).trans ?_
  refine (Json.field_bind rfl (Json.asUInt_nat hm)).trans ?_
  refine (Json.field_bind rfl (Json.asUInt_nat he)).trans ?_
  refine (Json.field_bind rfl (Json.asUInt_nat ht)).trans ?_
  refine (Json.field_bind rfl (Json.asUInt_nat hp)).trans ?_
  refine (Json.field_bind (a := Overflow.stop) rfl rfl).trans ?_
  rfl

omit [F64] [Sha256] in
theorem context_roundTrip {c : RequestContext} (hr : uuid c.requestId = true)
    (ho : remoteNodeId c.originNode = true) (ha : validArea c.originArea = true) :
    strictContext c.toJson = some c := by
  simp only [uuid, Bool.and_eq_true] at hr
  simp only [remoteNodeId, nodeId, Bool.and_eq_true, decide_eq_true_eq, bne_iff_ne, ne_eq] at ho
  have hsize := operationId_size hr.1
  have hne : c.requestId ≠ "" := by
    intro h
    rw [h] at hsize
    exact absurd hsize (by decide)
  rw [RequestContext.toJson, strictContext]
  refine Eq.trans (Json.struct_bind ?_ ?_) ?_
  · rfl
  · decide
  refine (Json.field_bind (a := c.requestId) rfl rfl).trans ?_
  refine (Json.field_bind (a := c.originNode) rfl rfl).trans ?_
  refine (Json.field_bind rfl
    (Json.asList_map (f := Json.asStr) (e := Json.str) (fun _ => rfl) c.originArea)).trans ?_
  have hid : ¬(c.requestId = "" ∨ c.requestId.utf8ByteSize > 128 ∨ c.originNode = ""
      ∨ c.originNode.utf8ByteSize > 128) := by
    simp only [hne, ho.1.1.1.1.1, false_or, not_or]
    omega
  simp [RequestContext.new, bailIf, ensure, hid, ha, bind, Except.bind, pure, Except.pure,
    Except.toOption]

omit [F64] [Sha256] in
theorem priority_roundTrip {n : Int} (h : -1000 ≤ n ∧ n ≤ 1000) : asI32 (intJson n) = some n := by
  obtain ⟨k⟩ | ⟨k⟩ := n
  · have hk : k < 2 ^ 31 := by
      have := h.2
      simp only [Int.ofNat_eq_natCast] at this
      omega
    exact if_pos hk
  · have hk : k < 2 ^ 31 := by
      have := h.1
      omega
    exact if_pos hk

omit [Sha256] in
theorem fromJson_toJson {d : WorkloadDefinition} (h : d.Valid) : fromJson d.toJson = some d := by
  have hat := (h.identity _ (@Sha256.definition_digest (Sha256.constant
    "0000000000000000000000000000000000000000000000000000000000000000" (by decide)) .null)).attempt_le
  rw [WorkloadDefinition.toJson, WorkloadDefinition.fromJson]
  refine Eq.trans (Json.struct_bind ?_ ?_) ?_
  · rfl
  · decide
  refine (Json.field_bind rfl (Json.asUInt_nat (by rw [h.version]; decide))).trans ?_
  refine (Json.field_bind (a := d.grantId) rfl rfl).trans ?_
  refine (Json.field_bind (a := d.issuerId) rfl rfl).trans ?_
  refine (Json.field_bind (a := d.sessionId) rfl rfl).trans ?_
  refine (Json.field_bind (a := d.executorNode) rfl rfl).trans ?_
  refine (Json.field_bind (a := d.jobId) rfl rfl).trans ?_
  refine (Json.field_bind (a := d.taskId) rfl rfl).trans ?_
  refine (Json.field_bind rfl (Json.asUInt_nat (Nat.lt_of_le_of_lt hat (by decide)))).trans ?_
  refine (Json.field_bind (a := d.planSha256) rfl rfl).trans ?_
  refine (Json.field_bind rfl (context_roundTrip h.requestId h.originNode h.area)).trans ?_
  refine (Json.field_bind rfl (priority_roundTrip h.priority)).trans ?_
  refine (Json.field_bind rfl (source_roundTrip (parameters_roundTrip
    (Nat.lt_of_le_of_lt h.sampleRate (by decide)) (Nat.lt_of_le_of_lt h.channels (by decide))
    (Nat.lt_of_le_of_lt h.blockFrames.2 (by decide)) (Nat.lt_of_le_of_lt h.maxBlocks.2 (by decide))
    (Nat.lt_of_le_of_lt h.activation (by decide))
    (Nat.lt_of_le_of_lt (Nat.le_trans h.deactivation h.activation) (by decide))))).trans ?_
  refine (Json.field_bind rfl (limits_roundTrip (Nat.lt_of_le_of_lt h.session.2 (by decide))
    (Nat.lt_of_le_of_lt h.lease.2 (by decide)) (Nat.lt_of_le_of_lt h.memory (by decide))
    (Nat.lt_of_le_of_lt h.frames (by decide)))).trans ?_
  refine (Json.field_bind rfl (events_roundTrip (Nat.lt_of_le_of_lt h.interval.2 (by decide))
    (Nat.lt_of_le_of_lt h.maxEvents.2 (by decide)) (Nat.lt_of_le_of_lt h.eventBytes.2 (by decide))
    (Nat.lt_of_le_of_lt h.totalBytes.2 (by decide))
    (Nat.lt_of_le_of_lt h.pending (by decide)))).trans ?_
  rfl

omit [F64] [Sha256] in
theorem itemsDepth_str (l : List String) : Json.itemsDepth (l.map .str) = 0 := by
  induction l with
  | nil => rfl
  | cons a l ih => simp [Json.itemsDepth, Json.depth, ih]

omit [F64] [Sha256] in
theorem toJson_parses (d : WorkloadDefinition) : d.toJson.parses = true := by
  have hp : Json.depth (intJson d.priority) = 0 := by cases d.priority <;> rfl
  simp [Json.parses, Json.depth, Json.fieldsDepth, toJson, RequestContext.toJson, Source.toJson,
    EnergyParameters.toJson, Limits.toJson, Events.toJson, Json.nat, itemsDepth_str, hp,
    Json.recursionLimit]

end WorkloadDefinition

/-! ## A workload to evaluate -/

/-- A microphone session of at most four events. -/
def sampleWorkload : WorkloadDefinition where
  schemaVersion := 2
  grantId := "77777777-7777-4777-8777-777777777777"
  issuerId := sampleGrant.issuerId
  sessionId := sampleGrant.sessionId
  executorNode := sampleGrant.executorNode
  jobId := sampleGrant.jobId
  taskId := "88888888888848888888888888888888"
  attempt := 1
  planSha256 := sampleGrant.planSha256
  requestContext := sampleGrant.requestContext
  priority := 0
  source :=
    { resourceId := "owner::microphone"
      resourceSha256 := "cccccccccccccccccccccccccccccccccccccccccccccccccccccccccccccccc"
      adapterSha256 := "dddddddddddddddddddddddddddddddddddddddddddddddddddddddddddddddd"
      parameters := ⟨16000, 1, 160, 100, 2000, 1000⟩ }
  limits := ⟨60000, 30000, 128, 16000⟩
  events := ⟨.activityTransitions, 10, 4, 256, 1024, 4, .stop⟩

/-- The sample passes its own validation. -/
theorem sampleWorkload_validate :
    @WorkloadDefinition.validate F64.bits sampleWorkload = .ok () := by
  decide +kernel

end Eef.Node
