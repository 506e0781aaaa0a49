import Eef.Lib.Json
import Eef.Lib.SortedMap
import Eef.Lib.SortedSet
import Eef.Node.Operation

/-!
# Discovery

`discovery.rs`: which nodes a node is told about. An owner grants one node the sight of another; a
node always sees itself. `selection` turns the grants and a query into the ids that may be looked
up, `peer_records` of `server.rs` reads these and no others from the live connections, and three
answers are made from what it finds: a page of public records (`view`), the names that interpreters
may use (`interpretation_capabilities`), and the nodes a plan may use (`planning_nodes`).

A `Duration` is its nanoseconds. What an answer depends on is `Alike`: two tables that look alike to
an origin, where the address, the capabilities and the models of a record that is no longer fresh
do not count, give the same answers (`discovery_noninterference`).
-/

namespace Eef.Coordinator.Discovery

open Eef.Lib Eef.Node

/-! ## Records -/

/-- `CoordinatorState`. -/
inductive CoordinatorState where
  | active
  | standby
  | unknown
  deriving DecidableEq, Repr

def CoordinatorState.name : CoordinatorState → String
  | active => "active"
  | standby => "standby"
  | unknown => "unknown"

/-- `CoordinatorAdvertisement`. -/
structure CoordinatorAdvertisement where
  coordinatorId : String
  address : String
  state : CoordinatorState
  deriving DecidableEq, Repr

def CoordinatorAdvertisement.toJson (a : CoordinatorAdvertisement) : Json :=
  .obj [("coordinator_id", .str a.coordinatorId), ("address", .str a.address),
    ("state", .str a.state.name)]

/-- `NetworkAdvertisement`. -/
structure NetworkAdvertisement where
  advertisedAddress : Option String
  coordinator : Option CoordinatorAdvertisement
  deriving DecidableEq, Repr

def NetworkAdvertisement.toJson (a : NetworkAdvertisement) : Json :=
  .obj [("advertised_address", Json.ofOption .str a.advertisedAddress),
    ("coordinator", Json.ofOption CoordinatorAdvertisement.toJson a.coordinator)]

/-- `ModelLifecycle`. -/
inductive ModelLifecycle where
  | unloaded
  | loading
  | unloading
  | unloadUnconfirmed
  | ready
  | active
  | warmIdle
  | error
  deriving DecidableEq, Repr

def ModelLifecycle.name : ModelLifecycle → String
  | unloaded => "unloaded"
  | loading => "loading"
  | unloading => "unloading"
  | unloadUnconfirmed => "unload_unconfirmed"
  | ready => "ready"
  | active => "active"
  | warmIdle => "warm_idle"
  | error => "error"

/-- `ModelAvailability`. -/
inductive ModelAvailability where
  | available
  | unavailable
  deriving DecidableEq, Repr

def ModelAvailability.name : ModelAvailability → String
  | available => "available"
  | unavailable => "unavailable"

/-- `ResourceEstimates`. -/
structure ResourceEstimates where
  ramMb : Option Nat
  vramMb : Option Nat
  sizeBytes : Option Nat
  deriving DecidableEq, Repr

/-- `ModelMetadata`. -/
structure ModelMetadata where
  schemaVersion : Nat
  capabilities : List String
  inputModalities : List String
  outputModalities : List String
  roles : Option (List String)
  lifecycle : Option ModelLifecycle
  availability : Option ModelAvailability
  resourceEstimates : ResourceEstimates
  deriving DecidableEq, Repr

/-- A list of texts. -/
def texts (values : List String) : Json := .arr (values.map .str)

def ModelMetadata.toJson (m : ModelMetadata) : Json :=
  .obj [("schema_version", .nat m.schemaVersion), ("capabilities", texts m.capabilities),
    ("input_modalities", texts m.inputModalities), ("output_modalities", texts m.outputModalities),
    ("roles", Json.ofOption texts m.roles),
    ("lifecycle", Json.ofOption (fun l => .str l.name) m.lifecycle),
    ("availability", Json.ofOption (fun a => .str a.name) m.availability),
    ("resource_estimates", .obj [("ram_mb", Json.ofOption .nat m.resourceEstimates.ramMb),
      ("vram_mb", Json.ofOption .nat m.resourceEstimates.vramMb),
      ("size_bytes", Json.ofOption .nat m.resourceEstimates.sizeBytes)])]

/-- `PeerModel`. -/
structure PeerModel where
  modelId : String
  backend : Option String
  modality : Option String
  modelMetadata : Option ModelMetadata
  cpuThreads : Option Nat
  jobMemoryLimitMib : Option Nat
  deriving DecidableEq, Repr

/-- A field with `skip_serializing_if = "Option::is_none"`. -/
def skipped {α : Type} (key : String) (f : α → Json) : Option α → List (String × Json)
  | none => []
  | some a => [(key, f a)]

def PeerModel.toJson (m : PeerModel) : Json :=
  .obj ([("model_id", .str m.modelId), ("backend", Json.ofOption .str m.backend),
    ("modality", Json.ofOption .str m.modality)]
    ++ skipped "model_metadata" ModelMetadata.toJson m.modelMetadata
    ++ skipped "cpu_threads" .nat m.cpuThreads
    ++ skipped "job_memory_limit_mib" .nat m.jobMemoryLimitMib)

/-- `PeerRecord`. -/
structure PeerRecord where
  nodeId : String
  displayName : String
  network : NetworkAdvertisement
  capabilities : List String
  models : List PeerModel
  deriving DecidableEq, Repr

/-- `json!(record)`. -/
def PeerRecord.toJson (r : PeerRecord) : Json :=
  .obj [("node_id", .str r.nodeId), ("display_name", .str r.displayName),
    ("network", r.network.toJson), ("capabilities", texts r.capabilities),
    ("models", .arr (r.models.map PeerModel.toJson))]

/-- `Connection`, as far as `peer_records` reads it: the advertisement, if the node has registered,
and how long ago it was last seen. -/
structure Connection where
  advertisement : Option PeerRecord
  elapsed : Nat
  deriving DecidableEq, Repr

/-- `connections` of the node server. -/
abbrev Connections := List (String × Connection)

/-! ## Queries and policies -/

/-- `RESPONSE_BUDGET`. -/
def responseBudget : Nat := 512 * 1024

/-- `network::validate_node_id`. -/
def validateNodeId (id : String) : Result Unit :=
  ensure (nodeId id) "node identifier must contain 1-128 bytes without control characters"

/-- `PeerQuery`. -/
structure PeerQuery where
  nodeId : Option String
  after : Option String
  limit : Nat
  deriving DecidableEq, Repr

/-- `PeerQuery::default`. -/
def PeerQuery.default : PeerQuery := ⟨none, none, 32⟩

def PeerQuery.fromJson (j : Json) : Option PeerQuery := do
  let fs ← j.struct ["node_id", "after", "limit"] 0
  let nodeId ← Json.optField fs "node_id" Json.asStr
  let after ← Json.optField fs "after" Json.asStr
  let limit ← Json.defaultField fs "limit" (Json.asUInt 64) 32
  return ⟨nodeId, after, limit⟩

/-- `PeerQuery::validate`. -/
def PeerQuery.validate (q : PeerQuery) : Result Unit := do
  bailIf (¬(1 ≤ q.limit ∧ q.limit ≤ 32)) "network page limit must be 1-32"
  bailIf (q.nodeId.isSome ∧ q.after.isSome) "node lookup cannot include a page cursor"
  each validateNodeId (q.nodeId.toList ++ q.after.toList)

/-- `DiscoveryPolicy`. -/
structure DiscoveryPolicy where
  grants : SortedMap String (SortedSet String)
  freshnessSeconds : Nat
  deriving DecidableEq

/-- `DiscoveryPolicy::default`. -/
def DiscoveryPolicy.default : DiscoveryPolicy := ⟨.empty, 30⟩

namespace DiscoveryPolicy

def toJson (p : DiscoveryPolicy) : Json :=
  .obj [("grants", .obj (p.grants.entries.map fun g => (g.1, texts g.2.items))),
    ("freshness_seconds", .nat p.freshnessSeconds)]

/-- What `validate` asks of one requester. -/
def validateGrant (grant : String × SortedSet String) : Result Unit := do
  validateNodeId grant.1
  bailIf (grant.1 = "*" ∨ 256 < grant.2.items.length)
    "discovery grants require exact IDs and at most 256 targets per requester"
  each (fun target => do
    validateNodeId target
    bailIf (target = "*") "wildcard discovery grants are not supported") grant.2.items

/-- `DiscoveryPolicy::validate`. -/
def validate [F64] (p : DiscoveryPolicy) : Result Unit := do
  bailIf (¬(1 ≤ p.freshnessSeconds ∧ p.freshnessSeconds ≤ 300) ∨ 256 < p.grants.entries.length
      ∨ 4096 < (p.grants.entries.map fun g => g.2.items.length).sum
      ∨ 256 * 1024 < p.toJson.size)
    "discovery policy exceeds supported bounds"
  each validateGrant p.grants.entries

/-- Who a node is told about: itself, and whom it was granted. -/
def permitted (p : DiscoveryPolicy) (origin : String) : SortedSet String :=
  ((p.grants.get? origin).getD .empty).insert origin

/-- `if let Some(target) = &query.node_id`. -/
def retainNamed (ids : SortedSet String) : Option String → Result (SortedSet String)
  | some target =>
    if target ∈ ids then .ok (ids.retain (· = target))
    else .error "node unavailable or not authorized"
  | none => .ok ids

/-- `if let Some(after) = &query.after`. -/
def retainAfter (ids : SortedSet String) : Option String → SortedSet String
  | some after => ids.retain fun id => decide (after < id)
  | none => ids

/-- `DiscoveryPolicy::selection`. -/
def selection (p : DiscoveryPolicy) (origin : String) (query : PeerQuery) :
    Result (SortedSet String) := do
  validateNodeId origin
  query.validate
  let named ← retainNamed (p.permitted origin) query.nodeId
  return retainAfter named query.after

end DiscoveryPolicy

/-- What a connection says of the node with an id. -/
def reading (connections : Connections) (id : String) : Option (PeerRecord × Nat) := do
  let connection ← connections.lookup id
  let record ← connection.advertisement
  return (record, connection.elapsed)

/-- `NodeServer::peer_records`. -/
def peerRecords (connections : Connections) (ids : SortedSet String) :
    Result (List (PeerRecord × Nat)) := do
  bailIf (257 < ids.items.length) "peer selection exceeds bounds"
  return ids.items.filterMap (reading connections)

/-! ## Answers -/

/-- `Duration::from_secs`. -/
def seconds (n : Nat) : Nat := n * 10 ^ 9

/-- `Duration::as_millis`. -/
def asMillis (age : Nat) : Nat := age / 10 ^ 6

/-- A public record, as the answer has it. -/
abbrev Node := Json

/-- The answer of `view`. -/
structure Page where
  nodes : List Node
  nextAfter : Option String
  freshnessSeconds : Nat

namespace DiscoveryPolicy

/-- `DiscoveryPolicy::public_record`. -/
def publicRecord (p : DiscoveryPolicy) (record : PeerRecord) (age : Nat) : Node :=
  let fresh := age < seconds p.freshnessSeconds
  let millis := min (asMillis age) (2 ^ 64 - 1)
  let node := ((record.toJson.set "status" (.str (if fresh then "online" else "stale"))).set
    "age_ms" (.nat millis)).set "remaining_fresh_ms" (.nat (p.freshnessSeconds * 1000 - millis))
  if fresh then node
  else ((node.set "network" (.obj [("advertised_address", .null), ("coordinator", .null)])).set
    "capabilities" (.arr [])).set "models" (.arr [])

/-- The loop of `page`, with the nodes it has so far, their bytes, and the last of their ids. -/
def pageLoop [F64] (p : DiscoveryPolicy) (limit : Nat) (nodes : List Node) (bytes : Nat)
    (last : Option String) : List (PeerRecord × Nat) → Result (List Node × Option String)
  | [] => .ok (nodes, none)
  | (record, age) :: rest =>
    let node := p.publicRecord record age
    if limit ≤ nodes.length ∨ responseBudget - 2048 < bytes + node.size then
      if nodes = [] then .error "node discovery record exceeds response budget"
      else .ok (nodes, last)
    else p.pageLoop limit (nodes ++ [node]) (bytes + node.size) (node.index "node_id").asStr rest

/-- `DiscoveryPolicy::page`. -/
def page [F64] (p : DiscoveryPolicy) (query : PeerQuery) (records : List (PeerRecord × Nat)) :
    Result Page := do
  let (nodes, nextAfter) ← p.pageLoop query.limit [] 0 none records
  return ⟨nodes, nextAfter, p.freshnessSeconds⟩

/-- `DiscoveryPolicy::view`. -/
def view [F64] (p : DiscoveryPolicy) (origin : String) (payload : Json) (connections : Connections) :
    Result Page := do
  let query ← context (PeerQuery.fromJson payload) "invalid peer query"
  let selected ← p.selection origin query
  let records ← peerRecords connections selected
  bailIf (query.nodeId.isSome ∧ records = []) "node unavailable or not authorized"
  p.page query records

/-- `interpretation::capability_set`. -/
def capabilitySet (values : List String) : Result Unit := do
  bailIf (64 < values.length) "interpretation capability context is too large"
  ensure (values.Nodup ∧ ∀ value ∈ values, value ≠ "" ∧ value.utf8ByteSize ≤ 64
      ∧ value.toList.all isIdentifierChar)
    "invalid or duplicate interpretation capability context"

/-- The loop of `capability_names`. -/
def capabilityLoop (p : DiscoveryPolicy) (origin : String) (permitted names : SortedSet String)
    (originFresh : Bool) : List (PeerRecord × Nat) → Result (SortedSet String × Bool)
  | [] => .ok (names, originFresh)
  | (record, age) :: rest =>
    if record.nodeId ∉ permitted ∨ seconds p.freshnessSeconds ≤ age then
      p.capabilityLoop origin permitted names originFresh rest
    else do
      let names := names.extend record.capabilities
      bailIf (64 < names.items.length) "interpretation capability context exceeds bounds"
      p.capabilityLoop origin permitted names (originFresh || record.nodeId == origin) rest

/-- `DiscoveryPolicy::capability_names`. -/
def capabilityNames (p : DiscoveryPolicy) (origin : String) (records : List (PeerRecord × Nat)) :
    Result (List String) := do
  let permitted ← p.selection origin .default
  let (names, originFresh) ← p.capabilityLoop origin permitted .empty false records
  bailIf (originFresh = false) "interpretation origin unavailable or stale"
  textBound "Validate capability vocabulary"
  capabilitySet names.items
  return names.items

/-- `DiscoveryPolicy::interpretation_capabilities`. -/
def interpretationCapabilities (p : DiscoveryPolicy) (origin : String) (connections : Connections) :
    Result (List String) := do
  let selected ← p.selection origin .default
  let records ← peerRecords connections selected
  p.capabilityNames origin records

/-- `DiscoveryPolicy::planning_nodes`. -/
def planningNodes (p : DiscoveryPolicy) (origin : String) (connections : Connections) :
    Result (SortedSet String) := do
  let selected ← p.selection origin .default
  let records ← peerRecords connections selected
  let fresh := SortedSet.empty.extend ((records.filter fun r =>
    decide (asMillis r.2 < p.freshnessSeconds * 1000)).map fun r => r.1.nodeId)
  ensure (origin ∈ fresh) "Origin registration is stale or unavailable"
  return fresh

end DiscoveryPolicy

/-! ## What an origin can see -/

/-- Two records that an answer cannot tell apart: of one node, as old as each other, and the same
while they are fresh. -/
structure SameRecord (p : DiscoveryPolicy) (a b : PeerRecord × Nat) : Prop where
  nodeId : a.1.nodeId = b.1.nodeId
  displayName : a.1.displayName = b.1.displayName
  age : a.2 = b.2
  fresh : a.2 < seconds p.freshnessSeconds → a.1 = b.1

/-- Two readings of an id that an answer cannot tell apart. -/
inductive Alike (p : DiscoveryPolicy) : Option (PeerRecord × Nat) → Option (PeerRecord × Nat) → Prop
  | missing : Alike p none none
  | found {a b : PeerRecord × Nat} (h : SameRecord p a b) : Alike p (some a) (some b)

/-- The two tables look alike to an origin: only itself and the nodes granted to it count. -/
def LookAlike (p : DiscoveryPolicy) (origin : String) (cs cs' : Connections) : Prop :=
  ∀ id ∈ p.permitted origin, Alike p (reading cs id) (reading cs' id)

variable {p : DiscoveryPolicy} {origin : String} {cs cs' : Connections}

namespace DiscoveryPolicy

theorem retainNamed_ok {ids named : SortedSet String} {target : Option String} :
    retainNamed ids target = .ok named ↔ (∀ t ∈ target, t ∈ ids) ∧
      ∀ id, id ∈ named ↔ id ∈ ids ∧ ∀ t ∈ target, id = t := by
  cases target with
  | none =>
    simp only [retainNamed, Except.ok.injEq, Option.not_mem_none, false_implies, implies_true,
      and_true, true_and]
    constructor
    · intro h id
      rw [h]
    · intro h
      exact SortedSet.ext fun id => (h id).symm
  | some t =>
    simp only [retainNamed, Option.mem_some_iff, forall_eq']
    by_cases ht : t ∈ ids
    · rw [if_pos ht, Except.ok.injEq]
      constructor
      · intro h
        subst h
        refine ⟨ht, fun id => ?_⟩
        rw [SortedSet.mem_retain, decide_eq_true_eq]
      · intro h
        refine SortedSet.ext fun id => ?_
        rw [SortedSet.mem_retain, decide_eq_true_eq, h.2 id]
    · rw [if_neg ht]
      constructor
      · intro h
        cases h
      · intro h
        exact absurd h.1 ht

theorem retainNamed_exists {ids : SortedSet String} {target : Option String}
    (h : ∀ t ∈ target, t ∈ ids) : ∃ named, retainNamed ids target = .ok named := by
  cases target with
  | none => exact ⟨ids, rfl⟩
  | some t => exact ⟨_, if_pos (h t rfl)⟩

theorem mem_retainAfter {ids : SortedSet String} {after : Option String} {id : String} :
    id ∈ retainAfter ids after ↔ id ∈ ids ∧ ∀ a ∈ after, a < id := by
  cases after with
  | none => simp only [retainAfter, Option.not_mem_none, false_implies, implies_true, and_true]
  | some a =>
    simp only [retainAfter, SortedSet.mem_retain, decide_eq_true_eq, Option.mem_some_iff,
      forall_eq']

/-- A selection is what a query leaves of the permitted ids. -/
theorem selection_ok {query : PeerQuery} {selected : SortedSet String} :
    p.selection origin query = .ok selected ↔ validateNodeId origin = .ok () ∧
      query.validate = .ok () ∧ (∀ target ∈ query.nodeId, target ∈ p.permitted origin) ∧
      ∀ id, id ∈ selected ↔ (id ∈ p.permitted origin ∧ ∀ target ∈ query.nodeId, id = target) ∧
        ∀ after ∈ query.after, after < id := by
  simp only [selection, bind_ok, pure_ok]
  constructor
  · intro h
    obtain ⟨_, horigin, _, hquery, named, hnamed, hselected⟩ := h
    subst hselected
    obtain ⟨htarget, hmem⟩ := retainNamed_ok.mp hnamed
    refine ⟨horigin, hquery, htarget, fun id => ?_⟩
    rw [mem_retainAfter, hmem]
  · intro h
    obtain ⟨horigin, hquery, htarget, hmem⟩ := h
    obtain ⟨named, hnamed⟩ := retainNamed_exists htarget
    refine ⟨(), horigin, (), hquery, named, hnamed, SortedSet.ext fun id => ?_⟩
    rw [mem_retainAfter, hmem, (retainNamed_ok.mp hnamed).2]

/-! ## Answers agree -/

theorem peerRecords_ok {ids : SortedSet String} {records : List (PeerRecord × Nat)} :
    peerRecords cs ids = .ok records ↔
      ids.items.length ≤ 257 ∧ records = ids.items.filterMap (reading cs) := by
  simp only [peerRecords, bind_ok, bailIf_ok, pure_ok, Nat.not_lt]
  constructor
  · intro h
    obtain ⟨_, hle, rfl⟩ := h
    exact ⟨hle, rfl⟩
  · intro h
    exact ⟨(), h.1, h.2.symm⟩

/-- Records that an answer cannot tell apart are shown as one. -/
theorem publicRecord_congr {a b : PeerRecord × Nat} (h : SameRecord p a b) :
    p.publicRecord a.1 a.2 = p.publicRecord b.1 b.2 := by
  by_cases hfresh : a.2 < seconds p.freshnessSeconds
  · rw [h.fresh hfresh, h.age]
  · have hid := h.nodeId
    have hname := h.displayName
    have hold : ¬b.2 < seconds p.freshnessSeconds := h.age ▸ hfresh
    simp only [publicRecord, if_neg hold, PeerRecord.toJson, hid, hname, h.age]
    rfl

/-- A record is shown as online while it is fresh. -/
theorem publicRecord_status {record : PeerRecord} {age : Nat} :
    (p.publicRecord record age).index "status" = .str "online" ↔ age < seconds p.freshnessSeconds := by
  by_cases hfresh : age < seconds p.freshnessSeconds
  · have hstatus : (p.publicRecord record age).index "status" = .str "online" := by
      simp only [publicRecord, if_pos hfresh]
      rfl
    exact iff_of_true hstatus hfresh
  · have hstatus : (p.publicRecord record age).index "status" = .str "stale" := by
      simp only [publicRecord, if_neg hfresh]
      rfl
    refine iff_of_false ?_ hfresh
    rw [hstatus]
    decide

theorem pageLoop_congr [F64] {limit bytes : Nat} {nodes : List Node} {last : Option String}
    {rs rs' : List (PeerRecord × Nat)} (h : List.Forall₂ (SameRecord p) rs rs') :
    p.pageLoop limit nodes bytes last rs = p.pageLoop limit nodes bytes last rs' := by
  induction h generalizing nodes bytes last with
  | nil => rfl
  | @cons a b rest rest' hab hrest ih =>
    obtain ⟨record, age⟩ := a
    obtain ⟨record', age'⟩ := b
    have hnode : p.publicRecord record age = p.publicRecord record' age' := publicRecord_congr hab
    simp only [pageLoop, hnode, ih]

theorem capabilityLoop_congr {permitted names : SortedSet String} {originFresh : Bool}
    {rs rs' : List (PeerRecord × Nat)} (h : List.Forall₂ (SameRecord p) rs rs') :
    p.capabilityLoop origin permitted names originFresh rs
      = p.capabilityLoop origin permitted names originFresh rs' := by
  induction h generalizing names originFresh with
  | nil => rfl
  | @cons a b rest rest' hab hrest ih =>
    obtain ⟨record, age⟩ := a
    obtain ⟨record', age'⟩ := b
    have hid : record.nodeId = record'.nodeId := hab.nodeId
    have hage : age = age' := hab.age
    unfold capabilityLoop
    by_cases hskip : record.nodeId ∉ permitted ∨ seconds p.freshnessSeconds ≤ age
    · rw [if_pos hskip, if_pos (hage ▸ hid ▸ hskip)]
      exact ih
    · rw [if_neg hskip, if_neg (hage ▸ hid ▸ hskip)]
      obtain ⟨-, hfresh⟩ := not_or.mp hskip
      have hrecord : record = record' := hab.fresh (Nat.not_le.mp hfresh)
      simp only [hrecord, ih]

/-- The readings of permitted ids are alike, one by one. -/
theorem readings_alike {ids : List String} (h : ∀ id ∈ ids, Alike p (reading cs id) (reading cs' id)) :
    List.Forall₂ (SameRecord p) (ids.filterMap (reading cs)) (ids.filterMap (reading cs')) := by
  induction ids with
  | nil => exact .nil
  | cons id ids ih =>
    have hhead := h id (List.mem_cons_self ..)
    have htail := ih fun j hj => h j (List.mem_cons_of_mem _ hj)
    generalize hr : reading cs id = r at hhead
    generalize hr' : reading cs' id = r' at hhead
    cases hhead with
    | missing =>
      rw [List.filterMap_cons_none hr, List.filterMap_cons_none hr']
      exact htail
    | found hsame =>
      rw [List.filterMap_cons_some hr, List.filterMap_cons_some hr']
      exact .cons hsame htail

/-- What a selection finds in tables that look alike. -/
theorem records_alike {query : PeerQuery} {selected : SortedSet String}
    (h : LookAlike p origin cs cs') (hs : p.selection origin query = .ok selected) :
    (peerRecords cs selected = .error "peer selection exceeds bounds"
      ∧ peerRecords cs' selected = .error "peer selection exceeds bounds")
    ∨ ∃ rs rs', peerRecords cs selected = .ok rs ∧ peerRecords cs' selected = .ok rs' ∧
        List.Forall₂ (SameRecord p) rs rs' := by
  obtain ⟨-, -, -, hmem⟩ := selection_ok.mp hs
  by_cases hbound : 257 < selected.items.length
  · refine .inl ⟨?_, ?_⟩
    · simp only [peerRecords, bailIf, if_pos hbound, error_bind]
    · simp only [peerRecords, bailIf, if_pos hbound, error_bind]
  · refine .inr ⟨_, _, peerRecords_ok.mpr ⟨Nat.not_lt.mp hbound, rfl⟩,
      peerRecords_ok.mpr ⟨Nat.not_lt.mp hbound, rfl⟩, readings_alike ?_⟩
    intro id hid
    exact h id ((hmem id).mp hid).1.1

theorem view_congr [F64] (h : LookAlike p origin cs cs') (payload : Json) :
    p.view origin payload cs = p.view origin payload cs' := by
  unfold view
  cases context (PeerQuery.fromJson payload) "invalid peer query" with
  | error e => rfl
  | ok query =>
    rw [ok_bind, ok_bind]
    cases hs : p.selection origin query with
    | error e => rfl
    | ok selected =>
      rw [ok_bind, ok_bind]
      rcases records_alike h hs with ⟨he, he'⟩ | ⟨rs, rs', hr, hr', hsame⟩
      · rw [he, he']
      · rw [hr, hr', ok_bind, ok_bind, page, page, pageLoop_congr hsame]
        have hempty : rs = [] ↔ rs' = [] := by
          rw [← List.length_eq_zero_iff, hsame.length_eq, List.length_eq_zero_iff]
        simp only [hempty]

theorem interpretationCapabilities_congr (h : LookAlike p origin cs cs') :
    p.interpretationCapabilities origin cs = p.interpretationCapabilities origin cs' := by
  unfold interpretationCapabilities
  cases hs : p.selection origin .default with
  | error e => rfl
  | ok selected =>
    rw [ok_bind, ok_bind]
    rcases records_alike h hs with ⟨he, he'⟩ | ⟨rs, rs', hr, hr', hsame⟩
    · rw [he, he']
    · rw [hr, hr', ok_bind, ok_bind]
      simp only [capabilityNames, capabilityLoop_congr hsame]

theorem planningNodes_congr (h : LookAlike p origin cs cs') :
    p.planningNodes origin cs = p.planningNodes origin cs' := by
  unfold planningNodes
  cases hs : p.selection origin .default with
  | error e => rfl
  | ok selected =>
    rw [ok_bind, ok_bind]
    rcases records_alike h hs with ⟨he, he'⟩ | ⟨rs, rs', hr, hr', hsame⟩
    · rw [he, he']
    · rw [hr, hr', ok_bind, ok_bind]
      have hids : (rs.filter fun r => decide (asMillis r.2 < p.freshnessSeconds * 1000)).map
            (fun r => r.1.nodeId)
          = (rs'.filter fun r => decide (asMillis r.2 < p.freshnessSeconds * 1000)).map
            (fun r => r.1.nodeId) := by
        clear hr hr'
        induction hsame with
        | nil => rfl
        | @cons a b rest rest' hab hrest ih =>
          rw [List.filter_cons, List.filter_cons, hab.age]
          split
          · rw [List.map_cons, List.map_cons, hab.nodeId, ih]
          · exact ih
      rw [hids]

/-- A node that is named is found among the permitted ones that are connected, or the answer is the
same error. -/
theorem view_named [F64] {payload : Json} {query : PeerQuery} {target : String}
    (hpayload : PeerQuery.fromJson payload = some query) (horigin : validateNodeId origin = .ok ())
    (hquery : query.validate = .ok ()) (htarget : query.nodeId = some target)
    (hhidden : target ∉ p.permitted origin ∨ reading cs target = none) :
    p.view origin payload cs = .error "node unavailable or not authorized" := by
  unfold view
  rw [hpayload, context, ok_bind]
  by_cases hmem : target ∈ p.permitted origin
  · have hnone : reading cs target = none := hhidden.resolve_left (not_not.mpr hmem)
    have hall : ∀ t ∈ query.nodeId, t ∈ p.permitted origin := by
      intro t ht
      rw [htarget, Option.mem_some_iff] at ht
      exact ht ▸ hmem
    obtain ⟨named, hnamed⟩ := retainNamed_exists hall
    have hs : p.selection origin query = .ok (retainAfter named query.after) := by
      simp only [selection, bind_ok, pure_ok]
      exact ⟨(), horigin, (), hquery, named, hnamed, rfl⟩
    obtain ⟨-, -, -, hsel⟩ := selection_ok.mp hs
    generalize retainAfter named query.after = selected at hs hsel
    have honly : ∀ id ∈ selected.items, id = target := by
      intro id hid
      exact ((hsel id).mp hid).1.2 target (by rw [htarget]; rfl)
    have hlen : selected.items.length ≤ 257 := (SortedSet.length_le_one honly).trans (by decide)
    have hrecords : peerRecords cs selected = .ok [] := by
      refine peerRecords_ok.mpr ⟨hlen, ?_⟩
      symm
      rw [List.filterMap_eq_nil_iff]
      intro id hid
      rw [honly id hid]
      exact hnone
    rw [hs, ok_bind, hrecords, ok_bind, bailIf, if_pos ⟨by rw [htarget]; rfl, rfl⟩]
    rfl
  · have hs : p.selection origin query = .error "node unavailable or not authorized" := by
      simp only [selection, horigin, hquery, ok_bind, htarget, retainNamed, if_neg hmem, error_bind]
    rw [hs]
    rfl

/-- The nodes a plan may use are the permitted ones whose record is fresh. -/
theorem planningNodes_ok {nodes : SortedSet String} (h : p.planningNodes origin cs = .ok nodes) :
    ∀ id, id ∈ nodes ↔ ∃ key ∈ p.permitted origin, ∃ r, reading cs key = some r ∧
      r.1.nodeId = id ∧ r.2 < seconds p.freshnessSeconds := by
  intro id
  simp only [planningNodes, bind_ok, ensure_ok, pure_ok, peerRecords_ok] at h
  obtain ⟨selected, hs, records, ⟨-, rfl⟩, _, -, rfl⟩ := h
  obtain ⟨-, -, -, hmem⟩ := selection_ok.mp hs
  rw [SortedSet.mem_extend, or_iff_right (SortedSet.not_mem_empty id), List.mem_map]
  constructor
  · intro h
    obtain ⟨r, hr, hid⟩ := h
    obtain ⟨hr, hage⟩ := List.mem_filter.mp hr
    obtain ⟨key, hkey, hreading⟩ := List.mem_filterMap.mp hr
    refine ⟨key, ((hmem key).mp hkey).1.1, r, hreading, hid, ?_⟩
    have hage := of_decide_eq_true hage
    unfold asMillis at hage
    unfold seconds
    omega
  · intro h
    obtain ⟨key, hkey, r, hreading, hid, hage⟩ := h
    refine ⟨r, List.mem_filter.mpr ⟨List.mem_filterMap.mpr ⟨key, ?_, hreading⟩, ?_⟩, hid⟩
    · refine (hmem key).mpr ⟨⟨hkey, ?_⟩, ?_⟩
      · intro t ht
        cases ht
      · intro a ha
        cases ha
    · refine decide_eq_true ?_
      unfold seconds at hage
      unfold asMillis
      omega

end DiscoveryPolicy

/-- Tables that look alike to an origin give it the same answers: no answer depends on a node that
was not granted to it, nor on the address, the capabilities or the models of a record that is no
longer fresh. A node that is not granted and one that is not connected are told apart by nothing,
and the nodes that a plan may use are the permitted ones that are shown as online. -/
theorem discovery_noninterference [F64] (p : DiscoveryPolicy) (origin : String)
    (cs cs' : Connections) (h : LookAlike p origin cs cs') :
    (∀ payload, p.view origin payload cs = p.view origin payload cs') ∧
    p.interpretationCapabilities origin cs = p.interpretationCapabilities origin cs' ∧
    p.planningNodes origin cs = p.planningNodes origin cs' ∧
    (∀ payload query target, PeerQuery.fromJson payload = some query →
      validateNodeId origin = .ok () → query.validate = .ok () → query.nodeId = some target →
      (target ∉ p.permitted origin ∨ reading cs target = none) →
      p.view origin payload cs = .error "node unavailable or not authorized") ∧
    (∀ nodes, p.planningNodes origin cs = .ok nodes → ∀ id, id ∈ nodes ↔
      ∃ key ∈ p.permitted origin, ∃ r, reading cs key = some r ∧ r.1.nodeId = id ∧
        (p.publicRecord r.1 r.2).index "status" = .str "online") := by
  refine ⟨DiscoveryPolicy.view_congr h, DiscoveryPolicy.interpretationCapabilities_congr h,
    DiscoveryPolicy.planningNodes_congr h, ?_, ?_⟩
  · intro payload query target hpayload horigin hquery htarget hhidden
    exact DiscoveryPolicy.view_named hpayload horigin hquery htarget hhidden
  · intro nodes hnodes id
    simp only [DiscoveryPolicy.planningNodes_ok hnodes id, DiscoveryPolicy.publicRecord_status]

/-- A policy with one grant. -/
def samplePolicy : DiscoveryPolicy := ⟨.ofList [("a", SortedSet.empty.insert "b")], 30⟩

/-- A record with an address and a capability. -/
def sampleRecord (id address : String) : PeerRecord :=
  ⟨id, "node", ⟨some address, none⟩, ["system.info"], []⟩

/-- A table with a stale record of the granted node, and another one. -/
def sampleTable (address : String) (others : Connections) : Connections :=
  [("a", ⟨some (sampleRecord "a" "26.1.2.3"), seconds 1⟩),
    ("b", ⟨some (sampleRecord "b" address), seconds 30⟩)] ++ others

attribute [local instance] F64.bits

theorem discovery_noninterference_sample :
    samplePolicy.view "a" (.obj []) (sampleTable "26.1.2.4" [("c", ⟨none, 0⟩)])
      = samplePolicy.view "a" (.obj []) (sampleTable "26.1.2.5" []) := by
  refine (discovery_noninterference samplePolicy "a" _ _ ?_).1 _
  intro id hid
  have hids : (samplePolicy.permitted "a").items = ["a", "b"] := by decide +kernel
  rw [← SortedSet.mem_items, hids] at hid
  rcases List.mem_cons.mp hid with rfl | hid
  · exact .found ⟨rfl, rfl, rfl, fun _ => rfl⟩
  · rw [List.mem_singleton.mp hid]
    refine .found ⟨rfl, rfl, rfl, fun hfresh => ?_⟩
    exact absurd hfresh (by decide)

end Eef.Coordinator.Discovery
