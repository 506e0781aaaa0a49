import Eef.Lib.Json
import Eef.Lib.Run
import Eef.Lib.Table
import Eef.Node.Lease
import Eef.Node.Grant
import Mathlib.Data.List.Dedup

/-!
# Provider capacity

`CapabilityRegistry` of `capability.rs`: the providers that are registered and the live
reservations on them. Every call runs under one lock, so a call is a step. A reservation
holds a member for its root provider and for each other provider its bundle selected; a
member is current as long as the registration it reserved is.

The map from capabilities to providers is the list of its providers, and a provider is
found by its key. How candidates are ranked is the parameter `Rating`: it compares floating
point scores, and no bound depends on which candidate comes first.

`Inv` is one account for the whole registry: a provider's counter is the number of live
reservations that hold it. What a call does to a counter is always what it does to that
number, because the same call retires the members it has to (`holders_retire`).
-/

namespace Eef.Coordinator.Registry

open Eef.Lib Eef.Node

/-- `NodeSpecs`, as far as constraints and scores read them. -/
structure NodeSpecs where
  cpuCores : Nat
  cpuFreqMhz : Nat
  ramMb : Nat
  gpuVramMb : Nat
  gpuFamily : String
  deriving DecidableEq, Repr

/-- `CapabilityProvider`; its doubles are kept as their bits. -/
structure Provider where
  capability : String
  action : String
  nodeId : String
  nodeName : String
  properties : Json
  nodeSpecs : NodeSpecs
  load : BitVec 64
  latencyMs : BitVec 64
  priority : Int
  healthy : Bool
  inFlight : Nat
  maxConcurrent : Nat
  lastHeartbeatMs : Nat
  deriving DecidableEq, Repr

/-- `ProviderKey`: node, capability and action. -/
abbrev Key := String × String × String

/-- `provider_key`. -/
def Provider.key (p : Provider) : Key := (p.nodeId, p.capability, p.action)

/-- `SchedulingPolicy`. -/
structure Policy where
  freshnessSeconds : Nat
  maxInFlight : Nat
  perProviderConcurrency : Nat
  nodeLimits : List (String × Nat)
  deriving DecidableEq, Repr

/-- The floating point work: clamping a metric, and the order candidates are ranked in. -/
class Rating where
  /-- `load.clamp(0.0, 1.0)`. -/
  clampLoad : BitVec 64 → BitVec 64
  /-- `latency_ms.max(0.0)`. -/
  floorLatency : BitVec 64 → BitVec 64
  /-- The comparison of `select_provider`. -/
  le : Option RequestContext → Provider → Provider → Bool

/-- `ReservationMember`. -/
structure Member where
  key : Key
  current : Bool
  deriving DecidableEq, Repr

/-- `RegistryEntries`: the providers, and the reservations by their identity. -/
structure Entries where
  providers : List Provider
  reservations : List (String × List Member)
  deriving DecidableEq, Repr

/-- An empty registry. -/
def Entries.empty : Entries := ⟨[], []⟩

/-! ## Selection -/

/-- `provider_ceiling`; zero is no ceiling. -/
def ceiling (policy : Policy) (p : Provider) : Nat :=
  if p.maxConcurrent = 0 then policy.perProviderConcurrency
  else if policy.perProviderConcurrency = 0 then p.maxConcurrent
  else min p.maxConcurrent policy.perProviderConcurrency

/-- The node a reservation's root runs on. -/
def rootNode (e : String × List Member) : Option String := e.2.head?.map (·.key.1)

/-- `reservation_counts`, of one node. -/
def Entries.rootCount (s : Entries) (node : String) : Nat :=
  s.reservations.countP fun e => rootNode e == some node

/-- A node's own limit; zero is none. -/
def Policy.nodeLimit (policy : Policy) (node : String) : Nat :=
  (policy.nodeLimits.lookup node).getD 0

/-- `CapabilityProvider::accepts`. -/
def Provider.accepts (p : Provider) (action : String) : Bool :=
  p.action == "*" || action == "*" || p.action == action

/-- `eligible`. -/
def Entries.eligible (s : Entries) (policy : Policy) (capability action : String) :
    List Provider :=
  if 0 < policy.maxInFlight ∧ policy.maxInFlight ≤ s.reservations.length then []
  else s.providers.filter fun p => p.capability == capability && p.healthy && p.accepts action
    && (policy.nodeLimit p.nodeId == 0
      || decide (s.rootCount p.nodeId < policy.nodeLimit p.nodeId))

/-- `stale`. -/
def stale (p : Provider) (now freshnessMs : Nat) : Bool :=
  p.nodeId != "local" && decide (freshnessMs < now - p.lastHeartbeatMs)

/-- One constraint of `satisfies`. -/
def meets (p : Provider) (key : String) (value : Json) : Bool :=
  match key with
  | "gpu" => value.asStr.any fun gpu => gpu != "" && p.nodeSpecs.gpuFamily == gpu
  | "gpu_vram_min_mb" | "vram_min_mb" =>
    match value with
    | .num n => (Json.Number.asU64 n).any fun minimum => decide (minimum ≤ p.nodeSpecs.gpuVramMb)
    | _ => false
  | "node_id" => value.asStr.any (p.nodeId == ·)
  | "node_name" => value.asStr.any (p.nodeName == ·)
  | "resource_id" => value.asStr.isSome && p.properties.get? "selected_resource_id" == some value
  | "area" =>
    match value with
    | .arr _ => p.properties.get? "area" == some value
    | _ => false
  | _ => true

/-- `satisfies`. -/
def satisfies (p : Provider) (constraints : Json) : Bool :=
  match constraints with
  | .null => true
  | .obj fields => fields.all fun e => meets p e.1 e.2
  | _ => false

/-- A provider bound to one of its resources. -/
def bind (p : Provider) (resource : Json) : Option Provider :=
  (resource.index "id").asStr.map fun id =>
    { p with
      properties := (p.properties.set "selected_resource_id" (.str (p.nodeId ++ "::" ++ id))).set
        "area" (resource.index "area") }

/-- The resources a provider offers for a capability. -/
def resources (capability : String) (p : Provider) : List Json :=
  match p.properties.get? "resources" with
  | some (.arr items) => items.filter fun r => Json.index r "capability" == .str capability
  | _ => []

/-- A provider, or one candidate for each of its available resources of the capability. -/
def expand (capability : String) (p : Provider) : List Provider :=
  if (resources capability p).isEmpty then [p]
  else ((resources capability p).filter fun r => Json.index r "available" == .bool true).filterMap
    (bind p)

/-- Fresh, below its ceiling and what was asked for. -/
def fits (policy : Policy) (now : Nat) (constraints : Json) (p : Provider) : Bool :=
  !stale p now (policy.freshnessSeconds * 1000)
    && (ceiling policy p == 0 || decide (p.inFlight < ceiling policy p)) && satisfies p constraints

/-- What a bundle asks of a stage: capability, action and constraints. -/
structure Demand where
  capability : String
  action : String
  constraints : Json
  deriving DecidableEq, Repr

section
variable [Rating]

/-- `select_provider` among the eligible. -/
def Entries.select (s : Entries) (policy : Policy) (context : Option RequestContext) (now : Nat)
    (d : Demand) : Option Provider :=
  ((((s.eligible policy d.capability d.action).flatMap (expand d.capability)).filter
    (fits policy now d.constraints)).mergeSort (Rating.le context)).head?

/-! ## Reservations -/

/-- The keys of a bundle's stages; each stage is bound to the root's node. -/
def Entries.stageKeys (s : Entries) (policy : Policy) (context : Option RequestContext)
    (node : String) : List (Nat × Demand) → Option (List Key)
  | [] => some []
  | (now, d) :: rest =>
    if (d.constraints.index "node_id").asStr ≠ some node then none
    else do
      let candidate ← s.select policy context now d
      if candidate.nodeId ≠ node ∨ (candidate.properties.index "selected_resource_id").asStr
          ≠ (d.constraints.index "resource_id").asStr then none
      else do
        let keys ← s.stageKeys policy context node rest
        return candidate.key :: keys

end

/-- `values.iter_mut().find(..)`: the first match is changed. -/
def modifyFirst (p : Provider → Bool) (f : Provider → Provider) : List Provider → List Provider
  | [] => []
  | a :: l => if p a then f a :: l else a :: modifyFirst p f l

/-- Changes a provider's counter. -/
def Provider.count (f : Nat → Nat) (p : Provider) : Provider := { p with inFlight := f p.inFlight }

/-- Counts one more or one less on the provider with a key. -/
def recount (f : Nat → Nat) (l : List Provider) (k : Key) : List Provider :=
  modifyFirst (fun p => p.key == k) (Provider.count f) l

/-- `u32::MAX`. -/
def u32Max : Nat := 2 ^ 32 - 1

/-- The keys of a bundle, its root first and each once. -/
def bundleKeys (root : Key) (stages : List Key) : List Key :=
  root :: (stages.filter (· ≠ root)).dedup

section
variable [Rating]

/-- `reserve_bundle_with_context`, under the identity it draws. `now` is the clock of the
root's selection, and each stage has its own. -/
def Entries.reserveBundle (s : Entries) (policy : Policy) (context : Option RequestContext)
    (now : Nat) (root : Demand) (stages : List (Nat × Demand)) (id : String) :
    Option (Entries × Provider) :=
  if 16 < stages.length then none
  else do
    let selected ← s.select policy context now root
    let keys := bundleKeys selected.key (← s.stageKeys policy context selected.nodeId stages)
    if ∀ k ∈ keys, (s.providers.find? (·.key = k)).any fun p => decide (p.inFlight < u32Max) then
      return (⟨keys.foldl (recount (· + 1)) s.providers,
        s.reservations ++ [(id, keys.map (⟨·, true⟩))]⟩,
        { selected with
          inFlight := ((keys.foldl (recount (· + 1)) s.providers).find?
            (·.key = selected.key)).elim 0 (·.inFlight) })
    else none

end

/-- `ProviderReservation::drop`. -/
def Entries.release (s : Entries) (id : String) : Entries :=
  match s.reservations.lookup id with
  | none => s
  | some members =>
    ⟨((members.filter (·.current)).map (·.key)).foldl (recount (· - 1)) s.providers,
      s.reservations.filter fun e => e.1 ≠ id⟩

/-! ## Registration -/

/-- The members whose key is selected are of a former registration. -/
def retire (gone : Key → Bool) (reservations : List (String × List Member)) :
    List (String × List Member) :=
  reservations.map fun e =>
    (e.1, e.2.map fun m => if gone m.key then { m with current := false } else m)

/-- `register`. -/
def Entries.register (s : Entries) (p : Provider) : Entries :=
  ⟨s.providers.filter (fun q => q.key ≠ p.key) ++ [p], retire (· == p.key) s.reservations⟩

/-- `unregister_node`. -/
def Entries.unregisterNode (s : Entries) (node : String) : Entries :=
  ⟨s.providers.filter fun q => q.nodeId ≠ node, retire (fun k => k.1 == node) s.reservations⟩

/-- A refreshed provider keeps what the scheduler owns of its predecessor. -/
def carry (previous : List Provider) (p : Provider) : Provider :=
  match previous.find? fun q => q.key = p.key with
  | some old => { p with
      load := old.load
      latencyMs := old.latencyMs
      priority := old.priority
      inFlight := old.inFlight
      maxConcurrent := old.maxConcurrent }
  | none => p

/-- A refreshed provider replaces the one with its key. -/
def place (previous : List Provider) (l : List Provider) (p : Provider) : List Provider :=
  l.filter (fun q => q.key ≠ p.key) ++ [carry previous p]

/-- `refresh_node`. -/
def Entries.refreshNode (s : Entries) (node : String) (replacements : List Provider) : Entries :=
  let own := replacements.filter fun p => p.nodeId = node
  ⟨own.foldl (place (s.providers.filter fun q => q.nodeId = node))
      (s.providers.filter fun q => q.nodeId ≠ node),
    retire (fun k => k.1 == node && !(own.map (·.key)).contains k) s.reservations⟩

/-- `update_metrics_at`. -/
def Entries.updateMetrics [Rating] (s : Entries) (node : String) (load latencyMs : BitVec 64)
    (specs : Option NodeSpecs) (receivedAtMs : Nat) : Entries :=
  { s with
    providers := s.providers.map fun p =>
      if p.nodeId = node then
        { p with
          load := Rating.clampLoad load
          latencyMs := Rating.floorLatency latencyMs
          lastHeartbeatMs := receivedAtMs
          nodeSpecs := specs.getD p.nodeSpecs }
      else p }

/-- A call on the registry. Providers come with no work in flight, and a reservation's
identity is new. -/
inductive Step [Rating] (policy : Policy) : Entries → Entries → Prop where
  | register (s : Entries) (p : Provider) (h : p.inFlight = 0) : Step policy s (s.register p)
  | refreshNode (s : Entries) (node : String) (replacements : List Provider)
    (h : ∀ p ∈ replacements, p.inFlight = 0) : Step policy s (s.refreshNode node replacements)
  | unregisterNode (s : Entries) (node : String) : Step policy s (s.unregisterNode node)
  | updateMetrics (s : Entries) (node : String) (load latencyMs : BitVec 64)
    (specs : Option NodeSpecs) (receivedAtMs : Nat) :
    Step policy s (s.updateMetrics node load latencyMs specs receivedAtMs)
  | reserve (s t : Entries) (context : Option RequestContext) (now : Nat) (root : Demand)
    (stages : List (Nat × Demand)) (id : String) (provider : Provider)
    (hid : id ∉ s.reservations.map Prod.fst)
    (h : s.reserveBundle policy context now root stages id = some (t, provider)) : Step policy s t
  | release (s : Entries) (id : String) : Step policy s (s.release id)

/-! ## The account -/

/-- A reservation holds the current registration of a key. -/
def holds (k : Key) (e : String × List Member) : Bool :=
  e.2.any fun m => m.current && m.key == k

/-- The live reservations that hold a key. -/
def holders (k : Key) (reservations : List (String × List Member)) : Nat :=
  reservations.countP (holds k)

/-- The invariant of a registry under a policy. -/
structure Inv (policy : Policy) (s : Entries) : Prop where
  keyed : Table.Keyed Provider.key s.providers
  ids : (s.reservations.map Prod.fst).Nodup
  members : ∀ e ∈ s.reservations, (e.2.map (·.key)).Nodup ∧ e.2 ≠ []
  accounted : ∀ p ∈ s.providers, p.inFlight = holders p.key s.reservations
  registered : ∀ e ∈ s.reservations, ∀ m ∈ e.2, m.current = true →
    ∃ p ∈ s.providers, p.key = m.key
  total : policy.maxInFlight ≠ 0 → s.reservations.length ≤ policy.maxInFlight
  nodes : ∀ node, policy.nodeLimit node ≠ 0 → s.rootCount node ≤ policy.nodeLimit node
  ceilings : ∀ p ∈ s.providers, ceiling policy p ≠ 0 → p.inFlight ≤ ceiling policy p

variable {policy : Policy} {s t : Entries}

theorem Inv.empty : Inv policy Entries.empty where
  keyed := List.nodup_nil
  ids := List.nodup_nil
  members _ h := nomatch h
  accounted _ h := nomatch h
  registered _ h := nomatch h
  total _ := Nat.zero_le _
  nodes _ _ := Nat.zero_le _
  ceilings _ h := nomatch h

/-! ### Retired members -/

theorem holds_retire (gone : Key → Bool) (k : Key) (e : String × List Member) :
    holds k (e.1, e.2.map fun m => if gone m.key then { m with current := false } else m)
      = (!gone k && holds k e) := by
  simp only [holds, List.any_map]
  by_cases hk : gone k = true
  · rw [hk, Bool.not_true, Bool.false_and, List.any_eq_false]
    intro m _
    by_cases hm : gone m.key = true
    · simp [hm]
    · have : ¬m.key = k := fun e => hm (e ▸ hk)
      simp [hm, this]
  · rw [Bool.not_eq_true] at hk
    rw [hk, Bool.not_false, Bool.true_and]
    apply List.any_congr
    · rfl
    · intro m
      by_cases hm : gone m.key = true
      · have : ¬m.key = k := by
          rintro rfl
          rw [hk] at hm
          cases hm
        simp [hm, this]
      · simp [hm]

/-- A retired key has no holder; the others keep theirs. -/
theorem holders_retire (gone : Key → Bool) (k : Key) (rs : List (String × List Member)) :
    holders k (retire gone rs) = if gone k then 0 else holders k rs := by
  simp only [holders, retire, List.countP_map]
  by_cases hk : gone k = true
  · rw [if_pos hk, List.countP_eq_zero]
    intro e _
    simp only [Function.comp, holds_retire, hk, Bool.not_true, Bool.false_and, Bool.false_eq_true,
      not_false_eq_true]
  · rw [Bool.not_eq_true] at hk
    rw [hk, if_neg (by decide)]
    apply List.countP_congr
    intro e _
    simp only [Function.comp, holds_retire, hk, Bool.not_false, Bool.true_and]

theorem rootCount_retire (gone : Key → Bool) (rs : List (String × List Member)) (node : String) :
    (retire gone rs).countP (fun e => rootNode e == some node)
      = rs.countP fun e => rootNode e == some node := by
  simp only [retire, List.countP_map]
  apply List.countP_congr
  intro e _
  have : rootNode (e.1, e.2.map fun m => if gone m.key then { m with current := false } else m)
      = rootNode e := by
    obtain ⟨id, members⟩ := e
    cases members with
    | nil => rfl
    | cons m rest =>
      simp only [rootNode, List.map_cons, List.head?_cons, Option.map_some, Option.some.injEq]
      split <;> rfl
  simp only [Function.comp, this]

/-- A key nobody registered has no holder. -/
theorem Inv.holders_unregistered (hi : Inv policy s) {k : Key}
    (h : ∀ p ∈ s.providers, p.key ≠ k) : holders k s.reservations = 0 := by
  rw [holders, List.countP_eq_zero]
  intro e he hh
  simp only [holds, List.any_eq_true, Bool.and_eq_true, beq_iff_eq] at hh
  obtain ⟨m, hm, hcur, hkey⟩ := hh
  obtain ⟨p, hp, hpk⟩ := hi.registered e he m hm hcur
  exact h p hp (hpk.trans hkey)

/-- Registrations that retire what they replace: the account is kept when each provider
has the counter of its holders left and each member left has a provider. -/
theorem Inv.registrations (hi : Inv policy s) {gone : Key → Bool} {providers : List Provider}
    (hkeyed : Table.Keyed Provider.key providers)
    (hcount : ∀ p ∈ providers, p.inFlight = if gone p.key then 0 else holders p.key s.reservations)
    (hreg : ∀ p ∈ s.providers, gone p.key = false → ∃ q ∈ providers, q.key = p.key)
    (hceil : ∀ p ∈ providers, ceiling policy p ≠ 0 → p.inFlight ≤ ceiling policy p) :
    Inv policy ⟨providers, retire gone s.reservations⟩ where
  keyed := hkeyed
  ids := by
    have : (retire gone s.reservations).map Prod.fst = s.reservations.map Prod.fst := by
      simp [retire]
    show ((retire gone s.reservations).map Prod.fst).Nodup
    rw [this]
    exact hi.ids
  members e he := by
    obtain ⟨e', he', rfl⟩ := List.mem_map.mp he
    obtain ⟨hnd, hne⟩ := hi.members e' he'
    have hkeys : (e'.2.map fun m => if gone m.key then { m with current := false } else m).map
        (·.key) = e'.2.map (·.key) := by
      rw [List.map_map]
      apply List.map_congr_left
      intro m _
      simp only [Function.comp]
      split <;> rfl
    exact ⟨by rw [hkeys]; exact hnd, by simpa using hne⟩
  accounted p hp := by
    show p.inFlight = holders p.key (retire gone s.reservations)
    rw [holders_retire]
    exact hcount p hp
  registered e he m hm hcur := by
    obtain ⟨e', he', rfl⟩ := List.mem_map.mp he
    obtain ⟨m', hm', rfl⟩ := List.mem_map.mp hm
    by_cases hg : gone m'.key = true
    · simp [hg] at hcur
    · rw [if_neg hg] at hcur ⊢
      rw [Bool.not_eq_true] at hg
      obtain ⟨p, hp, hpk⟩ := hi.registered e' he' m' hm' hcur
      obtain ⟨q, hq, hqk⟩ := hreg p hp (by rw [hpk]; exact hg)
      exact ⟨q, hq, hqk.trans hpk⟩
  total h := by
    show (retire gone s.reservations).length ≤ _
    rw [retire, List.length_map]
    exact hi.total h
  nodes node h := by
    show (retire gone s.reservations).countP _ ≤ _
    rw [rootCount_retire]
    exact hi.nodes node h
  ceilings := hceil

/-- A list of providers with one key replaced. -/
theorem keyed_place {l : List Provider} (hk : Table.Keyed Provider.key l) (p : Provider) :
    Table.Keyed Provider.key (l.filter (fun q => q.key ≠ p.key) ++ [p]) := by
  refine Table.Keyed.insert ?_ ?_
  · exact List.Nodup.sublist (List.Sublist.map _ List.filter_sublist) hk
  · rw [Table.find_none]
    intro q hq
    simpa using (List.mem_filter.mp hq).2

theorem Inv.register (hi : Inv policy s) {p : Provider} (h : p.inFlight = 0) :
    Inv policy (s.register p) := by
  refine hi.registrations (keyed_place hi.keyed p) ?_ ?_ ?_
  · intro q hq
    rcases List.mem_append.mp hq with hq | hq
    · obtain ⟨hq, hne⟩ := List.mem_filter.mp hq
      have hne : ¬q.key = p.key := by simpa using hne
      rw [if_neg (by simpa using hne)]
      exact hi.accounted q hq
    · rw [List.mem_singleton] at hq
      subst hq
      rw [if_pos (by simp)]
      exact h
  · intro q hq hg
    have hne : q.key ≠ p.key := by simpa using hg
    exact ⟨q, List.mem_append_left _ (List.mem_filter.mpr ⟨hq, by simpa using hne⟩), rfl⟩
  · intro q hq hc
    rcases List.mem_append.mp hq with hq | hq
    · exact hi.ceilings q (List.mem_filter.mp hq).1 hc
    · rw [List.mem_singleton] at hq
      subst hq
      rw [h]
      exact Nat.zero_le _

theorem Inv.unregisterNode (hi : Inv policy s) (node : String) :
    Inv policy (s.unregisterNode node) := by
  refine hi.registrations (List.Nodup.sublist (List.Sublist.map _ List.filter_sublist) hi.keyed)
    ?_ ?_ ?_
  · intro q hq
    obtain ⟨hq, hne⟩ := List.mem_filter.mp hq
    have hne : ¬q.nodeId = node := by simpa using hne
    rw [if_neg (by simpa [Provider.key] using hne)]
    exact hi.accounted q hq
  · intro q hq hg
    have hne : ¬q.nodeId = node := by simpa [Provider.key] using hg
    exact ⟨q, List.mem_filter.mpr ⟨hq, by simpa using hne⟩, rfl⟩
  · intro q hq hc
    exact hi.ceilings q (List.mem_filter.mp hq).1 hc

/-! ### Refreshed nodes -/

@[simp]
theorem carry_key (previous : List Provider) (p : Provider) : (carry previous p).key = p.key := by
  unfold carry
  split <;> rfl

/-- What a refresh leaves: the other nodes' providers and the replacements, each key once. -/
theorem foldl_place (previous : List Provider) :
    ∀ (own l : List Provider), Table.Keyed Provider.key l →
      Table.Keyed Provider.key (own.foldl (place previous) l)
      ∧ (∀ q ∈ own.foldl (place previous) l, q ∈ l ∨ ∃ p ∈ own, q = carry previous p)
      ∧ (∀ q ∈ l, ∃ r ∈ own.foldl (place previous) l, r.key = q.key)
      ∧ ∀ p ∈ own, ∃ r ∈ own.foldl (place previous) l, r.key = p.key
  | [], l, hk => ⟨hk, fun q hq => .inl hq, fun q hq => ⟨q, hq, rfl⟩, fun _ h => nomatch h⟩
  | p :: own, l, hk => by
    have hk' : Table.Keyed Provider.key (place previous l p) := by
      have := keyed_place hk (carry previous p)
      rwa [carry_key] at this
    obtain ⟨hkey, hmem, hold, hown⟩ := foldl_place previous own (place previous l p) hk'
    refine ⟨hkey, ?_, ?_, ?_⟩
    · intro q hq
      rcases hmem q hq with hq | ⟨p', hp', rfl⟩
      · rcases List.mem_append.mp hq with hq | hq
        · exact .inl (List.mem_filter.mp hq).1
        · rw [List.mem_singleton] at hq
          exact .inr ⟨p, List.mem_cons_self, hq⟩
      · exact .inr ⟨p', List.mem_cons_of_mem _ hp', rfl⟩
    · intro q hq
      by_cases hqk : q.key = p.key
      · -- the replacement has the key
        obtain ⟨r, hr, hrk⟩ := hold (carry previous p)
          (List.mem_append_right _ (List.mem_singleton_self _))
        exact ⟨r, hr, by rw [hrk, carry_key, hqk]⟩
      · exact hold q (List.mem_append_left _ (List.mem_filter.mpr ⟨hq, by simpa using hqk⟩))
    · intro p' hp'
      rcases List.mem_cons.mp hp' with rfl | hp'
      · obtain ⟨r, hr, hrk⟩ := hold (carry previous p')
          (List.mem_append_right _ (List.mem_singleton_self _))
        exact ⟨r, hr, by rw [hrk, carry_key]⟩
      · exact hown p' hp'

/-- A carried provider has its predecessor's counter and ceiling. -/
theorem carry_cases (previous : List Provider) (p : Provider) :
    (∃ old ∈ previous, old.key = p.key ∧ (carry previous p).inFlight = old.inFlight
      ∧ ceiling policy (carry previous p) = ceiling policy old)
    ∨ ((∀ q ∈ previous, q.key ≠ p.key) ∧ carry previous p = p) := by
  unfold carry
  cases h : previous.find? fun q => q.key = p.key with
  | some old =>
    exact .inl ⟨old, List.mem_of_find?_eq_some h, by simpa using List.find?_some h, rfl, rfl⟩
  | none =>
    refine .inr ⟨?_, rfl⟩
    intro q hq
    have := List.find?_eq_none.mp h q hq
    simpa using this

theorem Inv.refreshNode (hi : Inv policy s) (node : String) {replacements : List Provider}
    (h : ∀ p ∈ replacements, p.inFlight = 0) : Inv policy (s.refreshNode node replacements) := by
  obtain ⟨hkey, hmem, hold, hown⟩ := foldl_place (s.providers.filter fun q => q.nodeId = node)
    (replacements.filter fun p => p.nodeId = node) (s.providers.filter fun q => q.nodeId ≠ node)
    (List.Nodup.sublist (List.Sublist.map _ List.filter_sublist) hi.keyed)
  refine hi.registrations hkey ?_ ?_ ?_
  · intro q hq
    rcases hmem q hq with hq | ⟨p, hp, rfl⟩
    · obtain ⟨hq, hne⟩ := List.mem_filter.mp hq
      have hne : ¬q.nodeId = node := by simpa using hne
      rw [if_neg (by simp [Provider.key, hne])]
      exact hi.accounted q hq
    · have hpnode : p.nodeId = node := by simpa using (List.mem_filter.mp hp).2
      have hkept : ((replacements.filter fun p => p.nodeId = node).map (·.key)).contains p.key
          = true := by
        rw [List.contains_iff_mem]
        exact List.mem_map_of_mem hp
      rw [carry_key, hkept, Bool.not_true, Bool.and_false, if_neg (by decide)]
      rcases @carry_cases policy (s.providers.filter fun q => q.nodeId = node) p with
        ⟨old, hmem', hok, hfl, _⟩ | ⟨hnone, hp'⟩
      · rw [hfl, hi.accounted old (List.mem_filter.mp hmem').1, hok]
      · rw [hp', h p (List.mem_filter.mp hp).1]
        refine (hi.holders_unregistered ?_).symm
        intro q hq hqk
        refine hnone q (List.mem_filter.mpr ⟨hq, ?_⟩) hqk
        have : q.nodeId = p.nodeId := congrArg Prod.fst hqk
        simpa [this] using hpnode
  · intro p hp hg
    by_cases hnode : p.nodeId = node
    · have hkept : p.key ∈ (replacements.filter fun p => p.nodeId = node).map (·.key) := by
        by_contra hno
        have : ((replacements.filter fun p => p.nodeId = node).map (·.key)).contains p.key
            = false := by
          rw [← Bool.not_eq_true, List.contains_iff_mem]
          exact hno
        rw [this] at hg
        simp [Provider.key, hnode] at hg
      obtain ⟨p', hp', hpk⟩ := List.mem_map.mp hkept
      obtain ⟨r, hr, hrk⟩ := hown p' hp'
      exact ⟨r, hr, hrk.trans hpk⟩
    · exact hold p (List.mem_filter.mpr ⟨hp, by simpa using hnode⟩)
  · intro q hq hc
    rcases hmem q hq with hq | ⟨p, hp, rfl⟩
    · exact hi.ceilings q (List.mem_filter.mp hq).1 hc
    · rcases @carry_cases policy (s.providers.filter fun q => q.nodeId = node) p with
        ⟨old, hmem', _, hfl, hcl⟩ | ⟨_, hp'⟩
      · rw [hcl] at hc ⊢
        rw [hfl]
        exact hi.ceilings old (List.mem_filter.mp hmem').1 hc
      · rw [hp', h p (List.mem_filter.mp hp).1]
        exact Nat.zero_le _

/-! ### Counting on providers -/

theorem recount_keys (f : Nat → Nat) (k : Key) : ∀ l : List Provider,
    (recount f l k).map Provider.key = l.map Provider.key
  | [] => rfl
  | a :: l => by
    unfold recount modifyFirst
    split
    · rfl
    · rw [List.map_cons, List.map_cons]
      exact congrArg _ (recount_keys f k l)

/-- With each key once, counting on a key changes its provider alone. -/
theorem recount_eq (f : Nat → Nat) (k : Key) : ∀ l : List Provider,
    Table.Keyed Provider.key l →
      recount f l k = l.map fun p => if p.key = k then p.count f else p
  | [], _ => rfl
  | a :: l, hk => by
    obtain ⟨ha, hl⟩ := List.nodup_cons.mp hk
    unfold recount modifyFirst
    by_cases hak : a.key = k
    · have hrest : l.map (fun p => if p.key = k then p.count f else p)
          = l := by
        rw [List.map_congr_left (g := id), List.map_id]
        intro p hp
        have : p.key ≠ k := fun e => ha (List.mem_map.mpr ⟨p, hp, e.trans hak.symm⟩)
        rw [if_neg this, id]
      rw [if_pos (by simpa using hak), List.map_cons, hrest, if_pos hak]
    · rw [if_neg (by simpa using hak), List.map_cons, if_neg hak]
      exact congrArg _ (recount_eq f k l hl)

/-- Counting on several keys, each once. -/
theorem recount_all (f : Nat → Nat) : ∀ (keys : List Key) (l : List Provider), keys.Nodup →
    Table.Keyed Provider.key l →
      keys.foldl (recount f) l
        = l.map fun p => if p.key ∈ keys then p.count f else p
  | [], l, _, _ => by simp
  | k :: keys, l, hnd, hk => by
    obtain ⟨hnew, hnd⟩ := List.nodup_cons.mp hnd
    have hk' : Table.Keyed Provider.key (recount f l k) := by
      unfold Table.Keyed
      rw [recount_keys]
      exact hk
    rw [List.foldl_cons, recount_all f keys _ hnd hk', recount_eq f k l hk, List.map_map]
    apply List.map_congr_left
    intro p _
    by_cases hpk : p.key = k
    · subst hpk
      have hkey : (p.count f).key = p.key := rfl
      simp only [Function.comp, if_true, hkey, if_neg hnew, List.mem_cons_self]
    · have hmem : p.key ∈ k :: keys ↔ p.key ∈ keys := by simp [hpk]
      simp only [Function.comp_apply, if_neg hpk]
      by_cases hin : p.key ∈ keys
      · rw [if_pos hin, if_pos (hmem.mpr hin)]
      · rw [if_neg hin, if_neg fun h => hin (hmem.mp h)]

theorem keyed_recount {f : Nat → Nat} {keys : List Key} {l : List Provider} (hnd : keys.Nodup)
    (hk : Table.Keyed Provider.key l) : Table.Keyed Provider.key (keys.foldl (recount f) l) := by
  rw [recount_all f keys l hnd hk]
  unfold Table.Keyed
  rw [List.map_map]
  have : (Provider.key ∘ fun p : Provider =>
      if p.key ∈ keys then p.count f else p) = Provider.key := by
    funext p
    simp only [Function.comp]
    split <;> rfl
  rw [this]
  exact hk

/-! ### Releases -/

/-- Without the reservation `id` a key has one holder less if that one held it. -/
theorem holders_remove {rs : List (String × List Member)} (hids : (rs.map Prod.fst).Nodup)
    {id : String} {members : List Member} (h : (id, members) ∈ rs) (k : Key) :
    holders k rs = holders k (rs.filter fun e => e.1 ≠ id)
      + if holds k (id, members) then 1 else 0 := by
  induction rs with
  | nil => exact nomatch h
  | cons e rest ih =>
    obtain ⟨hnew, hnd⟩ := List.nodup_cons.mp hids
    rcases List.mem_cons.mp h with rfl | h
    · have hrest : rest.filter (fun e => e.1 ≠ id) = rest := by
        rw [List.filter_eq_self]
        intro e he
        have : e.1 ≠ id := fun heq => hnew (List.mem_map.mpr ⟨e, he, heq⟩)
        simpa using this
      rw [List.filter_cons_of_neg (by simp), hrest, holders, List.countP_cons, holders]
    · have hne : e.1 ≠ id := fun heq => hnew (List.mem_map.mpr ⟨_, h, heq.symm⟩)
      rw [List.filter_cons_of_pos (by simpa using hne), holders, List.countP_cons, holders,
        List.countP_cons]
      have := ih hnd h
      rw [holders, holders] at this
      omega

theorem holds_iff {k : Key} {e : String × List Member} :
    holds k e = true ↔ k ∈ (e.2.filter (·.current)).map (·.key) := by
  simp only [holds, List.any_eq_true, Bool.and_eq_true, beq_iff_eq, List.mem_map, List.mem_filter]
  constructor
  · rintro ⟨m, hm, hc, hk⟩
    exact ⟨m, ⟨hm, hc⟩, hk⟩
  · rintro ⟨m, ⟨hm, hc⟩, hk⟩
    exact ⟨m, hm, hc, hk⟩

theorem Inv.release (hi : Inv policy s) (id : String) : Inv policy (s.release id) := by
  unfold Entries.release
  cases hl : s.reservations.lookup id with
  | none => exact hi
  | some members =>
    dsimp only
    have hmem : (id, members) ∈ s.reservations := Assoc.mem_of_lookup hl
    have hcur : ((members.filter (·.current)).map (·.key)).Nodup :=
      List.Nodup.sublist (List.Sublist.map _ List.filter_sublist) (hi.members _ hmem).1
    have hsub : ∀ e ∈ s.reservations.filter (fun e => e.1 ≠ id), e ∈ s.reservations := fun e he =>
      (List.mem_filter.mp he).1
    refine ⟨keyed_recount hcur hi.keyed, ?_, fun e he => hi.members e (hsub e he), ?_, ?_, ?_, ?_, ?_⟩
    · exact List.Nodup.sublist (List.Sublist.map _ List.filter_sublist) hi.ids
    · intro p hp
      rw [recount_all _ _ _ hcur hi.keyed] at hp
      obtain ⟨q, hq, rfl⟩ := List.mem_map.mp hp
      have hacc := hi.accounted q hq
      rw [holders_remove hi.ids hmem q.key] at hacc
      by_cases hk : q.key ∈ (members.filter (·.current)).map (·.key)
      · rw [if_pos hk]
        rw [if_pos (holds_iff.mpr hk)] at hacc
        show q.inFlight - 1 = holders q.key (s.reservations.filter fun e => e.1 ≠ id)
        omega
      · rw [if_neg hk]
        rw [if_neg (fun hh => hk (holds_iff.mp hh))] at hacc
        exact hacc
    · intro e he m hm hc
      obtain ⟨p, hp, hpk⟩ := hi.registered e (hsub e he) m hm hc
      have hkeys : p.key ∈ (((members.filter (·.current)).map (·.key)).foldl (recount (· - 1))
          s.providers).map Provider.key := by
        rw [recount_all _ _ _ hcur hi.keyed, List.map_map]
        refine List.mem_map.mpr ⟨p, hp, ?_⟩
        simp only [Function.comp]
        split <;> rfl
      obtain ⟨q, hq, hqk⟩ := List.mem_map.mp hkeys
      exact ⟨q, hq, hqk.trans hpk⟩
    · intro h
      exact Nat.le_trans (List.length_filter_le _ _) (hi.total h)
    · intro node h
      exact Nat.le_trans (List.Sublist.countP_le List.filter_sublist) (hi.nodes node h)
    · intro p hp hc
      rw [recount_all _ _ _ hcur hi.keyed] at hp
      obtain ⟨q, hq, rfl⟩ := List.mem_map.mp hp
      by_cases hk : q.key ∈ (members.filter (·.current)).map (·.key)
      · rw [if_pos hk] at hc ⊢
        have : q.inFlight ≤ ceiling policy q := hi.ceilings q hq hc
        show q.inFlight - 1 ≤ ceiling policy q
        omega
      · rw [if_neg hk] at hc ⊢
        exact hi.ceilings q hq hc

/-! ### Reservations -/

section
variable [Rating]

/-- A candidate is a registered provider of an admitted node, below its ceiling. -/
structure Candidate (policy : Policy) (s : Entries) (c : Provider) : Prop where
  total : policy.maxInFlight ≠ 0 → s.reservations.length < policy.maxInFlight
  node : policy.nodeLimit c.nodeId ≠ 0 → s.rootCount c.nodeId < policy.nodeLimit c.nodeId
  provider : ∃ p ∈ s.providers, p.key = c.key
    ∧ (ceiling policy p ≠ 0 → p.inFlight < ceiling policy p)

omit [Rating] in
theorem mem_expand {capability : String} {p c : Provider} (h : c ∈ expand capability p) :
    c.key = p.key ∧ c.inFlight = p.inFlight ∧ c.maxConcurrent = p.maxConcurrent := by
  unfold expand at h
  split at h
  · rw [List.mem_singleton] at h
    subst h
    exact ⟨rfl, rfl, rfl⟩
  · obtain ⟨r, _, hr⟩ := List.mem_filterMap.mp h
    obtain ⟨i, _, rfl⟩ := Option.map_eq_some_iff.mp hr
    exact ⟨rfl, rfl, rfl⟩

theorem select_candidate {context : Option RequestContext} {now : Nat} {d : Demand} {c : Provider}
    (h : s.select policy context now d = some c) : Candidate policy s c := by
  have hmem := List.mem_of_head? h
  rw [List.mem_mergeSort, List.mem_filter, List.mem_flatMap] at hmem
  obtain ⟨⟨p, hp, hc⟩, hfit⟩ := hmem
  obtain ⟨hkey, hfl, hmax⟩ := mem_expand hc
  have hceil : ceiling policy c = ceiling policy p := by
    unfold ceiling
    rw [hmax]
  have hnode : c.nodeId = p.nodeId := congrArg Prod.fst hkey
  unfold Entries.eligible at hp
  split at hp
  · exact nomatch hp
  next hlimit =>
    rw [List.mem_filter] at hp
    obtain ⟨hp, hel⟩ := hp
    simp only [Bool.and_eq_true, Bool.or_eq_true, beq_iff_eq, decide_eq_true_eq] at hel
    simp only [fits, Bool.and_eq_true, Bool.or_eq_true, beq_iff_eq, decide_eq_true_eq] at hfit
    refine ⟨?_, ?_, p, hp, hkey.symm, ?_⟩
    · intro hne
      omega
    · intro hne
      rw [hnode] at hne ⊢
      exact hel.2.resolve_left hne
    · intro hne
      rw [← hceil] at hne ⊢
      rw [← hfl]
      exact hfit.1.2.resolve_left hne

theorem stageKeys_candidates {context : Option RequestContext} {node : String} :
    ∀ {stages : List (Nat × Demand)} {keys : List Key},
      s.stageKeys policy context node stages = some keys →
        ∀ k ∈ keys, ∃ c, c.key = k ∧ Candidate policy s c
  | [], keys, h, k, hk => by
    cases h
    exact nomatch hk
  | (now, d) :: rest, keys, h, k, hk => by
    unfold Entries.stageKeys at h
    split at h
    · cases h
    · simp only [Option.bind_eq_bind, Option.bind_eq_some_iff] at h
      obtain ⟨c, hc, h⟩ := h
      split at h
      · cases h
      · obtain ⟨keys', hrest, h⟩ := Option.bind_eq_some_iff.mp h
        cases h
        rcases List.mem_cons.mp hk with rfl | hk
        · exact ⟨c, rfl, select_candidate hc⟩
        · exact stageKeys_candidates hrest k hk

/-- What a successful reservation does: one reservation on distinct keys, its root first,
and one more on each of their providers. -/
structure Reserved (policy : Policy) (s t : Entries) (id : String) (root : Provider)
    (keys : List Key) : Prop where
  nodup : keys.Nodup
  head : keys.head? = some root.key
  candidates : ∀ k ∈ keys, ∃ c, c.key = k ∧ Candidate policy s c
  root : Candidate policy s root
  providers : t.providers = keys.foldl (recount (· + 1)) s.providers
  reservations : t.reservations = s.reservations ++ [(id, keys.map (⟨·, true⟩))]

theorem reserveBundle_some {context : Option RequestContext} {now : Nat} {root : Demand}
    {stages : List (Nat × Demand)} {id : String} {provider : Provider}
    (h : s.reserveBundle policy context now root stages id = some (t, provider)) :
    ∃ selected stageKeys,
      s.select policy context now root = some selected
      ∧ s.stageKeys policy context selected.nodeId stages = some stageKeys
      ∧ provider.key = selected.key
      ∧ Reserved policy s t id selected (bundleKeys selected.key stageKeys) := by
  unfold Entries.reserveBundle at h
  split at h
  · cases h
  · simp only [Option.bind_eq_bind, Option.bind_eq_some_iff] at h
    obtain ⟨selected, hsel, h⟩ := h
    obtain ⟨stageKeys, hstages, h⟩ := h
    split at h
    · cases h
      refine ⟨selected, stageKeys, hsel, hstages, rfl, ?_, rfl, ?_, select_candidate hsel, rfl, rfl⟩
      · refine List.nodup_cons.mpr ⟨?_, List.nodup_dedup _⟩
        intro hmem
        have := (List.mem_filter.mp (List.mem_dedup.mp hmem)).2
        simp at this
      · intro k hk
        rcases List.mem_cons.mp hk with rfl | hk
        · exact ⟨selected, rfl, select_candidate hsel⟩
        · exact stageKeys_candidates hstages k (List.mem_filter.mp (List.mem_dedup.mp hk)).1
    · cases h

omit [Rating] in
theorem holds_bundle (id : String) (keys : List Key) (k : Key) :
    holds k (id, keys.map (⟨·, true⟩)) = decide (k ∈ keys) := by
  simp only [holds, List.any_map, Function.comp_def, Bool.true_and]
  rw [Bool.eq_iff_iff, List.any_eq_true, decide_eq_true_iff]
  constructor
  · rintro ⟨a, ha, he⟩
    rw [beq_iff_eq] at he
    exact he ▸ ha
  · intro hk
    exact ⟨k, hk, by simp⟩

omit [Rating] in
theorem Inv.reserved (hi : Inv policy s) {id : String} {root : Provider} {keys : List Key}
    (hid : id ∉ s.reservations.map Prod.fst) (h : Reserved policy s t id root keys) :
    Inv policy t := by
  obtain ⟨providers, reservations⟩ := t
  obtain ⟨hnd, hhead, hcand, hroot, hprov, hres⟩ := h
  change providers = keys.foldl (recount (· + 1)) s.providers at hprov
  change reservations = s.reservations ++ [(id, keys.map (⟨·, true⟩))] at hres
  subst hprov hres
  have hnew : ∀ k, holders k (s.reservations ++ [(id, keys.map (⟨·, true⟩))])
      = holders k s.reservations + if k ∈ keys then 1 else 0 := by
    intro k
    rw [holders, List.countP_append, List.countP_singleton, holds_bundle]
    simp [holders]
  have hmemKeys : (keys.map (fun k => (⟨k, true⟩ : Member))).map (·.key) = keys := by
    rw [List.map_map]
    exact List.map_id keys
  refine ⟨keyed_recount hnd hi.keyed, ?_, ?_, ?_, ?_, ?_, ?_, ?_⟩
  · show ((s.reservations ++ [_]).map Prod.fst).Nodup
    rw [List.map_append, List.map_singleton, List.nodup_append]
    refine ⟨hi.ids, List.nodup_singleton _, ?_⟩
    rintro a ha b hb rfl
    rw [List.mem_singleton] at hb
    change a = id at hb
    exact hid (hb ▸ ha)
  · intro e he
    rcases List.mem_append.mp he with he | he
    · exact hi.members e he
    · rw [List.mem_singleton] at he
      subst he
      refine ⟨by rw [hmemKeys]; exact hnd, ?_⟩
      intro hnil
      rw [List.map_eq_nil_iff] at hnil
      rw [hnil] at hhead
      cases hhead
  · intro p hp
    rw [recount_all _ _ _ hnd hi.keyed] at hp
    obtain ⟨q, hq, rfl⟩ := List.mem_map.mp hp
    have hacc := hi.accounted q hq
    by_cases hk : q.key ∈ keys
    · rw [if_pos hk]
      show q.inFlight + 1 = holders q.key (s.reservations ++ [(id, keys.map (⟨·, true⟩))])
      rw [hnew, if_pos hk, hacc]
    · rw [if_neg hk]
      show q.inFlight = holders q.key (s.reservations ++ [(id, keys.map (⟨·, true⟩))])
      rw [hnew, if_neg hk, hacc, Nat.add_zero]
  · intro e he m hm hc
    have hex : ∃ p ∈ s.providers, p.key = m.key := by
      rcases List.mem_append.mp he with he | he
      · exact hi.registered e he m hm hc
      · rw [List.mem_singleton] at he
        subst he
        obtain ⟨k, hk, rfl⟩ := List.mem_map.mp hm
        obtain ⟨c, hck, hc⟩ := hcand k hk
        obtain ⟨p, hp, hpk, _⟩ := hc.provider
        exact ⟨p, hp, hpk.trans hck⟩
    obtain ⟨p, hp, hpk⟩ := hex
    have hkeys : p.key ∈ (keys.foldl (recount (· + 1)) s.providers).map Provider.key := by
      rw [recount_all _ _ _ hnd hi.keyed, List.map_map]
      refine List.mem_map.mpr ⟨p, hp, ?_⟩
      simp only [Function.comp]
      split <;> rfl
    obtain ⟨q, hq, hqk⟩ := List.mem_map.mp hkeys
    exact ⟨q, hq, hqk.trans hpk⟩
  · intro hne
    have := hroot.total hne
    show (s.reservations ++ [_]).length ≤ _
    rw [List.length_append, List.length_singleton]
    omega
  · intro node hne
    show (s.reservations ++ [_]).countP _ ≤ _
    rw [List.countP_append, List.countP_singleton]
    have hrootNode : rootNode (id, keys.map (⟨·, true⟩)) = some root.nodeId := by
      cases keys with
      | nil => cases hhead
      | cons k rest =>
        cases hhead
        rfl
    by_cases hn : root.nodeId = node
    · subst hn
      have := hroot.node hne
      unfold Entries.rootCount at this
      split <;> omega
    · have hold := hi.nodes node hne
      unfold Entries.rootCount at hold
      rw [hrootNode, if_neg (by simpa using hn)]
      exact hold
  · intro p hp hc
    rw [recount_all _ _ _ hnd hi.keyed] at hp
    obtain ⟨q, hq, rfl⟩ := List.mem_map.mp hp
    by_cases hk : q.key ∈ keys
    · rw [if_pos hk] at hc ⊢
      obtain ⟨c, hck, hcand⟩ := hcand q.key hk
      obtain ⟨p, hp, hpk, hlt⟩ := hcand.provider
      have hpq : p = q := hi.keyed.eq hp hq (hpk.trans hck)
      subst hpq
      have := hlt hc
      show p.inFlight + 1 ≤ ceiling policy p
      omega
    · rw [if_neg hk] at hc ⊢
      exact hi.ceilings q hq hc

theorem Inv.updateMetrics (hi : Inv policy s) (node : String) (load latencyMs : BitVec 64)
    (specs : Option NodeSpecs) (receivedAtMs : Nat) :
    Inv policy (s.updateMetrics node load latencyMs specs receivedAtMs) := by
  have hmap : ∀ p ∈ (s.updateMetrics node load latencyMs specs receivedAtMs).providers,
      ∃ q ∈ s.providers, q.key = p.key ∧ q.inFlight = p.inFlight
        ∧ ceiling policy q = ceiling policy p := by
    intro p hp
    obtain ⟨q, hq, rfl⟩ := List.mem_map.mp hp
    refine ⟨q, hq, ?_⟩
    split <;> exact ⟨rfl, rfl, rfl⟩
  have hkeys : (s.updateMetrics node load latencyMs specs receivedAtMs).providers.map Provider.key
      = s.providers.map Provider.key := by
    unfold Entries.updateMetrics
    rw [List.map_map]
    apply List.map_congr_left
    intro p _
    simp only [Function.comp]
    split <;> rfl
  refine ⟨?_, hi.ids, hi.members, ?_, ?_, hi.total, hi.nodes, ?_⟩
  · unfold Table.Keyed
    rw [hkeys]
    exact hi.keyed
  · intro p hp
    obtain ⟨q, hq, hk, hf, _⟩ := hmap p hp
    rw [← hf, ← hk]
    exact hi.accounted q hq
  · intro e he m hm hc
    obtain ⟨p, hp, hpk⟩ := hi.registered e he m hm hc
    have : p.key ∈ s.providers.map Provider.key := List.mem_map_of_mem hp
    rw [← hkeys] at this
    obtain ⟨q, hq, hqk⟩ := List.mem_map.mp this
    exact ⟨q, hq, hqk.trans hpk⟩
  · intro p hp hc
    obtain ⟨q, hq, _, hf, hcl⟩ := hmap p hp
    rw [← hcl] at hc ⊢
    rw [← hf]
    exact hi.ceilings q hq hc

/-- Step: the account holds after every call. -/
theorem Inv.step (hi : Inv policy s) (h : Step policy s t) : Inv policy t := by
  cases h with
  | register p h => exact hi.register h
  | refreshNode node replacements h => exact hi.refreshNode node h
  | unregisterNode node => exact hi.unregisterNode node
  | updateMetrics node load latencyMs specs receivedAtMs =>
    exact hi.updateMetrics node load latencyMs specs receivedAtMs
  | reserve _ context now root stages id provider hid h =>
    obtain ⟨selected, _, _, _, _, hres⟩ := reserveBundle_some h
    exact hi.reserved hid hres
  | release id => exact hi.release id

/-- Run: the account holds of every reachable registry. -/
theorem Inv.run (h : Run (Step policy) Entries.empty s) : Inv policy s :=
  Run.invariant (fun _ _ hi hstep => hi.step hstep) Inv.empty h

/-- Provider capacity. In every reachable registry a provider's counter is the number of
live reservations that hold its registration, and each of those has counted on it; no
limit of the policy is exceeded; and a reservation that succeeds adds one reservation and
one on each provider it selected, once however many stages selected it. -/
theorem capacity_accounted (policy : Policy) (s : Entries)
    (h : Run (Step policy) Entries.empty s) :
    (∀ p ∈ s.providers, p.inFlight = holders p.key s.reservations)
    ∧ (∀ e ∈ s.reservations, ∀ m ∈ e.2, m.current = true →
      ∃ p ∈ s.providers, p.key = m.key ∧ 0 < p.inFlight)
    ∧ (policy.maxInFlight ≠ 0 → s.reservations.length ≤ policy.maxInFlight)
    ∧ (∀ node, policy.nodeLimit node ≠ 0 → s.rootCount node ≤ policy.nodeLimit node)
    ∧ (∀ p ∈ s.providers, ceiling policy p ≠ 0 → p.inFlight ≤ ceiling policy p)
    ∧ ∀ context now root stages id t provider,
      s.reserveBundle policy context now root stages id = some (t, provider) →
        ∃ selected keys, s.select policy context now root = some selected
          ∧ s.stageKeys policy context selected.nodeId stages = some keys
          ∧ t.reservations = s.reservations
            ++ [(id, (bundleKeys selected.key keys).map (⟨·, true⟩))]
          ∧ (bundleKeys selected.key keys).Nodup
          ∧ t.providers = s.providers.map fun p =>
            if p.key = selected.key ∨ p.key ∈ keys then p.count (· + 1)
            else p := by
  have hi := Inv.run h
  refine ⟨hi.accounted, ?_, hi.total, hi.nodes, hi.ceilings, ?_⟩
  · intro e he m hm hc
    obtain ⟨p, hp, hpk⟩ := hi.registered e he m hm hc
    refine ⟨p, hp, hpk, ?_⟩
    rw [hi.accounted p hp]
    refine List.countP_pos_iff.mpr ⟨e, he, ?_⟩
    simp only [holds, List.any_eq_true, Bool.and_eq_true, beq_iff_eq]
    exact ⟨m, hm, hc, hpk.symm⟩
  · intro context now root stages id t provider hr
    obtain ⟨selected, keys, hsel, hstages, _, hres⟩ := reserveBundle_some hr
    refine ⟨selected, keys, hsel, hstages, hres.reservations, hres.nodup, ?_⟩
    rw [hres.providers, recount_all _ _ _ hres.nodup hi.keyed]
    apply List.map_congr_left
    intro p _
    have hiff : p.key ∈ bundleKeys selected.key keys ↔ p.key = selected.key ∨ p.key ∈ keys := by
      simp only [bundleKeys, List.mem_cons, List.mem_dedup, List.mem_filter]
      by_cases hk : p.key = selected.key <;> simp [hk]
    by_cases hk : p.key ∈ bundleKeys selected.key keys
    · rw [if_pos hk, if_pos (hiff.mp hk)]
    · rw [if_neg hk, if_neg fun h => hk (hiff.mpr h)]

end

/-! ### A registry with one reservation -/

/-- Metrics as they come, and candidates in the order they were registered. -/
@[reducible]
def asRegistered : Rating := ⟨id, id, fun _ _ _ => true⟩

attribute [local instance] asRegistered

/-- A local provider of one capability. -/
def speaker : Provider where
  capability := "speaker.play"
  action := "*"
  nodeId := "local"
  nodeName := "main"
  properties := .obj []
  nodeSpecs := ⟨0, 0, 0, 0, ""⟩
  load := 0
  latencyMs := 0
  priority := 0
  healthy := true
  inFlight := 0
  maxConcurrent := 0
  lastHeartbeatMs := 0

/-- One reservation at most. -/
def oneAtATime : Policy := ⟨10, 1, 0, []⟩

/-- The registry once the speaker is reserved. -/
def speaking : Entries :=
  ⟨[speaker.count (· + 1)], [("r", [⟨speaker.key, true⟩])]⟩

theorem speaking_run : Run (Step oneAtATime) Entries.empty speaking :=
  (Relation.ReflTransGen.refl.tail (.register Entries.empty speaker rfl)).tail
    (.reserve _ speaking none 0 ⟨"speaker.play", "*", .null⟩ [] "r" (speaker.count (· + 1))
      (by decide) (by decide +kernel))

theorem capacity_accounted_speaking :
    (speaker.count (· + 1)).inFlight = holders speaker.key speaking.reservations
    ∧ speaking.reservations.length ≤ 1 :=
  ⟨(capacity_accounted oneAtATime speaking speaking_run).1 _ (List.mem_singleton_self _),
    (capacity_accounted oneAtATime speaking speaking_run).2.2.1 (by decide)⟩

end Eef.Coordinator.Registry
