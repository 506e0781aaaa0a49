import Eef.Coordinator.DiscoveryPages

/-!
# What discovery discloses

The answers of `discovery.rs` are made of what the permitted ids read from the live connections, and
of nothing else: a page has public records of them, which hide the address, the capabilities and the
models of a stale one; an interpreter gets the names of fresh ones; a plan gets the ids of fresh
ones. With what two tables that look alike have in common this says what an origin can learn.
-/

namespace Eef.Coordinator.Discovery

open Eef.Lib Eef.Node

variable {p : DiscoveryPolicy} {origin : String} {cs cs' : Connections}

namespace DiscoveryPolicy

/-- The test of `planning_nodes` is that of `public_record`: freshness is whole milliseconds. -/
theorem asMillis_lt {age : Nat} :
    asMillis age < p.freshnessSeconds * 1000 ↔ age < seconds p.freshnessSeconds := by
  unfold asMillis seconds
  omega

/-- A stale record is shown without its address, its capabilities and its models. -/
theorem publicRecord_stale {record : PeerRecord} {age : Nat} (h : seconds p.freshnessSeconds ≤ age) :
    (p.publicRecord record age).index "network"
        = .obj [("advertised_address", .null), ("coordinator", .null)] ∧
      (p.publicRecord record age).index "capabilities" = .arr [] ∧
      (p.publicRecord record age).index "models" = .arr [] := by
  simp only [publicRecord, if_neg (Nat.not_lt.mpr h)]
  exact ⟨rfl, rfl, rfl⟩

theorem mem_pageLoop [F64] {limit : Nat} {rs : List (PeerRecord × Nat)} :
    ∀ {nodes : List Node} {bytes : Nat} {last : Option String} {out : List Node × Option String},
      p.pageLoop limit nodes bytes last rs = .ok out →
      ∀ node ∈ out.1, node ∈ nodes ∨ ∃ r ∈ rs, node = p.publicRecord r.1 r.2 := by
  induction rs with
  | nil =>
    intro nodes bytes last out h node hnode
    cases h
    exact .inl hnode
  | cons r rest ih =>
    intro nodes bytes last out h node hnode
    obtain ⟨record, age⟩ := r
    rw [pageLoop] at h
    split_ifs at h
    · cases h
      exact .inl hnode
    · rcases ih h node hnode with hmem | ⟨r, hr, heq⟩
      · rcases List.mem_append.mp hmem with hmem | hmem
        · exact .inl hmem
        · exact .inr ⟨(record, age), List.mem_cons_self .., List.mem_singleton.mp hmem⟩
      · exact .inr ⟨r, List.mem_cons_of_mem _ hr, heq⟩

/-- A page shows public records of what the permitted ids read. -/
theorem mem_view [F64] {payload : Json} {page : Page} (h : p.view origin payload cs = .ok page) :
    ∀ node ∈ page.nodes, ∃ key ∈ p.permitted origin, ∃ r, reading cs key = some r ∧
      node = p.publicRecord r.1 r.2 := by
  intro node hnode
  simp only [view, DiscoveryPolicy.page, bind_ok, pure_ok, peerRecords_ok] at h
  obtain ⟨query, -, selected, hselected, records, ⟨-, rfl⟩, _, -, ⟨nodes, next⟩, hloop, rfl⟩ := h
  obtain ⟨-, -, -, hmem⟩ := selection_ok.mp hselected
  rcases mem_pageLoop hloop node hnode with hnil | ⟨r, hr, heq⟩
  · exact absurd hnil List.not_mem_nil
  · obtain ⟨key, hkey, hread⟩ := List.mem_filterMap.mp hr
    exact ⟨key, ((hmem key).mp hkey).1.1, r, hread, heq⟩

theorem mem_capabilityLoop {permitted : SortedSet String} {rs : List (PeerRecord × Nat)} :
    ∀ {names : SortedSet String} {originFresh : Bool} {out : SortedSet String × Bool},
      p.capabilityLoop origin permitted names originFresh rs = .ok out →
      ∀ name ∈ out.1, name ∈ names ∨
        ∃ r ∈ rs, r.2 < seconds p.freshnessSeconds ∧ name ∈ r.1.capabilities := by
  induction rs with
  | nil =>
    intro names originFresh out h name hname
    cases h
    exact .inl hname
  | cons r rest ih =>
    intro names originFresh out h name hname
    obtain ⟨record, age⟩ := r
    rw [capabilityLoop] at h
    have hlater : (∃ r ∈ rest, r.2 < seconds p.freshnessSeconds ∧ name ∈ r.1.capabilities) →
        ∃ r ∈ (record, age) :: rest, r.2 < seconds p.freshnessSeconds ∧ name ∈ r.1.capabilities := by
      rintro ⟨r, hr, hfresh⟩
      exact ⟨r, List.mem_cons_of_mem _ hr, hfresh⟩
    by_cases hskip : record.nodeId ∉ permitted ∨ seconds p.freshnessSeconds ≤ age
    · rw [if_pos hskip] at h
      exact (ih h name hname).imp id hlater
    · rw [if_neg hskip] at h
      simp only [bind_ok] at h
      obtain ⟨_, -, hrest⟩ := h
      rcases ih hrest name hname with hmem | hmem
      · rcases SortedSet.mem_extend.mp hmem with hmem | hmem
        · exact .inl hmem
        · exact .inr ⟨_, List.mem_cons_self .., Nat.not_le.mp (not_or.mp hskip).2, hmem⟩
      · exact .inr (hlater hmem)

/-- An interpreter gets names of what the permitted ids read and is fresh. -/
theorem mem_interpretationCapabilities {names : List String}
    (h : p.interpretationCapabilities origin cs = .ok names) :
    ∀ name ∈ names, ∃ key ∈ p.permitted origin, ∃ r, reading cs key = some r ∧
      r.2 < seconds p.freshnessSeconds ∧ name ∈ r.1.capabilities := by
  intro name hname
  simp only [interpretationCapabilities, capabilityNames, bind_ok, pure_ok, peerRecords_ok] at h
  obtain ⟨selected, hselected, records, ⟨-, rfl⟩, permitted, -, ⟨found, fresh⟩, hloop, _, -, _, -, _, -,
    rfl⟩ := h
  obtain ⟨-, -, -, hmem⟩ := selection_ok.mp hselected
  rcases mem_capabilityLoop hloop name (SortedSet.mem_items.mp hname) with hnil | ⟨r, hr, hfresh⟩
  · exact absurd hnil (SortedSet.not_mem_empty name)
  · obtain ⟨key, hkey, hread⟩ := List.mem_filterMap.mp hr
    exact ⟨key, ((hmem key).mp hkey).1.1, r, hread, hfresh⟩

/-- A valid query that names a node which is not granted, or not connected, always fails alike. -/
theorem view_hidden [F64] {payload : Json} {query : PeerQuery} {target : String}
    (hpayload : PeerQuery.fromJson payload = some query) (hquery : query.validate = .ok ())
    (htarget : query.nodeId = some target)
    (hhidden : target ∉ p.permitted origin ∨ reading cs target = none) :
    p.view origin payload cs =
      (validateNodeId origin >>= fun _ => Except.error "node unavailable or not authorized") := by
  cases horigin : validateNodeId origin with
  | error e =>
    simp only [view, hpayload, context, ok_bind, selection, horigin, error_bind]
  | ok u =>
    rw [ok_bind]
    exact view_named hpayload horigin hquery htarget hhidden

end DiscoveryPolicy

open DiscoveryPolicy

/-- **Discovery discloses granted nodes only.** Tables that agree on the origin and on the nodes
granted to it give it the same answers, and a node that is not granted fails like one that is not
connected. Of a stale record no answer has the address, the capabilities or the models, and a plan
may use exactly the nodes that are shown as online. Following the cursors from the first page ends,
and lists each permitted node that is connected once, in the order of the ids. -/
theorem discovery_discloses [F64] (p : DiscoveryPolicy) (origin : String) :
    (∀ cs cs', LookAlike p origin cs cs' →
      (∀ payload, p.view origin payload cs = p.view origin payload cs') ∧
      p.interpretationCapabilities origin cs = p.interpretationCapabilities origin cs' ∧
      p.planningNodes origin cs = p.planningNodes origin cs') ∧
    (∀ cs cs' payload payload' query query' target target',
      PeerQuery.fromJson payload = some query → query.validate = .ok () →
      query.nodeId = some target → target ∉ p.permitted origin →
      PeerQuery.fromJson payload' = some query' → query'.validate = .ok () →
      query'.nodeId = some target' → target' ∈ p.permitted origin → reading cs' target' = none →
      p.view origin payload cs = p.view origin payload' cs' ∧
        ∃ msg, p.view origin payload cs = .error msg) ∧
    (∀ cs payload page, p.view origin payload cs = .ok page → ∀ node ∈ page.nodes,
      ∃ key ∈ p.permitted origin, ∃ r, reading cs key = some r ∧ node = p.publicRecord r.1 r.2 ∧
        (seconds p.freshnessSeconds ≤ r.2 →
          node.index "network" = .obj [("advertised_address", .null), ("coordinator", .null)] ∧
          node.index "capabilities" = .arr [] ∧ node.index "models" = .arr [])) ∧
    (∀ cs names, p.interpretationCapabilities origin cs = .ok names → ∀ name ∈ names,
      ∃ key ∈ p.permitted origin, ∃ r, reading cs key = some r ∧
        r.2 < seconds p.freshnessSeconds ∧ name ∈ r.1.capabilities) ∧
    (∀ cs nodes, p.planningNodes origin cs = .ok nodes → ∀ id, id ∈ nodes ↔
      ∃ key ∈ p.permitted origin, ∃ r, reading cs key = some r ∧ r.1.nodeId = id ∧
        (p.publicRecord r.1 r.2).index "status" = .str "online") ∧
    (∀ record age, (p.publicRecord record age).index "status" = .str "online" ↔
      asMillis age < p.freshnessSeconds * 1000) ∧
    ∀ cs limit, Listable p origin cs limit →
      Crawl p origin cs limit none (shown p (visible p origin cs)) ∧
      (∀ nodes, Crawl p origin cs limit none nodes → nodes = shown p (visible p origin cs)) ∧
      ((visible p origin cs).map fun r => r.1.nodeId).Pairwise (· < ·) ∧
      ∀ id r, (r ∈ visible p origin cs ∧ r.1.nodeId = id) ↔
        (id ∈ p.permitted origin ∧ reading cs id = some r) := by
  refine ⟨fun cs cs' h => ⟨view_congr h, interpretationCapabilities_congr h, planningNodes_congr h⟩,
    ?_, ?_, fun cs names h => mem_interpretationCapabilities h, ?_, ?_, ?_⟩
  · intro cs cs' payload payload' query query' target target' hpayload hquery htarget hhidden
      hpayload' hquery' htarget' _ hread
    have hleft := @view_hidden p origin cs _ payload query target hpayload hquery htarget
      (.inl hhidden)
    have hright := @view_hidden p origin cs' _ payload' query' target' hpayload' hquery' htarget'
      (.inr hread)
    refine ⟨hleft.trans hright.symm, ?_⟩
    rw [hleft]
    cases validateNodeId origin with
    | error msg => exact ⟨msg, rfl⟩
    | ok u => exact ⟨_, rfl⟩
  · intro cs payload page h node hnode
    obtain ⟨key, hkey, r, hread, rfl⟩ := mem_view h node hnode
    exact ⟨key, hkey, r, hread, rfl, publicRecord_stale⟩
  · intro cs nodes hnodes id
    simp only [planningNodes_ok hnodes id, publicRecord_status]
  · intro record age
    rw [publicRecord_status, asMillis_lt]
  · intro cs limit h
    exact ⟨(crawl_visible h _).mpr rfl, fun nodes hc => (crawl_visible h nodes).mp hc,
      visible_once h.honest⟩

attribute [local instance] F64.bits

/-- `c` is connected and not granted, `b` is granted and not connected: `a` cannot tell which. -/
theorem discovery_discloses_hidden :
    samplePolicy.view "a" (.obj [("node_id", .str "c")])
        (sampleTable "26.1.2.4" [("c", ⟨some (sampleRecord "c" "26.1.2.6"), 0⟩)])
      = samplePolicy.view "a" (.obj [("node_id", .str "b")]) [] :=
  ((discovery_discloses samplePolicy "a").2.1 _ _ _ _ ⟨some "c", none, 32⟩ ⟨some "b", none, 32⟩
    "c" "b" rfl (by decide +kernel) rfl (by decide +kernel) rfl (by decide +kernel) rfl
    (by decide +kernel) rfl).1

end Eef.Coordinator.Discovery
