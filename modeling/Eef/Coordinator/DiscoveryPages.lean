import Eef.Coordinator.Discovery

/-!
# Pages of discovery

A page of `view` ends at its limit or at the budget of a response, and names the last node it has
(`next_after`); a node that asks again from there gets the next page. `Crawl` is all the pages in a
row. Over a table that stays as it is they list every permitted node that is connected, once and in
the order of the ids, and they end (`discovery_pages`): a page takes a front of what is left
(`pageLoop_front`), and its cursor leaves exactly the rest (`filter_cursor`).
-/

namespace Eef.Coordinator.Discovery

open Eef.Lib Eef.Node

variable {p : DiscoveryPolicy} {origin : String} {cs : Connections}

/-- The payload of a query for a page. -/
def cursor (after : Option String) (limit : Nat) : Json :=
  .obj (("limit", .nat limit) :: skipped "after" .str after)

/-- The pages from a cursor on, to the last one. -/
inductive Crawl [F64] (p : DiscoveryPolicy) (origin : String) (cs : Connections) (limit : Nat) :
    Option String → List Node → Prop
  | last {after : Option String} {page : Page}
      (hview : p.view origin (cursor after limit) cs = .ok page) (hnext : page.nextAfter = none) :
      Crawl p origin cs limit after page.nodes
  | more {after : Option String} {page : Page} {id : String} {rest : List Node}
      (hview : p.view origin (cursor after limit) cs = .ok page)
      (hnext : page.nextAfter = some id) (hrest : Crawl p origin cs limit (some id) rest) :
      Crawl p origin cs limit after (page.nodes ++ rest)

theorem fromJson_cursor {after : Option String} {limit : Nat} (h : limit < 2 ^ 64) :
    PeerQuery.fromJson (cursor after limit) = some ⟨none, after, limit⟩ := by
  have hlimit : Json.asUInt 64 (.nat limit) = some limit := Json.asUInt_nat h
  cases after with
  | none =>
    show (Json.asUInt 64 (.nat limit)).bind (fun n => some (PeerQuery.mk none none n)) = _
    rw [hlimit]
    rfl
  | some a =>
    show (Json.asUInt 64 (.nat limit)).bind (fun n => some (PeerQuery.mk none (some a) n)) = _
    rw [hlimit]
    rfl

/-! ## One page -/

theorem publicRecord_nodeId {record : PeerRecord} {age : Nat} :
    ((p.publicRecord record age).index "node_id").asStr = some record.nodeId := by
  by_cases hfresh : age < seconds p.freshnessSeconds
  · simp only [DiscoveryPolicy.publicRecord, if_pos hfresh]
    rfl
  · simp only [DiscoveryPolicy.publicRecord, if_neg hfresh]
    rfl

/-- The nodes of some records. -/
def shown (p : DiscoveryPolicy) (rs : List (PeerRecord × Nat)) : List Node :=
  rs.map fun r => p.publicRecord r.1 r.2

/-- The cursor behind some records. -/
def lastId (last : String) (rs : List (PeerRecord × Nat)) : String :=
  rs.foldl (fun _ r => r.1.nodeId) last

/-- A page that has a node takes a front of the records that follow, and its cursor is the last id
it has taken. -/
theorem pageLoop_front [F64] (limit : Nat) (rs : List (PeerRecord × Nat)) (bytes : Nat)
    (last : String) {nodes : List Node} (hne : nodes ≠ []) :
    ∃ front back, rs = front ++ back ∧
      p.pageLoop limit nodes bytes (some last) rs = .ok (nodes ++ shown p front,
        if back = [] then none else some (lastId last front)) := by
  induction rs generalizing nodes bytes last with
  | nil => exact ⟨[], [], rfl, by rw [shown, List.map_nil, List.append_nil]; rfl⟩
  | cons r rest ih =>
    obtain ⟨record, age⟩ := r
    unfold DiscoveryPolicy.pageLoop
    by_cases hfull : limit ≤ nodes.length ∨
        responseBudget - 2048 < bytes + (p.publicRecord record age).size
    · refine ⟨[], (record, age) :: rest, rfl, ?_⟩
      simp only [if_pos hfull, if_neg hne]
      rw [shown, List.map_nil, List.append_nil]
      rfl
    · simp only [if_neg hfull, publicRecord_nodeId]
      have hmore : nodes ++ [p.publicRecord record age] ≠ [] :=
        fun h => hne (List.append_eq_nil_iff.mp h).1
      obtain ⟨front, back, hsplit, hrun⟩ := ih (bytes + (p.publicRecord record age).size)
        record.nodeId hmore
      refine ⟨(record, age) :: front, back, by rw [hsplit, List.cons_append], ?_⟩
      rw [hrun, List.append_assoc]
      rfl

/-- A page takes at least one of the records, if there are any. -/
theorem page_front [F64] (query : PeerQuery) {rs : List (PeerRecord × Nat)} (hlimit : 1 ≤ query.limit)
    (hsize : ∀ r ∈ rs, (p.publicRecord r.1 r.2).size ≤ responseBudget - 2048) :
    ∃ front back, rs = front ++ back ∧ (rs ≠ [] → front ≠ []) ∧
      p.page query rs = .ok ⟨shown p front, if back = [] then none else some (lastId "" front),
        p.freshnessSeconds⟩ := by
  cases rs with
  | nil => exact ⟨[], [], rfl, fun h => h, rfl⟩
  | cons r rest =>
    obtain ⟨record, age⟩ := r
    have hfits : (p.publicRecord record age).size ≤ responseBudget - 2048 :=
      hsize (record, age) (List.mem_cons_self ..)
    have hroom : ¬(query.limit ≤ ([] : List Node).length ∨
        responseBudget - 2048 < 0 + (p.publicRecord record age).size) := by
      rw [List.length_nil]
      omega
    obtain ⟨front, back, hsplit, hrun⟩ := pageLoop_front (p := p) query.limit rest
      (0 + (p.publicRecord record age).size) record.nodeId
      (List.cons_ne_nil (p.publicRecord record age) [])
    refine ⟨(record, age) :: front, back, by rw [hsplit, List.cons_append],
      fun _ => List.cons_ne_nil _ _, ?_⟩
    unfold DiscoveryPolicy.page DiscoveryPolicy.pageLoop
    simp only [if_neg hroom, publicRecord_nodeId, List.nil_append, hrun]
    rfl

/-! ## The rest behind a cursor -/

/-- The ids of some records, in order. -/
def InOrder (rs : List (PeerRecord × Nat)) : Prop :=
  rs.Pairwise fun a b => a.1.nodeId < b.1.nodeId

theorem lastId_spec (last : String) {front : List (PeerRecord × Nat)} (h : InOrder front) :
    (∀ r ∈ front, r.1.nodeId ≤ lastId last front) ∧
      (front ≠ [] → ∃ r ∈ front, lastId last front = r.1.nodeId) := by
  induction front generalizing last with
  | nil => exact ⟨fun r hr => absurd hr List.not_mem_nil, fun hne => absurd rfl hne⟩
  | cons r front ih =>
    obtain ⟨hhead, htail⟩ := List.pairwise_cons.mp h
    obtain ⟨hle, hmem⟩ := ih r.1.nodeId htail
    have hstep : lastId last (r :: front) = lastId r.1.nodeId front := rfl
    rw [hstep]
    cases front with
    | nil =>
      constructor
      · intro s hs
        rw [List.mem_singleton.mp hs]
        exact le_refl _
      · exact fun _ => ⟨r, List.mem_cons_self .., rfl⟩
    | cons s rest =>
      obtain ⟨t, ht, heq⟩ := hmem (List.cons_ne_nil _ _)
      constructor
      · intro u hu
        rcases List.mem_cons.mp hu with rfl | hu
        · rw [heq]
          exact le_of_lt (hhead t ht)
        · exact hle u hu
      · exact fun _ => ⟨t, List.mem_cons_of_mem _ ht, heq⟩

/-- What is behind the cursor of a page is what the page has left. -/
theorem filter_cursor {front back : List (PeerRecord × Nat)} (h : InOrder (front ++ back))
    (hne : front ≠ []) :
    (front ++ back).filter (fun r => decide (lastId "" front < r.1.nodeId)) = back := by
  obtain ⟨hfront, -, hcross⟩ := List.pairwise_append.mp h
  obtain ⟨hle, hmem⟩ := lastId_spec "" hfront
  obtain ⟨t, ht, heq⟩ := hmem hne
  have hnone : front.filter (fun r => decide (lastId "" front < r.1.nodeId)) = [] := by
    rw [List.filter_eq_nil_iff]
    intro r hr
    rw [decide_eq_true_eq]
    exact not_lt.mpr (hle r hr)
  have hall : back.filter (fun r => decide (lastId "" front < r.1.nodeId)) = back := by
    rw [List.filter_eq_self]
    intro r hr
    rw [decide_eq_true_eq, heq]
    exact hcross t ht r hr
  rw [List.filter_append, hnone, hall, List.nil_append]

/-! ## What is permitted -/

theorem validateNodeId_permitted [F64] (hp : p.validate = .ok ()) (horigin : validateNodeId origin = .ok ())
    {id : String} (h : id ∈ p.permitted origin) : validateNodeId id = .ok () := by
  rcases SortedSet.mem_insert.mp h with rfl | h
  · exact horigin
  · cases hg : p.grants.get? origin with
    | none =>
      rw [hg] at h
      exact absurd h (SortedSet.not_mem_empty id)
    | some targets =>
      rw [hg] at h
      simp only [DiscoveryPolicy.validate, bind_ok, each_ok] at hp
      obtain ⟨_, -, hgrants⟩ := hp
      have hgrant := hgrants (origin, targets) (SortedMap.mem_of_get? hg)
      simp only [DiscoveryPolicy.validateGrant, bind_ok, each_ok] at hgrant
      obtain ⟨_, -, _, -, htargets⟩ := hgrant
      obtain ⟨_, hid, -⟩ := htargets id h
      exact hid

theorem length_permitted [F64] (origin : String) (hp : p.validate = .ok ()) :
    (p.permitted origin).items.length ≤ 257 := by
  refine (SortedSet.length_insert_le _ _).trans ?_
  cases hg : p.grants.get? origin with
  | none => exact Nat.le_add_left _ _
  | some targets =>
    simp only [DiscoveryPolicy.validate, bind_ok, each_ok] at hp
    obtain ⟨_, -, hgrants⟩ := hp
    have hgrant := hgrants (origin, targets) (SortedMap.mem_of_get? hg)
    simp only [DiscoveryPolicy.validateGrant, bind_ok, bailIf_ok] at hgrant
    obtain ⟨_, -, _, hbound, -⟩ := hgrant
    have hlen : targets.items.length ≤ 256 := Nat.not_lt.mp (not_or.mp hbound).2
    show targets.items.length + 1 ≤ 257
    omega

/-- Every advertisement carries the id of its connection. -/
def Honest (cs : Connections) : Prop := ∀ id r, reading cs id = some r → r.1.nodeId = id

/-- What is behind a cursor. -/
def behind (rs : List (PeerRecord × Nat)) : Option String → List (PeerRecord × Nat)
  | none => rs
  | some a => rs.filter fun r => decide (a < r.1.nodeId)

theorem inOrder_readings (h : Honest cs) (ids : SortedSet String) :
    InOrder (ids.items.filterMap (reading cs)) := by
  refine List.Pairwise.filterMap (reading cs) ?_ ids.sorted
  intro a b hlt r hr s hs
  rw [h a r hr, h b s hs]
  exact hlt

/-- The cursor selects among the ids what it selects among their records. -/
theorem readings_after (h : Honest cs) (ids : SortedSet String) (after : Option String) :
    (DiscoveryPolicy.retainAfter ids after).items.filterMap (reading cs)
      = behind (ids.items.filterMap (reading cs)) after := by
  cases after with
  | none => rfl
  | some a =>
    show (ids.items.filter fun id => decide (a < id)).filterMap (reading cs)
      = (ids.items.filterMap (reading cs)).filter fun r => decide (a < r.1.nodeId)
    induction ids.items with
    | nil => rfl
    | cons id rest ih =>
      by_cases hlt : a < id
      · rw [List.filter_cons, if_pos (decide_eq_true hlt)]
        cases hr : reading cs id with
        | none => rw [List.filterMap_cons_none hr, List.filterMap_cons_none hr, ih]
        | some r =>
          have hid := h id r hr
          rw [List.filterMap_cons_some hr, List.filterMap_cons_some hr, ih, List.filter_cons,
            if_pos (decide_eq_true (hid ▸ hlt))]
      · have hfalse : ¬decide (a < id) = true := by
          rw [decide_eq_true_eq]
          exact hlt
        rw [List.filter_cons, if_neg hfalse]
        cases hr : reading cs id with
        | none => rw [List.filterMap_cons_none hr, ih]
        | some r =>
          have hid := h id r hr
          have hskip : ¬decide (a < r.1.nodeId) = true := by
            rw [hid]
            exact hfalse
          rw [List.filterMap_cons_some hr, ih, List.filter_cons, if_neg hskip]

/-- A query for a page answers with a page of what is behind its cursor. -/
theorem view_cursor [F64] (hp : p.validate = .ok ()) (horigin : validateNodeId origin = .ok ())
    (hhonest : Honest cs) {limit : Nat} (hlimit : 1 ≤ limit ∧ limit ≤ 32) {after : Option String}
    (hafter : ∀ a ∈ after, validateNodeId a = .ok ()) :
    p.view origin (cursor after limit) cs = p.page ⟨none, after, limit⟩
      (behind ((p.permitted origin).items.filterMap (reading cs)) after) := by
  have hquery : PeerQuery.validate ⟨none, after, limit⟩ = .ok () := by
    simp only [PeerQuery.validate, bind_ok, bailIf_ok, each_ok]
    refine ⟨(), not_not.mpr hlimit, (), fun h => absurd h.1 Bool.false_ne_true, ?_⟩
    intro a ha
    have ha : a ∈ after.toList := ha
    exact hafter a (Option.mem_toList.mp ha)
  have hselection : p.selection origin ⟨none, after, limit⟩
      = .ok (DiscoveryPolicy.retainAfter (p.permitted origin) after) := by
    simp only [DiscoveryPolicy.selection, horigin, hquery, DiscoveryPolicy.retainNamed, ok_bind]
    rfl
  have hlen : (DiscoveryPolicy.retainAfter (p.permitted origin) after).items.length ≤ 257 := by
    have hperm := length_permitted origin hp
    cases after with
    | none => exact hperm
    | some a => exact (List.length_filter_le _ _).trans hperm
  have hrecords := DiscoveryPolicy.peerRecords_ok.mpr
    ⟨hlen, (readings_after hhonest (p.permitted origin) after).symm⟩
  have hbail : ∀ rs : List (PeerRecord × Nat), bailIf ((none : Option String).isSome ∧ rs = [])
      "node unavailable or not authorized" = .ok () :=
    fun rs => if_neg fun h => absurd h.1 Bool.false_ne_true
  unfold DiscoveryPolicy.view
  rw [fromJson_cursor (by omega), context, ok_bind, hselection, ok_bind, hrecords, ok_bind, hbail,
    ok_bind]

/-! ## All pages -/

/-- The records of the permitted nodes that are connected. -/
def visible (p : DiscoveryPolicy) (origin : String) (cs : Connections) : List (PeerRecord × Nat) :=
  (p.permitted origin).items.filterMap (reading cs)

/-- A table that an origin can page through: under a valid policy, with a limit that a query may
have, and records that fit in a response. -/
structure Listable [F64] (p : DiscoveryPolicy) (origin : String) (cs : Connections) (limit : Nat) :
    Prop where
  policy : p.validate = .ok ()
  named : validateNodeId origin = .ok ()
  honest : Honest cs
  bounded : 1 ≤ limit ∧ limit ≤ 32
  fits : ∀ r ∈ visible p origin cs, (p.publicRecord r.1 r.2).size ≤ responseBudget - 2048

theorem behind_sublist (rs : List (PeerRecord × Nat)) (after : Option String) :
    (behind rs after).Sublist rs := by
  cases after with
  | none => exact List.Sublist.refl _
  | some a => exact List.filter_sublist

/-- Going on from a cursor that is behind another one. -/
theorem behind_behind {rs : List (PeerRecord × Nat)} {after : Option String} {id : String}
    (h : ∃ r ∈ behind rs after, r.1.nodeId = id) :
    behind rs (some id) = (behind rs after).filter fun r => decide (id < r.1.nodeId) := by
  obtain ⟨r, hr, rfl⟩ := h
  cases after with
  | none => rfl
  | some a =>
    have hlt : a < r.1.nodeId := of_decide_eq_true (List.mem_filter.mp hr).2
    show rs.filter _ = (rs.filter _).filter _
    rw [List.filter_filter]
    refine List.filter_congr fun s _ => ?_
    rw [eq_comm, ← Bool.decide_and, decide_eq_decide]
    exact and_iff_left_of_imp fun h => lt_trans hlt h

/-- A page shows a front of what is behind its cursor, and the cursor it names has the rest behind
it. -/
theorem view_step [F64] {limit : Nat} (h : Listable p origin cs limit) {after : Option String}
    (hafter : ∀ a ∈ after, validateNodeId a = .ok ()) :
    ∃ front back, behind (visible p origin cs) after = front ++ back ∧
      p.view origin (cursor after limit) cs = .ok ⟨shown p front,
        if back = [] then none else some (lastId "" front), p.freshnessSeconds⟩ ∧
      (back ≠ [] → front ≠ [] ∧ behind (visible p origin cs) (some (lastId "" front)) = back ∧
        validateNodeId (lastId "" front) = .ok ()) := by
  have hsub := behind_sublist (visible p origin cs) after
  have hfits : ∀ r ∈ behind (visible p origin cs) after,
      (p.publicRecord r.1 r.2).size ≤ responseBudget - 2048 := fun r hr => h.fits r (hsub.subset hr)
  obtain ⟨front, back, hsplit, hne, hpage⟩ := page_front ⟨none, after, limit⟩ h.bounded.1 hfits
  refine ⟨front, back, hsplit, ?_, ?_⟩
  · rw [view_cursor h.policy h.named h.honest h.bounded hafter]
    exact hpage
  · intro hback
    have hsome : front ≠ [] := by
      refine hne fun hnil => hback ?_
      rw [hsplit] at hnil
      exact (List.append_eq_nil_iff.mp hnil).2
    have horder : InOrder (front ++ back) :=
      hsplit ▸ (inOrder_readings h.honest (p.permitted origin)).sublist hsub
    obtain ⟨t, ht, hlast⟩ := (lastId_spec "" (List.pairwise_append.mp horder).1).2 hsome
    have htmem : t ∈ behind (visible p origin cs) after := hsplit ▸ List.mem_append_left _ ht
    refine ⟨hsome, ?_, ?_⟩
    · rw [behind_behind ⟨t, htmem, hlast.symm⟩, hsplit]
      exact filter_cursor horder hsome
    · obtain ⟨id, hid, hread⟩ := List.mem_filterMap.mp (hsub.subset htmem)
      rw [hlast, h.honest id t hread]
      exact validateNodeId_permitted h.policy h.named hid

/-- The pages from a cursor on are there, and show what is behind it. -/
theorem crawl_behind [F64] {limit : Nat} (h : Listable p origin cs limit) (after : Option String)
    (hafter : ∀ a ∈ after, validateNodeId a = .ok ()) :
    Crawl p origin cs limit after (shown p (behind (visible p origin cs) after)) := by
  -- what is behind the cursor gets shorter with every page
  induction hn : (behind (visible p origin cs) after).length using Nat.strong_induction_on
    generalizing after with
  | _ n ih =>
    obtain ⟨front, back, hsplit, hview, hmore⟩ := view_step h hafter
    by_cases hback : back = []
    · rw [if_pos hback] at hview
      rw [hsplit, hback, List.append_nil]
      exact .last hview rfl
    · rw [if_neg hback] at hview
      obtain ⟨hfront, hrest, hvalid⟩ := hmore hback
      have hshorter : back.length < n := by
        have hpos := List.length_pos_iff.mpr hfront
        rw [← hn, hsplit, List.length_append]
        omega
      have hcrawl := ih back.length hshorter (some (lastId "" front))
        (fun a ha => Option.mem_some_iff.mp ha ▸ hvalid) (by rw [hrest])
      rw [hrest] at hcrawl
      rw [hsplit, shown, List.map_append]
      exact .more hview rfl hcrawl

/-- There is one way to go through the pages. -/
theorem Crawl.unique [F64] {limit : Nat} {after : Option String} {nodes nodes' : List Node}
    (h : Crawl p origin cs limit after nodes) (h' : Crawl p origin cs limit after nodes') :
    nodes = nodes' := by
  induction h generalizing nodes' with
  | last hview hnext =>
    cases h' with
    | last hview' hnext' =>
      rw [hview] at hview'
      cases hview'
      rfl
    | more hview' hnext' hrest' =>
      rw [hview] at hview'
      cases hview'
      rw [hnext] at hnext'
      cases hnext'
  | more hview hnext hrest ih =>
    cases h' with
    | last hview' hnext' =>
      rw [hview] at hview'
      cases hview'
      rw [hnext] at hnext'
      cases hnext'
    | more hview' hnext' hrest' =>
      rw [hview] at hview'
      cases hview'
      rw [hnext] at hnext'
      cases hnext'
      rw [ih hrest']

/-- Each permitted node that is connected is visible exactly once, in the order of the ids. -/
theorem visible_once (h : Honest cs) :
    ((visible p origin cs).map fun r => r.1.nodeId).Pairwise (· < ·) ∧
      ∀ id r, (r ∈ visible p origin cs ∧ r.1.nodeId = id) ↔
        (id ∈ p.permitted origin ∧ reading cs id = some r) := by
  refine ⟨?_, fun id r => ⟨fun hr => ?_, fun hr => ?_⟩⟩
  · rw [List.pairwise_map]
    exact inOrder_readings h (p.permitted origin)
  · obtain ⟨hmem, rfl⟩ := hr
    obtain ⟨key, hkey, hread⟩ := List.mem_filterMap.mp hmem
    rw [h key r hread]
    exact ⟨hkey, hread⟩
  · exact ⟨List.mem_filterMap.mpr ⟨id, hr.1, hr.2⟩, h id r hr.2⟩

/-- The pages from the first one on list what is visible, and nothing else can come of them. -/
theorem crawl_visible [F64] {limit : Nat} (h : Listable p origin cs limit) (nodes : List Node) :
    Crawl p origin cs limit none nodes ↔ nodes = shown p (visible p origin cs) := by
  have hcrawl := crawl_behind h none (fun a ha => absurd ha (Option.not_mem_none a))
  exact ⟨fun hc => hc.unique hcrawl, fun heq => heq ▸ hcrawl⟩

/-- Following the cursors from the first page on ends, whatever the limit, and lists every permitted
node that is connected exactly once and in the order of the ids. -/
theorem discovery_pages [F64] {limit : Nat} (h : Listable p origin cs limit) (nodes : List Node) :
    (Crawl p origin cs limit none nodes ↔ nodes = shown p (visible p origin cs)) ∧
      ((visible p origin cs).map fun r => r.1.nodeId).Pairwise (· < ·) ∧
      ∀ id r, (r ∈ visible p origin cs ∧ r.1.nodeId = id) ↔
        (id ∈ p.permitted origin ∧ reading cs id = some r) :=
  ⟨crawl_visible h nodes, visible_once h.honest⟩

attribute [local instance] F64.bits

theorem sampleTable_listable : Listable samplePolicy "a" (sampleTable "26.1.2.4" []) 1 := by
  refine ⟨by decide +kernel, by decide +kernel, ?_, by decide, by decide +kernel⟩
  intro id r hread
  unfold reading sampleTable at hread
  by_cases ha : id = "a"
  · subst ha
    cases hread
    rfl
  · by_cases hb : id = "b"
    · subst hb
      cases hread
      rfl
    · rw [List.append_nil, Assoc.lookup_cons, if_neg ha, Assoc.lookup_cons, if_neg hb] at hread
      cases hread

theorem discovery_pages_sample : ∃ nodes, nodes.length = 2 ∧
    Crawl samplePolicy "a" (sampleTable "26.1.2.4" []) 1 none nodes := by
  refine ⟨_, ?_, ((discovery_pages sampleTable_listable _).1).mpr rfl⟩
  decide +kernel

end Eef.Coordinator.Discovery
