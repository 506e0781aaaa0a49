import Mathlib.Data.Finset.Card
import Mathlib.Order.WellFoundedSet

/-!
# Resolving dependencies by passes

Nodes are known by a key and need other keys. A pass goes over the nodes in order and resolves each
whose needs are resolved by then. When nothing more can be resolved, everything is resolved exactly
if every need is the key of a node and no key needs itself through others.

The half of it that speaks of a cycle goes through accessibility: a resolved key is accessible in
the relation of needs (`Resolved.acc`), and an accessible key is on no cycle. The other half finds a
lowest key among those that are left.
-/

namespace Eef.Lib.Dependency

variable {ι κ : Type} [DecidableEq κ] {key : ι → κ} {needs : ι → List κ}

/-- A node is resolved when its needs are. -/
def visit (key : ι → κ) (needs : ι → List κ) (done : Finset κ) (n : ι) : Finset κ :=
  if ∀ k ∈ needs n, k ∈ done then insert (key n) done else done

/-- One pass over the nodes. -/
def pass (key : ι → κ) (needs : ι → List κ) (nodes : List ι) (done : Finset κ) : Finset κ :=
  nodes.foldl (visit key needs) done

/-- The key `a` belongs to a node that needs `b`. -/
def Needs (key : ι → κ) (needs : ι → List κ) (nodes : List ι) (a b : κ) : Prop :=
  ∃ n ∈ nodes, key n = a ∧ b ∈ needs n

/-- Every need is the key of a node. -/
def Closed (key : ι → κ) (needs : ι → List κ) (nodes : List ι) : Prop :=
  ∀ n ∈ nodes, ∀ k ∈ needs n, k ∈ nodes.map key

/-- No key needs itself, at once or through others. -/
def Acyclic (key : ι → κ) (needs : ι → List κ) (nodes : List ι) : Prop :=
  ∀ a, ¬Relation.TransGen (Needs key needs nodes) a a

omit [DecidableEq κ] in
theorem needs_perm {nodes nodes' : List ι} (h : nodes.Perm nodes') :
    Needs key needs nodes = Needs key needs nodes' := by
  funext a b
  exact propext ⟨fun ⟨n, hn, hab⟩ => ⟨n, h.mem_iff.mp hn, hab⟩,
    fun ⟨n, hn, hab⟩ => ⟨n, h.mem_iff.mpr hn, hab⟩⟩

omit [DecidableEq κ] in
theorem Closed.perm {nodes nodes' : List ι} (hclosed : Closed key needs nodes)
    (h : nodes.Perm nodes') : Closed key needs nodes' := fun n hn k hk =>
  (h.map key).mem_iff.mp (hclosed n (h.mem_iff.mpr hn) k hk)

omit [DecidableEq κ] in
theorem Acyclic.perm {nodes nodes' : List ι} (hacyclic : Acyclic key needs nodes)
    (h : nodes.Perm nodes') : Acyclic key needs nodes' := by
  unfold Acyclic
  rw [← needs_perm h]
  exact hacyclic

/-! ## One pass -/

theorem subset_visit (done : Finset κ) (n : ι) : done ⊆ visit key needs done n := by
  unfold visit
  split
  · exact Finset.subset_insert _ _
  · exact Finset.Subset.refl _

theorem subset_pass : ∀ (nodes : List ι) (done : Finset κ), done ⊆ pass key needs nodes done
  | [], done => Finset.Subset.refl done
  | n :: nodes, done => (subset_visit done n).trans (subset_pass nodes _)

theorem of_mem_pass : ∀ {nodes : List ι} {done : Finset κ} {k : κ},
    k ∈ pass key needs nodes done → k ∈ done ∨ k ∈ nodes.map key
  | [], _, _, h => .inl h
  | n :: nodes, done, k, h => by
    have hrest : k ∈ pass key needs nodes (visit key needs done n) := h
    rcases of_mem_pass hrest with h | h
    · unfold visit at h
      split at h
      · rcases Finset.mem_insert.mp h with rfl | h
        · exact .inr List.mem_cons_self
        · exact .inl h
      · exact .inl h
    · exact .inr (List.mem_cons_of_mem _ h)

/-- A pass that resolves something leaves fewer nodes over. -/
theorem left_lt {nodes : List ι} {done : Finset κ}
    (h : done.card ≠ (pass key needs nodes done).card) :
    ((nodes.map key).toFinset \ pass key needs nodes done).card <
      ((nodes.map key).toFinset \ done).card := by
  have hsub : done ⊆ pass key needs nodes done := subset_pass nodes done
  obtain ⟨k, hk, hnot⟩ := Finset.exists_of_ssubset
    (hsub.ssubset_of_ne fun he => h (congrArg Finset.card he))
  refine Finset.card_lt_card (Finset.ssubset_iff_subset_ne.mpr
    ⟨Finset.sdiff_subset_sdiff (Finset.Subset.refl _) hsub, fun he => ?_⟩)
  have hmem : k ∈ (nodes.map key).toFinset \ done :=
    Finset.mem_sdiff.mpr ⟨List.mem_toFinset.mpr ((of_mem_pass hk).resolve_left hnot), hnot⟩
  rw [← he] at hmem
  exact (Finset.mem_sdiff.mp hmem).2 hk

/-- What has been resolved: keys of the nodes whose needs have been resolved before them. -/
structure Resolved (key : ι → κ) (needs : ι → List κ) (nodes : List ι) (done : Finset κ) : Prop where
  keys : ∀ k ∈ done, k ∈ nodes.map key
  closed : ∀ n ∈ nodes, key n ∈ done → ∀ k ∈ needs n, k ∈ done
  acc : ∀ k ∈ done, Acc (Function.swap (Needs key needs nodes)) k

omit [DecidableEq κ] in
theorem Resolved.empty (nodes : List ι) : Resolved key needs nodes ∅ :=
  ⟨fun _ h => absurd h (Finset.notMem_empty _), fun _ _ h => absurd h (Finset.notMem_empty _),
    fun _ h => absurd h (Finset.notMem_empty _)⟩

/-- A node whose needs are resolved may be resolved. -/
theorem Resolved.insert {nodes : List ι} {done : Finset κ} (h : Resolved key needs nodes done)
    (hkeys : (nodes.map key).Nodup) {n : ι} (hn : n ∈ nodes) (hneeds : ∀ k ∈ needs n, k ∈ done) :
    Resolved key needs nodes (insert (key n) done) := by
  -- the only node of this key is the node itself
  have hown : ∀ m ∈ nodes, key m = key n → m = n := fun m hm he =>
    List.inj_on_of_nodup_map hkeys hm hn he
  constructor
  · intro k hk
    rcases Finset.mem_insert.mp hk with rfl | hk
    · exact List.mem_map_of_mem hn
    · exact h.keys k hk
  · intro m hm hk k hmk
    refine Finset.mem_insert_of_mem ?_
    rcases Finset.mem_insert.mp hk with he | hk
    · exact hneeds k (hown m hm he ▸ hmk)
    · exact h.closed m hm hk k hmk
  · intro k hk
    rcases Finset.mem_insert.mp hk with rfl | hk
    · constructor
      rintro b ⟨m, hm, he, hb⟩
      exact h.acc b (hneeds b (hown m hm he ▸ hb))
    · exact h.acc k hk

theorem Resolved.visit {nodes : List ι} {done : Finset κ} (h : Resolved key needs nodes done)
    (hkeys : (nodes.map key).Nodup) {n : ι} (hn : n ∈ nodes) :
    Resolved key needs nodes (Dependency.visit key needs done n) := by
  unfold Dependency.visit
  split
  · rename_i hneeds
    exact h.insert hkeys hn hneeds
  · exact h

/-- A pass over some of the nodes keeps the invariant. -/
theorem Resolved.pass {nodes : List ι} (hkeys : (nodes.map key).Nodup) :
    ∀ {part : List ι} {done : Finset κ}, (∀ n ∈ part, n ∈ nodes) → Resolved key needs nodes done →
      Resolved key needs nodes (Dependency.pass key needs part done)
  | [], _, _, h => h
  | n :: rest, done, hpart, h => by
    show Resolved key needs nodes
      (Dependency.pass key needs rest (Dependency.visit key needs done n))
    exact Resolved.pass hkeys (fun m hm => hpart m (List.mem_cons_of_mem _ hm))
      (h.visit hkeys (hpart n List.mem_cons_self))

/-- A pass resolves whatever could be resolved before it. -/
theorem mem_pass : ∀ {nodes : List ι} {done : Finset κ} {n : ι}, n ∈ nodes →
    (∀ k ∈ needs n, k ∈ done) → key n ∈ pass key needs nodes done
  | m :: nodes, done, n, hn, hneeds => by
    rcases List.mem_cons.mp hn with rfl | hn
    · refine subset_pass nodes _ ?_
      rw [visit, if_pos hneeds]
      exact Finset.mem_insert_self _ _
    · show key n ∈ pass key needs nodes (visit key needs done m)
      exact mem_pass hn fun k hk => subset_visit done m (hneeds k hk)

/-! ## When everything is resolved -/

omit [DecidableEq κ] in
/-- An accessible key is on no cycle. -/
theorem not_transGen_of_acc {r : κ → κ → Prop} {a : κ} (h : Acc (Function.swap r) a) :
    ¬Relation.TransGen r a a := by
  induction h with
  | intro a _ ih =>
    intro hcycle
    obtain ⟨b, hab, hba⟩ := Relation.TransGen.head'_iff.mp hcycle
    exact ih b hab (Relation.TransGen.tail' hba hab)

theorem Resolved.card_eq_iff {nodes : List ι} {done : Finset κ}
    (h : Resolved key needs nodes done) (hkeys : (nodes.map key).Nodup) :
    done.card = nodes.length ↔ ∀ n ∈ nodes, key n ∈ done := by
  have hsub : done ⊆ (nodes.map key).toFinset := fun k hk => List.mem_toFinset.mpr (h.keys k hk)
  have hcard : (nodes.map key).toFinset.card = nodes.length := by
    rw [List.toFinset_card_of_nodup hkeys, List.length_map]
  constructor
  · intro hlen n hn
    have heq := Finset.eq_of_subset_of_card_le hsub (by omega)
    rw [heq, List.mem_toFinset]
    exact List.mem_map_of_mem hn
  · intro hall
    have hsup : (nodes.map key).toFinset ⊆ done := by
      intro k hk
      obtain ⟨n, hn, rfl⟩ := List.mem_map.mp (List.mem_toFinset.mp hk)
      exact hall n hn
    rw [hsub.antisymm hsup, hcard]

omit [DecidableEq κ] in
/-- When every node is resolved, the needs are closed and have no cycle. -/
theorem Resolved.closed_acyclic {nodes : List ι} {done : Finset κ}
    (h : Resolved key needs nodes done) (hall : ∀ n ∈ nodes, key n ∈ done) :
    Closed key needs nodes ∧ Acyclic key needs nodes := by
  constructor
  · exact fun n hn k hk => h.keys k (h.closed n hn (hall n hn) k hk)
  · intro a hcycle
    obtain ⟨b, ⟨n, hn, rfl, -⟩, -⟩ := Relation.TransGen.head'_iff.mp hcycle
    exact not_transGen_of_acc (h.acc _ (hall n hn)) hcycle

omit [DecidableEq κ] in
/-- Where needs are closed and have no cycle, a set of keys that is left out, and whose members
each need another of them, is empty. -/
theorem none_left {nodes : List ι} (hacyclic : Acyclic key needs nodes) {left : Finset κ}
    (hleft : ∀ a ∈ left, ∃ b ∈ left, Needs key needs nodes a b) : left = ∅ := by
  let below : κ → κ → Prop := fun b a => Relation.TransGen (Needs key needs nodes) a b
  have hstrict : IsStrictOrder κ below :=
    { irrefl := hacyclic, trans := fun _ _ _ hab hbc => hbc.trans hab }
  by_contra hne
  obtain ⟨a, ha⟩ := Finset.nonempty_iff_ne_empty.mpr hne
  obtain ⟨m, hm, hmin⟩ := (Finset.wellFoundedOn (r := below) left).has_min Set.univ
    ⟨⟨a, ha⟩, trivial⟩
  obtain ⟨b, hb, hmb⟩ := hleft m m.2
  exact hmin ⟨b, hb⟩ trivial (.single hmb)

/-- When a pass resolves nothing more and the needs are closed and without a cycle, then every
node is resolved. -/
theorem Resolved.all_of_pass {nodes : List ι} {done : Finset κ}
    (hstuck : Dependency.pass key needs nodes done = done) (hclosed : Closed key needs nodes)
    (hacyclic : Acyclic key needs nodes) : ∀ n ∈ nodes, key n ∈ done := by
  have hleft : (nodes.map key).toFinset \ done = ∅ := by
    refine none_left hacyclic fun a ha => ?_
    obtain ⟨hkey, hnot⟩ := Finset.mem_sdiff.mp ha
    obtain ⟨n, hn, rfl⟩ := List.mem_map.mp (List.mem_toFinset.mp hkey)
    by_contra hnone
    apply hnot
    rw [← hstuck]
    refine mem_pass hn fun k hk => ?_
    by_contra hk'
    refine hnone ⟨k, Finset.mem_sdiff.mpr ⟨List.mem_toFinset.mpr (hclosed n hn k hk), hk'⟩, ?_⟩
    exact ⟨n, hn, rfl, hk⟩
  intro n hn
  by_contra hnot
  have hmem : key n ∈ (nodes.map key).toFinset \ done :=
    Finset.mem_sdiff.mpr ⟨List.mem_toFinset.mpr (List.mem_map_of_mem hn), hnot⟩
  rw [hleft] at hmem
  exact Finset.notMem_empty _ hmem

end Eef.Lib.Dependency
