import Eef.Node.ModelServer
import Mathlib.Data.List.Nodup
import Mathlib.Data.List.Perm.Subperm

/-!
# Custody of the model processes

Every process handle is in the resident map, in the retired list, with the operation that
took it, or it is gone and its exit was observed. The counting half of the invariant is
`Accounts`. The other half, `SlotCustody`, says for each slot what its state rules out: a
slot that is loading has no handle outside the map, and one that is reserved while vacant
has none at all. That is what `spawn_slot` relies on, which looks at the map alone.

`Phase` is what the holder of the operation lock knows about the lists. `Custody` bundles
the three, and every section keeps it.
-/

namespace Eef.Node.ModelServer

open Eef.Lib

/-! ## Lookups -/

theorem lookup_map (f : String → SlotResidency → SlotResidency) (m : String) :
    ∀ l : List (String × SlotResidency),
      (l.map fun e => (e.1, f e.1 e.2)).lookup m = (l.lookup m).map (f m)
  | [] => rfl
  | (k, r) :: l => by
    rw [List.map_cons, Assoc.lookup_cons, Assoc.lookup_cons, lookup_map f m l]
    by_cases h : m = k
    · simp [h]
    · simp [h]

@[simp]
theorem Server.slot_onSlots (f : String → SlotResidency → SlotResidency) (s : Server)
    (m : String) : (s.onSlots f).slot m = (s.slot m).map (f m) := lookup_map f m s.slots

theorem Server.slot_onSlot (k : String) (f : SlotResidency → SlotResidency) (s : Server)
    (m : String) :
    (s.onSlot k f).slot m = (s.slot m).map fun r => if m = k then f r else r :=
  s.slot_onSlots _ m

/-- The models that have a handle in a list. -/
abbrev models (l : List (String × Nat)) : List String := l.map Prod.fst

theorem models_iff {l : List (String × Nat)} {m : String} :
    m ∈ models l ↔ (l.lookup m).isSome := by
  rw [List.lookup_isSome_iff, List.mem_map]
  constructor
  · rintro ⟨p, hp, rfl⟩
    exact ⟨p, hp, beq_self_eq_true _⟩
  · rintro ⟨p, hp, hm⟩
    exact ⟨p, hp, (beq_iff_eq.1 hm).symm⟩

/-- A model's handles, and the others. -/
theorem erase_append_filter (m : String) (l : List (String × Nat)) :
    (Assoc.erase m l ++ l.filter (·.1 = m)).Perm l := by
  refine List.perm_append_comm.trans ?_
  simpa [Assoc.erase] using List.filter_append_perm (fun p : String × Nat => decide (p.1 = m)) l

theorem eq_of_models_filter {m k : String} {l : List (String × Nat)}
    (h : m ∈ models (l.filter (·.1 = k))) : m = k := by
  obtain ⟨p, hp, rfl⟩ := List.mem_map.1 h
  simpa using (List.mem_filter.1 hp).2

theorem not_models_erase (m : String) (l : List (String × Nat)) : m ∉ models (Assoc.erase m l) := by
  intro h
  obtain ⟨p, hp, hm⟩ := List.mem_map.1 h
  have := (List.mem_filter.1 hp).2
  simp [hm] at this

theorem models_erase {m k : String} {l : List (String × Nat)} (h : m ∈ models (Assoc.erase k l)) :
    m ∈ models l := (List.filter_sublist.map Prod.fst).subset h

/-- The handles of a model move out of the map. -/
theorem remove_perm (m : String) (l r : List (String × Nat)) :
    (Assoc.erase m l ++ (r ++ l.filter (·.1 = m))).Perm (l ++ r) :=
  (List.perm_append_comm_assoc ..).trans
    (((erase_append_filter m l).append_left r).trans List.perm_append_comm)

/-! ## The invariant -/

/-- The operation has withdrawn a slot and still holds its control. -/
def Operation.Holds (o : Operation) (m : String) (r : SlotResidency) : Prop :=
  match o with
  | .stopping _ id fences _ =>
    r.control = some id ∧ ∃ sticky, fences.lookup m = some (r.generation, sticky)
  | .unloading model id generation | .unloadDropping model id generation true =>
    m = model ∧ r.control = some id ∧ r.generation = generation
  | _ => False

/-- The operation may have handles of its own. -/
def Operation.takes : Operation → Bool
  | .retiring | .stopping .. | .stopDropping .. | .unloading .. | .unloadDropping .. => true
  | _ => false

/-- A cancelled startup is putting back what it spawned. -/
def Operation.unwinding : Operation → Bool
  | .retiring | .settling _ => true
  | _ => false

/-- Each handle is held once, was spawned, and whatever is held no more was seen to exit. -/
structure Accounts (s : Server) : Prop where
  once : (s.handles.map Prod.snd).Nodup
  owned : ∀ p ∈ s.handles, p ∈ s.spawned
  accounted : ∀ p ∈ s.spawned, p ∈ s.handles ∨ p.2 ∈ s.seen
  exits : ∀ i ∈ s.seen, i ∈ s.exited
  known : ∀ p ∈ s.spawned, ∃ r, s.slot p.1 = some r

/-- What the state of a slot says about the handles of its model. -/
structure SlotCustody (s : Server) (m : String) (r : SlotResidency) : Prop where
  withdrawn : r.state.withdrawn → m ∉ models s.processes
  held : r.state = .unloading → s.operation.Holds m r
  unconfirmed : r.state = .unloadUnconfirmed → r.control = none
  loading : r.state = .loading → s.closed = false → s.operation.unwinding = false →
    m ∉ models s.retired ∧ m ∉ models s.pending
  reserved : r.control ≠ none → r.state.vacant → m ∉ models s.handles
  taken : m ∈ models s.pending →
    s.closed = true ∨ r.state.withdrawn ∨ (s.operation = .retiring ∧ r.state = .loading)

/-- What `start` has spawned is loading, as long as the server is open. -/
def Server.Residents (s : Server) : Prop :=
  ∀ m r, s.slot m = some r → m ∈ models s.processes → s.closed = true ∨ r.state = .loading

/-- What the holder of the operation lock knows of the lists. -/
def Operation.Phase (closed : Bool) (processes retired : List (String × Nat)) (residents : Prop) :
    Operation → Prop
  | .startChecked | .startCleared => closed = true ∨ retired = []
  | .starting _ | .abandoned => residents
  | .settling state => state.vacant
  | .stopping .. | .stopped _ true => processes = [] ∧ retired = []
  | .stopDropping .. => processes = []
  | _ => True

theorem Operation.Phase.mono {o : Operation} {c c' : Bool} {p p' q q' : List (String × Nat)}
    {R R' : Prop} (h : o.Phase c p q R) (hstart : c = true ∨ q = [] → c' = true ∨ q' = [])
    (hproc : p = [] → p' = []) (hret : p = [] → q = [] → q' = []) (hres : R → R') :
    o.Phase c' p' q' R' := by
  unfold Operation.Phase at h ⊢
  split <;> simp_all

/-- `Operation.Phase` of a server. -/
def Server.Phase (s : Server) : Prop :=
  s.operation.Phase s.closed s.processes s.retired s.Residents

/-- The invariant of every run. -/
structure Custody (s : Server) : Prop where
  accounts : Accounts s
  spare : s.operation.takes = false → s.pending = []
  slots : ∀ m r, s.slot m = some r → SlotCustody s m r
  phase : s.Phase

theorem Custody.new : Custody Server.new := by
  refine ⟨⟨List.nodup_nil, ?_, ?_, ?_, ?_⟩, fun _ => rfl, ?_, trivial⟩
  · intro p hp
    cases hp
  · intro p hp
    cases hp
  · intro i hi
    cases hi
  · intro p hp
    cases hp
  · intro m r hr
    cases hr

/-! ## Frames -/

theorem Custody.of_eq {s t : Server} (h : Custody s) (hclosed : t.closed = s.closed)
    (hslots : t.slots = s.slots) (hproc : t.processes = s.processes)
    (hret : t.retired = s.retired) (hop : t.operation = s.operation)
    (hpend : t.pending = s.pending) (hsp : t.spawned = s.spawned) (hseen : t.seen = s.seen)
    (hex : t.exited = s.exited) : Custody t := by
  cases s
  cases t
  simp only at hclosed hslots hproc hret hop hpend hsp hseen hex
  subst hclosed hslots hproc hret hop hpend hsp hseen hex
  obtain ⟨⟨a1, a2, a3, a4, a5⟩, b, c, d⟩ := h
  exact ⟨⟨a1, a2, a3, a4, a5⟩, b, fun m r hr => by
    obtain ⟨c1, c2, c3, c4, c5, c6⟩ := c m r hr
    exact ⟨c1, c2, c3, c4, c5, c6⟩, d⟩

/-- Handles that move or are let go, and nothing is spawned. -/
theorem Accounts.shift {s t : Server} (h : Accounts s) (hsub : t.handles.Subperm s.handles)
    (hcover : ∀ p ∈ s.handles, p ∈ t.handles ∨ p.2 ∈ t.seen) (hsp : t.spawned = s.spawned)
    (hseen : ∀ i ∈ s.seen, i ∈ t.seen) (hexit : ∀ i ∈ t.seen, i ∈ t.exited)
    (hknown : ∀ m r, s.slot m = some r → ∃ r', t.slot m = some r') : Accounts t := by
  refine ⟨?_, ?_, ?_, hexit, ?_⟩
  · have hmap : (t.handles.map Prod.snd).Subperm (s.handles.map Prod.snd) := by
      obtain ⟨l, hl, hs⟩ := hsub
      exact ⟨l.map Prod.snd, hl.map _, hs.map _⟩
    obtain ⟨l, hl, hs⟩ := hmap
    exact hl.nodup_iff.1 (h.once.sublist hs)
  · intro p hp
    rw [hsp]
    exact h.owned p (List.Subperm.subset hsub hp)
  · intro p hp
    rw [hsp] at hp
    rcases h.accounted p hp with hp | hp
    · exact hcover p hp
    · exact Or.inr (hseen _ hp)
  · intro p hp
    rw [hsp] at hp
    obtain ⟨r, hr⟩ := h.known p hp
    exact hknown p.1 r hr

/-- The same handles, wherever they are now. -/
theorem Accounts.perm {s t : Server} (h : Accounts s) (hperm : t.handles.Perm s.handles)
    (hsp : t.spawned = s.spawned) (hseen : t.seen = s.seen) (hex : t.exited = s.exited)
    (hknown : ∀ m r, s.slot m = some r → ∃ r', t.slot m = some r') : Accounts t :=
  h.shift (List.Perm.subperm hperm) (fun _ hp => Or.inl (hperm.mem_iff.2 hp)) hsp (fun _ hi => hseen ▸ hi)
    (fun i hi => by
      rw [hex]
      rw [hseen] at hi
      exact h.exits i hi) hknown

/-- Each slot of `t` comes from the slot of `s`. -/
theorem Custody.build {s t : Server} (f : String → SlotResidency → SlotResidency)
    (haccounts : Accounts t) (hspare : t.operation.takes = false → t.pending = [])
    (hslots : ∀ m, t.slot m = (s.slot m).map (f m))
    (hf : ∀ m r, s.slot m = some r → SlotCustody t m (f m r)) (hphase : t.Phase) : Custody t := by
  refine ⟨haccounts, hspare, ?_, hphase⟩
  intro m r' hr'
  rw [hslots, Option.map_eq_some_iff] at hr'
  obtain ⟨r, hr, rfl⟩ := hr'
  exact hf m r hr

theorem known_of_map {s t : Server} {f : String → SlotResidency → SlotResidency}
    (hslots : ∀ m, t.slot m = (s.slot m).map (f m)) (m : String) (r : SlotResidency)
    (hr : s.slot m = some r) : ∃ r', t.slot m = some r' := ⟨f m r, by rw [hslots, hr]; rfl⟩

/-- Sections that change slots and nothing else. -/
theorem Custody.tune {s : Server} (h : Custody s) (f : String → SlotResidency → SlotResidency)
    (hf : ∀ m r, s.slot m = some r → SlotCustody s m r → SlotCustody s m (f m r))
    (hphase : (s.onSlots f).Phase) : Custody (s.onSlots f) := by
  refine Custody.build f ?_ h.spare (s.slot_onSlots f) ?_ hphase
  · exact h.accounts.perm (List.Perm.refl _) rfl rfl rfl (known_of_map (s.slot_onSlots f))
  · intro m r hr
    obtain ⟨c1, c2, c3, c4, c5, c6⟩ := hf m r hr (h.slots m r hr)
    exact ⟨c1, c2, c3, c4, c5, c6⟩

theorem Server.Phase.onSlots {s : Server} (h : s.Phase)
    (f : String → SlotResidency → SlotResidency)
    (hload : ∀ m r, s.slot m = some r → r.state = .loading → (f m r).state = .loading) :
    (s.onSlots f).Phase := by
  refine h.mono id id (fun _ => id) ?_
  intro hs m r' hr' hm
  rw [Server.slot_onSlots, Option.map_eq_some_iff] at hr'
  obtain ⟨r, hr, rfl⟩ := hr'
  rcases hs m r hr hm with hc | hl
  · exact Or.inl hc
  · exact Or.inr (hload m r hr hl)

/-- Sections that change one slot and nothing else. -/
theorem Custody.tuneOne {s : Server} (h : Custody s) (k : String)
    (f : SlotResidency → SlotResidency)
    (hf : ∀ r, s.slot k = some r → SlotCustody s k r → SlotCustody s k (f r))
    (hload : ∀ r, s.slot k = some r → r.state = .loading → (f r).state = .loading) :
    Custody (s.onSlot k f) := by
  refine h.tune _ ?_ (h.phase.onSlots _ ?_)
  · intro m r hr hc
    split
    · rename_i hm
      subst hm
      exact hf r hr hc
    · exact hc
  · intro m r hr hl
    split
    · rename_i hm
      subst hm
      exact hload r hr hl
    · exact hl

/-- The holder of the operation lock moves on with nothing in hand. -/
theorem Custody.move {s : Server} (h : Custody s) (o : Operation) (hpend : s.pending = [])
    (hheld : ∀ m r, ¬s.operation.Holds m r) (hun : s.operation.unwinding = o.unwinding)
    (hphase : ({ s with operation := o } : Server).Phase) :
    Custody { s with operation := o } := by
  refine ⟨h.accounts.perm (List.Perm.refl _) rfl rfl rfl fun _ r hr => ⟨r, hr⟩, fun _ => hpend, ?_,
    hphase⟩
  intro m r hr
  obtain ⟨c1, c2, c3, c4, c5, c6⟩ := h.slots m r hr
  refine ⟨c1, fun hs => absurd (c2 hs) (hheld m r), c3, ?_, c5, ?_⟩
  · intro hl hc hu
    exact c4 hl hc (hun.trans hu)
  · intro hm
    have : s.pending = [] := hpend
    simp [this] at hm

/-! ## Calls of other tasks -/

theorem Custody.initializeResidency {s : Server} (h : Custody s) (ids : List String) :
    Custody (s.initializeResidency ids).1 := by
  rcases s.initializeResidency_slots ids with hsame | ⟨slots, heq, hnil, hfresh⟩
  · rw [hsame]
    exact h
  · -- No slot, so nothing was ever spawned and every list is empty.
    have hspawned : s.spawned = [] := by
      rw [List.eq_nil_iff_forall_not_mem]
      intro p hp
      obtain ⟨r, hr⟩ := h.accounts.known p hp
      rw [Server.slot, hnil] at hr
      cases hr
    have hhandles : s.handles = [] := by
      rw [List.eq_nil_iff_forall_not_mem]
      intro p hp
      have := h.accounts.owned p hp
      rw [hspawned] at this
      cases this
    obtain ⟨hproc, hrest⟩ := List.append_eq_nil_iff.1 hhandles
    obtain ⟨hret, hpend⟩ := List.append_eq_nil_iff.1 hrest
    rw [heq]
    refine ⟨h.accounts.perm (List.Perm.refl _) rfl rfl rfl ?_, h.spare, ?_, ?_⟩
    · intro m r hr
      rw [Server.slot, hnil] at hr
      cases hr
    · intro m r hr
      have hr' := hfresh m r hr
      subst hr'
      refine ⟨nofun, nofun, nofun, nofun, fun hc => absurd rfl hc, ?_⟩
      intro hm
      change m ∈ models s.pending at hm
      simp [hpend] at hm
    · refine h.phase.mono id id (fun _ => id) ?_
      intro _ m r _ hm
      change m ∈ models s.processes at hm
      simp [hproc] at hm

theorem Custody.releaseObservedErrors {s : Server} (h : Custody s) {saw : Nat → Bool}
    (hsaw : ∀ p, saw p → p ∈ s.exited) : Custody (s.releaseObservedErrors saw) := by
  unfold Server.releaseObservedErrors
  split
  · exact h
  · have hsub : (s.retired.filter fun p => !s.released saw p).Sublist s.retired :=
      List.filter_sublist
    have hmodels : ∀ m, m ∈ models (s.retired.filter fun p => !s.released saw p) →
        m ∈ models s.retired := fun m hm => (hsub.map _).subset hm
    refine ⟨?_, h.spare, ?_, ?_⟩
    · refine h.accounts.shift ?_ ?_ rfl ?_ ?_ fun _ r hr => ⟨r, hr⟩
      · exact List.Sublist.subperm
          ((List.Sublist.refl _).append (hsub.append (List.Sublist.refl _)))
      · intro p hp
        simp only [Server.handles, List.mem_append, List.mem_filter, List.mem_map] at hp ⊢
        by_cases hr : s.released saw p = true
        · rcases hp with hp | hp | hp
          · exact Or.inl (Or.inl hp)
          · exact Or.inr (Or.inr ⟨p, ⟨hp, hr⟩, rfl⟩)
          · exact Or.inl (Or.inr (Or.inr hp))
        · rcases hp with hp | hp | hp
          · exact Or.inl (Or.inl hp)
          · exact Or.inl (Or.inr (Or.inl ⟨hp, by simpa using hr⟩))
          · exact Or.inl (Or.inr (Or.inr hp))
      · intro i hi
        exact List.mem_append_left _ hi
      · intro i hi
        rcases List.mem_append.1 hi with hi | hi
        · exact h.accounts.exits i hi
        · obtain ⟨p, hp, rfl⟩ := List.mem_map.1 hi
          have := (List.mem_filter.1 hp).2
          simp only [Server.released, Bool.and_eq_true] at this
          exact hsaw _ this.2
    · intro m r hr
      obtain ⟨c1, c2, c3, c4, c5, c6⟩ := h.slots m r hr
      refine ⟨c1, c2, c3, ?_, ?_, c6⟩
      · intro hl hc hu
        exact ⟨fun hm => (c4 hl hc hu).1 (hmodels m hm), (c4 hl hc hu).2⟩
      · intro hc hv hm
        refine c5 hc hv ?_
        simp only [models, Server.handles, List.map_append, List.mem_append] at hm ⊢
        rcases hm with hm | hm | hm
        · exact Or.inl hm
        · exact Or.inr (Or.inl (hmodels m hm))
        · exact Or.inr (Or.inr hm)
    · refine h.phase.mono ?_ id ?_ id
      · intro hs
        exact hs.imp id fun hr => by simp [hr]
      · intro _ hr
        simp [hr]

theorem Custody.pin {s t : Server} (h : Custody s) {alive : Nat → Bool} {model : String}
    (hpin : s.pin alive model = .ok t) : Custody t := by
  obtain ⟨r, hr, -, hctl, hres, rfl⟩ := Server.pin_ok hpin
  have k := h.tuneOne model SlotResidency.pin ?_ ?_
  · exact k.of_eq rfl rfl rfl rfl rfl rfl rfl rfl rfl
  · intro r' hr' hc
    obtain rfl : r = r' := Option.some.inj (hr.symm.trans hr')
    refine ⟨nofun, nofun, nofun, nofun, fun hne => absurd hctl hne, ?_⟩
    intro hm
    rcases hc.taken hm with hcl | hw | ⟨_, hl⟩
    · exact Or.inl hcl
    · cases hs : r.state <;> simp [hs, ModelLifecycle.resident, ModelLifecycle.withdrawn] at hres hw
    · rw [hl] at hres
      cases hres
  · intro r' hr' hl
    obtain rfl : r = r' := Option.some.inj (hr.symm.trans hr')
    rw [hl] at hres
    cases hres

theorem Custody.unpin {s : Server} (h : Custody s) (now : Nat) (u : ModelUse) :
    Custody (s.unpin now u) := by
  have k := h.tuneOne u.model (SlotResidency.unpin now u.generation) ?_ ?_
  · exact k.of_eq rfl rfl rfl rfl rfl rfl rfl rfl rfl
  · intro r hr hc
    unfold SlotResidency.unpin
    split
    · split
      · rename_i _ hact
        refine ⟨nofun, nofun, nofun, nofun, fun _ => nofun, ?_⟩
        intro hm
        rcases hc.taken hm with hcl | hw | ⟨_, hl⟩
        · exact Or.inl hcl
        · rw [hact.2] at hw
          cases hw
        · rw [hact.2] at hl
          cases hl
      · obtain ⟨c1, c2, c3, c4, c5, c6⟩ := hc
        exact ⟨c1, c2, c3, c4, c5, c6⟩
    · exact hc
  · intro r _ hl
    unfold SlotResidency.unpin
    split
    · split
      · rename_i _ hact
        rw [hact.2] at hl
        cases hl
      · exact hl
    · exact hl

/-- Control goes to a slot that nothing withdrew and, if it is vacant, that has no handle. -/
theorem Custody.reserve {s : Server} (h : Custody s) {model id : String} {r : SlotResidency}
    (hr : s.slot model = some r) (hstate : r.state ≠ .unloading ∧ r.state ≠ .unloadUnconfirmed)
    (hvacant : r.state.vacant → model ∉ models s.handles) :
    Custody (s.onSlot model (SlotResidency.reserve id)) := by
  refine h.tuneOne model _ ?_ fun _ _ hl => hl
  intro r' hr' hc
  obtain rfl : r = r' := Option.some.inj (hr.symm.trans hr')
  obtain ⟨c1, c2, c3, c4, c5, c6⟩ := hc
  exact ⟨c1, fun hs => absurd hs hstate.1, fun hs => absurd hs hstate.2, c4, fun _ => hvacant, c6⟩

theorem Custody.reserveControl {s t : Server} (h : Custody s) {model id : String}
    {generation : Nat} {load : Bool} (hres : s.reserveControl model generation id load = .ok t) :
    Custody t := by
  obtain ⟨r, hr, hopen, -, -, -, hun, hload, hunl, hvac, -, rfl⟩ := Server.reserveControl_ok hres
  refine h.reserve hr ⟨hunl, hun⟩ ?_
  intro hv
  obtain ⟨hret, hproc⟩ := hvac hv
  simp only [models, Server.handles, List.map_append, List.mem_append, not_or]
  refine ⟨by simp [models_iff, hproc], by simp [models_iff, hret], fun hm => ?_⟩
  rcases (h.slots model r hr).taken hm with hc | hw | ⟨_, hs⟩
  · exact absurd (hopen.symm.trans hc) Bool.false_ne_true
  · cases hs : r.state <;> simp [hs, ModelLifecycle.vacant, ModelLifecycle.withdrawn] at hv hw
  · exact hload hs

theorem Custody.reserveIdle {s t : Server} (h : Custody s) {model id : String}
    {generation now idle : Nat} (hres : s.reserveIdle model generation now idle id = .ok t) :
    Custody t := by
  obtain ⟨r, hr, -, -, -, -, hstate, rfl⟩ := Server.reserveIdle_ok hres
  refine h.reserve hr ⟨?_, ?_⟩ ?_
  · intro hs
    rw [hs] at hstate
    simp at hstate
  · intro hs
    rw [hs] at hstate
    simp at hstate
  · intro hv
    rcases hstate with hs | hs <;> rw [hs] at hv <;> cases hv

theorem Custody.releaseControl {s : Server} (h : Custody s) {model id : String}
    (hruns : s.runsUnder model id = false) : Custody (s.releaseControl model id) := by
  refine h.tuneOne model _ ?_ ?_
  · intro r _ hc
    split
    · rename_i hid
      obtain ⟨c1, c2, c3, c4, c5, c6⟩ := hc
      refine ⟨c1, fun hs => ?_, fun _ => rfl, c4, fun hne => absurd rfl hne, c6⟩
      -- The operation that withdrew this slot runs under another identity.
      have hheld := c2 hs
      unfold Operation.Holds at hheld
      unfold Server.runsUnder at hruns
      split at hheld <;> simp_all
    · exact hc
  · intro r _ hl
    split
    · exact hl
    · exact hl

theorem Server.slot_close (s : Server) (m : String) :
    s.close.slot m =
      (s.slot m).map (SlotResidency.shut ((s.retired ++ s.processes).lookup m).isSome) :=
  lookup_map (fun m => SlotResidency.shut ((s.retired ++ s.processes).lookup m).isSome) m s.slots

theorem Custody.close {s : Server} (h : Custody s) : Custody s.close := by
  refine ⟨?_, h.spare, ?_, ?_⟩
  · refine h.accounts.perm ?_ rfl rfl rfl ?_
    · change List.Perm ([] ++ ((s.retired ++ s.processes) ++ s.pending))
        (s.processes ++ (s.retired ++ s.pending))
      rw [List.nil_append, List.append_assoc]
      exact List.perm_append_comm_assoc ..
    · intro m r hr
      exact ⟨_, by rw [Server.slot_close, hr]; rfl⟩
  · intro m r' hr'
    rw [Server.slot_close, Option.map_eq_some_iff] at hr'
    obtain ⟨r, -, rfl⟩ := hr'
    refine ⟨fun _ => List.not_mem_nil, ?_, fun _ => rfl, fun _ hc => ?_, fun hne => absurd rfl hne,
      fun _ => Or.inl rfl⟩
    · intro hs
      unfold SlotResidency.shut at hs
      dsimp only at hs
      split at hs <;> cases hs
    · cases hc
  · refine h.phase.mono (fun _ => Or.inl rfl) (fun _ => rfl) ?_ fun _ _ _ _ _ => Or.inl rfl
    intro hp hq
    change s.retired ++ s.processes = []
    rw [hp, hq]
    rfl

theorem Custody.exit {s : Server} (h : Custody s) (process : Nat) :
    Custody { s with exited := process :: s.exited } := by
  obtain ⟨⟨a1, a2, a3, a4, a5⟩, b, c, d⟩ := h
  refine ⟨⟨a1, a2, a3, fun i hi => List.mem_cons_of_mem _ (a4 i hi), a5⟩, b, ?_, d⟩
  intro m r hr
  obtain ⟨c1, c2, c3, c4, c5, c6⟩ := c m r hr
  exact ⟨c1, c2, c3, c4, c5, c6⟩

/-- `terminate_until` has returned `Ok`. -/
theorem Custody.terminated {s : Server} (h : Custody s) {process : Nat}
    (hexit : process ∈ s.exited) : Custody { s with seen := process :: s.seen } := by
  obtain ⟨⟨a1, a2, a3, a4, a5⟩, b, c, d⟩ := h
  refine ⟨⟨a1, a2, fun p hp => (a3 p hp).imp id (List.mem_cons_of_mem _), ?_, a5⟩, b, ?_, d⟩
  · intro i hi
    rcases List.mem_cons.1 hi with rfl | hi
    · exact hexit
    · exact a4 i hi
  · intro m r hr
    obtain ⟨c1, c2, c3, c4, c5, c6⟩ := c m r hr
    exact ⟨c1, c2, c3, c4, c5, c6⟩

/-! ## Spawning -/

/-- What `spawn_slot` relies on: a slot that is loading has no handle outside the map. -/
theorem Custody.no_earlier {s t : Server} (h : Custody s) {model : String}
    {control : Option String} {process : Nat} (hun : s.operation.unwinding = false)
    (hspawn : s.spawnSlot model control process = .ok t) :
    model ∉ models s.handles := by
  obtain ⟨r, hr, hopen, hload, -, hproc, -⟩ := Server.spawnSlot_ok hspawn
  obtain ⟨hret, hpend⟩ := (h.slots model r hr).loading hload hopen hun
  simp only [models, Server.handles, List.map_append, List.mem_append, not_or]
  exact ⟨by simp [models_iff, hproc], hret, hpend⟩

theorem Accounts.spawn {s t : Server} (h : Accounts s) {model : String} {process : Nat}
    (hnew : process ∉ s.spawned.map Prod.snd) (hslot : ∃ r, s.slot model = some r)
    (hproc : t.processes = s.processes ++ [(model, process)]) (hret : t.retired = s.retired)
    (hpend : t.pending = s.pending) (hsp : t.spawned = (model, process) :: s.spawned)
    (hseen : t.seen = s.seen) (hex : t.exited = s.exited) (hslots : t.slots = s.slots) :
    Accounts t := by
  have hperm : t.handles.Perm ((model, process) :: s.handles) := by
    unfold Server.handles
    rw [hproc, hret, hpend, List.append_assoc]
    exact List.perm_middle
  have hfresh : process ∉ s.handles.map Prod.snd := by
    intro hm
    obtain ⟨p, hp, hpe⟩ := List.mem_map.1 hm
    exact hnew (List.mem_map.2 ⟨p, h.owned p hp, hpe⟩)
  refine ⟨?_, ?_, ?_, ?_, ?_⟩
  · rw [(hperm.map Prod.snd).nodup_iff, List.map_cons, List.nodup_cons]
    exact ⟨hfresh, h.once⟩
  · intro p hp
    rw [hsp]
    rcases List.mem_cons.1 (hperm.mem_iff.1 hp) with rfl | hp
    · exact List.mem_cons_self
    · exact List.mem_cons_of_mem _ (h.owned p hp)
  · intro p hp
    rw [hsp] at hp
    rw [hperm.mem_iff, hseen]
    rcases List.mem_cons.1 hp with rfl | hp
    · exact Or.inl List.mem_cons_self
    · exact (h.accounted p hp).imp (List.mem_cons_of_mem _) id
  · intro i hi
    rw [hex]
    exact h.exits i (hseen ▸ hi)
  · intro p hp
    unfold Server.slot
    rw [hslots]
    rw [hsp] at hp
    rcases List.mem_cons.1 hp with rfl | hp
    · exact hslot
    · exact h.known p hp

/-- The holder of the operation lock spawns a process and moves on. -/
theorem Custody.spawn {s t : Server} (h : Custody s) {model : String} {control : Option String}
    {process : Nat} (o : Operation) (hun : s.operation.unwinding = false)
    (hheld : ∀ m r, ¬s.operation.Holds m r) (hpend : s.pending = [])
    (hnew : process ∉ s.spawned.map Prod.snd)
    (hspawn : s.spawnSlot model control process = .ok t)
    (hphase : ({ t with operation := o } : Server).Phase) :
    Custody { t with operation := o } := by
  have hno := h.no_earlier hun hspawn
  obtain ⟨r₀, hr₀, -, hload, -, -, rfl⟩ := Server.spawnSlot_ok hspawn
  refine ⟨h.accounts.spawn hnew ⟨r₀, hr₀⟩ rfl rfl rfl rfl rfl rfl rfl, fun _ => hpend, ?_, hphase⟩
  intro m r hr
  obtain ⟨c1, c2, c3, c4, c5, c6⟩ := h.slots m r hr
  have hadd : ∀ l : List (String × Nat), m ∈ models (l ++ [(model, process)]) →
      m ∈ models l ∨ m = model := by
    intro l hm
    simpa [models] using hm
  refine ⟨?_, fun hs => absurd (c2 hs) (hheld m r), c3, fun hl hc _ => c4 hl hc hun, ?_, ?_⟩
  · intro hw hm
    rcases hadd _ hm with hm | rfl
    · exact c1 hw hm
    · obtain rfl : r₀ = r := Option.some.inj (hr₀.symm.trans hr)
      rw [hload] at hw
      cases hw
  · intro hne hv hm
    by_cases he : m = model
    · subst he
      obtain rfl : r₀ = r := Option.some.inj (hr₀.symm.trans hr)
      rw [hload] at hv
      cases hv
    · refine c5 hne hv ?_
      simp only [models, Server.handles, List.map_append, List.mem_append, List.map_cons,
        List.map_nil, List.mem_singleton] at hm ⊢
      rcases hm with (hm | hm) | hm
      · exact Or.inl hm
      · exact absurd hm he
      · exact Or.inr hm
  · intro hm
    change m ∈ models s.pending at hm
    simp [hpend] at hm

/-! ## Group sections -/

theorem SlotResidency.reset_state (now : Nat) (state : ModelLifecycle) (r : SlotResidency) :
    (r.reset now state).state = if r.state.withdrawn then .unloadUnconfirmed else state := rfl

theorem Server.slot_setAll (now : Nat) (state : ModelLifecycle) (s : Server) (m : String) :
    (s.setAll now state).slot m = (s.slot m).map (SlotResidency.reset now state) :=
  lookup_map (fun _ => SlotResidency.reset now state) m s.slots

/-- `set_all`, by a holder with nothing in hand. -/
theorem Custody.setAll {s : Server} (h : Custody s) (now : Nat) {state : ModelLifecycle}
    (o : Operation) (hpend : s.pending = []) (hstate : state.withdrawn = false)
    (hload : state = .loading → s.closed = true ∨ s.retired = [])
    (hphase : ({ s.setAll now state with operation := o } : Server).Phase) :
    Custody { s.setAll now state with operation := o } := by
  refine Custody.build (fun _ => SlotResidency.reset now state) ?_ (fun _ => hpend)
    (s.slot_setAll now state) ?_ hphase
  · exact h.accounts.perm (List.Perm.refl _) rfl rfl rfl (known_of_map (s.slot_setAll now state))
  · intro m r hr
    have hnone : m ∉ models s.pending := by simp [hpend]
    by_cases hw : r.state.withdrawn = true
    · have hs : (r.reset now state).state = .unloadUnconfirmed := by
        rw [SlotResidency.reset_state, if_pos hw]
      refine ⟨fun _ => (h.slots m r hr).withdrawn hw, ?_, fun _ => rfl, ?_,
        fun hne => absurd rfl hne, fun hm => absurd hm hnone⟩
      · rw [hs]
        nofun
      · rw [hs]
        nofun
    · have hs : (r.reset now state).state = state := by
        rw [SlotResidency.reset_state, if_neg hw]
      refine ⟨?_, ?_, fun _ => rfl, ?_, fun hne => absurd rfl hne, fun hm => absurd hm hnone⟩
      · rw [hs, hstate]
        nofun
      · rw [hs]
        rintro rfl
        cases hstate
      · rw [hs]
        intro hl hc _
        refine ⟨?_, hnone⟩
        rcases hload hl with hcl | hret
        · exact absurd (hc.symm.trans hcl) Bool.false_ne_true
        · change m ∉ models s.retired
          simp [hret]

theorem lookup_fences {m : String} (p : String → Bool) (g : SlotResidency → Nat × Bool) :
    ∀ l : List (String × SlotResidency),
      ((l.filter fun e => p e.1).map fun e => (e.1, g e.2)).lookup m =
        if p m then (l.lookup m).map g else none
  | [] => by simp
  | (k, r) :: l => by
    rw [List.filter_cons, Assoc.lookup_cons]
    have ih := lookup_fences (m := m) p g l
    by_cases hk : m = k
    · subst hk
      by_cases hp : p m = true
      · simp [hp]
      · simpa [hp] using ih
    · by_cases hp : p k = true
      · rw [if_pos hp, List.map_cons, Assoc.lookup_cons, if_neg hk, if_neg hk]
        exact ih
      · rw [if_neg hp, if_neg hk]
        exact ih

theorem Server.lookup_fences (s : Server) (m : String) :
    s.fences.lookup m =
      if (s.taken.lookup m).isSome then
        (s.slot m).map fun r => (bump r.generation, decide (r.state = .unloadUnconfirmed))
      else none :=
  ModelServer.lookup_fences (fun k => (s.taken.lookup k).isSome)
    (fun r => (bump r.generation, decide (r.state = .unloadUnconfirmed))) s.slots

theorem Server.slot_stopChildren (s : Server) (owner : Owner) (id m : String) :
    (s.stopChildren owner id).slot m = (s.slot m).map fun r =>
      if (s.taken.lookup m).isSome then SlotResidency.fence id r else r :=
  lookup_map (fun m r => if (s.taken.lookup m).isSome then SlotResidency.fence id r else r) m
    s.slots

theorem Custody.stopChildren {s : Server} (h : Custody s) {owner : Owner} (id : String)
    (hop : s.operation = .group owner) : Custody (s.stopChildren owner id) := by
  have hpend : s.pending = [] := h.spare (by rw [hop]; rfl)
  have hperm : (s.stopChildren owner id).handles.Perm s.handles := by
    change (s.retired ++ s.processes).Perm (s.processes ++ (s.retired ++ s.pending))
    rw [hpend, List.append_nil]
    exact List.perm_append_comm
  refine Custody.build _ ?_ nofun (s.slot_stopChildren owner id) ?_ ⟨rfl, rfl⟩
  · exact h.accounts.perm hperm rfl rfl rfl (known_of_map (s.slot_stopChildren owner id))
  · intro m r hr
    have hc := h.slots m r hr
    by_cases ht : (s.taken.lookup m).isSome = true
    · rw [if_pos ht]
      refine ⟨fun _ => List.not_mem_nil, fun _ => ⟨rfl, ?_⟩, nofun, nofun, fun _ => nofun,
        fun _ => Or.inr (Or.inl rfl)⟩
      exact ⟨_, by rw [s.lookup_fences, if_pos ht, hr]; rfl⟩
    · rw [if_neg ht]
      have hno : m ∉ models s.taken := fun hm => ht (models_iff.1 hm)
      refine ⟨fun _ => List.not_mem_nil, ?_, hc.unconfirmed, fun _ _ _ => ⟨List.not_mem_nil, hno⟩,
        fun hne hv hm => hc.reserved hne hv ((hperm.map Prod.fst).mem_iff.1 hm),
        fun hm => absurd hm hno⟩
      intro hs
      have hheld := hc.held hs
      rw [hop] at hheld
      cases hheld

theorem Custody.stopFinish {s t : Server} (h : Custody s) (hfin : s.stopFinish = .ok t) :
    Custody t := by
  obtain ⟨owner, id, fences, missing, hop, hseen, -, rfl⟩ := Server.stopFinish_ok hfin
  have hphase : s.processes = [] ∧ s.retired = [] := by
    have hp := h.phase
    unfold Server.Phase at hp
    rw [hop] at hp
    exact hp
  have hslots := fun m => lookup_map (fun m => SlotResidency.finish (fences.lookup m)) m s.slots
  refine Custody.build _ ?_ (fun _ => rfl) hslots ?_ hphase
  · refine h.accounts.shift ?_ ?_ rfl (fun _ hi => hi) h.accounts.exits (known_of_map hslots)
    · refine List.Sublist.subperm ((List.Sublist.refl _).append ?_)
      exact (List.Sublist.refl _).append (List.nil_sublist _)
    · intro p hp
      simp only [Server.handles, hphase.1, hphase.2, List.nil_append] at hp
      exact Or.inr (hseen p hp)
  · intro m r hr
    have hc := h.slots m r hr
    cases hl : fences.lookup m with
    | some fence =>
      obtain ⟨generation, sticky⟩ := fence
      refine ⟨fun _ => ?_, ?_, fun _ => rfl, ?_, fun hne => absurd rfl hne,
        fun hm => absurd hm List.not_mem_nil⟩
      · change m ∉ models s.processes
        rw [hphase.1]
        exact List.not_mem_nil
      · cases sticky <;> nofun
      · cases sticky <;> nofun
    | none =>
      refine ⟨hc.withdrawn, ?_, hc.unconfirmed, ?_, ?_, fun hm => absurd hm List.not_mem_nil⟩
      · intro hs
        have hheld := hc.held hs
        rw [hop] at hheld
        obtain ⟨-, sticky, hfence⟩ := hheld
        rw [hl] at hfence
        cases hfence
      · intro hload hcl _
        exact ⟨(hc.loading hload hcl (by rw [hop]; rfl)).1, List.not_mem_nil⟩
      · intro hne hv hm
        refine hc.reserved hne hv ?_
        simp only [models, Server.handles, List.map_append, List.mem_append, List.map_nil,
          List.not_mem_nil, or_false] at hm ⊢
        exact hm.imp (fun hm => hm) Or.inl

theorem Custody.stopDrop {s t : Server} (h : Custody s) {cancelled : Bool}
    (hdrop : s.stopDrop cancelled = .ok t) : Custody t := by
  obtain ⟨owner, id, fences, missing, hop, rfl⟩ := Server.stopDrop_ok hdrop
  have hproc : s.processes = [] := by
    have hp := h.phase
    unfold Server.Phase at hp
    rw [hop] at hp
    exact hp.1
  have hslots := fun m =>
    lookup_map (fun m => SlotResidency.forsake id (fences.lookup m)) m s.slots
  refine Custody.build _ ?_ nofun hslots ?_ hproc
  · exact h.accounts.perm (List.Perm.refl _) rfl rfl rfl (known_of_map hslots)
  · intro m r hr
    obtain ⟨c1, c2, c3, c4, c5, c6⟩ := h.slots m r hr
    -- A slot that stays as it was is not one that this stop withdrew.
    have same (hno : ¬∃ generation sticky, fences.lookup m = some (generation, sticky) ∧
        r.generation = generation ∧ r.control = some id) :
        SlotCustody { s with operation := .stopDropping owner cancelled } m r := by
      refine ⟨c1, ?_, c3, fun hl hc _ => c4 hl hc (by rw [hop]; rfl), c5, ?_⟩
      · intro hs
        have hheld := c2 hs
        rw [hop] at hheld
        obtain ⟨hctl, sticky, hfence⟩ := hheld
        exact absurd ⟨_, sticky, hfence, rfl, hctl⟩ hno
      · intro hm
        rcases c6 hm with hc | hw | ⟨hr', -⟩
        · exact Or.inl hc
        · exact Or.inr (Or.inl hw)
        · rw [hop] at hr'
          cases hr'
    cases hl : fences.lookup m with
    | none =>
      obtain ⟨d1, d2, d3, d4, d5, d6⟩ := same (by simp [hl])
      exact ⟨d1, d2, d3, d4, d5, d6⟩
    | some fence =>
      obtain ⟨generation, sticky⟩ := fence
      by_cases hmatch : r.generation = generation ∧ r.control = some id
      · have hr' : SlotResidency.forsake id (some (generation, sticky)) r =
            { r with
              state := .unloadUnconfirmed
              control := none } := if_pos hmatch
        rw [hr']
        refine ⟨fun _ => ?_, nofun, fun _ => rfl, nofun, fun hne => absurd rfl hne,
          fun _ => Or.inr (Or.inl rfl)⟩
        change m ∉ models s.processes
        rw [hproc]
        exact List.not_mem_nil
      · have hr' : SlotResidency.forsake id (some (generation, sticky)) r = r := if_neg hmatch
        rw [hr']
        obtain ⟨d1, d2, d3, d4, d5, d6⟩ := same (by
          rintro ⟨g, k, hfence, hg, hctl⟩
          rw [hl] at hfence
          cases hfence
          exact hmatch ⟨hg, hctl⟩)
        exact ⟨d1, d2, d3, d4, d5, d6⟩

/-- A handle that is put back: `retire_process`. -/
theorem Custody.retireProcess {s t : Server} (h : Custody s) (hret : s.retireProcess = .ok t) :
    Custody t := by
  obtain ⟨p, pending, hpend, hdrop, rfl⟩ := Server.retireProcess_ok hret
  have hsame : ({ s with
      pending
      retired := s.retired ++ [p]
      exitObserved := false } : Server).handles = s.handles := by
    unfold Server.handles
    rw [hpend, List.append_assoc]
    rfl
  refine ⟨h.accounts.perm (hsame ▸ List.Perm.refl _) rfl rfl rfl fun _ r hr => ⟨r, hr⟩, ?_, ?_, ?_⟩
  · intro ht
    exfalso
    unfold Server.dropping at hdrop
    change s.operation.takes = false at ht
    split at hdrop <;> simp_all [Operation.takes]
  · intro m r hr
    obtain ⟨c1, c2, c3, c4, c5, c6⟩ := h.slots m r hr
    refine ⟨c1, c2, c3, ?_, ?_, ?_⟩
    · intro hl hc hu
      obtain ⟨hr1, hr2⟩ := c4 hl hc hu
      rw [hpend] at hr2
      simp only [models, List.map_append, List.map_cons, List.map_nil, List.mem_append,
        List.mem_cons, List.not_mem_nil, or_false, not_or] at hr1 hr2 ⊢
      exact ⟨⟨hr1, hr2.1⟩, hr2.2⟩
    · intro hne hv
      rw [hsame]
      exact c5 hne hv
    · intro hm
      refine c6 ?_
      rw [hpend]
      exact List.mem_cons_of_mem _ hm
  · have hp := h.phase
    unfold Server.Phase at hp ⊢
    unfold Server.dropping at hdrop
    change s.operation.Phase _ _ _ _
    split at hdrop <;> simp_all [Operation.Phase]

/-! ## `start` -/

theorem Custody.startCheck {s t : Server} (h : Custody s) (hs : s.startCheck = .ok t) :
    Custody t := by
  obtain ⟨hfree, hret, rfl⟩ := Server.startCheck_ok hs
  refine h.move _ (h.spare (by rw [hfree]; rfl)) ?_ (by rw [hfree]; rfl) ?_
  · intro m r hheld
    rw [hfree] at hheld
    exact hheld
  · exact Or.inr hret

theorem Custody.startClear {s t : Server} (h : Custody s) (hs : s.startClear = .ok t) :
    Custody t := by
  obtain ⟨hop, -, rfl⟩ := Server.startClear_ok hs
  have hp := h.phase
  unfold Server.Phase at hp
  rw [hop] at hp
  refine h.move _ (h.spare (by rw [hop]; rfl)) ?_ (by rw [hop]; rfl) hp
  intro m r hheld
  rw [hop] at hheld
  exact hheld

theorem Custody.startLoad {s : Server} (h : Custody s) (ids : List String) (now : Nat)
    (hop : s.operation = .startCleared) :
    Custody { s.setAll now .loading with operation := .starting ids } := by
  have hp := h.phase
  unfold Server.Phase at hp
  rw [hop] at hp
  refine h.setAll now _ (h.spare (by rw [hop]; rfl)) rfl (fun _ => hp) ?_
  intro m r' hr' hm
  change (s.setAll now .loading).slot m = some r' at hr'
  rw [Server.slot_setAll, Option.map_eq_some_iff] at hr'
  obtain ⟨r, hr, rfl⟩ := hr'
  right
  rw [SlotResidency.reset_state, if_neg]
  exact fun hw => (h.slots m r hr).withdrawn hw hm

theorem Custody.startSpawn {s t : Server} (h : Custody s) {model : String} {todo : List String}
    {process : Nat} (hop : s.operation = .starting (model :: todo))
    (hnew : process ∉ s.spawned.map Prod.snd) (ht : s.spawnSlot model none process = .ok t) :
    Custody { t with operation := .starting todo } := by
  refine h.spawn _ (by rw [hop]; rfl) ?_ (h.spare (by rw [hop]; rfl)) hnew ht ?_
  · intro m r hheld
    rw [hop] at hheld
    exact hheld
  · have hp := h.phase
    unfold Server.Phase at hp
    rw [hop] at hp
    obtain ⟨r₀, hr₀, -, hload, -, -, rfl⟩ := Server.spawnSlot_ok ht
    intro m r hr hm
    by_cases he : m = model
    · subst he
      obtain rfl : r₀ = r := Option.some.inj (hr₀.symm.trans hr)
      exact Or.inr hload
    · refine hp m r hr ?_
      simpa [models, he] using hm

/-- What `StartupCleanup` takes out of the map is still loading. -/
theorem Custody.startRetire {s : Server} (h : Custody s) (hop : s.operation = .abandoned) :
    Custody { s with
      processes := []
      pending := s.processes
      operation := .retiring } := by
  have hpend : s.pending = [] := h.spare (by rw [hop]; rfl)
  have hp := h.phase
  unfold Server.Phase at hp
  rw [hop] at hp
  have hperm : ([] ++ (s.retired ++ s.processes)).Perm s.handles := by
    unfold Server.handles
    rw [hpend, List.append_nil, List.nil_append]
    exact List.perm_append_comm
  refine ⟨h.accounts.perm hperm rfl rfl rfl fun _ r hr => ⟨r, hr⟩, nofun, ?_, trivial⟩
  intro m r hr
  obtain ⟨c1, c2, c3, c4, c5, c6⟩ := h.slots m r hr
  refine ⟨fun _ => List.not_mem_nil, ?_, c3, nofun, ?_, ?_⟩
  · intro hs
    have hheld := c2 hs
    rw [hop] at hheld
    exact hheld
  · intro hne hv hm
    exact c5 hne hv ((hperm.map Prod.fst).mem_iff.1 hm)
  · intro hm
    rcases hp m r hr hm with hc | hl
    · exact Or.inl hc
    · exact Or.inr (Or.inr ⟨rfl, hl⟩)

/-! ## Loads and unloads -/

theorem Custody.loadAdmit {s t : Server} (h : Custody s) {model id : String} {pin : Bool}
    (hl : s.loadAdmit model id pin = .ok t) : Custody t := by
  obtain ⟨hop, r, hr, hctl, -, hvac, -, rfl⟩ := Server.loadAdmit_ok hl
  have htakes : s.operation.takes = false := by
    rw [hop]
    cases pin <;> rfl
  have hheld : ∀ m r, ¬s.operation.Holds m r := by
    intro m r hh
    rw [hop] at hh
    cases pin <;> exact hh
  have hpend := h.spare htakes
  have hno := (h.slots model r hr).reserved (by rw [hctl]; nofun) hvac
  simp only [models, Server.handles, List.map_append, List.mem_append, not_or] at hno
  have k := h.tuneOne model SlotResidency.beginLoad ?_ fun _ _ _ => rfl
  · refine k.move _ hpend hheld ?_ trivial
    change s.operation.unwinding = false
    rw [hop]
    cases pin <;> rfl
  · intro r' hr' hc
    refine ⟨nofun, nofun, nofun, fun _ _ _ => hno.2, fun _ => nofun, fun hm => ?_⟩
    exact absurd hm hno.2.2

theorem Custody.loadReady {s t : Server} (h : Custody s) {alive : Nat → Bool} {now : Nat}
    (hl : s.loadReady alive now = .ok t) : Custody t := by
  obtain ⟨model, id, pin, r, hop, -, hr, -, rfl⟩ := Server.loadReady_ok hl
  have hpend : s.pending = [] := h.spare (by rw [hop]; rfl)
  have k := h.tune (fun m r => if m = model then SlotResidency.endLoad now pin r else r) ?_ ?_
  · have k' := k.move .free hpend ?_ ?_ trivial
    · exact k'.of_eq rfl rfl rfl rfl rfl rfl rfl rfl rfl
    · intro m r hh
      change s.operation.Holds m r at hh
      rw [hop] at hh
      exact hh
    · change s.operation.unwinding = false
      rw [hop]
      rfl
  · intro m r hr hc
    split
    · refine ⟨?_, ?_, fun _ => rfl, ?_, fun hne => absurd rfl hne, fun hm => ?_⟩
      · cases pin <;> nofun
      · cases pin <;> nofun
      · cases pin <;> nofun
      · simp [hpend] at hm
    · exact hc
  · unfold Server.Phase
    rw [show (s.onSlots _).operation = _ from hop]
    trivial

theorem Custody.loadDrop {s t : Server} (h : Custody s) (hl : s.loadDrop = .ok t) :
    Custody t := by
  obtain ⟨model, id, pin, hop, hcase⟩ := Server.loadDrop_ok hl
  have htakes : s.operation.takes = false := by rcases hop with ho | ho <;> rw [ho] <;> rfl
  have hun : s.operation.unwinding = false := by rcases hop with ho | ho <;> rw [ho] <;> rfl
  have hheld : ∀ m r, ¬s.operation.Holds m r := by
    intro m r hh
    rcases hop with ho | ho <;> rw [ho] at hh <;> exact hh
  have hpend := h.spare htakes
  rcases hcase with ⟨r₀, -, -, rfl⟩ | ⟨-, rfl⟩
  · have hperm : (Assoc.erase model s.processes ++
        ((s.retired ++ s.processes.filter (·.1 = model)) ++ s.pending)).Perm s.handles := by
      unfold Server.handles
      rw [hpend, List.append_nil, List.append_nil]
      exact remove_perm model s.processes s.retired
    have hslots := s.slot_onSlot model SlotResidency.failLoad
    refine Custody.build _ ?_ (fun _ => hpend) hslots ?_ trivial
    · exact h.accounts.perm hperm rfl rfl rfl (known_of_map hslots)
    · intro m r hr
      obtain ⟨c1, c2, c3, c4, c5, c6⟩ := h.slots m r hr
      by_cases hm : m = model
      · rw [if_pos hm]
        refine ⟨nofun, nofun, nofun, nofun, fun hne => absurd rfl hne, fun hp => ?_⟩
        change m ∈ models s.pending at hp
        simp [hpend] at hp
      · rw [if_neg hm]
        refine ⟨?_, fun hs => absurd (c2 hs) (hheld m r), c3, ?_, ?_, fun hp => ?_⟩
        · exact fun hw hp => c1 hw (models_erase hp)
        · intro hload hc _
          refine ⟨?_, (c4 hload hc hun).2⟩
          have := (c4 hload hc hun).1
          simp only [models, List.map_append, List.mem_append, not_or]
          exact ⟨this, fun hp => hm (eq_of_models_filter hp)⟩
        · intro hne hv hp
          exact c5 hne hv ((hperm.map Prod.fst).mem_iff.1 hp)
        · change m ∈ models s.pending at hp
          simp [hpend] at hp
  · exact h.move _ hpend hheld hun trivial

theorem Custody.unloadAdmit {s t : Server} (h : Custody s) {model id : String}
    (hu : s.unloadAdmit model id = .ok t) : Custody t := by
  obtain ⟨hfree, r₀, hr₀, hctl, -, -, -, rfl⟩ := Server.unloadAdmit_ok hu
  have hpend : s.pending = [] := h.spare (by rw [hfree]; rfl)
  have hperm : (Assoc.erase model s.processes ++
      (s.retired ++ s.processes.filter (·.1 = model))).Perm s.handles := by
    unfold Server.handles
    rw [hpend, List.append_nil]
    exact remove_perm model s.processes s.retired
  have hslots := s.slot_onSlot model SlotResidency.beginUnload
  refine Custody.build _ ?_ nofun hslots ?_ trivial
  · exact h.accounts.perm hperm rfl rfl rfl (known_of_map hslots)
  · intro m r hr
    obtain ⟨c1, c2, c3, c4, c5, c6⟩ := h.slots m r hr
    by_cases hm : m = model
    · subst hm
      obtain rfl : r₀ = r := Option.some.inj (hr₀.symm.trans hr)
      rw [if_pos rfl]
      exact ⟨fun _ => not_models_erase m _, fun _ => ⟨rfl, hctl, rfl⟩, nofun, nofun,
        fun _ => nofun, fun _ => Or.inr (Or.inl rfl)⟩
    · rw [if_neg hm]
      have hnot : m ∉ models (s.processes.filter (·.1 = model)) :=
        fun hp => hm (eq_of_models_filter hp)
      refine ⟨?_, ?_, c3, ?_, ?_, fun hp => absurd hp hnot⟩
      · exact fun hw hp => c1 hw (models_erase hp)
      · intro hs
        have hheld := c2 hs
        rw [hfree] at hheld
        cases hheld
      · intro hload hc _
        exact ⟨(c4 hload hc (by rw [hfree]; rfl)).1, hnot⟩
      · intro hne hv hp
        exact c5 hne hv ((hperm.map Prod.fst).mem_iff.1 hp)

theorem Custody.unloadFinish {s t : Server} (h : Custody s) {confirmed : Bool}
    (hu : s.unloadFinish confirmed = .ok t) : Custody t := by
  obtain ⟨model, id, generation, r₀, hop, hseen, hr₀, hstate, rfl⟩ := Server.unloadFinish_ok hu
  have hslots := s.slot_onSlot model (SlotResidency.endUnload confirmed)
  have hsub : ∀ m, m ∈ models (if confirmed then [] else s.pending) → m ∈ models s.pending := by
    intro m hm
    cases confirmed
    · exact hm
    · cases hm
  refine Custody.build _ ?_ ?_ hslots ?_ ?_
  · refine h.accounts.shift ?_ ?_ rfl (fun _ hi => hi) h.accounts.exits (known_of_map hslots)
    · refine List.Sublist.subperm ((List.Sublist.refl _).append
        ((List.Sublist.refl _).append ?_))
      cases confirmed
      · exact List.Sublist.refl _
      · exact List.nil_sublist _
    · intro p hp
      simp only [Server.handles, List.mem_append] at hp ⊢
      rcases hp with hp | hp | hp
      · exact Or.inl (Or.inl hp)
      · exact Or.inl (Or.inr (Or.inl hp))
      · cases confirmed
        · exact Or.inl (Or.inr (Or.inr hp))
        · exact Or.inr (hseen rfl p hp)
  · cases confirmed
    · nofun
    · exact fun _ => rfl
  · intro m r hr
    obtain ⟨c1, c2, c3, c4, c5, c6⟩ := h.slots m r hr
    by_cases hm : m = model
    · subst hm
      obtain rfl : r₀ = r := Option.some.inj (hr₀.symm.trans hr)
      rw [if_pos rfl]
      refine ⟨fun _ => c1 (by rw [hstate]; rfl), ?_, fun _ => rfl, ?_,
        fun hne => absurd rfl hne, ?_⟩
      · cases confirmed <;> nofun
      · cases confirmed <;> nofun
      · intro hp
        cases confirmed
        · exact Or.inr (Or.inl rfl)
        · cases hp
    · rw [if_neg hm]
      refine ⟨c1, ?_, c3, ?_, ?_, ?_⟩
      · intro hs
        have hheld := c2 hs
        rw [hop] at hheld
        exact absurd hheld.1 hm
      · intro hload hc _
        obtain ⟨hr1, hr2⟩ := c4 hload hc (by rw [hop]; rfl)
        exact ⟨hr1, fun hp => hr2 (hsub m hp)⟩
      · intro hne hv hp
        refine c5 hne hv ?_
        simp only [models, Server.handles, List.map_append, List.mem_append] at hp ⊢
        rcases hp with hp | hp | hp
        · exact Or.inl hp
        · exact Or.inr (Or.inl hp)
        · exact Or.inr (Or.inr (hsub m hp))
      · intro hp
        rcases c6 (hsub m hp) with hc | hw | ⟨hret, -⟩
        · exact Or.inl hc
        · exact Or.inr (Or.inl hw)
        · rw [hop] at hret
          cases hret
  · cases confirmed <;> trivial

theorem Custody.unloadAbandon {s : Server} (h : Custody s) {model id : String} {generation : Nat}
    (hop : s.operation = .unloading model id generation) :
    Custody { s with operation := .unloadDropping model id generation true } := by
  refine ⟨h.accounts.perm (List.Perm.refl _) rfl rfl rfl fun _ r hr => ⟨r, hr⟩, nofun, ?_, trivial⟩
  intro m r hr
  obtain ⟨c1, c2, c3, c4, c5, c6⟩ := h.slots m r hr
  refine ⟨c1, ?_, c3, fun hl hc _ => c4 hl hc (by rw [hop]; rfl), c5, ?_⟩
  · intro hs
    have hheld := c2 hs
    rw [hop] at hheld
    exact hheld
  · intro hm
    rcases c6 hm with hc | hw | ⟨hret, -⟩
    · exact Or.inl hc
    · exact Or.inr (Or.inl hw)
    · rw [hop] at hret
      cases hret

theorem Custody.unloadDrop {s t : Server} (h : Custody s) (hu : s.unloadDrop = .ok t) :
    Custody t := by
  obtain ⟨model, id, generation, armed, hop, hpend, rfl⟩ := Server.unloadDrop_ok hu
  have hslots := s.slot_onSlot model (SlotResidency.failUnload armed id generation)
  refine Custody.build _ ?_ (fun _ => hpend) hslots ?_ trivial
  · exact h.accounts.perm (List.Perm.refl _) rfl rfl rfl (known_of_map hslots)
  · intro m r hr
    obtain ⟨c1, c2, c3, c4, c5, c6⟩ := h.slots m r hr
    have htaken {P : Prop} : m ∈ models s.pending → P := fun hm => by simp [hpend] at hm
    by_cases hfail : m = model ∧ armed ∧ r.generation = generation ∧ r.control = some id
        ∧ r.state = .unloading
    · obtain ⟨rfl, hmatch⟩ := hfail
      have hr' : r.failUnload armed id generation =
          { r with
            state := .unloadUnconfirmed
            control := none } := if_pos hmatch
      rw [if_pos rfl, hr']
      exact ⟨fun _ => c1 (by rw [hmatch.2.2.2]; rfl), nofun, fun _ => rfl, nofun,
        fun hne => absurd rfl hne, htaken⟩
    · have hr' : (if m = model then r.failUnload armed id generation else r) = r := by
        split
        · rename_i hm
          exact if_neg fun hmatch => hfail ⟨hm, hmatch⟩
        · rfl
      rw [hr']
      refine ⟨c1, ?_, c3, fun hl hc _ => c4 hl hc (by rw [hop]; rfl), c5, htaken⟩
      intro hs
      have hheld := c2 hs
      rw [hop] at hheld
      cases armed
      · exact hheld
      · exact absurd ⟨hheld.1, rfl, hheld.2.2, hheld.2.1, hs⟩ hfail

/-! ## Every section -/

/-- The holder of the operation lock moves on with nothing in hand, from a place where it has
withdrawn no slot. -/
theorem Custody.move_from {s : Server} (h : Custody s) (o : Operation)
    (htakes : s.operation.takes = false) (hun : s.operation.unwinding = o.unwinding)
    (hphase : ({ s with operation := o } : Server).Phase) :
    Custody { s with operation := o } := by
  refine h.move o (h.spare htakes) ?_ hun hphase
  intro m r hh
  unfold Operation.Holds at hh
  split at hh <;> simp_all [Operation.takes]

theorem Custody.step {ids : List String} {a : Act} {s t : Server} (h : Custody s)
    (hstep : Step ids a s t) : Custody t := by
  have phase : ∀ o, s.operation = o → o.Phase s.closed s.processes s.retired s.Residents :=
    fun o ho => ho ▸ h.phase
  cases hstep with
  | initializeResidency _ => exact h.initializeResidency ids
  | releaseObservedErrors _ saw hsaw => exact h.releaseObservedErrors hsaw
  | changed _ => exact h.of_eq rfl rfl rfl rfl rfl rfl rfl rfl rfl
  | pin _ _ alive model hp => exact h.pin hp
  | unpin _ now u hu => exact h.unpin now u
  | reserveControl _ _ model generation id load hr => exact h.reserveControl hr
  | releaseControl _ model id hruns => exact h.releaseControl hruns
  | reserveIdle _ _ model generation now idle id hr => exact h.reserveIdle hr
  | close _ => exact h.close
  | exit _ process => exact h.exit process
  | startCheck _ _ hs => exact h.startCheck hs
  | startClear _ _ hs => exact h.startClear hs
  | startRefuse _ ho => exact h.move_from _ (by rw [ho]; rfl) (by rw [ho]; rfl) trivial
  | startLoad _ now ho => exact h.startLoad ids now ho
  | startSpawn _ _ model todo process ho hnew ht => exact h.startSpawn ho hnew ht
  | startInner _ alive ho hok => exact h.move_from _ (by rw [ho]; rfl) (by rw [ho]; rfl) trivial
  | startReady _ now ho =>
    exact h.setAll now _ (h.spare (by rw [ho]; rfl)) rfl nofun trivial
  | startFail _ todo ho => exact h.move_from _ (by rw [ho]; rfl) (by rw [ho]; rfl) trivial
  | startCancel _ todo ho =>
    have hres : s.Residents := phase (.starting todo) ho
    exact h.move_from _ (by rw [ho]; rfl) (by rw [ho]; rfl) hres
  | startRetire _ ho => exact h.startRetire ho
  | startSettle _ ho hempty =>
    refine h.move _ hempty (fun m r hh => ?_) (by rw [ho]; rfl) ?_
    · rw [ho] at hh
      exact hh
    · change (if s.retired.isEmpty then ModelLifecycle.unloaded else .error).vacant = true
      split <;> rfl
  | startAbandon _ now state ho =>
    have hv := phase _ ho
    refine h.setAll now _ (h.spare (by rw [ho]; rfl)) ?_ ?_ trivial
    · cases state <;> simp_all [Operation.Phase, ModelLifecycle.vacant, ModelLifecycle.withdrawn]
    · rintro rfl
      cases hv
  | stopBegin _ ho => exact h.move_from _ (by rw [ho]; rfl) (by rw [ho]; rfl) trivial
  | stopChildren _ owner id ho => exact h.stopChildren id ho
  | stopRefuse _ owner ho => exact h.move_from _ (by rw [ho]; rfl) (by rw [ho]; rfl) trivial
  | terminated _ process hexit _ => exact h.terminated hexit
  | stopFinish _ _ hf => exact h.stopFinish hf
  | stopDrop _ _ cancelled hd => exact h.stopDrop hd
  | retireProcess _ _ hr => exact h.retireProcess hr
  | stopDropped _ owner cancelled ho hempty =>
    refine h.move _ hempty (fun m r hh => ?_) ?_ ?_
    · rw [ho] at hh
      exact hh
    · rw [ho]
      cases cancelled <;> cases owner <;> rfl
    · have hproc : s.processes = [] := phase _ ho
      have hres : ∀ o, Server.Residents { s with operation := o } := by
        intro o m r _ hm
        change m ∈ models s.processes at hm
        simp [hproc] at hm
      cases cancelled <;> cases owner <;> first | trivial | exact hres _
  | stopReturn _ now owner ok ho =>
    have hpend : s.pending = [] := h.spare (by rw [ho]; rfl)
    cases owner with
    | start => exact h.setAll now _ hpend rfl nofun trivial
    | monitor => exact h.setAll now _ hpend rfl nofun trivial
    | stop =>
      cases ok with
      | true => exact h.setAll now _ hpend rfl nofun trivial
      | false => exact h.move_from _ (by rw [ho]; rfl) (by rw [ho]; rfl) trivial
  | monitorCheck _ ho _ => exact h.move_from _ (by rw [ho]; rfl) (by rw [ho]; rfl) trivial
  | monitorPass _ ho => exact h.move_from _ (by rw [ho]; rfl) (by rw [ho]; rfl) trivial
  | monitorFail _ alive ho _ => exact h.move_from _ (by rw [ho]; rfl) (by rw [ho]; rfl) trivial
  | monitorWithdraw _ now ho => exact h.setAll now _ (h.spare (by rw [ho]; rfl)) rfl nofun trivial
  | demandReserve _ t model generation id ho ht =>
    have ho' : t.operation = .free := by
      obtain ⟨r, -, -, -, -, -, -, -, -, -, -, rfl⟩ := Server.reserveControl_ok ht
      exact ho
    exact (h.reserveControl ht).move_from _ (by rw [ho']; rfl) (by rw [ho']; rfl) trivial
  | demandRefuse _ model id ho _ => exact h.move_from _ (by rw [ho]; rfl) (by rw [ho]; rfl) trivial
  | loadAdmit _ _ model id pin hl => exact h.loadAdmit hl
  | loadSpawn _ t model id pin process ho hnew ht =>
    refine h.spawn _ (by rw [ho]; rfl) ?_ (h.spare (by rw [ho]; rfl)) hnew ht trivial
    intro m r hh
    rw [ho] at hh
    exact hh
  | loadReady _ _ alive now hl => exact h.loadReady hl
  | loadDrop _ _ hl => exact h.loadDrop hl
  | unloadAdmit _ _ model id hu => exact h.unloadAdmit hu
  | unloadFinish _ _ confirmed hu => exact h.unloadFinish hu
  | unloadAbandon _ model id generation ho => exact h.unloadAbandon ho
  | unloadDrop _ _ hu => exact h.unloadDrop hu

/-! ## What a run is sure of -/

/-- A run of one server: sections of any tasks, in any order. -/
abbrev Sections (ids : List String) : Server → Server → Prop :=
  Run fun s t => ∃ a, Step ids a s t

theorem Custody.run {ids : List String} {s t : Server} (h : Custody s) (hrun : Sections ids s t) :
    Custody t :=
  Run.invariant (fun _ _ hs hstep => hs.step hstep.choose_spec) h hrun

theorem spawned_spawnSlot {s t : Server} {model : String} {control : Option String}
    {process : Nat} (h : s.spawnSlot model control process = .ok t) :
    t.spawned = (model, process) :: s.spawned := by
  obtain ⟨r, -, -, -, -, -, rfl⟩ := Server.spawnSlot_ok h
  rfl

/-- Only `spawn_slot` spawns, and no cancelled startup is being undone then. -/
theorem Step.spawned {ids : List String} {a : Act} {s t : Server} (hstep : Step ids a s t) :
    t.spawned = s.spawned ∨
    ∃ model control process t', s.spawnSlot model control process = .ok t' ∧
      s.operation.unwinding = false ∧ t.spawned = (model, process) :: s.spawned := by
  cases hstep with
  | startSpawn _ u model todo process ho _ ht =>
    have hs := spawned_spawnSlot ht
    exact Or.inr ⟨model, none, process, u, ht, by rw [ho]; rfl, hs⟩
  | loadSpawn _ u model id pin process ho _ ht =>
    have hs := spawned_spawnSlot ht
    exact Or.inr ⟨model, some id, process, u, ht, by rw [ho]; rfl, hs⟩
  | initializeResidency =>
    rcases s.initializeResidency_slots ids with hsame | ⟨slots, heq, -, -⟩
    · rw [hsame]
      exact Or.inl rfl
    · rw [heq]
      exact Or.inl rfl
  | releaseObservedErrors _ saw _ =>
    refine Or.inl ?_
    unfold Server.releaseObservedErrors
    split <;> rfl
  | pin _ _ alive model hp =>
    obtain ⟨r, -, -, -, -, rfl⟩ := Server.pin_ok hp
    exact Or.inl rfl
  | reserveControl _ _ model generation id load hr =>
    obtain ⟨r, -, -, -, -, -, -, -, -, -, -, rfl⟩ := Server.reserveControl_ok hr
    exact Or.inl rfl
  | reserveIdle _ _ model generation now idle id hr =>
    obtain ⟨r, -, -, -, -, -, -, rfl⟩ := Server.reserveIdle_ok hr
    exact Or.inl rfl
  | startCheck _ _ hs =>
    obtain ⟨-, -, rfl⟩ := Server.startCheck_ok hs
    exact Or.inl rfl
  | startClear _ _ hs =>
    obtain ⟨-, -, rfl⟩ := Server.startClear_ok hs
    exact Or.inl rfl
  | stopFinish _ _ hf =>
    obtain ⟨owner, id, fences, missing, -, -, -, rfl⟩ := Server.stopFinish_ok hf
    exact Or.inl rfl
  | stopDrop _ _ cancelled hd =>
    obtain ⟨owner, id, fences, missing, -, rfl⟩ := Server.stopDrop_ok hd
    exact Or.inl rfl
  | retireProcess _ _ hr =>
    obtain ⟨p, pending, -, -, rfl⟩ := Server.retireProcess_ok hr
    exact Or.inl rfl
  | stopReturn _ now owner ok _ =>
    refine Or.inl ?_
    cases owner <;> first | rfl | (cases ok <;> rfl)
  | demandReserve _ u model generation id _ ht =>
    obtain ⟨r, -, -, -, -, -, -, -, -, -, -, rfl⟩ := Server.reserveControl_ok ht
    exact Or.inl rfl
  | loadAdmit _ _ model id pin hl =>
    obtain ⟨-, r, -, -, -, -, -, rfl⟩ := Server.loadAdmit_ok hl
    exact Or.inl rfl
  | loadReady _ _ alive now hl =>
    obtain ⟨model, id, pin, r, -, -, -, -, rfl⟩ := Server.loadReady_ok hl
    exact Or.inl rfl
  | loadDrop _ _ hl =>
    obtain ⟨model, id, pin, -, ⟨r, -, -, rfl⟩ | ⟨-, rfl⟩⟩ := Server.loadDrop_ok hl
    · exact Or.inl rfl
    · exact Or.inl rfl
  | unloadAdmit _ _ model id hu =>
    obtain ⟨-, r, -, -, -, -, -, rfl⟩ := Server.unloadAdmit_ok hu
    exact Or.inl rfl
  | unloadFinish _ _ confirmed hu =>
    obtain ⟨model, id, generation, r, -, -, -, -, rfl⟩ := Server.unloadFinish_ok hu
    exact Or.inl rfl
  | unloadDrop _ _ hu =>
    obtain ⟨model, id, generation, armed, -, -, rfl⟩ := Server.unloadDrop_ok hu
    exact Or.inl rfl
  | _ => exact Or.inl rfl

/-- How often a handle is held. -/
def Server.held (s : Server) (p : String × Nat) : Nat :=
  s.processes.count p + s.retired.count p + s.pending.count p

theorem Accounts.held {s : Server} (h : Accounts s) {p : String × Nat} (hp : p ∈ s.spawned) :
    s.held p = 1 ∨ (s.held p = 0 ∧ p.2 ∈ s.seen) := by
  have hcount : s.held p = s.handles.count p := by
    simp only [Server.held, Server.handles, List.count_append]
    omega
  have hle : s.handles.count p ≤ 1 :=
    List.nodup_iff_count_le_one.1 (List.Nodup.of_map _ h.once) p
  by_cases hm : p ∈ s.handles
  · have := List.count_pos_iff.2 hm
    exact Or.inl (by omega)
  · refine Or.inr ⟨by rw [hcount]; exact List.count_eq_zero_of_not_mem hm, ?_⟩
    exact (h.accounted p hp).resolve_left hm

theorem Accounts.all_seen {s : Server} (h : Accounts s) (hempty : s.handles = []) :
    ∀ p ∈ s.spawned, p.2 ∈ s.seen := by
  intro p hp
  refine (h.accounted p hp).resolve_left ?_
  rw [hempty]
  exact List.not_mem_nil

/-- Model processes are never lost or doubled. A process that was spawned is held exactly once,
in the resident map, in the retired list or by the operation that took it, or it is held no more
and its exit was observed; a spawn finds every earlier process of its model observed; and a stop
that returns `Ok` leaves no handle and no unobserved process. -/
theorem custody_of_processes (ids : List String) {s : Server} (hrun : Sections ids Server.new s) :
    (∀ p ∈ s.spawned, s.held p = 1 ∨ (s.held p = 0 ∧ p.2 ∈ s.seen)) ∧
    (s.pending ≠ [] → s.operation.takes = true) ∧
    (∀ i ∈ s.seen, i ∈ s.exited) ∧
    (∀ a t, Step ids a s t → t.spawned = s.spawned ∨
      ∃ model process, t.spawned = (model, process) :: s.spawned ∧
        ∀ p ∈ s.spawned, p.1 = model → p.2 ∈ s.seen) ∧
    (s.operation = .stopped .stop true → ∀ t, Step ids .stopReturn s t →
      t.handles = [] ∧ ∀ p ∈ t.spawned, p.2 ∈ t.seen) := by
  have h := Custody.new.run hrun
  refine ⟨fun p hp => h.accounts.held hp, ?_, h.accounts.exits, ?_, ?_⟩
  · intro hne
    by_contra ht
    exact hne (h.spare (by simpa using ht))
  · intro a t hstep
    rcases hstep.spawned with hsame | ⟨model, control, process, u, hspawn, hun, hsp⟩
    · exact Or.inl hsame
    · refine Or.inr ⟨model, process, hsp, ?_⟩
      intro p hp hpm
      refine (h.accounts.accounted p hp).resolve_left fun hm => ?_
      exact h.no_earlier hun hspawn (hpm ▸ List.mem_map_of_mem hm)
  · intro hop t hstep
    have hp := h.phase
    unfold Server.Phase at hp
    rw [hop] at hp
    have hpend : s.pending = [] := h.spare (by rw [hop]; rfl)
    have ht := h.step hstep
    have hhandles : t.handles = [] := by
      cases hstep with
      | stopReturn _ now owner ok ho =>
        rw [hop] at ho
        cases ho
        change s.processes ++ (s.retired ++ s.pending) = []
        rw [hp.1, hp.2, hpend]
        rfl
    exact ⟨hhandles, ht.accounts.all_seen hhandles⟩

/-- A server of one model, for the runs below. -/
def Server.single (r : SlotResidency) (o : Operation) (processes : List (String × Nat)) : Server :=
  { Server.new with
    slots := [("m", r)]
    operation := o
    processes
    spawned := processes }

/-- A load reserved, admitted and spawned: the process is held once. -/
theorem custody_of_processes_load : ∃ s, Sections ["m"] Server.new s ∧ s.spawned = [("m", 7)] ∧
    ∀ p ∈ s.spawned, s.held p = 1 ∨ (s.held p = 0 ∧ p.2 ∈ s.seen) := by
  let r := SlotResidency.fresh.reserve "load"
  have h₁ : Step ["m"] .initializeResidency .new (.single .fresh .free []) := .initializeResidency _
  have h₂ : Step ["m"] (.reserveControl "m" "load") (.single .fresh .free []) (.single r .free []) :=
    .reserveControl _ _ "m" 0 "load" true rfl
  have h₃ : Step ["m"] (.loadAdmit "m" "load") (.single r .free [])
      (.single r.beginLoad (.loading "m" "load" false) []) := .loadAdmit _ _ "m" "load" false rfl
  have h₄ : Step ["m"] (.loadSpawn 7) (.single r.beginLoad (.loading "m" "load" false) [])
      (.single r.beginLoad (.loaded "m" "load" false) [("m", 7)]) :=
    .loadSpawn _ (.single r.beginLoad (.loading "m" "load" false) [("m", 7)]) "m" "load" false 7 rfl
      (by decide) rfl
  have hrun : Sections ["m"] Server.new _ :=
    (((Relation.ReflTransGen.refl.tail ⟨_, h₁⟩).tail ⟨_, h₂⟩).tail ⟨_, h₃⟩).tail ⟨_, h₄⟩
  exact ⟨_, hrun, rfl, (custody_of_processes ["m"] hrun).1⟩

end Eef.Node.ModelServer
