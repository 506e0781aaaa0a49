import Eef.Node.ModelCustody

/-!
# Who gives and takes the control of a slot

Every section either keeps the control of a slot, or is one of three things: a reservation of
a slot that nobody controls (`gained`), the end of a control (`lost`), or a group stop that
puts its own control in place of what there was (`fenced`). A control ends with the load or
unload that has it, in the section that leaves the slot ready, unloaded or failed
(`Act.leaves`), by a release, or in a section that regroups the slots.
-/

namespace Eef.Node.ModelServer

open Eef.Lib

/-- The control of a model's slot. -/
def Server.control (s : Server) (m : String) : Option String := (s.slot m).bind (·.control)

/-- A section that reserves the control of a model. -/
def Act.reserves (a : Act) (m id : String) : Prop :=
  a = .reserveControl m id ∨ a = .reserveIdle m id ∨ a = .demandReserve m id

/-- A section of a group start or stop, of the monitor, or `close`: it ends the control of
slots whatever operation has it. -/
def Act.regroups : Act → Bool
  | .close | .startLoad | .startReady | .startAbandon | .stopChildren _ | .stopFinish | .stopDrop
  | .stopReturn | .monitorWithdraw => true
  | _ => false

/-- The load or unload of the model under the identity is under way. -/
def Server.worksOn (s : Server) (m id : String) : Bool :=
  match s.operation with
  | .loading model i _ | .loaded model i _ | .unloading model i _ | .unloadDropping model i _ _ =>
    model == m && i == id
  | _ => false

/-- The states in which a section leaves the slot whose load or unload it ends. -/
def Act.leaves : Act → List ModelLifecycle
  | .loadReady => [.ready, .active]
  | .loadDrop => [.error]
  | .unloadFinish => [.unloaded, .unloadUnconfirmed]
  | .unloadDrop => [.unloadUnconfirmed]
  | _ => []

/-- A section that ends the load or unload of the model under the identity, and the state that
the slot is in afterwards. -/
def Finishes (a : Act) (s t : Server) (m id : String) : Prop :=
  s.worksOn m id ∧ ∃ r, t.slot m = some r ∧ r.state ∈ a.leaves

/-- How the control of a model under an identity ends. -/
def Ends (a : Act) (s t : Server) (m id : String) : Prop :=
  Finishes a s t m id ∨ a = .releaseControl m id ∨ a.regroups

/-- What a section does to the control of a slot. -/
inductive Turn (a : Act) (s t : Server) (m : String) : Prop where
  | kept (h : t.control m = s.control m)
  | gained (id : String) (h : t.control m = some id) (hnone : s.control m = none)
    (ha : a.reserves m id)
  | lost (h : t.control m = none)
    (ha : ∀ id, s.control m = some id → Ends a s t m id)
  | fenced (id : String) (h : t.control m = some id) (ha : a = .stopChildren id)

variable {ids : List String} {a : Act} {s t : Server} {m : String}

theorem control_of_slots (h : t.slots = s.slots) (m : String) : t.control m = s.control m := by
  unfold Server.control Server.slot
  rw [h]

/-- A section that changes slots, and the control of none. -/
theorem control_of_map (f : String → SlotResidency → SlotResidency)
    (h : t.slot m = (s.slot m).map (f m)) (hf : ∀ r, (f m r).control = r.control) :
    t.control m = s.control m := by
  unfold Server.control
  rw [h]
  cases s.slot m with
  | none => rfl
  | some r => exact hf r

/-- A section that changes one slot. -/
theorem Turn.one {k : String} (f : SlotResidency → SlotResidency)
    (h : t.slot m = (s.slot m).map fun r => if m = k then f r else r)
    (hk : ∀ r, s.slot k = some r → (f r).control = r.control ∨
      (∃ id, (f r).control = some id ∧ r.control = none ∧ a.reserves k id) ∨
      ((f r).control = none ∧ ∀ id, r.control = some id →
        (s.worksOn k id ∧ (f r).state ∈ a.leaves) ∨ a = .releaseControl k id ∨ a.regroups)) :
    Turn a s t m := by
  have key : t.control m = (s.slot m).bind fun r => (if m = k then f r else r).control := by
    unfold Server.control
    rw [h]
    cases s.slot m <;> rfl
  by_cases hm : m = k
  · subst hm
    cases hr : s.slot m with
    | none =>
      refine .kept ?_
      rw [key, Server.control, hr]
      rfl
    | some r =>
      have hs : s.control m = r.control := by
        unfold Server.control
        rw [hr]
        rfl
      have ht : t.control m = (f r).control := by
        rw [key, hr]
        simp
      rcases hk r hr with hsame | ⟨id, hid, hnone, ha⟩ | ⟨hnone, ha⟩
      · exact .kept (by rw [ht, hs, hsame])
      · exact .gained id (ht.trans hid) (hs.trans hnone) ha
      · refine .lost (ht.trans hnone) fun id hid => ?_
        rcases ha id (hs ▸ hid) with ⟨hworks, hstate⟩ | hrest
        · exact Or.inl ⟨hworks, f r, by rw [h, hr]; simp, hstate⟩
        · exact Or.inr hrest
  · refine .kept ?_
    rw [key]
    unfold Server.control
    cases s.slot m with
    | none => rfl
    | some r => simp [hm]

/-- A section after which no slot is controlled. -/
theorem Turn.cleared (f : String → SlotResidency → SlotResidency)
    (h : t.slot m = (s.slot m).map (f m)) (hf : ∀ r, (f m r).control = none)
    (ha : a.regroups) : Turn a s t m := by
  refine .lost ?_ fun id _ => Or.inr (Or.inr ha)
  unfold Server.control
  rw [h]
  cases s.slot m with
  | none => rfl
  | some r => exact hf r

theorem Turn.stopFinish (h : s.stopFinish = .ok t) : Turn .stopFinish s t m := by
  obtain ⟨owner, id, fences, missing, hop, -, -, rfl⟩ := Server.stopFinish_ok h
  refine .one (k := m) (SlotResidency.finish (fences.lookup m)) ?_ fun r _ => ?_
  · have hslot := lookup_map (fun m => SlotResidency.finish (fences.lookup m)) m s.slots
    refine Eq.trans hslot ?_
    simp [Server.slot]
  · unfold SlotResidency.finish
    split
    · exact Or.inr (Or.inr ⟨rfl, fun i _ => Or.inr (Or.inr rfl)⟩)
    · exact Or.inl rfl

theorem Turn.stopDrop {cancelled : Bool} (h : s.stopDrop cancelled = .ok t) :
    Turn .stopDrop s t m := by
  obtain ⟨owner, id, fences, missing, hop, rfl⟩ := Server.stopDrop_ok h
  refine .one (k := m) (SlotResidency.forsake id (fences.lookup m)) ?_ fun r _ => ?_
  · have hslot := lookup_map (fun m => SlotResidency.forsake id (fences.lookup m)) m s.slots
    refine Eq.trans hslot ?_
    simp [Server.slot]
  · unfold SlotResidency.forsake
    split
    · split
      · exact Or.inr (Or.inr ⟨rfl, fun i _ => Or.inr (Or.inr rfl)⟩)
      · exact Or.inl rfl
    · exact Or.inl rfl

theorem Turn.unloadFinish {confirmed : Bool} (h : s.unloadFinish confirmed = .ok t) :
    Turn .unloadFinish s t m := by
  unfold Server.unloadFinish at h
  split at h
  · rename_i model id generation hop
    simp only [bind_ok, ensure_ok, bailIf_ok, context_ok, pure_ok, not_or, not_not, ne_eq] at h
    obtain ⟨_, -, _, -, _, -, r, hr, _, ⟨-, hctl, -⟩, rfl⟩ := h
    refine Turn.one (k := model) (SlotResidency.endUnload confirmed)
      (s.slot_onSlot model (SlotResidency.endUnload confirmed) m) ?_
    intro r' hr'
    obtain rfl : r = r' := Option.some.inj (hr.symm.trans hr')
    refine Or.inr (Or.inr ⟨rfl, fun i hi => Or.inl ⟨?_, ?_⟩⟩)
    · unfold Server.worksOn
      rw [hop]
      rw [hctl] at hi
      simpa using Option.some.inj hi
    · cases confirmed <;> simp [SlotResidency.endUnload, Act.leaves]
  · cases h

theorem Turn.reserved {model id : String} {generation : Nat} {load : Bool}
    (h : s.reserveControl model generation id load = .ok t) (ha : a.reserves model id)
    (o : Operation) : Turn a s { t with operation := o } m := by
  obtain ⟨r, hr, -, -, -, hnone, -, -, -, -, -, rfl⟩ := Server.reserveControl_ok h
  refine Turn.one (SlotResidency.reserve id) (s.slot_onSlot model (SlotResidency.reserve id) m) ?_
  intro r' hr'
  obtain rfl : r = r' := Option.some.inj (hr.symm.trans hr')
  exact Or.inr (Or.inl ⟨id, rfl, hnone, ha⟩)

theorem Step.turn (hstep : Step ids a s t) : Turn a s t m := by
  cases hstep with
  | initializeResidency _ =>
    rcases s.initializeResidency_slots ids with h | ⟨slots, h, hnil, hfresh⟩
    · exact .kept (by rw [h])
    · refine .kept ?_
      rw [h]
      unfold Server.control Server.slot
      rw [hnil]
      cases hl : slots.lookup m with
      | none => rfl
      | some r => simp [hfresh m r hl, SlotResidency.fresh]
  | releaseObservedErrors _ saw _ =>
    refine .kept (control_of_slots ?_ m)
    unfold Server.releaseObservedErrors
    split <;> rfl
  | pin _ _ alive model h =>
    obtain ⟨r, hr, -, -, -, rfl⟩ := Server.pin_ok h
    exact .one SlotResidency.pin (s.slot_onSlot model SlotResidency.pin m) fun _ _ => Or.inl rfl
  | unpin _ now u _ =>
    refine .one (SlotResidency.unpin now u.generation)
      (s.slot_onSlot u.model (SlotResidency.unpin now u.generation) m) fun r _ => Or.inl ?_
    unfold SlotResidency.unpin
    split
    · split <;> rfl
    · rfl
  | reserveControl _ _ model generation id load h =>
    exact Turn.reserved h (Or.inl rfl) t.operation
  | releaseControl _ model id _ =>
    refine .one (k := model) _ (s.slot_onSlot model _ m) fun r _ => ?_
    split
    · rename_i hc
      refine Or.inr (Or.inr ⟨rfl, fun i hi => Or.inr (Or.inl ?_)⟩)
      rw [Option.some.inj (hc.symm.trans hi)]
    · exact Or.inl rfl
  | reserveIdle _ _ model generation now idle id h =>
    obtain ⟨r, hr, -, -, -, hnone, -, rfl⟩ := Server.reserveIdle_ok h
    refine .one (SlotResidency.reserve id) (s.slot_onSlot model (SlotResidency.reserve id) m) ?_
    intro r' hr'
    obtain rfl : r = r' := Option.some.inj (hr.symm.trans hr')
    exact Or.inr (Or.inl ⟨id, rfl, hnone, Or.inr (Or.inl rfl)⟩)
  | close _ =>
    exact .cleared (fun m => SlotResidency.shut ((s.retired ++ s.processes).lookup m).isSome)
      (s.slot_close m) (fun _ => rfl) rfl
  | startLoad _ now _ =>
    exact .cleared (fun _ => SlotResidency.reset now .loading) (s.slot_setAll now .loading m)
      (fun _ => rfl) rfl
  | startReady _ now _ =>
    exact .cleared (fun _ => SlotResidency.reset now .ready) (s.slot_setAll now .ready m)
      (fun _ => rfl) rfl
  | startAbandon _ now state _ =>
    exact .cleared (fun _ => SlotResidency.reset now state) (s.slot_setAll now state m)
      (fun _ => rfl) rfl
  | startCheck _ _ h =>
    obtain ⟨-, -, rfl⟩ := Server.startCheck_ok h
    exact .kept rfl
  | startClear _ _ h =>
    obtain ⟨-, -, rfl⟩ := Server.startClear_ok h
    exact .kept rfl
  | startSpawn _ _ model todo process _ _ h =>
    obtain ⟨r, -, -, -, -, -, rfl⟩ := Server.spawnSlot_ok h
    exact .kept rfl
  | stopChildren _ owner id _ =>
    have hslot := s.slot_stopChildren owner id m
    by_cases ht : (s.taken.lookup m).isSome = true
    · cases hr : s.slot m with
      | none =>
        refine .kept ?_
        unfold Server.control
        rw [hslot, hr]
        rfl
      | some r =>
        refine .fenced id ?_ rfl
        unfold Server.control
        rw [hslot, hr, Option.map_some, if_pos ht]
        rfl
    · refine .kept ?_
      unfold Server.control
      rw [hslot]
      simp [ht]
  | stopFinish _ _ h => exact .stopFinish h
  | stopDrop _ _ cancelled h => exact .stopDrop h
  | retireProcess _ _ h =>
    obtain ⟨p, pending, -, -, rfl⟩ := Server.retireProcess_ok h
    exact .kept rfl
  | stopReturn _ now owner ok _ =>
    have hset (state : ModelLifecycle) :
        Turn .stopReturn s { s.setAll now state with operation := .free } m :=
      .cleared (fun _ => SlotResidency.reset now state) (s.slot_setAll now state m)
        (fun _ => rfl) rfl
    cases owner with
    | start => exact hset .error
    | monitor => exact hset .error
    | stop =>
      cases ok with
      | true => exact hset .unloaded
      | false => exact .kept rfl
  | monitorWithdraw _ now _ =>
    exact .cleared (fun _ => SlotResidency.reset now .error) (s.slot_setAll now .error m)
      (fun _ => rfl) rfl
  | demandReserve _ _ model generation id _ h =>
    exact Turn.reserved h (Or.inr (Or.inr rfl)) _
  | loadAdmit _ _ model id pin h =>
    obtain ⟨-, r, -, -, -, -, -, rfl⟩ := Server.loadAdmit_ok h
    exact .one SlotResidency.beginLoad (s.slot_onSlot model SlotResidency.beginLoad m)
      fun _ _ => Or.inl rfl
  | loadSpawn _ _ model id pin process _ _ h =>
    obtain ⟨r, -, -, -, -, -, rfl⟩ := Server.spawnSlot_ok h
    exact .kept rfl
  | loadReady _ _ alive now h =>
    obtain ⟨model, id, pin, r, hop, -, hr, hctl, rfl⟩ := Server.loadReady_ok h
    refine .one (SlotResidency.endLoad now pin)
      (s.slot_onSlot model (SlotResidency.endLoad now pin) m) fun r' hr' => ?_
    obtain rfl : r = r' := Option.some.inj (hr.symm.trans hr')
    refine Or.inr (Or.inr ⟨rfl, fun i hi => Or.inl ⟨?_, ?_⟩⟩)
    · unfold Server.worksOn
      rw [hop]
      simpa using Option.some.inj (hctl.symm.trans hi)
    · cases pin <;> simp [SlotResidency.endLoad, Act.leaves]
  | loadDrop _ _ h =>
    obtain ⟨model, id, pin, hop, ⟨r, hr, hctl, rfl⟩ | ⟨-, rfl⟩⟩ := Server.loadDrop_ok h
    · refine .one SlotResidency.failLoad (s.slot_onSlot model SlotResidency.failLoad m)
        fun r' hr' => ?_
      obtain rfl : r = r' := Option.some.inj (hr.symm.trans hr')
      refine Or.inr (Or.inr ⟨rfl, fun i hi => Or.inl ⟨?_, List.mem_singleton.2 rfl⟩⟩)
      obtain rfl : id = i := Option.some.inj (hctl.symm.trans hi)
      unfold Server.worksOn
      rcases hop with hop | hop <;> simp [hop]
    · exact .kept rfl
  | unloadAdmit _ _ model id h =>
    obtain ⟨-, r, -, -, -, -, -, rfl⟩ := Server.unloadAdmit_ok h
    exact .one SlotResidency.beginUnload (s.slot_onSlot model SlotResidency.beginUnload m)
      fun _ _ => Or.inl rfl
  | unloadFinish _ _ confirmed h => exact .unloadFinish h
  | unloadDrop _ _ h =>
    obtain ⟨model, id, generation, armed, hop, -, rfl⟩ := Server.unloadDrop_ok h
    refine .one (SlotResidency.failUnload armed id generation)
      (s.slot_onSlot model (SlotResidency.failUnload armed id generation) m) fun r _ => ?_
    unfold SlotResidency.failUnload
    split
    · rename_i hc
      refine Or.inr (Or.inr ⟨rfl, fun i hi => Or.inl ⟨?_, List.mem_singleton.2 rfl⟩⟩)
      unfold Server.worksOn
      rw [hop]
      simpa using Option.some.inj (hc.2.2.1.symm.trans hi)
    · exact Or.inl rfl
  | _ => exact .kept rfl

end Eef.Node.ModelServer
