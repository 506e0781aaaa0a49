import Eef.Node.ModelCustody

/-!
# Inference pins and what may withdraw them

A slot counts its live pins of the current generation, and every section that resets the
count starts a new generation, so an old pin never counts again. `SlotPins` is that account.
It relies on two facts about the holder of the operation lock: a load still controls a slot
that is loading (`loads`), and while a startup is under way no slot is resident (`quiet`),
because `start` read the published state and `published` says a resident slot is published.

`Fenced` is the fate of a slot whose unload was not confirmed: it stays so, or a group stop
has withdrawn it once more and remembers.
-/

namespace Eef.Node.ModelServer

open Eef.Lib

/-- A startup is under way, past the point where it has found the group not ready. -/
def Operation.starts : Operation → Bool
  | .startCleared | .starting _ | .startHealthy | .abandoned | .retiring | .settling _
  | .group .start | .stopping .start .. | .stopDropping .start _ | .stopped .start _ => true
  | _ => false

/-- A load of the model under the identity. -/
def Operation.Loads (o : Operation) (m id : String) : Prop :=
  match o with
  | .loading model i _ | .loaded model i _ => model = m ∧ i = id
  | _ => False

/-- What the operation lock and the published state say about residency. -/
structure Presence (s : Server) : Prop where
  published : ∀ m r, s.slot m = some r → r.state.resident → s.lifecycle = .ready
  quiet : s.operation.starts → ∀ m r, s.slot m = some r → r.state.resident = false
  loads : ∀ m id, s.operation.Loads m id → ∃ r, s.slot m = some r ∧
    ((s.closed = true ∧ r.control = none) ∨ (r.control = some id ∧ r.state = .loading))

theorem Presence.new : Presence Server.new := by
  exact ⟨nofun, nofun, fun _ _ h => False.elim h⟩

theorem anyState_of_slot {s : Server} {m : String} {r : SlotResidency} {p : ModelLifecycle → Bool}
    (hr : s.slot m = some r) (hp : p r.state) : s.anyState p :=
  List.any_eq_true.2 ⟨(m, r), Assoc.mem_of_lookup hr, hp⟩

theorem published_ready {s : Server} {m : String} {r : SlotResidency} (hr : s.slot m = some r)
    (hres : r.state.resident) : s.published = .ready := by
  unfold Server.published
  rw [if_pos (anyState_of_slot hr hres)]

/-- A section that makes no slot resident, or publishes. -/
theorem Presence.build {s t : Server} (h : Presence s)
    (f : String → SlotResidency → SlotResidency) (hslots : ∀ m, t.slot m = (s.slot m).map (f m))
    (hlife : (t.lifecycle = s.lifecycle ∧
      ∀ m r, s.slot m = some r → (f m r).state.resident → r.state.resident) ∨
      ∀ m r, t.slot m = some r → r.state.resident → t.lifecycle = .ready)
    (hquiet : t.operation.starts →
      (s.operation.starts ∧ ∀ m r, s.slot m = some r → (f m r).state.resident → r.state.resident) ∨
      ∀ m r, t.slot m = some r → r.state.resident = false)
    (hloads : ∀ m id, t.operation.Loads m id → ∃ r, t.slot m = some r ∧
      ((t.closed = true ∧ r.control = none) ∨ (r.control = some id ∧ r.state = .loading))) :
    Presence t := by
  refine ⟨?_, ?_, hloads⟩
  · intro m r' hr' hres
    rcases hlife with ⟨hsame, hf⟩ | hpub
    · rw [hslots, Option.map_eq_some_iff] at hr'
      obtain ⟨r, hr, rfl⟩ := hr'
      rw [hsame]
      exact h.published m r hr (hf m r hr hres)
    · exact hpub m r' hr' hres
  · intro hst m r' hr'
    rcases hquiet hst with ⟨hs, hf⟩ | hno
    · rw [hslots, Option.map_eq_some_iff] at hr'
      obtain ⟨r, hr, rfl⟩ := hr'
      by_contra hne
      rw [Bool.not_eq_false] at hne
      have := h.quiet hs m r hr
      rw [hf m r hr hne] at this
      cases this
    · exact hno m r' hr'

/-- A section of another task that changes one slot. -/
theorem Presence.one {s t : Server} (h : Presence s) (k : String)
    (f : SlotResidency → SlotResidency)
    (hslots : ∀ m, t.slot m = (s.slot m).map fun r => if m = k then f r else r)
    (hlife : t.lifecycle = s.lifecycle) (hop : t.operation = s.operation)
    (hclosed : t.closed = s.closed)
    (hres : ∀ r, s.slot k = some r → (f r).state.resident → r.state.resident)
    (hkeep : ∀ id r, s.operation.Loads k id → s.slot k = some r →
      (s.closed = true ∧ r.control = none) ∨ (r.control = some id ∧ r.state = .loading) →
      (s.closed = true ∧ (f r).control = none) ∨
        ((f r).control = some id ∧ (f r).state = .loading)) : Presence t := by
  have hf : ∀ m r, s.slot m = some r →
      ((if m = k then f r else r) : SlotResidency).state.resident → r.state.resident := by
    intro m r hr hs
    split at hs
    · rename_i hm
      subst hm
      exact hres r hr hs
    · exact hs
  refine h.build _ hslots (Or.inl ⟨hlife, hf⟩) (fun hs => Or.inl ⟨hop ▸ hs, hf⟩) ?_
  intro m id hl
  rw [hop] at hl
  obtain ⟨r, hr, hcase⟩ := h.loads m id hl
  refine ⟨_, by rw [hslots, hr]; rfl, ?_⟩
  rw [hclosed]
  split
  · rename_i hm
    subst hm
    exact hkeep id r hl hr hcase
  · exact hcase

/-- The holder of the operation lock moves on and changes no slot. -/
theorem Presence.move {s t : Server} (h : Presence s) (hslots : t.slots = s.slots)
    (hlife : t.lifecycle = s.lifecycle) (hclosed : t.closed = s.closed)
    (hstarts : t.operation.starts → s.operation.starts)
    (hloads : ∀ m id, t.operation.Loads m id → s.operation.Loads m id) : Presence t := by
  have hslot : ∀ m, t.slot m = s.slot m := fun m => by unfold Server.slot; rw [hslots]
  refine ⟨?_, ?_, ?_⟩
  · intro m r hr hres
    rw [hlife]
    exact h.published m r (hslot m ▸ hr) hres
  · intro hs m r hr
    exact h.quiet (hstarts hs) m r (hslot m ▸ hr)
  · intro m id hl
    obtain ⟨r, hr, hcase⟩ := h.loads m id (hloads m id hl)
    exact ⟨r, hslot m ▸ hr, hclosed ▸ hcase⟩

/-- The holder of the operation lock changes one slot, and is no startup and no load then. -/
theorem Presence.hold {s t : Server} (h : Presence s) (k : String)
    (f : SlotResidency → SlotResidency)
    (hslots : ∀ m, t.slot m = (s.slot m).map fun r => if m = k then f r else r)
    (hlife : t.lifecycle = s.lifecycle)
    (hres : ∀ r, s.slot k = some r → (f r).state.resident → r.state.resident)
    (hstarts : t.operation.starts = false) (hloads : ∀ m id, ¬t.operation.Loads m id) :
    Presence t := by
  refine h.build _ hslots (Or.inl ⟨hlife, ?_⟩) (fun hs => ?_) fun m id hl => absurd hl (hloads m id)
  · intro m r hr hs
    split at hs
    · rename_i hm
      subst hm
      exact hres r hr hs
    · exact hs
  · rw [hstarts] at hs
    cases hs

/-- `set_all` publishes. -/
theorem Presence.setAll {s : Server} (now : Nat) {state : ModelLifecycle} (o : Operation)
    (hstarts : o.starts → state.resident = false) (hloads : ∀ m id, ¬o.Loads m id) :
    Presence { s.setAll now state with operation := o } := by
  have hslot : ∀ m r', (s.setAll now state).slot m = some r' →
      r'.state = .unloadUnconfirmed ∨ r'.state = state := by
    intro m r' hr'
    rw [Server.slot_setAll, Option.map_eq_some_iff] at hr'
    obtain ⟨r, -, rfl⟩ := hr'
    rw [SlotResidency.reset_state]
    split
    · exact Or.inl rfl
    · exact Or.inr rfl
  refine ⟨?_, ?_, fun m id hl => absurd hl (hloads m id)⟩
  · intro m r' hr' hres
    have hne : s.slots.isEmpty = false := by
      cases hs : s.slots with
      | nil =>
        have : (s.setAll now state).slots = [] := by
          unfold Server.setAll Server.onSlots
          rw [hs]
          rfl
        change (s.setAll now state).slot m = some r' at hr'
        rw [Server.slot, this] at hr'
        cases hr'
      | cons => rfl
    change (if s.slots.isEmpty then state
      else (s.onSlots fun _ => SlotResidency.reset now state).published) = .ready
    rw [hne]
    exact published_ready hr' hres
  · intro hs m r' hr'
    rcases hslot m r' hr' with h | h
    · rw [h]
      rfl
    · rw [h]
      exact hstarts hs

theorem Presence.stopChildren {s : Server} (h : Presence s) {owner : Owner} (id : String)
    (hop : s.operation = .group owner) : Presence (s.stopChildren owner id) := by
  have hf : ∀ m r, s.slot m = some r →
      ((if (s.taken.lookup m).isSome then SlotResidency.fence id r else r) :
        SlotResidency).state.resident → r.state.resident := by
    intro m r _ hs
    split at hs
    · cases hs
    · exact hs
  refine h.build _ (s.slot_stopChildren owner id) (Or.inl ⟨rfl, hf⟩) ?_ ?_
  · intro hs
    refine Or.inl ⟨?_, hf⟩
    rw [hop]
    cases owner <;> exact hs
  · exact fun _ _ hl => False.elim hl

theorem Presence.reserveControl {s t : Server} (h : Presence s) {model id : String}
    {generation : Nat} {load : Bool} (hres : s.reserveControl model generation id load = .ok t) :
    Presence t := by
  obtain ⟨r, hr, hopen, -, -, hctl, -, -, -, -, -, rfl⟩ := Server.reserveControl_ok hres
  refine h.one model _ (s.slot_onSlot model _) rfl rfl rfl (fun _ _ hs => hs) ?_
  intro i r' _ hr' hcase
  obtain rfl : r = r' := Option.some.inj (hr.symm.trans hr')
  rcases hcase with ⟨hc, -⟩ | ⟨hc, -⟩
  · exact absurd (hopen.symm.trans hc) Bool.false_ne_true
  · rw [hctl] at hc
    cases hc

theorem Presence.step {ids : List String} {a : Act} {s t : Server} (h : Presence s)
    (hstep : Step ids a s t) : Presence t := by
  cases hstep with
  | initializeResidency =>
    rcases s.initializeResidency_slots ids with hsame | ⟨slots, heq, hnil, hfresh⟩
    · rw [hsame]
      exact h
    · rw [heq]
      refine ⟨?_, ?_, ?_⟩
      · intro m r hr hres
        rw [hfresh m r hr] at hres
        cases hres
      · intro _ m r hr
        rw [hfresh m r hr]
        rfl
      · intro m id hl
        obtain ⟨r, hr, -⟩ := h.loads m id hl
        rw [Server.slot, hnil] at hr
        cases hr
  | releaseObservedErrors _ saw _ =>
    unfold Server.releaseObservedErrors
    split
    · exact h
    · exact h.move rfl rfl rfl id fun _ _ hl => hl
  | changed =>
    refine h.build (fun _ r => r) (fun m => by rw [Option.map_id']; rfl) (Or.inr ?_)
      (fun hs => Or.inl ⟨hs, fun _ _ _ hr => hr⟩) h.loads
    intro m r hr hres
    exact published_ready hr hres
  | pin _ _ alive model hp =>
    obtain ⟨r, hr, hopen, hctl, hres, rfl⟩ := Server.pin_ok hp
    refine h.one model _ (s.slot_onSlot model SlotResidency.pin) rfl rfl rfl ?_ ?_
    · intro r' hr' _
      obtain rfl : r = r' := Option.some.inj (hr.symm.trans hr')
      exact hres
    · intro i r' _ hr' hcase
      obtain rfl : r = r' := Option.some.inj (hr.symm.trans hr')
      rcases hcase with ⟨hc, -⟩ | ⟨hc, -⟩
      · exact absurd (hopen.symm.trans hc) Bool.false_ne_true
      · rw [hctl] at hc
        cases hc
  | unpin _ now u hu =>
    refine h.one u.model _ (s.slot_onSlot u.model _) rfl rfl rfl ?_ ?_
    · intro r _ hs
      unfold SlotResidency.unpin at hs
      split at hs
      · split at hs
        · rename_i hact
          rw [hact.2]
          rfl
        · exact hs
      · exact hs
    · intro i r _ _ hcase
      unfold SlotResidency.unpin
      split
      · split
        · rename_i hact
          refine hcase.imp id fun hc => ?_
          rw [hact.2] at hc
          cases hc.2
        · exact hcase
      · exact hcase
  | reserveControl _ _ model generation id load hr => exact h.reserveControl hr
  | releaseControl _ model id hruns =>
    refine h.one model _ (s.slot_onSlot model _) rfl rfl rfl ?_ ?_
    · intro r _ hs
      split at hs <;> exact hs
    · intro i r hl _ hcase
      split
      · rename_i hid
        rcases hcase with ⟨hc, hctl⟩ | ⟨hctl, -⟩
        · exact Or.inl ⟨hc, rfl⟩
        · -- Control is held by the load that runs, and that one does not release it.
          rw [hid] at hctl
          cases hctl
          unfold Server.runsUnder at hruns
          unfold Operation.Loads at hl
          split at hl <;> simp_all
      · exact hcase
  | reserveIdle _ _ model generation now idle id hidle =>
    obtain ⟨r, hr, hopen, -, -, hctl, -, rfl⟩ := Server.reserveIdle_ok hidle
    refine h.one model _ (s.slot_onSlot model _) rfl rfl rfl (fun _ _ hs => hs) ?_
    intro i r' _ hr' hcase
    obtain rfl : r = r' := Option.some.inj (hr.symm.trans hr')
    rcases hcase with ⟨hc, -⟩ | ⟨hc, -⟩
    · exact absurd (hopen.symm.trans hc) Bool.false_ne_true
    · rw [hctl] at hc
      cases hc
  | close =>
    have hf : ∀ m r, ((r : SlotResidency).shut ((s.retired ++ s.processes).lookup m).isSome).state.resident
        → r.state.resident := by
      intro m r hs
      unfold SlotResidency.shut at hs
      dsimp only at hs
      split at hs <;> cases hs
    refine h.build _ s.slot_close (Or.inl ⟨rfl, fun m r _ => hf m r⟩)
      (fun hs => Or.inl ⟨hs, fun m r _ => hf m r⟩) ?_
    intro m id hl
    obtain ⟨r, hr, -⟩ := h.loads m id hl
    exact ⟨_, by rw [s.slot_close, hr]; rfl, Or.inl ⟨rfl, rfl⟩⟩
  | exit => exact h.move rfl rfl rfl id fun _ _ hl => hl
  | startCheck _ _ hs =>
    obtain ⟨-, -, rfl⟩ := Server.startCheck_ok hs
    exact h.move rfl rfl rfl (by intros; contradiction) (fun _ _ hl => False.elim hl)
  | startClear _ _ hs =>
    obtain ⟨-, hready, rfl⟩ := Server.startClear_ok hs
    refine ⟨h.published, ?_, fun _ _ hl => False.elim hl⟩
    intro _ m r hr
    by_contra hres
    exact hready (h.published m r hr (by simpa using hres))
  | startRefuse => exact h.move rfl rfl rfl (by intros; contradiction) (fun _ _ hl => False.elim hl)
  | startLoad _ now => exact Presence.setAll now _ (fun _ => rfl) (fun _ _ hl => hl)
  | startSpawn _ u model todo process ho _ ht =>
    obtain ⟨r, -, -, -, -, -, rfl⟩ := Server.spawnSlot_ok ht
    exact h.move rfl rfl rfl (fun _ => by rw [ho]; rfl) (fun _ _ hl => False.elim hl)
  | startInner _ alive ho =>
    exact h.move rfl rfl rfl (fun _ => by rw [ho]; rfl) (fun _ _ hl => False.elim hl)
  | startReady _ now => exact Presence.setAll now _ (by intros; contradiction) (fun _ _ hl => hl)
  | startFail _ todo ho =>
    exact h.move rfl rfl rfl (fun _ => by rw [ho]; rfl) (fun _ _ hl => False.elim hl)
  | startCancel _ todo ho =>
    exact h.move rfl rfl rfl (fun _ => by rw [ho]; rfl) (fun _ _ hl => False.elim hl)
  | startRetire _ ho =>
    exact h.move rfl rfl rfl (fun _ => by rw [ho]; rfl) (fun _ _ hl => False.elim hl)
  | startSettle _ ho =>
    exact h.move rfl rfl rfl (fun _ => by rw [ho]; rfl) (fun _ _ hl => False.elim hl)
  | startAbandon _ now state => exact Presence.setAll now _ (by intros; contradiction) (fun _ _ hl => hl)
  | stopBegin => exact h.move rfl rfl rfl (by intros; contradiction) (fun _ _ hl => False.elim hl)
  | stopChildren _ owner id ho => exact h.stopChildren id ho
  | stopRefuse _ owner ho =>
    refine h.move rfl rfl rfl (fun hs => ?_) (fun _ _ hl => False.elim hl)
    rw [ho]
    cases owner <;> exact hs
  | terminated => exact h.move rfl rfl rfl id fun _ _ hl => hl
  | stopFinish _ _ hf =>
    obtain ⟨owner, id, fences, missing, ho, -, -, rfl⟩ := Server.stopFinish_ok hf
    have hf : ∀ m r, ((r : SlotResidency).finish (fences.lookup m)).state.resident →
        r.state.resident := by
      intro m r hs
      cases hl : fences.lookup m with
      | none =>
        rw [hl] at hs
        exact hs
      | some fence =>
        obtain ⟨generation, sticky⟩ := fence
        rw [hl] at hs
        cases sticky <;> cases hs
    refine h.build _ (fun m => lookup_map (fun m => SlotResidency.finish (fences.lookup m)) m s.slots)
      (Or.inl ⟨rfl, fun m r _ => hf m r⟩) (fun hs => Or.inl ⟨?_, fun m r _ => hf m r⟩)
      (fun _ _ hl => False.elim hl)
    rw [ho]
    cases owner <;> exact hs
  | stopDrop _ _ cancelled hd =>
    obtain ⟨owner, id, fences, missing, ho, rfl⟩ := Server.stopDrop_ok hd
    have hf : ∀ m r, ((r : SlotResidency).forsake id (fences.lookup m)).state.resident →
        r.state.resident := by
      intro m r hs
      unfold SlotResidency.forsake at hs
      split at hs
      · split at hs
        · cases hs
        · exact hs
      · exact hs
    refine h.build _
      (fun m => lookup_map (fun m => SlotResidency.forsake id (fences.lookup m)) m s.slots)
      (Or.inl ⟨rfl, fun m r _ => hf m r⟩) (fun hs => Or.inl ⟨?_, fun m r _ => hf m r⟩)
      (fun _ _ hl => False.elim hl)
    rw [ho]
    cases owner <;> exact hs
  | retireProcess _ _ hr =>
    obtain ⟨p, pending, -, -, rfl⟩ := Server.retireProcess_ok hr
    exact h.move rfl rfl rfl id fun _ _ hl => hl
  | stopDropped _ owner cancelled ho =>
    refine h.move rfl rfl rfl (fun hs => ?_) (fun _ _ hl => ?_)
    · rw [ho]
      cases cancelled <;> cases owner <;> first | rfl | cases hs
    · cases cancelled <;> cases owner <;> exact False.elim hl
  | stopReturn _ now owner ok ho =>
    cases owner with
    | start => exact Presence.setAll now _ (by intros; contradiction) (fun _ _ hl => hl)
    | monitor => exact Presence.setAll now _ (by intros; contradiction) (fun _ _ hl => hl)
    | stop =>
      cases ok with
      | true => exact Presence.setAll now _ (by intros; contradiction) (fun _ _ hl => hl)
      | false => exact h.move rfl rfl rfl (by intros; contradiction) (fun _ _ hl => False.elim hl)
  | monitorCheck => exact h.move rfl rfl rfl (by intros; contradiction) (fun _ _ hl => False.elim hl)
  | monitorPass => exact h.move rfl rfl rfl (by intros; contradiction) (fun _ _ hl => False.elim hl)
  | monitorFail => exact h.move rfl rfl rfl (by intros; contradiction) (fun _ _ hl => False.elim hl)
  | monitorWithdraw _ now => exact Presence.setAll now _ (by intros; contradiction) (fun _ _ hl => hl)
  | demandReserve _ u model generation id _ ht =>
    exact (h.reserveControl ht).move rfl rfl rfl (by intros; contradiction) (fun _ _ hl => False.elim hl)
  | demandRefuse => exact h.move rfl rfl rfl (by intros; contradiction) (fun _ _ hl => False.elim hl)
  | loadAdmit _ _ model id pin hl =>
    obtain ⟨-, r, hr, hctl, -, -, -, rfl⟩ := Server.loadAdmit_ok hl
    refine h.build _ (s.slot_onSlot model SlotResidency.beginLoad) (Or.inl ⟨rfl, ?_⟩) (by intros; contradiction) ?_
    · intro m r' _ hs
      split at hs
      · cases hs
      · exact hs
    · rintro m i ⟨rfl, rfl⟩
      refine ⟨r.beginLoad, ?_, Or.inr ⟨hctl, rfl⟩⟩
      change (s.onSlot model SlotResidency.beginLoad).slot model = _
      rw [Server.slot_onSlot, hr]
      simp
  | loadSpawn _ u model id pin process ho _ ht =>
    obtain ⟨r, -, -, -, -, -, rfl⟩ := Server.spawnSlot_ok ht
    refine h.move rfl rfl rfl (by intros; contradiction) ?_
    intro m i hl
    rw [ho]
    exact hl
  | loadReady _ _ alive now hl =>
    obtain ⟨model, id, pin, r, -, -, -, -, rfl⟩ := Server.loadReady_ok hl
    refine h.build _ (s.slot_onSlot model (SlotResidency.endLoad now pin)) (Or.inr ?_) (by intros; contradiction)
      (fun _ _ hl => False.elim hl)
    intro m r' hr' hres
    exact published_ready (s := s.onSlot model (SlotResidency.endLoad now pin)) hr' hres
  | loadDrop _ _ hl =>
    obtain ⟨model, id, pin, -, ⟨r, -, -, rfl⟩ | ⟨-, rfl⟩⟩ := Server.loadDrop_ok hl
    · exact h.hold model _ (s.slot_onSlot model SlotResidency.failLoad) rfl (by intros; contradiction) rfl
        (fun _ _ hl => hl)
    · exact h.move rfl rfl rfl (by intros; contradiction) (fun _ _ hl => False.elim hl)
  | unloadAdmit _ _ model id hu =>
    obtain ⟨-, r, -, -, -, -, -, rfl⟩ := Server.unloadAdmit_ok hu
    exact h.hold model _ (s.slot_onSlot model SlotResidency.beginUnload) rfl (by intros; contradiction) rfl
      (fun _ _ hl => hl)
  | unloadFinish _ _ confirmed hu =>
    obtain ⟨model, id, generation, r, -, -, -, -, rfl⟩ := Server.unloadFinish_ok hu
    refine h.hold model _ (s.slot_onSlot model (SlotResidency.endUnload confirmed)) rfl ?_ ?_ ?_
    · intro _ _ hs
      cases confirmed <;> cases hs
    · cases confirmed <;> rfl
    · cases confirmed <;> exact fun _ _ hl => hl
  | unloadAbandon => exact h.move rfl rfl rfl (by intros; contradiction) (fun _ _ hl => False.elim hl)
  | unloadDrop _ _ hu =>
    obtain ⟨model, id, generation, armed, -, -, rfl⟩ := Server.unloadDrop_ok hu
    refine h.hold model _ (s.slot_onSlot model (SlotResidency.failUnload armed id generation)) rfl
      ?_ rfl (fun _ _ hl => hl)
    intro r _ hs
    unfold SlotResidency.failUnload at hs
    split at hs
    · cases hs
    · exact hs

/-! ## The account of the pins -/

/-- What a slot says about its pins. -/
structure SlotPins (pins : List ModelUse) (m : String) (r : SlotResidency) : Prop where
  count : r.active = pins.count ⟨m, r.generation⟩
  live : 0 < r.active → r.state = .active
  free : 0 < r.active → r.control = none
  old : ∀ u ∈ pins, u.model = m → u.generation ≤ r.generation

/-- Every pin is of a slot that exists, and every slot counts its own. -/
structure Pinned (s : Server) : Prop where
  slots : ∀ m r, s.slot m = some r → SlotPins s.pins m r
  known : ∀ u ∈ s.pins, ∃ r, s.slot u.model = some r

theorem Pinned.new : Pinned Server.new := ⟨nofun, nofun⟩

/-- No generation has reached the top. -/
def Server.Below (s : Server) : Prop := ∀ m r, s.slot m = some r → r.generation < u64Max

/-- The slot keeps its pins. -/
def SlotResidency.Keeps (r r' : SlotResidency) : Prop :=
  r'.generation = r.generation ∧ r'.active = r.active ∧
    (0 < r.active → r'.state = r.state ∧ r'.control = none)

/-- The slot starts a new generation, without pins. -/
def SlotResidency.Renews (r r' : SlotResidency) : Prop :=
  r'.generation = bump r.generation ∧ r'.active = 0

/-- A section that a pinned model may lose its pins to: of a group stop, of a monitor that has
found a process missing, or `close`. -/
def Act.withdraws (a : Act) (o : Operation) : Bool :=
  match a, o with
  | .close, _ | .monitorWithdraw, _ => true
  | .stopChildren _, .group .start | .stopReturn, .stopped .start _ => false
  | .stopChildren _, _ | .stopReturn, _ => true
  | _, _ => false

theorem bump_eq {g : Nat} (h : g < u64Max) : bump g = g + 1 := by
  unfold bump
  omega

theorem bump_of_below {g : Nat} (h : bump g < u64Max) : bump g = g + 1 := by
  unfold bump at *
  omega

theorem SlotPins.keeps {pins : List ModelUse} {m : String} {r r' : SlotResidency}
    (h : SlotPins pins m r) (hk : r.Keeps r') : SlotPins pins m r' := by
  obtain ⟨hg, ha, hs⟩ := hk
  refine ⟨?_, ?_, ?_, ?_⟩
  · rw [ha, hg]
    exact h.count
  · intro hpos
    rw [ha] at hpos
    rw [(hs hpos).1]
    exact h.live hpos
  · intro hpos
    rw [ha] at hpos
    exact (hs hpos).2
  · intro u hu hm
    rw [hg]
    exact h.old u hu hm

/-- Pins of a generation yet to come do not exist. -/
theorem SlotPins.count_next {pins : List ModelUse} {m : String} {r : SlotResidency} {g : Nat}
    (h : SlotPins pins m r) (hg : r.generation < g) : pins.count ⟨m, g⟩ = 0 := by
  refine List.count_eq_zero_of_not_mem fun hu => ?_
  have := h.old _ hu rfl
  simp only at this
  omega

theorem SlotPins.renews {pins : List ModelUse} {m : String} {r r' : SlotResidency}
    (h : SlotPins pins m r) (hr : r.Renews r') (hbelow : r'.generation < u64Max) :
    SlotPins pins m r' := by
  obtain ⟨hg, ha⟩ := hr
  rw [hg] at hbelow
  have hnext := bump_of_below hbelow
  refine ⟨?_, ?_, ?_, ?_⟩
  · rw [ha, hg]
    exact (h.count_next (by omega)).symm
  · intro hpos
    omega
  · intro hpos
    omega
  · intro u hu hm
    have := h.old u hu hm
    omega

/-- What a section does to the slots and the pins. -/
inductive Effect (a : Act) (s t : Server) : Prop where
  /-- The table is filled. -/
  | filled (hslots : s.slots = []) (hfresh : ∀ m r, t.slot m = some r → r = SlotResidency.fresh)
    (hpins : t.pins = s.pins)
  /-- Slots keep their pins, or are renewed. -/
  | kept (f : String → SlotResidency → SlotResidency)
    (hslots : ∀ m, t.slot m = (s.slot m).map (f m))
    (hf : ∀ m r, s.slot m = some r →
      r.Keeps (f m r) ∨ (r.Renews (f m r) ∧ (r.active = 0 ∨ a.withdraws s.operation)))
    (hpins : t.pins = s.pins)
  /-- A resident slot without a control is pinned. -/
  | pinned (m : String) (r : SlotResidency) (hr : s.slot m = some r) (hctl : r.control = none)
    (hslots : ∀ k, t.slot k = (s.slot k).map fun r => if k = m then r.pin else r)
    (hpins : t.pins = ⟨m, r.generation⟩ :: s.pins)
  /-- A pin is dropped. -/
  | unpinned (now : Nat) (u : ModelUse) (ha : a = .unpin u) (hu : u ∈ s.pins)
    (ht : t = s.unpin now u)
  /-- A load hands its control over to a pin. -/
  | handed (now : Nat) (m id : String) (r : SlotResidency) (hop : s.operation = .loaded m id true)
    (hr : s.slot m = some r) (hctl : r.control = some id)
    (hslots : ∀ k, t.slot k = (s.slot k).map fun r => if k = m then r.endLoad now true else r)
    (hpins : t.pins = ⟨m, r.generation⟩ :: s.pins)

section
variable {s t : Server} {a : Act}

theorem Pinned.keeps_self (h : Pinned s) {m : String} {r : SlotResidency}
    (hr : s.slot m = some r) : r.Keeps r := ⟨rfl, rfl, fun hp => ⟨rfl, (h.slots m r hr).free hp⟩⟩

/-- No slot changes. -/
theorem Pinned.same (h : Pinned s) (hslots : t.slots = s.slots) (hpins : t.pins = s.pins) :
    Effect a s t := by
  refine .kept (fun _ r => r) (fun m => ?_) (fun m r hr => Or.inl (h.keeps_self hr)) hpins
  rw [Option.map_id']
  unfold Server.slot
  rw [hslots]

/-- One slot changes. -/
theorem Pinned.one (h : Pinned s) (k : String) (f : SlotResidency → SlotResidency)
    (hslots : ∀ m, t.slot m = (s.slot m).map fun r => if m = k then f r else r)
    (hf : ∀ r, s.slot k = some r →
      r.Keeps (f r) ∨ (r.Renews (f r) ∧ (r.active = 0 ∨ a.withdraws s.operation)))
    (hpins : t.pins = s.pins) : Effect a s t := by
  refine .kept _ hslots (fun m r hr => ?_) hpins
  split
  · rename_i hm
    subst hm
    exact hf r hr
  · exact Or.inl (h.keeps_self hr)

/-- Every slot is reset. -/
theorem Pinned.reset (now : Nat) (state : ModelLifecycle)
    (hslots : ∀ m, t.slot m = (s.slot m).map (SlotResidency.reset now state))
    (hidle : ∀ m r, s.slot m = some r → r.active = 0 ∨ a.withdraws s.operation)
    (hpins : t.pins = s.pins) : Effect a s t :=
  .kept _ hslots (fun m r hr => Or.inr ⟨⟨rfl, rfl⟩, hidle m r hr⟩) hpins

/-- While a startup is under way no slot has a pin. -/
theorem Pinned.quiet (h : Pinned s) (hp : Presence s) (hs : s.operation.starts = true) (m : String)
    (r : SlotResidency) (hr : s.slot m = some r) : r.active = 0 := by
  by_contra hne
  have := hp.quiet hs m r hr
  rw [(h.slots m r hr).live (by omega)] at this
  cases this

/-- A slot in another state than `Active` has no pin. -/
theorem Pinned.unpinned (h : Pinned s) {m : String} {r : SlotResidency} (hr : s.slot m = some r)
    (hs : r.state ≠ .active) : r.active = 0 := by
  by_contra hne
  exact hs ((h.slots m r hr).live (by omega))

theorem Keeps.of_idle {r r' : SlotResidency} (hg : r'.generation = r.generation)
    (ha : r'.active = r.active) (hz : r.active = 0) : r.Keeps r' :=
  ⟨hg, ha, fun hp => absurd hz (by omega)⟩

end

theorem Step.effect {ids : List String} {a : Act} {s t : Server} (h : Pinned s) (hp : Presence s)
    (hstep : Step ids a s t) : Effect a s t := by
  cases hstep with
  | initializeResidency =>
    rcases s.initializeResidency_slots ids with hsame | ⟨slots, heq, hnil, hfresh⟩
    · rw [hsame]
      exact h.same rfl rfl
    · rw [heq]
      exact .filled hnil hfresh rfl
  | releaseObservedErrors _ saw _ =>
    unfold Server.releaseObservedErrors
    split <;> exact h.same rfl rfl
  | pin _ _ alive model hpin =>
    obtain ⟨r, hr, -, hctl, -, rfl⟩ := Server.pin_ok hpin
    exact .pinned model r hr hctl (s.slot_onSlot model SlotResidency.pin) rfl
  | unpin _ now u hu => exact .unpinned now u rfl hu rfl
  | reserveControl _ _ model generation id load hres =>
    obtain ⟨r, hr, -, -, hact, -, -, -, -, -, -, rfl⟩ := Server.reserveControl_ok hres
    refine h.one model _ (s.slot_onSlot model (SlotResidency.reserve id)) (fun r' hr' => Or.inl ?_)
      rfl
    obtain rfl : r = r' := Option.some.inj (hr.symm.trans hr')
    exact Keeps.of_idle rfl rfl hact
  | releaseControl _ model id _ =>
    refine h.one model _ (s.slot_onSlot model _) (fun r hr => Or.inl ?_) rfl
    split
    · exact ⟨rfl, rfl, fun _ => ⟨rfl, rfl⟩⟩
    · exact h.keeps_self hr
  | reserveIdle _ _ model generation now idle id hres =>
    obtain ⟨r, hr, -, -, hact, -, -, rfl⟩ := Server.reserveIdle_ok hres
    refine h.one model _ (s.slot_onSlot model (SlotResidency.reserve id)) (fun r' hr' => Or.inl ?_)
      rfl
    obtain rfl : r = r' := Option.some.inj (hr.symm.trans hr')
    exact Keeps.of_idle rfl rfl hact
  | close => exact .kept _ s.slot_close (fun _ _ _ => Or.inr ⟨⟨rfl, rfl⟩, Or.inr rfl⟩) rfl
  | startCheck _ _ hs =>
    obtain ⟨-, -, rfl⟩ := Server.startCheck_ok hs
    exact h.same rfl rfl
  | startClear _ _ hs =>
    obtain ⟨-, -, rfl⟩ := Server.startClear_ok hs
    exact h.same rfl rfl
  | startLoad _ now ho =>
    exact Pinned.reset now .loading (s.slot_setAll now .loading)
      (fun m r hr => Or.inl (h.quiet hp (by rw [ho]; rfl) m r hr)) rfl
  | startSpawn _ u model todo process _ _ ht =>
    obtain ⟨r, -, -, -, -, -, rfl⟩ := Server.spawnSlot_ok ht
    exact h.same rfl rfl
  | startReady _ now ho =>
    exact Pinned.reset now .ready (s.slot_setAll now .ready)
      (fun m r hr => Or.inl (h.quiet hp (by rw [ho]; rfl) m r hr)) rfl
  | startAbandon _ now state ho =>
    exact Pinned.reset now state (s.slot_setAll now state)
      (fun m r hr => Or.inl (h.quiet hp (by rw [ho]; rfl) m r hr)) rfl
  | stopChildren _ owner id ho =>
    refine .kept _ (s.slot_stopChildren owner id) (fun m r hr => ?_) rfl
    split
    · refine Or.inr ⟨⟨rfl, rfl⟩, ?_⟩
      cases owner with
      | start => exact Or.inl (h.quiet hp (by rw [ho]; rfl) m r hr)
      | stop => exact Or.inr (by rw [ho]; rfl)
      | monitor => exact Or.inr (by rw [ho]; rfl)
    · exact Or.inl (h.keeps_self hr)
  | stopFinish _ _ hf =>
    obtain ⟨owner, id, fences, missing, -, -, hstands, rfl⟩ := Server.stopFinish_ok hf
    refine .kept _ (fun m => lookup_map (fun m => SlotResidency.finish (fences.lookup m)) m s.slots)
      (fun m r hr => Or.inl ?_) rfl
    cases hl : fences.lookup m with
    | none => exact h.keeps_self hr
    | some fence =>
      have hst := hstands _ (Assoc.mem_of_lookup hl)
      simp only [Server.stands, hr, Option.any_some, Bool.and_eq_true, beq_iff_eq] at hst
      refine Keeps.of_idle rfl rfl (h.unpinned hr ?_)
      rw [hst.2]
      intro h
      contradiction
  | stopDrop _ _ cancelled hd =>
    obtain ⟨owner, id, fences, missing, -, rfl⟩ := Server.stopDrop_ok hd
    refine .kept _
      (fun m => lookup_map (fun m => SlotResidency.forsake id (fences.lookup m)) m s.slots)
      (fun m r hr => Or.inl ?_) rfl
    unfold SlotResidency.forsake
    split
    · split
      · rename_i hmatch
        refine ⟨rfl, rfl, fun hpos => ?_⟩
        have := (h.slots m r hr).free hpos
        rw [hmatch.2] at this
        cases this
      · exact h.keeps_self hr
    · exact h.keeps_self hr
  | retireProcess _ _ hret =>
    obtain ⟨p, pending, -, -, rfl⟩ := Server.retireProcess_ok hret
    exact h.same rfl rfl
  | stopReturn _ now owner ok ho =>
    cases owner with
    | start =>
      exact Pinned.reset now .error (s.slot_setAll now .error)
        (fun m r hr => Or.inl (h.quiet hp (by rw [ho]; rfl) m r hr)) rfl
    | monitor =>
      exact Pinned.reset now .error (s.slot_setAll now .error)
        (fun _ _ _ => Or.inr (by rw [ho]; rfl)) rfl
    | stop =>
      cases ok with
      | true =>
        exact Pinned.reset now .unloaded (s.slot_setAll now .unloaded)
          (fun _ _ _ => Or.inr (by rw [ho]; rfl)) rfl
      | false => exact h.same rfl rfl
  | monitorWithdraw _ now _ =>
    exact Pinned.reset now .error (s.slot_setAll now .error) (fun _ _ _ => Or.inr rfl) rfl
  | demandReserve _ u model generation id _ hres =>
    obtain ⟨r, hr, -, -, hact, -, -, -, -, -, -, rfl⟩ := Server.reserveControl_ok hres
    refine h.one model _ (s.slot_onSlot model (SlotResidency.reserve id)) (fun r' hr' => Or.inl ?_)
      rfl
    obtain rfl : r = r' := Option.some.inj (hr.symm.trans hr')
    exact Keeps.of_idle rfl rfl hact
  | loadAdmit _ _ model id pin hl =>
    obtain ⟨-, r, hr, -, hact, -, hgen, rfl⟩ := Server.loadAdmit_ok hl
    refine h.one model _ (s.slot_onSlot model SlotResidency.beginLoad) (fun r' hr' => Or.inr ?_) rfl
    obtain rfl : r = r' := Option.some.inj (hr.symm.trans hr')
    exact ⟨⟨(bump_eq hgen).symm, hact⟩, Or.inl hact⟩
  | loadSpawn _ u model id pin process _ _ ht =>
    obtain ⟨r, -, -, -, -, -, rfl⟩ := Server.spawnSlot_ok ht
    exact h.same rfl rfl
  | loadReady _ _ alive now hl =>
    obtain ⟨model, id, pin, r, ho, hopen, hr, hctl, rfl⟩ := Server.loadReady_ok hl
    cases pin with
    | true =>
      exact .handed now model id r ho hr hctl
        (s.slot_onSlot model (SlotResidency.endLoad now true)) rfl
    | false =>
      refine h.one model _ (s.slot_onSlot model (SlotResidency.endLoad now false))
        (fun r' hr' => Or.inl ?_) rfl
      obtain rfl : r = r' := Option.some.inj (hr.symm.trans hr')
      have hz : r.active = 0 := by
        by_contra hne
        have := (h.slots model r hr).free (by omega)
        rw [hctl] at this
        cases this
      exact Keeps.of_idle rfl hz.symm hz
  | loadDrop _ _ hl =>
    obtain ⟨model, id, pin, -, ⟨r, hr, hctl, rfl⟩ | ⟨-, rfl⟩⟩ := Server.loadDrop_ok hl
    · refine h.one model _ (s.slot_onSlot model SlotResidency.failLoad) (fun r' hr' => Or.inr ?_) rfl
      obtain rfl : r = r' := Option.some.inj (hr.symm.trans hr')
      have hz : r.active = 0 := by
        by_contra hne
        have := (h.slots model r hr).free (by omega)
        rw [hctl] at this
        cases this
      exact ⟨⟨rfl, hz⟩, Or.inl hz⟩
    · exact h.same rfl rfl
  | unloadAdmit _ _ model id hu =>
    obtain ⟨-, r, hr, -, hact, -, hgen, rfl⟩ := Server.unloadAdmit_ok hu
    refine h.one model _ (s.slot_onSlot model SlotResidency.beginUnload)
      (fun r' hr' => Or.inr ?_) rfl
    obtain rfl : r = r' := Option.some.inj (hr.symm.trans hr')
    exact ⟨⟨(bump_eq hgen).symm, hact⟩, Or.inl hact⟩
  | unloadFinish _ _ confirmed hu =>
    obtain ⟨model, id, generation, r, -, -, hr, hstate, rfl⟩ := Server.unloadFinish_ok hu
    refine h.one model _ (s.slot_onSlot model (SlotResidency.endUnload confirmed))
      (fun r' hr' => Or.inl ?_) rfl
    obtain rfl : r = r' := Option.some.inj (hr.symm.trans hr')
    refine Keeps.of_idle rfl rfl (h.unpinned hr ?_)
    rw [hstate]
    intro h
    contradiction
  | unloadDrop _ _ hu =>
    obtain ⟨model, id, generation, armed, -, -, rfl⟩ := Server.unloadDrop_ok hu
    refine h.one model _ (s.slot_onSlot model (SlotResidency.failUnload armed id generation))
      (fun r hr => Or.inl ?_) rfl
    unfold SlotResidency.failUnload
    split
    · rename_i hmatch
      refine Keeps.of_idle rfl rfl (h.unpinned hr ?_)
      rw [hmatch.2.2.2]
      intro h
      contradiction
    · exact h.keeps_self hr
  | _ => exact h.same rfl rfl

/-- What dropping a pin leaves of its slot. -/
theorem SlotPins.unpin {pins : List ModelUse} {r : SlotResidency} {u : ModelUse}
    (h : SlotPins pins u.model r) (hu : u ∈ pins) (now : Nat) :
    SlotPins (pins.erase u) u.model (r.unpin now u.generation) := by
  have hold : ∀ v ∈ pins.erase u, v.model = u.model → v.generation ≤ r.generation :=
    fun v hv => h.old v (List.mem_of_mem_erase hv)
  have hcount := h.count
  unfold SlotResidency.unpin
  by_cases hg : r.generation = u.generation
  · have hself : (⟨u.model, r.generation⟩ : ModelUse) = u := by rw [hg]
    have hpos : 0 < pins.count u := List.count_pos_iff.2 hu
    rw [hself] at hcount
    rw [if_pos ⟨hg, by omega⟩]
    have herase : (pins.erase u).count ⟨u.model, r.generation⟩ = pins.count u - 1 := by
      rw [hself, List.count_erase_self]
    split
    · rename_i hone
      exact ⟨by rw [herase]; simp only; omega, nofun, nofun, hold⟩
    · refine ⟨by rw [herase]; simp only; omega, fun _ => ?_, fun _ => ?_, hold⟩
      · exact h.live (by omega)
      · exact h.free (by omega)
  · rw [if_neg fun hc => hg hc.1]
    refine ⟨?_, h.live, h.free, hold⟩
    rw [List.count_erase_of_ne]
    · exact hcount
    · intro he
      exact hg (congrArg ModelUse.generation he)

theorem SlotPins.other {pins pins' : List ModelUse} {m : String} {r : SlotResidency}
    (h : SlotPins pins m r) (hcount : pins'.count ⟨m, r.generation⟩ = pins.count ⟨m, r.generation⟩)
    (hmem : ∀ u ∈ pins', u.model = m → u ∈ pins) : SlotPins pins' m r :=
  ⟨hcount ▸ h.count, h.live, h.free, fun u hu hm => h.old u (hmem u hu hm) hm⟩

/-- A slot is granted one pin more. -/
theorem Pinned.grant {s t : Server} (h : Pinned s) {m : String} {r : SlotResidency}
    (hr : s.slot m = some r) (f : SlotResidency → SlotResidency)
    (hslots : ∀ k, t.slot k = (s.slot k).map fun r => if k = m then f r else r)
    (hpins : t.pins = ⟨m, r.generation⟩ :: s.pins) (hg : (f r).generation = r.generation)
    (ha : (f r).active = r.active + 1) (hs : (f r).state = .active) (hc : (f r).control = none) :
    Pinned t := by
  refine ⟨fun k r' hr' => ?_, fun u hu => ?_⟩
  · rw [hslots, Option.map_eq_some_iff] at hr'
    obtain ⟨r₀, hr₀, rfl⟩ := hr'
    have hk := h.slots k r₀ hr₀
    rw [hpins]
    split
    · rename_i hm
      subst hm
      obtain rfl : r = r₀ := Option.some.inj (hr.symm.trans hr₀)
      refine ⟨?_, fun _ => hs, fun _ => hc, ?_⟩
      · rw [ha, hg, List.count_cons_self, hk.count]
      · intro u hu hum
        rw [hg]
        rcases List.mem_cons.1 hu with rfl | hu
        · exact le_refl _
        · exact hk.old u hu hum
    · rename_i hm
      refine hk.other (List.count_cons_of_ne ?_) fun u hu hum => ?_
      · intro he
        exact hm (congrArg ModelUse.model he).symm
      · rcases List.mem_cons.1 hu with rfl | hu
        · exact absurd hum.symm hm
        · exact hu
  · rw [hpins] at hu
    rcases List.mem_cons.1 hu with rfl | hu
    · exact known_of_map hslots m r hr
    · obtain ⟨r₀, hr₀⟩ := h.known u hu
      exact known_of_map hslots u.model r₀ hr₀

/-- A slot under control has no pin. -/
theorem Pinned.controlled {s : Server} (h : Pinned s) {m id : String} {r : SlotResidency}
    (hr : s.slot m = some r) (hctl : r.control = some id) : r.active = 0 := by
  by_contra hne
  have := (h.slots m r hr).free (by omega)
  rw [hctl] at this
  cases this

theorem Effect.keeps {a : Act} {s t : Server} (h : Pinned s) (he : Effect a s t)
    (hbelow : t.Below) : Pinned t := by
  cases he with
  | filled hnil hfresh hpins =>
    have hnone : s.pins = [] := by
      rw [List.eq_nil_iff_forall_not_mem]
      intro u hu
      obtain ⟨r, hr⟩ := h.known u hu
      rw [Server.slot, hnil] at hr
      cases hr
    rw [hnone] at hpins
    refine ⟨fun m r hr => ?_, fun u hu => ?_⟩
    · rw [hfresh m r hr, hpins]
      exact ⟨rfl, (by intros; contradiction), (by intros; contradiction), (by intros; contradiction)⟩
    · rw [hpins] at hu
      cases hu
  | kept f hslots hf hpins =>
    refine ⟨fun m r' hr' => ?_, fun u hu => ?_⟩
    · have hb := hbelow m r' hr'
      rw [hslots, Option.map_eq_some_iff] at hr'
      obtain ⟨r, hr, rfl⟩ := hr'
      rw [hpins]
      rcases hf m r hr with hk | ⟨hk, -⟩
      · exact (h.slots m r hr).keeps hk
      · exact (h.slots m r hr).renews hk hb
    · rw [hpins] at hu
      obtain ⟨r, hr⟩ := h.known u hu
      exact known_of_map hslots u.model r hr
  | pinned m r hr hctl hslots hpins => exact h.grant hr _ hslots hpins rfl rfl rfl hctl
  | unpinned now u ha hu ht =>
    subst ht
    have hslots := s.slot_onSlot u.model (SlotResidency.unpin now u.generation)
    refine ⟨fun k r' hr' => ?_, fun v hv => ?_⟩
    · change (s.onSlot u.model (SlotResidency.unpin now u.generation)).slot k = some r' at hr'
      rw [hslots, Option.map_eq_some_iff] at hr'
      obtain ⟨r, hr, rfl⟩ := hr'
      change SlotPins (s.pins.erase u) k _
      split
      · rename_i hm
        subst hm
        exact (h.slots u.model r hr).unpin hu now
      · rename_i hm
        refine (h.slots k r hr).other (List.count_erase_of_ne ?_) fun v hv _ =>
          List.mem_of_mem_erase hv
        intro he
        exact hm (congrArg ModelUse.model he)
    · obtain ⟨r, hr⟩ := h.known v (List.mem_of_mem_erase hv)
      exact known_of_map hslots v.model r hr
  | handed now m id r hop hr hctl hslots hpins =>
    refine h.grant hr _ hslots hpins rfl ?_ rfl rfl
    rw [h.controlled hr hctl]
    rfl

/-! ## An unconfirmed unload -/

/-- The unload of a model was not confirmed, or a group stop has withdrawn it since then and
remembers. -/
def Server.Fenced (s : Server) (m : String) : Prop :=
  ∃ r, s.slot m = some r ∧ (r.state = .unloadUnconfirmed ∨
    (r.state = .unloading ∧ ∃ owner id fences missing,
      s.operation = .stopping owner id fences missing ∧
      fences.lookup m = some (r.generation, true)))

/-- A fenced slot stays as it is, or is unconfirmed. -/
theorem Server.Fenced.build {s t : Server} {m : String} (h : s.Fenced m)
    (f : SlotResidency → SlotResidency) (hslot : t.slot m = (s.slot m).map f)
    (hun : ∀ r, s.slot m = some r → r.state = .unloadUnconfirmed →
      (f r).state = .unloadUnconfirmed)
    (hst : ∀ r owner id fences missing, s.slot m = some r → r.state = .unloading →
      s.operation = .stopping owner id fences missing →
      fences.lookup m = some (r.generation, true) →
      (f r).state = .unloadUnconfirmed ∨
        (t.operation = s.operation ∧ (f r).state = .unloading ∧ (f r).generation = r.generation)) :
    t.Fenced m := by
  obtain ⟨r, hr, hs | ⟨hs, owner, id, fences, missing, hop, hl⟩⟩ := h
  · exact ⟨f r, by rw [hslot, hr]; rfl, Or.inl (hun r hr hs)⟩
  · refine ⟨f r, by rw [hslot, hr]; rfl, ?_⟩
    rcases hst r owner id fences missing hr hs hop hl with hu | ⟨hop', hs', hg⟩
    · exact Or.inl hu
    · exact Or.inr ⟨hs', owner, id, fences, missing, hop'.trans hop, by rw [hg]; exact hl⟩

/-- The holder of the operation lock is no group stop. -/
theorem Server.Fenced.unconfirmed {s : Server} {m : String} (h : s.Fenced m)
    (hop : ∀ owner id fences missing, s.operation ≠ .stopping owner id fences missing) :
    ∃ r, s.slot m = some r ∧ r.state = .unloadUnconfirmed := by
  obtain ⟨r, hr, hs | ⟨hs, owner, id, fences, missing, ho, -⟩⟩ := h
  · exact ⟨r, hr, hs⟩
  · exact absurd ho (hop owner id fences missing)

/-- Nothing that reserves or loads takes a fenced slot. -/
theorem Server.Fenced.state {s : Server} {m : String} (h : s.Fenced m) :
    ∃ r, s.slot m = some r ∧ r.state.withdrawn := by
  obtain ⟨r, hr, hs | ⟨hs, -⟩⟩ := h
  · exact ⟨r, hr, by rw [hs]; rfl⟩
  · exact ⟨r, hr, by rw [hs]; rfl⟩

/-- The slot itself is left alone, and so is a group stop. -/
theorem Server.Fenced.same {s t : Server} {m : String} (h : s.Fenced m)
    (hslot : t.slot m = s.slot m) (hop : (∃ owner id fences missing,
      s.operation = .stopping owner id fences missing) → t.operation = s.operation) :
    t.Fenced m := by
  refine h.build (fun r => r) (by rw [hslot, Option.map_id']) (fun _ _ hs => hs) ?_
  intro r owner id fences missing _ hs ho _
  exact Or.inr ⟨hop ⟨owner, id, fences, missing, ho⟩, hs, rfl⟩

theorem slot_of_ne {s t : Server} {k m : String} {f : SlotResidency → SlotResidency}
    (hslots : ∀ m, t.slot m = (s.slot m).map fun r => if m = k then f r else r) (hm : m ≠ k) :
    t.slot m = s.slot m := by
  rw [hslots]
  simp [hm]

/-- A section of a call that a fenced slot does not admit. -/
theorem Server.Fenced.other {s t : Server} {k m : String} {r : SlotResidency} (h : s.Fenced m)
    (hr : s.slot k = some r) (hw : r.state.withdrawn = false) (f : SlotResidency → SlotResidency)
    (hslots : ∀ m, t.slot m = (s.slot m).map fun r => if m = k then f r else r)
    (hop : (∃ owner id fences missing, s.operation = .stopping owner id fences missing) →
      t.operation = s.operation) : t.Fenced m := by
  refine h.same (slot_of_ne hslots fun hm => ?_) hop
  obtain ⟨r', hr', hw'⟩ := h.state
  subst hm
  obtain rfl : r = r' := Option.some.inj (hr.symm.trans hr')
  rw [hw] at hw'
  cases hw'

theorem Server.Fenced.setAll {s : Server} {m : String} (h : s.Fenced m) (now : Nat)
    (state : ModelLifecycle) (o : Operation) :
    Server.Fenced { s.setAll now state with operation := o } m := by
  refine h.build (SlotResidency.reset now state) (s.slot_setAll now state m) ?_ ?_
  · intro r _ hs
    rw [SlotResidency.reset_state, hs]
    rfl
  · intro r _ _ _ _ _ hs _ _
    left
    rw [SlotResidency.reset_state, hs]
    rfl

theorem not_withdrawn_of_resident {x : ModelLifecycle} (h : x.resident) : x.withdrawn = false := by
  cases x <;> first | rfl | cases h

theorem not_withdrawn_of_vacant {x : ModelLifecycle} (h : x.vacant) : x.withdrawn = false := by
  cases x <;> first | rfl | cases h

theorem not_withdrawn {x : ModelLifecycle} (h : x ≠ .unloading) (h' : x ≠ .unloadUnconfirmed) :
    x.withdrawn = false := by
  cases x <;> first | rfl | contradiction

theorem Server.Fenced.step {ids : List String} {a : Act} {s t : Server} {m : String}
    (h : s.Fenced m) (hc : Custody s) (hstep : Step ids a s t) : t.Fenced m := by
  -- The holder that moves on is no group stop.
  have move {t : Server} {o : Operation} (ho : s.operation = o) (hslots : t.slots = s.slots)
      (hno : ∀ owner id fences missing, o ≠ .stopping owner id fences missing) : t.Fenced m := by
    refine h.same (by unfold Server.slot; rw [hslots]) ?_
    rintro ⟨owner, id, fences, missing, hs⟩
    exact absurd (ho.symm.trans hs) (hno owner id fences missing)
  have stay {t : Server} {o : Operation} (ho : s.operation = o)
      (hno : ∀ owner id fences missing, o ≠ .stopping owner id fences missing) :
      (∃ owner id fences missing, s.operation = .stopping owner id fences missing) →
        t.operation = s.operation := by
    rintro ⟨owner, id, fences, missing, hs⟩
    exact absurd (ho.symm.trans hs) (hno owner id fences missing)
  cases hstep with
  | initializeResidency =>
    rcases s.initializeResidency_slots ids with hsame | ⟨slots, heq, hnil, hfresh⟩
    · rw [hsame]
      exact h
    · obtain ⟨r, hr, -⟩ := h
      rw [Server.slot, hnil] at hr
      cases hr
  | releaseObservedErrors _ saw _ =>
    unfold Server.releaseObservedErrors
    split
    · exact h
    · exact h.same rfl fun _ => rfl
  | changed => exact h.same rfl fun _ => rfl
  | pin _ _ alive model hpin =>
    obtain ⟨r, hr, -, -, hres, rfl⟩ := Server.pin_ok hpin
    exact h.other hr (not_withdrawn_of_resident hres) _ (s.slot_onSlot model SlotResidency.pin)
      fun _ => rfl
  | unpin _ now u hu =>
    have hkeep : ∀ r : SlotResidency, r.state.withdrawn →
        (if m = u.model then r.unpin now u.generation else r).state = r.state ∧
        (if m = u.model then r.unpin now u.generation else r).generation = r.generation := by
      intro r hw
      unfold SlotResidency.unpin
      split
      · split
        · split
          · rename_i hact
            rw [hact.2] at hw
            cases hw
          · exact ⟨rfl, rfl⟩
        · exact ⟨rfl, rfl⟩
      · exact ⟨rfl, rfl⟩
    refine h.build _ (s.slot_onSlot u.model (SlotResidency.unpin now u.generation) m) ?_ ?_
    · intro r _ hs
      rw [(hkeep r (by rw [hs]; rfl)).1, hs]
    · intro r _ _ _ _ _ hs _ _
      obtain ⟨h1, h2⟩ := hkeep r (by rw [hs]; rfl)
      exact Or.inr ⟨rfl, h1.trans hs, h2⟩
  | reserveControl _ _ model generation id load hres =>
    obtain ⟨r, hr, -, -, -, -, hun, -, hunl, -, -, rfl⟩ := Server.reserveControl_ok hres
    exact h.other hr (not_withdrawn hunl hun) _ (s.slot_onSlot model (SlotResidency.reserve id))
      fun _ => rfl
  | releaseControl _ model id _ =>
    refine h.build (fun r => if m = model then if r.control = some id then
        { r with control := none } else r else r) (s.slot_onSlot model _ m) ?_ ?_
    · intro r _ hs
      split
      · split <;> exact hs
      · exact hs
    · intro r _ _ _ _ _ hs _ _
      refine Or.inr ⟨rfl, ?_⟩
      split
      · split <;> exact ⟨hs, rfl⟩
      · exact ⟨hs, rfl⟩
  | reserveIdle _ _ model generation now idle id hres =>
    obtain ⟨r, hr, -, -, -, -, hstate, rfl⟩ := Server.reserveIdle_ok hres
    refine h.other hr ?_ _ (s.slot_onSlot model (SlotResidency.reserve id)) fun _ => rfl
    rcases hstate with hs | hs <;> rw [hs] <;> rfl
  | close =>
    refine h.build _ (s.slot_close m) ?_ ?_
    · intro r _ hs
      unfold SlotResidency.shut
      rw [hs]
      rfl
    · intro r _ _ _ _ _ hs _ _
      unfold SlotResidency.shut
      rw [hs]
      exact Or.inl rfl
  | exit => exact h.same rfl fun _ => rfl
  | startCheck _ _ hs =>
    obtain ⟨ho, -, rfl⟩ := Server.startCheck_ok hs
    exact move ho rfl (by intro _ _ _ _ hm; cases hm)
  | startClear _ _ hs =>
    obtain ⟨ho, -, rfl⟩ := Server.startClear_ok hs
    exact move ho rfl (by intro _ _ _ _ hm; cases hm)
  | startRefuse _ ho => exact move ho rfl (by intro _ _ _ _ hm; cases hm)
  | startLoad _ now _ => exact h.setAll now _ _
  | startSpawn _ u model todo process ho _ ht =>
    obtain ⟨r, -, -, -, -, -, rfl⟩ := Server.spawnSlot_ok ht
    exact move ho rfl (by intro _ _ _ _ hm; cases hm)
  | startInner _ alive ho _ => exact move ho rfl (by intro _ _ _ _ hm; cases hm)
  | startReady _ now _ => exact h.setAll now _ _
  | startFail _ todo ho => exact move ho rfl (by intro _ _ _ _ hm; cases hm)
  | startCancel _ todo ho => exact move ho rfl (by intro _ _ _ _ hm; cases hm)
  | startRetire _ ho => exact move ho rfl (by intro _ _ _ _ hm; cases hm)
  | startSettle _ ho _ => exact move ho rfl (by intro _ _ _ _ hm; cases hm)
  | startAbandon _ now state _ => exact h.setAll now _ _
  | stopBegin _ ho => exact move ho rfl (by intro _ _ _ _ hm; cases hm)
  | stopChildren _ owner id ho =>
    obtain ⟨r, hr, hs⟩ := h.unconfirmed (by rw [ho]; intro _ _ _ _ hm; cases hm)
    refine ⟨_, by rw [s.slot_stopChildren owner id m, hr]; rfl, ?_⟩
    split
    · rename_i ht
      refine Or.inr ⟨rfl, owner, id, s.fences, _, rfl, ?_⟩
      rw [s.lookup_fences, if_pos ht, hr]
      simp [hs, SlotResidency.fence]
    · exact Or.inl hs
  | stopRefuse _ owner ho => exact move ho rfl (by intro _ _ _ _ hm; cases hm)
  | terminated => exact h.same rfl fun _ => rfl
  | stopFinish _ _ hf =>
    obtain ⟨owner, id, fences, missing, ho, -, hstands, rfl⟩ := Server.stopFinish_ok hf
    refine h.build _ (lookup_map (fun m => SlotResidency.finish (fences.lookup m)) m s.slots) ?_ ?_
    · intro r hr hs
      cases hl : fences.lookup m with
      | none => exact hs
      | some fence =>
        have hst := hstands _ (Assoc.mem_of_lookup hl)
        simp only [Server.stands, hr, Option.any_some, Bool.and_eq_true, beq_iff_eq] at hst
        rw [hs] at hst
        cases hst.2
    · intro r owner' id' fences' missing' hr hs ho' hl
      rw [ho] at ho'
      cases ho'
      refine Or.inl ?_
      rw [hl]
      rfl
  | stopDrop _ _ cancelled hd =>
    obtain ⟨owner, id, fences, missing, ho, rfl⟩ := Server.stopDrop_ok hd
    refine h.build _ (lookup_map (fun m => SlotResidency.forsake id (fences.lookup m)) m s.slots)
      ?_ ?_
    · intro r _ hs
      unfold SlotResidency.forsake
      split
      · split
        · rfl
        · exact hs
      · exact hs
    · intro r owner' id' fences' missing' hr hs ho' hl
      have hheld := (hc.slots m r hr).held hs
      rw [ho'] at hheld
      rw [ho] at ho'
      cases ho'
      refine Or.inl ?_
      rw [hl]
      have hmatch : SlotResidency.forsake id (some (r.generation, true)) r =
          { r with
            state := .unloadUnconfirmed
            control := none } := if_pos ⟨rfl, hheld.1⟩
      rw [hmatch]
  | retireProcess _ _ hret =>
    obtain ⟨p, pending, -, -, rfl⟩ := Server.retireProcess_ok hret
    exact h.same rfl fun _ => rfl
  | stopDropped _ owner cancelled ho _ => exact move ho rfl (by intro _ _ _ _ hm; cases hm)
  | stopReturn _ now owner ok ho =>
    cases owner with
    | start => exact h.setAll now _ _
    | monitor => exact h.setAll now _ _
    | stop =>
      cases ok with
      | true => exact h.setAll now _ _
      | false => exact move ho rfl (by intro _ _ _ _ hm; cases hm)
  | monitorCheck _ ho _ => exact move ho rfl (by intro _ _ _ _ hm; cases hm)
  | monitorPass _ ho => exact move ho rfl (by intro _ _ _ _ hm; cases hm)
  | monitorFail _ alive ho _ => exact move ho rfl (by intro _ _ _ _ hm; cases hm)
  | monitorWithdraw _ now _ => exact h.setAll now _ _
  | demandReserve _ u model generation id ho hres =>
    obtain ⟨r, hr, -, -, -, -, hun, -, hunl, -, -, rfl⟩ := Server.reserveControl_ok hres
    exact h.other hr (not_withdrawn hunl hun) _ (s.slot_onSlot model (SlotResidency.reserve id))
      (stay ho (by intro _ _ _ _ hm; cases hm))
  | demandRefuse _ model id ho _ => exact move ho rfl (by intro _ _ _ _ hm; cases hm)
  | loadAdmit _ _ model id pin hl =>
    obtain ⟨ho, r, hr, -, -, hvac, -, rfl⟩ := Server.loadAdmit_ok hl
    refine h.other hr (not_withdrawn_of_vacant hvac) _
      (s.slot_onSlot model SlotResidency.beginLoad) (stay ho ?_)
    cases pin <;> (intro _ _ _ _ hm; cases hm)
  | loadSpawn _ u model id pin process ho _ ht =>
    obtain ⟨r, -, -, -, -, -, rfl⟩ := Server.spawnSlot_ok ht
    exact move ho rfl (by intro _ _ _ _ hm; cases hm)
  | loadReady _ _ alive now hl =>
    obtain ⟨model, id, pin, r, ho, -, hr, hctl, rfl⟩ := Server.loadReady_ok hl
    obtain ⟨r', hr', hs⟩ := h.unconfirmed (by rw [ho]; intro _ _ _ _ hm; cases hm)
    refine h.same (slot_of_ne (s.slot_onSlot model (SlotResidency.endLoad now pin)) fun hm => ?_)
      (stay ho (by intro _ _ _ _ hm; cases hm))
    subst hm
    obtain rfl : r = r' := Option.some.inj (hr.symm.trans hr')
    rw [(hc.slots m r hr).unconfirmed hs] at hctl
    cases hctl
  | loadDrop _ _ hl =>
    obtain ⟨model, id, pin, ho, hcase⟩ := Server.loadDrop_ok hl
    have hno : ∀ owner id fences missing, s.operation ≠ .stopping owner id fences missing := by
      rcases ho with ho | ho <;> rw [ho] <;> (intro _ _ _ _ hm; cases hm)
    obtain ⟨r', hr', hs⟩ := h.unconfirmed hno
    rcases hcase with ⟨r, hr, hctl, rfl⟩ | ⟨-, rfl⟩
    · refine h.same (slot_of_ne (s.slot_onSlot model SlotResidency.failLoad) fun hm => ?_)
        (stay rfl hno)
      subst hm
      obtain rfl : r = r' := Option.some.inj (hr.symm.trans hr')
      rw [(hc.slots m r hr).unconfirmed hs] at hctl
      cases hctl
    · exact move rfl rfl hno
  | unloadAdmit _ _ model id hu =>
    obtain ⟨ho, r, hr, -, -, hstate, -, rfl⟩ := Server.unloadAdmit_ok hu
    refine h.other hr ?_ _ (s.slot_onSlot model SlotResidency.beginUnload) (stay ho (by intro _ _ _ _ hm; cases hm))
    rcases hstate with hs | hs <;> rw [hs] <;> rfl
  | unloadFinish _ _ confirmed hu =>
    obtain ⟨model, id, generation, r, ho, -, hr, hstate, rfl⟩ := Server.unloadFinish_ok hu
    obtain ⟨r', hr', hs⟩ := h.unconfirmed (by rw [ho]; intro _ _ _ _ hm; cases hm)
    refine h.same (slot_of_ne (s.slot_onSlot model (SlotResidency.endUnload confirmed))
      fun hm => ?_) (stay ho (by intro _ _ _ _ hm; cases hm))
    subst hm
    obtain rfl : r = r' := Option.some.inj (hr.symm.trans hr')
    rw [hs] at hstate
    cases hstate
  | unloadAbandon _ model id generation ho => exact move ho rfl (by intro _ _ _ _ hm; cases hm)
  | unloadDrop _ _ hu =>
    obtain ⟨model, id, generation, armed, ho, -, rfl⟩ := Server.unloadDrop_ok hu
    obtain ⟨r, hr, hs⟩ := h.unconfirmed (by rw [ho]; intro _ _ _ _ hm; cases hm)
    have hkeep : (r.failUnload armed id generation).state = .unloadUnconfirmed := by
      unfold SlotResidency.failUnload
      split
      · rfl
      · exact hs
    refine ⟨if m = model then r.failUnload armed id generation else r, ?_, Or.inl ?_⟩
    · change (s.onSlot model (SlotResidency.failUnload armed id generation)).slot m = _
      rw [Server.slot_onSlot, hr]
      rfl
    · split
      · exact hkeep
      · exact hs

theorem Server.Fenced.run {ids : List String} {s t : Server} {m : String} (h : s.Fenced m)
    (hc : Custody s) (hrun : Sections ids s t) : t.Fenced m := by
  have hstep : ∀ s t : Server, s.Fenced m ∧ Custody s → (∃ a, Step ids a s t) →
      t.Fenced m ∧ Custody t := by
    rintro s t ⟨hf, hs⟩ ⟨a, hst⟩
    exact ⟨hf.step hs hst, hs.step hst⟩
  exact (Run.invariant hstep ⟨h, hc⟩ hrun).1

/-- A fenced slot is not loaded again. -/
theorem Server.Fenced.never_loads {s : Server} {m : String} (h : s.Fenced m) :
    (∀ generation id load t, s.reserveControl m generation id load ≠ .ok t) ∧
    (∀ id pin t, s.loadAdmit m id pin ≠ .ok t) ∧
    ∀ control process t, s.spawnSlot m control process ≠ .ok t := by
  obtain ⟨r, hr, hw⟩ := h.state
  refine ⟨?_, ?_, ?_⟩
  · intro generation id load t ht
    obtain ⟨r', hr', -, -, -, -, hun, -, hunl, -⟩ := Server.reserveControl_ok ht
    obtain rfl : r = r' := Option.some.inj (hr.symm.trans hr')
    rw [not_withdrawn hunl hun] at hw
    cases hw
  · intro id pin t ht
    obtain ⟨-, r', hr', -, -, hvac, -⟩ := Server.loadAdmit_ok ht
    obtain rfl : r = r' := Option.some.inj (hr.symm.trans hr')
    rw [not_withdrawn_of_vacant hvac] at hw
    cases hw
  · intro control process t ht
    obtain ⟨r', hr', -, hload, -⟩ := Server.spawnSlot_ok ht
    obtain rfl : r = r' := Option.some.inj (hr.symm.trans hr')
    rw [hload] at hw
    cases hw

/-! ## What a run is sure of -/

/-- A run in which no generation reaches the top. -/
abbrev Bounded (ids : List String) : Server → Server → Prop :=
  Run fun s t => (∃ a, Step ids a s t) ∧ t.Below

theorem Bounded.sections {ids : List String} {s t : Server} (h : Bounded ids s t) :
    Sections ids s t := by
  have hle : (fun s t : Server => (∃ a, Step ids a s t) ∧ t.Below) ≤ fun s t =>
      ∃ a, Step ids a s t := fun _ _ hstep => hstep.1
  exact Relation.ReflTransGen.mono hle _ _ h

theorem Bounded.pinned {ids : List String} {s : Server} (h : Bounded ids Server.new s) :
    Pinned s ∧ Presence s := by
  have hstep : ∀ s t : Server, Pinned s ∧ Presence s → (∃ a, Step ids a s t) ∧ t.Below →
      Pinned t ∧ Presence t := by
    rintro s t ⟨hs, hp⟩ ⟨⟨a, hst⟩, hbelow⟩
    exact ⟨(hst.effect hs hp).keeps hs hbelow, hp.step hst⟩
  exact Run.invariant hstep ⟨Pinned.new, Presence.new⟩ h

/-- A pinned model keeps its pins, unless a group stop, a failed monitor or `close` withdraws it. -/
theorem Effect.withdraws {a : Act} {s t : Server} (h : Pinned s) (he : Effect a s t)
    {m : String} {r : SlotResidency} (hr : s.slot m = some r)
    (hlive : 0 < s.pins.count ⟨m, r.generation⟩) :
    a.withdraws s.operation ∨ ∃ r', t.slot m = some r' ∧ r'.generation = r.generation ∧
      (r'.state = .active ∨ (r'.state = .warmIdle ∧ t.pins.count ⟨m, r'.generation⟩ = 0)) := by
  have hm := h.slots m r hr
  rw [← hm.count] at hlive
  have hactive := hm.live hlive
  cases he with
  | filled hnil _ _ =>
    rw [Server.slot, hnil] at hr
    cases hr
  | kept f hslots hf _ =>
    rcases hf m r hr with ⟨hg, _, hs⟩ | ⟨-, hz | hw⟩
    · exact Or.inr ⟨f m r, by rw [hslots, hr]; rfl, hg, Or.inl ((hs hlive).1.trans hactive)⟩
    · omega
    · exact Or.inl hw
  | pinned k r₀ _ _ hslots _ =>
    refine Or.inr ⟨_, by rw [hslots, hr]; rfl, ?_⟩
    split
    · exact ⟨rfl, Or.inl rfl⟩
    · exact ⟨rfl, Or.inl hactive⟩
  | unpinned now u _ hu ht =>
    subst ht
    refine Or.inr ⟨if m = u.model then r.unpin now u.generation else r, ?_, ?_⟩
    · exact (s.slot_onSlot u.model (SlotResidency.unpin now u.generation) m).trans (by rw [hr]; rfl)
    · split
      · rename_i hmu
        subst hmu
        have hafter := (hm.unpin hu now).count
        unfold SlotResidency.unpin at hafter ⊢
        split
        · rename_i hmatch
          split
          · rename_i hone
            rw [if_pos hmatch, if_pos hone] at hafter
            exact ⟨rfl, Or.inr ⟨rfl, hafter.symm⟩⟩
          · exact ⟨rfl, Or.inl hactive⟩
        · exact ⟨rfl, Or.inl hactive⟩
      · exact ⟨rfl, Or.inl hactive⟩
  | handed now k id r₀ _ hr₀ hctl hslots _ =>
    refine Or.inr ⟨_, by rw [hslots, hr]; rfl, ?_⟩
    split
    · exact ⟨rfl, Or.inl rfl⟩
    · exact ⟨rfl, Or.inl hactive⟩

/-- A pin is granted where no control is held: before it, or the control of the very load that
hands it over, and after it in any case. -/
theorem Effect.grants {a : Act} {s t : Server} (he : Effect a s t) {u : ModelUse}
    (hgrant : t.pins = u :: s.pins) :
    (∃ r, s.slot u.model = some r ∧ (r.control = none ∨
      ∃ id, s.operation = .loaded u.model id true ∧ r.control = some id)) ∧
    ∃ r', t.slot u.model = some r' ∧ r'.control = none := by
  have hlen : t.pins.length = s.pins.length + 1 := by rw [hgrant]; rfl
  cases he with
  | filled _ _ hpins => simp [hpins] at hlen
  | kept _ _ _ hpins => simp [hpins] at hlen
  | pinned m r hr hctl hslots hpins =>
    rw [hpins] at hgrant
    obtain rfl : (⟨m, r.generation⟩ : ModelUse) = u := (List.cons.inj hgrant).1
    refine ⟨⟨r, hr, Or.inl hctl⟩, r.pin, ?_, hctl⟩
    rw [hslots, hr]
    simp
  | unpinned now v _ hv ht =>
    subst ht
    have : (s.pins.erase v).length = s.pins.length - 1 := List.length_erase_of_mem hv
    change (s.pins.erase v).length = _ at hlen
    omega
  | handed now m id r hop hr hctl hslots hpins =>
    rw [hpins] at hgrant
    obtain rfl : (⟨m, r.generation⟩ : ModelUse) = u := (List.cons.inj hgrant).1
    refine ⟨⟨r, hr, Or.inr ⟨id, hop, hctl⟩⟩, r.endLoad now true, ?_, rfl⟩
    rw [hslots, hr]
    simp

/-- Model residency and inference pins, along every run in which no generation reaches the top.
The active count of a slot is the number of live pins of its generation, and an active slot is
`Active`. Only a group stop, a failed monitor or `close` withdraws a pinned slot, and no pin is
granted while a control is held. A pin of another generation is an older one, and dropping it
changes no slot. A slot that is unloading is controlled, one whose unload is unconfirmed is
not, neither has a resident process, and the latter is never loaded again. -/
theorem residency_and_pins (ids : List String) {s : Server} (hrun : Bounded ids Server.new s) :
    (∀ m r, s.slot m = some r → r.active = s.pins.count ⟨m, r.generation⟩ ∧
      (0 < r.active → r.state = .active)) ∧
    (∀ a t, Step ids a s t →
      (∀ m r, s.slot m = some r → 0 < s.pins.count ⟨m, r.generation⟩ →
        a.withdraws s.operation ∨ ∃ r', t.slot m = some r' ∧ r'.generation = r.generation ∧
          (r'.state = .active ∨ (r'.state = .warmIdle ∧ t.pins.count ⟨m, r'.generation⟩ = 0))) ∧
      (∀ u, t.pins = u :: s.pins →
        (∃ r, s.slot u.model = some r ∧ (r.control = none ∨
          ∃ id, s.operation = .loaded u.model id true ∧ r.control = some id)) ∧
        ∃ r', t.slot u.model = some r' ∧ r'.control = none)) ∧
    (∀ u ∈ s.pins, ∃ r, s.slot u.model = some r ∧ (r.generation ≠ u.generation →
      u.generation < r.generation ∧ ∀ now m, (s.unpin now u).slot m = s.slot m)) ∧
    (∀ m r, s.slot m = some r →
      (r.state = .unloading → r.control.isSome ∧ m ∉ models s.processes) ∧
      (r.state = .unloadUnconfirmed → r.control = none ∧ m ∉ models s.processes ∧
        ∀ t, Sections ids s t → (∃ r', t.slot m = some r' ∧ r'.state.withdrawn) ∧
          (∀ generation id load u, t.reserveControl m generation id load ≠ .ok u) ∧
          (∀ id pin u, t.loadAdmit m id pin ≠ .ok u) ∧
          ∀ control process u, t.spawnSlot m control process ≠ .ok u)) := by
  obtain ⟨h, hp⟩ := hrun.pinned
  have hc := Custody.new.run hrun.sections
  refine ⟨fun m r hr => ⟨(h.slots m r hr).count, (h.slots m r hr).live⟩, ?_, ?_, ?_⟩
  · intro a t hstep
    have he := hstep.effect h hp
    exact ⟨fun m r hr hlive => he.withdraws h hr hlive, fun u hu => he.grants hu⟩
  · intro u hu
    obtain ⟨r, hr⟩ := h.known u hu
    refine ⟨r, hr, fun hne => ⟨?_, fun now m => ?_⟩⟩
    · have := (h.slots u.model r hr).old u hu rfl
      omega
    · change (s.onSlot u.model (SlotResidency.unpin now u.generation)).slot m = s.slot m
      rw [Server.slot_onSlot]
      by_cases hm : m = u.model
      · subst hm
        rw [hr]
        simp [SlotResidency.unpin, hne]
      · simp [hm]
  · intro m r hr
    have hm := hc.slots m r hr
    refine ⟨fun hs => ⟨?_, hm.withdrawn (by rw [hs]; rfl)⟩, fun hs => ⟨hm.unconfirmed hs,
      hm.withdrawn (by rw [hs]; rfl), fun t hrun' => ?_⟩⟩
    · have hheld := hm.held hs
      unfold Operation.Holds at hheld
      split at hheld
      · rw [hheld.1]
        rfl
      · rw [hheld.2.1]
        rfl
      · rw [hheld.2.1]
        rfl
      · exact False.elim hheld
    · have hf : t.Fenced m := Server.Fenced.run ⟨r, hr, Or.inl hs⟩ hc hrun'
      exact ⟨hf.state, hf.never_loads⟩

theorem below_of_single {s : Server} {k : String} {r : SlotResidency} (h : s.slots = [(k, r)])
    (hg : r.generation < u64Max) : s.Below := by
  intro m r' hr'
  rw [Server.slot, h, Assoc.lookup_cons] at hr'
  split at hr'
  · obtain rfl := Option.some.inj hr'
    exact hg
  · cases hr'

/-- A load on demand that hands its control over to a pin: the slot counts one. -/
theorem residency_and_pins_demand : ∃ s, Bounded ["m"] Server.new s ∧ s.pins = [⟨"m", 1⟩] ∧
    ∀ m r, s.slot m = some r → r.active = s.pins.count ⟨m, r.generation⟩ ∧
      (0 < r.active → r.state = .active) := by
  let r := SlotResidency.fresh.reserve "demand:1"
  have h₁ : Step ["m"] .initializeResidency .new (.single .fresh .free []) := .initializeResidency _
  have h₂ : Step ["m"] (.demandReserve "m" "demand:1") (.single .fresh .free [])
      (.single r (.reserved "m" "demand:1") []) :=
    .demandReserve _ (.single r .free []) "m" 0 "demand:1" rfl rfl
  have h₃ : Step ["m"] (.loadAdmit "m" "demand:1") (.single r (.reserved "m" "demand:1") [])
      (.single r.beginLoad (.loading "m" "demand:1" true) []) :=
    .loadAdmit _ _ "m" "demand:1" true rfl
  have h₄ : Step ["m"] (.loadSpawn 7) (.single r.beginLoad (.loading "m" "demand:1" true) [])
      (.single r.beginLoad (.loaded "m" "demand:1" true) [("m", 7)]) :=
    .loadSpawn _ (.single r.beginLoad (.loading "m" "demand:1" true) [("m", 7)]) "m" "demand:1" true
      7 rfl (by decide) rfl
  have h₅ : Step ["m"] .loadReady (.single r.beginLoad (.loaded "m" "demand:1" true) [("m", 7)])
      { Server.single (r.beginLoad.endLoad 0 true) .free [("m", 7)] with
        lifecycle := .ready
        pins := [⟨"m", 1⟩] } := .loadReady _ _ (fun _ => true) 0 rfl
  have hrun : Bounded ["m"] Server.new _ :=
    ((((Relation.ReflTransGen.refl.tail ⟨⟨_, h₁⟩, below_of_single rfl (by decide)⟩).tail
      ⟨⟨_, h₂⟩, below_of_single rfl (by decide)⟩).tail
      ⟨⟨_, h₃⟩, below_of_single rfl (by decide)⟩).tail
      ⟨⟨_, h₄⟩, below_of_single rfl (by decide)⟩).tail
      ⟨⟨_, h₅⟩, below_of_single rfl (by decide)⟩
  exact ⟨_, hrun, rfl, (residency_and_pins ["m"] hrun).1⟩

end Eef.Node.ModelServer
