import Eef.Node.ModelReceipts

/-!
# Lifecycle commands along a run

The control of a load or unload lives in the model server. `Claimed` says whose it is: under an
identity that the node has not drawn, it belongs to the admission that holds the records lock,
or to a receipt whose operation is not over. `Withdrawal` lists how such a control ends.

A load gives its control up when the model becomes ready, which is before the worker writes
that the operation has completed. And a call can fail after its admission, when the runtime
closes before the reply is made: the receipt is there all the same.
-/

namespace Eef.Node.ModelLifecycle

open Eef.Lib
open Eef.Node.ModelServer (Server SlotResidency)

variable {drawn : String → Prop} {ids : List String} {rt t : ModelRuntime} {id : String}

/-! ## Controls -/

/-- The control of a model's slot. -/
def ModelRuntime.control (rt : ModelRuntime) (m : String) : Option String :=
  rt.server.bind (·.control m)

/-- The call that holds the records lock has reserved the control. -/
def ModelRuntime.Admits (rt : ModelRuntime) (m id : String) : Prop :=
  ∃ command remote, rt.admission = some (command, remote) ∧ command.controls = some m ∧
    command.selected = some id

/-- The worker has released the control of an operation. -/
def Worker.hasReleased (worker : Worker) (id : String) : Prop :=
  ∃ command cancelled outcome, worker = .released id command cancelled outcome

/-- Completed, failed or cancelled: the phases that the worker writes at the end. -/
def Phase.settled : Phase → Bool
  | .completed | .failed | .cancelled => true
  | _ => false

/-- A receipt whose operation is not over has the control. -/
structure Owes (rt : ModelRuntime) (m id : String) (op : Operation) : Prop where
  record : rt.records.lookup id = some op
  controls : op.receipt.command.controls = some m
  unsettled : op.receipt.phase.settled = false
  unreleased : ¬rt.worker.hasReleased id

/-- Whose a control is that the node has not drawn the identity of. -/
def Claimed (drawn : String → Prop) (rt : ModelRuntime) : Prop :=
  ∀ m id, rt.control m = some id → drawn id ∨ rt.Admits m id ∨ ∃ op, Owes rt m id op

/-- A marked record is settled only if it was. -/
theorem unsettled_marked {op op' : Operation} (h : op' = op ∨ op' = op.interrupt ∨
    (op' = op.requestCancel ∧ op.receipt.phase.live)) (hop : op.receipt.phase.settled = false) :
    op'.receipt.phase.settled = false := by
  rcases h with rfl | rfl | ⟨rfl, -⟩
  · exact hop
  · unfold Operation.interrupt
    split
    · rfl
    · exact hop
  · rfl

/-- Who has the control of an operation that is not over keeps it, unless the worker is about to
write the end of that operation. -/
theorem Change.owes (h : Books drawn rt) (hchange : Change drawn rt t) {m : String} {op : Operation}
    (howes : Owes rt m id op) (hworker : t.worker.hasReleased id → rt.worker.hasReleased id) :
    ∃ op', Owes t m id op' := by
  obtain ⟨hrecord, hctl, hunsettled, hunreleased⟩ := howes
  obtain ⟨op', hop', hlater⟩ := hchange.later h hrecord
  refine ⟨op', hop', by rw [hlater.command]; exact hctl, ?_, fun hr => hunreleased (hworker hr)⟩
  cases hchange with
  | kept hrecords =>
    rw [hrecords, hrecord] at hop'
    exact Option.some.inj hop' ▸ hunsettled
  | admitted i command remote hnew _ hsel _ hvalid hroom hrecords =>
    have hne : id ≠ i := by
      rintro rfl
      rw [hnew] at hrecord
      cases hrecord
    rw [hrecords, Assoc.lookup_set, if_neg hne, hrecord] at hop'
    exact Option.some.inj hop' ▸ hunsettled
  | marked f hf hrecords =>
    rw [hrecords, lookup_onRecords, hrecord] at hop'
    exact Option.some.inj hop' ▸ unsettled_marked (hf id op hrecord) hunsettled
  | taken i op'' _ _ _ ht =>
    have hlookup := lookup_onRecord Operation.start rt i id
    subst ht
    obtain rfl := Option.some.inj (hop'.symm.trans (hlookup.trans (by rw [hrecord]; rfl)))
    split
    · rfl
    · exact hunsettled
  | begun i command _ _ ht =>
    rw [ht] at hop'
    exact Option.some.inj (hrecord.symm.trans hop') ▸ hunsettled
  | settled i command cancelled outcome hreleased ht =>
    have hlookup := lookup_onRecord (Operation.settle command cancelled outcome) rt i id
    have hne : id ≠ i := by
      rintro rfl
      exact hunreleased ⟨command, cancelled, outcome, hreleased⟩
    rw [hrecord, Option.map_some, if_neg hne] at hlookup
    subst ht
    exact Option.some.inj (hop'.symm.trans hlookup) ▸ hunsettled

/-- What the model server does to a control, seen from the runtime. -/
theorem control_some {s : Server} (h : rt.server = some s) (m : String) :
    rt.control m = s.control m := by
  unfold ModelRuntime.control
  rw [h]
  rfl

/-- A release leaves no control under its identity behind, and the others alone. -/
theorem control_release {m i : String} {model : String}
    (h : t.server = rt.server.map (·.releaseControl model id)) :
    t.control m = some i ↔ rt.control m = some i ∧ ¬(m = model ∧ i = id) := by
  unfold ModelRuntime.control
  rw [h]
  cases rt.server with
  | none => simp
  | some s =>
    have hslot : (s.releaseControl model id).slot m = (s.slot m).map fun r =>
        if m = model then if r.control = some id then { r with control := none } else r else r :=
      s.slot_onSlot model
        (fun r => if r.control = some id then { r with control := none } else r) m
    change (s.releaseControl model id).control m = some i ↔ s.control m = some i ∧ _
    unfold Server.control
    rw [hslot]
    cases s.slot m with
    | none => simp
    | some r =>
      change (if m = model then if r.control = some id then { r with control := none } else r
        else r).control = some i ↔ r.control = some i ∧ _
      by_cases hm : m = model
      · rw [if_pos hm]
        split
        · rename_i hc
          simp [hc, hm, eq_comm]
        · rename_i hc
          refine ⟨fun hi => ⟨hi, ?_⟩, And.left⟩
          rintro ⟨-, rfl⟩
          exact hc hi
      · simp [hm]

/-- Where a control after a step comes from, when it was not there before. -/
theorem Step.gains (hlock : Locked drawn rt) (hstep : Step drawn ids rt t) {m : String}
    (ht : t.control m = some id) : rt.control m = some id ∨ drawn id ∨ t.Admits m id := by
  have hsame (h : t.server = rt.server) : rt.control m = some id := by
    unfold ModelRuntime.control at ht ⊢
    rwa [← h]
  cases hstep with
  | admitted _ closed request engine config remote reused hrequest hid hnone h =>
    cases admit_ok h with
    | unchanged heq => exact Or.inl (hsame (by rw [heq]))
    | cancelled i op hop hlive heq => exact Or.inl (hsame (by rw [heq]; rfl))
    | prepared i queue hsel hop hreuse hqueue heq => exact Or.inl (hsame (by rw [heq]; rfl))
    | reserved model i generation load s s' hctl hsel hreuse hserver hs heq =>
      have hturn : ModelServer.Turn (.reserveControl model i) s s' m :=
        ModelServer.Turn.reserved hs (Or.inl rfl) s'.operation
      subst heq
      change s'.control m = some id at ht
      rw [control_some hserver]
      cases hturn with
      | kept hk => exact Or.inl (hk ▸ ht)
      | gained j hj hfree ha =>
        obtain rfl := Option.some.inj (hj.symm.trans ht)
        refine Or.inr (Or.inr ?_)
        rcases ha with ha | ha | ha
        · cases ha
          exact ⟨request.command, remote, rfl, hctl, hsel⟩
        · cases ha
        · cases ha
      | lost hl =>
        rw [hl] at ht
        cases ht
      | fenced j hj ha => cases ha
  | enqueue =>
    rcases enqueue_cases hlock with ⟨hnone, he⟩ | ⟨command, remote, model, i, -, hadm,
      ⟨queue, hqueue, he⟩ | ⟨msg, -, he⟩⟩
    · exact Or.inl (hsame (by rw [he]))
    · exact Or.inl (hsame (by rw [he]; rfl))
    · exact Or.inl ((control_release (by rw [he])).1 ht).1
  | closeServer h =>
    exfalso
    unfold ModelRuntime.control at ht
    change (rt.server.map Server.close).bind (·.control m) = some id at ht
    cases hs : rt.server with
    | none =>
      rw [hs] at ht
      cases ht
    | some s =>
      rw [hs] at ht
      change s.close.control m = some id at ht
      unfold Server.control at ht
      rw [s.slot_close] at ht
      cases hr : s.slot m with
      | none =>
        rw [hr] at ht
        cases ht
      | some r =>
        rw [hr] at ht
        cases ht
  | take i h hnone =>
    refine Or.inl (hsame ?_)
    unfold ModelRuntime.take
    split
    · split <;> rfl
    · rfl
  | begin i command h =>
    refine Or.inl (hsame ?_)
    unfold ModelRuntime.begin
    split <;> rfl
  | release i command cancelled outcome h =>
    unfold ModelRuntime.release at ht hsame
    split at ht
    · exact Or.inl ((control_release rfl).1 ht).1
    · exact Or.inl ht
  | server a s s' hs hst hwho =>
    have hforeign (ha : ModelServer.Act.reserves a m id ∨ a = .stopChildren id) : drawn id := by
      rcases hwho with hdrawn | hcalls
      · refine hdrawn id ?_
        rcases ha with (rfl | rfl | rfl) | rfl <;> rfl
      · unfold Worker.calls at hcalls
        split at hcalls
        · rw [hcalls] at ha
          rcases ha with (ha | ha | ha) | ha <;> cases ha
        · rw [hcalls] at ha
          rcases ha with (ha | ha | ha) | ha <;> cases ha
        · exact False.elim hcalls
    rw [control_some hs]
    change s'.control m = some id at ht
    cases hst.turn (m := m) with
    | kept hk => exact Or.inl (hk ▸ ht)
    | gained j hj hfree ha =>
      obtain rfl := Option.some.inj (hj.symm.trans ht)
      exact Or.inr (Or.inl (hforeign (Or.inl ha)))
    | lost hl =>
      rw [hl] at ht
      cases ht
    | fenced j hj ha =>
      obtain rfl := Option.some.inj (hj.symm.trans ht)
      exact Or.inr (Or.inl (hforeign (Or.inr ha)))
  | _ => exact Or.inl (hsame rfl)

/-- Only the second half of the admission lets go of the records lock. -/
theorem Step.admission (hstep : Step drawn ids rt t) {p : LifecycleCommand × Bool}
    (h : rt.admission = some p) : t.admission = some p ∨ t = rt.enqueue.1 := by
  have hbusy (hnone : rt.admission = none) : False := by
    rw [h] at hnone
    cases hnone
  cases hstep with
  | admitted _ closed request engine config remote reused hrequest hid hnone _ =>
    exact (hbusy hnone).elim
  | enqueue => exact Or.inr rfl
  | closeInterrupt _ hnone => exact (hbusy hnone).elim
  | take i _ hnone => exact (hbusy hnone).elim
  | settle i command cancelled outcome _ hnone => exact (hbusy hnone).elim
  | begin i command _ =>
    unfold ModelRuntime.begin
    split <;> exact Or.inl h
  | release i command cancelled outcome _ => exact Or.inl ((rt.release_eq i command).2.2.2.trans h)
  | _ => exact Or.inl h

/-- Only the release of a control makes it released. -/
theorem Step.hasReleased (hlock : Locked drawn rt) (hstep : Step drawn ids rt t)
    (h : t.worker.hasReleased id) : rt.worker.hasReleased id ∨
      ∃ command cancelled outcome, rt.worker = .over id command cancelled outcome ∧
        t.server = (rt.release id command).server := by
  obtain ⟨c, b, o, hw⟩ := h
  cases hstep with
  | admitted _ closed request engine config remote reused hrequest hid hnone h =>
    refine Or.inl ⟨c, b, o, ?_⟩
    cases admit_ok h with
    | unchanged ht => rwa [ht] at hw
    | cancelled i op hop hlive ht => rwa [ht] at hw
    | prepared i queue hsel hop hreuse hqueue ht => rwa [ht] at hw
    | reserved model i generation load s s' hctl hsel hreuse hserver hs ht => rwa [ht] at hw
  | enqueue =>
    refine Or.inl ⟨c, b, o, ?_⟩
    rcases enqueue_cases hlock with ⟨hnone, he⟩ | ⟨command, remote, model, i, -, hadm,
      ⟨queue, hqueue, he⟩ | ⟨msg, -, he⟩⟩
    · rwa [he] at hw
    · rwa [he] at hw
    · rwa [he] at hw
  | tick _ _ =>
    change (if rt.closed then Worker.gone else .idling) = _ at hw
    split at hw <;> cases hw
  | check i _ =>
    change (if rt.closed then Worker.gone else .cleared i) = _ at hw
    split at hw <;> cases hw
  | take i _ _ =>
    unfold ModelRuntime.take at hw
    split at hw
    · split at hw <;> cases hw
    · cases hw
  | begin i command _ =>
    unfold ModelRuntime.begin at hw
    split at hw <;> cases hw
  | release i command cancelled outcome hover =>
    cases hw
    exact Or.inr ⟨c, b, o, hover, rfl⟩
  | run _ => cases hw
  | idled _ => cases hw
  | recv i queue _ _ => cases hw
  | cancelled i command _ _ _ => cases hw
  | finished i command answer _ _ => cases hw
  | settle i command cancelled outcome _ _ => cases hw
  | abandon _ => cases hw
  | _ => exact Or.inl ⟨c, b, o, hw⟩

theorem Step.claimed (h : Books drawn rt) (hlock : Locked drawn rt) (hclaimed : Claimed drawn rt)
    (hstep : Step drawn ids rt t) : Claimed drawn t := by
  intro m id ht
  rcases hstep.gains hlock ht with hbefore | hdrawn | hadmits
  · rcases hclaimed m id hbefore with hdrawn | ⟨command, remote, hadm, hctl, hsel⟩ | ⟨op, howes⟩
    · exact Or.inl hdrawn
    · rcases hstep.admission hadm with hsame | henqueue
      · exact Or.inr (Or.inl ⟨command, remote, hsame, hctl, hsel⟩)
      · -- The admission is over: there is a receipt now, or the control was given up.
        rcases enqueue_cases hlock with ⟨hnone, -⟩ | ⟨command', remote', model, i, hadm', hlocked,
          hcases⟩
        · rw [hadm] at hnone
          cases hnone
        · rw [hadm] at hadm'
          cases Option.some.inj hadm'
          obtain rfl := Option.some.inj (hctl.symm.trans hlocked.controls)
          obtain rfl := Option.some.inj (hsel.symm.trans hlocked.selected)
          rcases hcases with ⟨queue, hqueue, he⟩ | ⟨msg, -, he⟩
          · refine Or.inr (Or.inr ⟨.admitted command remote, ?_⟩)
            rw [henqueue, he]
            refine ⟨?_, hctl, rfl, ?_⟩
            · exact (Assoc.lookup_set id id _ rt.records).trans (if_pos rfl)
            · rintro ⟨c, b, o, hreleased⟩
              obtain ⟨op, hop, -⟩ := h.hand id c (by
                change rt.worker = _ at hreleased
                rw [hreleased]
                rfl)
              rw [hlocked.new] at hop
              cases hop
          · exact absurd ⟨rfl, rfl⟩ ((control_release (by rw [henqueue, he])).1 ht).2
    · obtain ⟨op', howes'⟩ := (hstep.change hlock).owes h howes (fun hreleased => by
        rcases hstep.hasReleased hlock hreleased with hr | ⟨command, cancelled, outcome, hover, hs⟩
        · exact hr
        · exfalso
          obtain ⟨op', hop', rfl, -⟩ := h.hand id command (by rw [hover]; rfl)
          obtain rfl := Option.some.inj (howes.record.symm.trans hop')
          unfold ModelRuntime.release at hs
          simp only [howes.controls] at hs
          exact ((control_release hs).1 ht).2 ⟨rfl, rfl⟩)
      exact Or.inr (Or.inr ⟨op', howes'⟩)
  · exact Or.inl hdrawn
  · exact Or.inr (Or.inl hadmits)

/-- The steps that end a control that was reserved for a load or unload: the section of the
model server that finishes that load or unload, the worker's release after it, an admission that
is refused, a section in which the model server regroups its slots, and the end of the
runtime. -/
inductive Withdrawal (ids : List String) (rt t : ModelRuntime) (m id : String) : Prop where
  | worked (a : ModelServer.Act) (s s' : Server) (hs : rt.server = some s)
    (hstep : ModelServer.Step ids a s s') (ht : t = { rt with server := some s' })
    (h : ModelServer.Finishes a s s' m id)
  | released (command : LifecycleCommand) (cancelled : Bool)
    (outcome : Result (Option OllamaPreparationObservation))
    (h : rt.worker = .over id command cancelled outcome) (hctl : command.controls = some m)
    (ht : t = { rt.release id command with worker := .released id command cancelled outcome })
  | refused (msg : String) (hadmits : rt.Admits m id) (h : rt.enqueue = (t, .error msg))
  | regrouped (a : ModelServer.Act) (s s' : Server) (hs : rt.server = some s)
    (hstep : ModelServer.Step ids a s s') (ht : t = { rt with server := some s' })
    (h : a.regroups)
  | closed (h : rt.closing = .marked)
    (ht : t = { rt with
      server := rt.server.map Server.close
      closing := .shut })

/-- A control that the node has not drawn the identity of is held until it is withdrawn. -/
theorem Step.holds (hlock : Locked drawn rt) (hstep : Step drawn ids rt t) {m : String}
    (hrt : rt.control m = some id) (hforeign : ¬drawn id) :
    t.control m = some id ∨ Withdrawal ids rt t m id := by
  have hsame (h : t.server = rt.server) : t.control m = some id := by
    unfold ModelRuntime.control at hrt ⊢
    rwa [h]
  cases hstep with
  | admitted _ closed request engine config remote reused hrequest hid hnone h =>
    cases admit_ok h with
    | unchanged heq => exact Or.inl (hsame (by rw [heq]))
    | cancelled i op hop hlive heq => exact Or.inl (hsame (by rw [heq]; rfl))
    | prepared i queue hsel hop hreuse hqueue heq => exact Or.inl (hsame (by rw [heq]; rfl))
    | reserved model i generation load s s' hctl hsel hreuse hserver hs heq =>
      have hturn : ModelServer.Turn (.reserveControl model i) s s' m :=
        ModelServer.Turn.reserved hs (Or.inl rfl) s'.operation
      subst heq
      rw [control_some hserver] at hrt
      change s'.control m = some id ∨ _
      cases hturn with
      | kept hk => exact Or.inl (hk.trans hrt)
      | gained j hj hfree ha =>
        rw [hfree] at hrt
        cases hrt
      | lost hl ha =>
        rcases ha id hrt with ⟨-, r, -, hstate⟩ | ha | ha
        · cases hstate
        · cases ha
        · cases ha
      | fenced j hj ha => cases ha
  | enqueue =>
    rcases enqueue_cases hlock with ⟨hnone, he⟩ | ⟨command, remote, model, i, hadm, hlocked,
      ⟨queue, hqueue, he⟩ | ⟨msg, -, he⟩⟩
    · exact Or.inl (hsame (by rw [he]))
    · exact Or.inl (hsame (by rw [he]; rfl))
    · by_cases hboth : m = model ∧ id = i
      · obtain ⟨rfl, rfl⟩ := hboth
        exact Or.inr (.refused msg ⟨command, remote, hadm, hlocked.controls, hlocked.selected⟩
          (by rw [he]))
      · exact Or.inl ((control_release (by rw [he])).2 ⟨hrt, hboth⟩)
  | closeServer h => exact Or.inr (.closed h rfl)
  | take i h hnone =>
    refine Or.inl (hsame ?_)
    unfold ModelRuntime.take
    split
    · split <;> rfl
    · rfl
  | begin i command h =>
    refine Or.inl (hsame ?_)
    unfold ModelRuntime.begin
    split <;> rfl
  | release i command cancelled outcome h =>
    unfold ModelRuntime.release
    split
    · rename_i model hctl
      by_cases hboth : m = model ∧ id = i
      · obtain ⟨rfl, rfl⟩ := hboth
        refine Or.inr (.released command cancelled outcome h hctl ?_)
        unfold ModelRuntime.release
        simp only [hctl]
      · exact Or.inl ((control_release rfl).2 ⟨hrt, hboth⟩)
    · exact Or.inl hrt
  | server a s s' hs hst hwho =>
    rw [control_some hs] at hrt
    change s'.control m = some id ∨ _
    cases hst.turn (m := m) with
    | kept hk => exact Or.inl (hk.trans hrt)
    | gained j hj hfree ha =>
      rw [hfree] at hrt
      cases hrt
    | lost hl ha =>
      rcases ha id hrt with hw | ha | ha
      · exact Or.inr (.worked a s s' hs hst rfl hw)
      · -- A release under an identity that the node drew is one of another control.
        exfalso
        rcases hwho with hdrawn | hcalls
        · exact hforeign (hdrawn id (by rw [ha]; rfl))
        · unfold Worker.calls at hcalls
          rw [ha] at hcalls
          split at hcalls
          · cases hcalls
          · cases hcalls
          · exact hcalls
      · exact Or.inr (.regrouped a s s' hs hst rfl ha)
    | fenced j hj ha => exact Or.inr (.regrouped a s s' hs hst rfl (by rw [ha]; rfl))
  | _ => exact Or.inl (hsame rfl)

/-! ## Runs -/

/-- A runtime that was just bound. The model server may have run before, and nobody but the node
has control of a slot. -/
structure ModelRuntime.New (drawn : String → Prop) (rt : ModelRuntime) : Prop where
  records : rt.records = []
  queue : rt.queue = []
  admission : rt.admission = none
  worker : rt.worker = .unstarted
  started : rt.started = []
  controls : ∀ m id, rt.control m = some id → drawn id

/-- A run of the runtime. -/
abbrev Commands (drawn : String → Prop) (ids : List String) : ModelRuntime → ModelRuntime → Prop :=
  Run (Step drawn ids)

/-- The whole invariant. -/
structure Inv (drawn : String → Prop) (rt : ModelRuntime) : Prop where
  books : Books drawn rt
  locked : Locked drawn rt
  claimed : Claimed drawn rt

theorem ModelRuntime.New.inv (h : rt.New drawn) : Inv drawn rt := by
  refine ⟨⟨?_, ?_, ?_, ?_, ?_, ?_, ?_, ?_⟩, ?_, fun m id hc => Or.inl (h.controls m id hc)⟩
  · rw [h.records]
    exact Nat.zero_le _
  · intro id op hop
    rw [h.records] at hop
    cases hop
  · intro id op hop
    rw [h.records] at hop
    cases hop
  · intro id _
    simp [ModelRuntime.line, h.started, h.worker, h.queue, Worker.holds]
  · intro id hid
    simp [ModelRuntime.line, h.started, h.worker, h.queue, Worker.holds] at hid
  · rw [h.started]
    exact List.not_mem_nil
  · intro id command hc
    rw [h.worker] at hc
    cases hc
  · intro p hp
    rw [h.worker] at hp
    cases hp
  · intro command remote hadm
    rw [h.admission] at hadm
    cases hadm

theorem Inv.step (h : Inv drawn rt) (hstep : Step drawn ids rt t) : Inv drawn t :=
  ⟨(hstep.change h.locked).books h.books (hstep.fixed h.locked).1, hstep.locked h.locked,
    hstep.claimed h.books h.locked h.claimed⟩

theorem Inv.run (h : Inv drawn rt) (hrun : Commands drawn ids rt t) : Inv drawn t :=
  Run.invariant (fun _ _ hinv hstep => hinv.step hstep) h hrun

/-- Along a run a record only becomes a later one, and what is cancelled before it is begun is
never begun. -/
theorem Inv.later (h : Inv drawn rt) (hrun : Commands drawn ids rt t) {op : Operation}
    (hop : rt.records.lookup id = some op) :
    ∃ op', t.records.lookup id = some op' ∧ op.Later op' ∧
      (op.cancel → id ∉ rt.started → id ∉ t.started) := by
  induction hrun with
  | refl => exact ⟨op, hop, .refl op, fun _ hno => hno⟩
  | tail hbefore hlast ih =>
    obtain ⟨op', hop', hlater, hnever⟩ := ih
    have hinv := h.run hbefore
    have hchange := hlast.change hinv.locked
    obtain ⟨op'', hop'', hlater'⟩ := hchange.later hinv.books hop'
    refine ⟨op'', hop'', hlater.trans hlater', fun hc hno => ?_⟩
    exact hchange.never hop' (hlater.cancel hc) (hnever hc hno)

theorem Inv.policy (h : Inv drawn rt) (hrun : Commands drawn ids rt t) : t.policy = rt.policy := by
  induction hrun with
  | refl => rfl
  | tail hbefore hlast ih => exact (hlast.fixed (h.run hbefore).locked).1.trans ih

/-- The worker begins every operation at most once. -/
theorem Books.started_nodup (h : Books drawn rt) : rt.started.Nodup := by
  refine List.nodup_iff_count_le_one.2 fun id => ?_
  by_cases hid : id = ""
  · subst hid
    rw [List.count_eq_zero.2 h.named]
    exact Nat.zero_le 1
  · have := h.once id hid
    omega

/-- A command whose identity is known finds its own receipt or fails, and changes nothing. -/
theorem admit_known {engine : Option Engine} {config : Result Json} {command : LifecycleCommand}
    {remote : Bool} {op : Operation} (hop : command.operates) (hsel : command.selected = some id)
    (hrecord : rt.records.lookup id = some op) :
    rt.admitCommand engine config command remote =
      if op.receipt.command = command then .ok (rt, true)
      else .error "Model lifecycle receipt conflicts; inspect original" := by
  have hreuse : rt.reuse command id = if op.receipt.command = command then .ok true
      else .error "Model lifecycle receipt conflicts; inspect original" := by
    unfold ModelRuntime.reuse
    rw [hrecord]
    by_cases hsame : op.receipt.command = command
    · simp [hsame, bailIf, bind, Except.bind, pure, Except.pure]
    · simp [hsame, bailIf, bind, Except.bind]
  cases command with
  | inspect => cases hop
  | cancel => cases hop
  | _ =>
    obtain rfl := Option.some.inj hsel
    simp only [ModelRuntime.admitCommand, hreuse]
    split <;> rfl

/-- An admission that is refused after it has reserved control leaves nothing behind. -/
theorem Inv.refused (h : Inv drawn rt) {msg : String} (he : rt.enqueue.2 = .error msg) :
    ∃ model id, rt.Admits model id ∧ rt.enqueue.1.records = rt.records ∧
      rt.enqueue.1.queue = rt.queue ∧ rt.records.lookup id = none ∧
      ∀ m, rt.enqueue.1.control m ≠ some id := by
  have hstep : Step drawn [] rt rt.enqueue.1 := .enqueue rt
  have hafter := h.step hstep
  rcases enqueue_cases h.locked with ⟨hnone, heq⟩ | ⟨command, remote, model, id, hadm, hlocked,
    ⟨queue, hqueue, heq⟩ | ⟨msg', -, heq⟩⟩
  · rw [heq] at he
    cases he
  · rw [heq] at he
    cases he
  · rw [heq] at hafter ⊢
    refine ⟨model, id, ⟨command, remote, hadm, hlocked.controls, hlocked.selected⟩, rfl, rfl,
      hlocked.new, fun m hc => ?_⟩
    rcases hafter.claimed m id hc with hdrawn | ⟨command', remote', hadm', -⟩ | ⟨op, howes⟩
    · exact hlocked.foreign hdrawn
    · cases hadm'
    · have hrecord := howes.record
      change rt.records.lookup id = some op at hrecord
      rw [hlocked.new] at hrecord
      cases hrecord

/-- A receipt that the worker has written the end of holds no control. -/
theorem Inv.uncontrolled (h : Inv drawn rt) {op : Operation}
    (hop : rt.records.lookup id = some op) (hsettled : op.receipt.phase.settled) (m : String) :
    rt.control m ≠ some id := by
  intro hc
  rcases h.claimed m id hc with hdrawn | ⟨command, remote, hadm, -, hsel⟩ | ⟨op', howes⟩
  · exact h.books.foreign id op hop hdrawn
  · obtain ⟨model, i, hlocked⟩ := h.locked command remote hadm
    obtain rfl := Option.some.inj (hsel.symm.trans hlocked.selected)
    rw [hlocked.new] at hop
    cases hop
  · obtain rfl := Option.some.inj (hop.symm.trans howes.record)
    rw [howes.unsettled] at hsettled
    cases hsettled

/-! ## Replies -/

/-- A reply shows the receipt as it was read, and what the admission has found. -/
theorem reply_ok {request : LifecycleRequest} {engine : Option Engine} {reused : Bool}
    {models : Result (List Snapshot)} {idleEvents : List IdleEvent} {report : Report}
    (h : reply request engine reused rt models idleEvents = .ok report) :
    report.reused = reused ∧ report.command = request.command ∧
      rt.receipt request.command = .ok report.receipt := by
  simp only [reply, bind_ok, ensure_ok, pure_ok] at h
  obtain ⟨receipt, hreceipt, _, -, _, -, rfl⟩ := h
  exact ⟨rfl, rfl, hreceipt⟩

/-- Every receipt passes the check that a reply makes of it. -/
theorem Books.confirmed (h : Books drawn rt) {request : LifecycleRequest} {report : Report}
    {op : Operation} (hrequest : request.validate = .ok ())
    (hnode : report.nodeId = request.expectedNodeId) (hruntime : uuid report.runtimeId = true)
    (hsel : request.command.selected = some id) (hop : rt.records.lookup id = some op)
    (hcommand : request.command.operates → op.receipt.command = request.command)
    (hcancel : (∃ i, request.command = .cancel i) → op.receipt.command.cancellable)
    (hsupported : if op.receipt.command.prepares then report.ollamaPreparationSupported
      else report.supported) : op.receipt.confirmed report request = true := by
  have hsound := h.receipts id op hop
  have hnested : LifecycleRequest.validate ⟨1, report.nodeId, some report.runtimeId,
      op.receipt.command⟩ = .ok () := by
    simp only [LifecycleRequest.validate, bind_ok, ensure_ok, bailIf_ok] at hrequest ⊢
    obtain ⟨_, -, _, hremote, -⟩ := hrequest
    refine ⟨(), trivial, (), hnode ▸ hremote, (), by simp, (), ?_, hsound.valid⟩
    exact each_ok.2 fun i hi => by
      obtain rfl := List.mem_singleton.1 hi
      exact validateUuid_ok.2 hruntime
  have hfailed : (op.receipt.phase == .failed || op.receipt.phase == .interrupted) =
      op.receipt.errorCode.isSome := by
    rw [Bool.eq_iff_iff, hsound.error]
    simp
  have hprep : op.receipt.preparation.isSome =
      (op.receipt.command.prepares && op.receipt.phase == .completed) := by
    rw [Bool.eq_iff_iff, hsound.preparation]
    simp
  have hshort : op.receipt.errorCode.all (fun e => decide (e.utf8ByteSize ≤ 64)) = true := by
    cases he : op.receipt.errorCode with
    | none => rfl
    | some e => simpa using hsound.short e he
  unfold Receipt.confirmed
  simp only [Bool.and_eq_true, beq_iff_eq]
  refine ⟨⟨⟨⟨⟨⟨⟨⟨?_, ?_⟩, hsound.shared⟩, hprep⟩, ?_⟩, hfailed⟩, hshort⟩, ?_⟩, ?_⟩
  · exact isOk_unit.2 hnested
  · split
    · rename_i hs
      rwa [if_pos hs] at hsupported
    · rename_i hs
      rwa [if_neg hs] at hsupported
  · split
    · rename_i i hi
      exact hcancel ⟨i, hi⟩
    · rfl
  · -- the receipt is of the operation that was asked about
    have hs := hsound.selected
    have hv := hsound.valid
    have ho := hsound.operates
    have hobs := hsound.observed
    cases hc : op.receipt.command with
    | inspect => rw [hc] at ho; cases ho
    | cancel => rw [hc] at ho; cases ho
    | load model generation operationId =>
      rw [hc] at hs
      simp [hsel, ← Option.some.inj hs]
    | unload model generation operationId =>
      rw [hc] at hs
      simp [hsel, ← Option.some.inj hs]
    | prepareOllama model digest operationId =>
      rw [hc] at hs hv
      simp only [LifecycleCommand.validate, bind_ok, ensure_ok] at hv
      obtain ⟨_, -, _, -, hdigest⟩ := hv
      have hsame : request.command.selected = some operationId := hsel.trans hs.symm
      simp only [hsame, beq_self_eq_true, Bool.true_and]
      cases hp : op.receipt.preparation with
      | none => rfl
      | some p =>
        obtain ⟨rfl, hcontext⟩ := hobs p model digest operationId hp hc
        simp [hdigest, hcontext]
  · cases ho : request.command.operates with
    | false => rfl
    | true => simp [hcommand ho]

/-- Lifecycle commands, along every run of a runtime that was just bound. There are at most
`receipt_capacity` receipts. A load, unload or preparation under a known identity changes
nothing: it finds its own receipt, or fails. A reply shows the receipt as it was read, and
whether it was found. The worker begins every operation at most once. Every receipt is sound,
and along the run keeps its command, stays as it is once final, and is never begun once it was
cancelled before. An admission that is refused leaves neither a receipt nor a control behind.
A control that was reserved for a load or unload stays until it is withdrawn, and a receipt
that has completed, failed or been cancelled holds none. -/
theorem lifecycle_commands (drawn : String → Prop) (ids : List String) {rt₀ rt : ModelRuntime}
    (hnew : rt₀.New drawn) (hrun : Commands drawn ids rt₀ rt) :
    rt.records.length ≤ rt₀.policy.receiptCapacity ∧
    (∀ engine config command remote id op, command.operates → command.selected = some id →
      rt.records.lookup id = some op →
      rt.admitCommand engine config command remote =
        if op.receipt.command = command then .ok (rt, true)
        else .error "Model lifecycle receipt conflicts; inspect original") ∧
    (∀ request engine reused models idleEvents report,
      reply request engine reused rt models idleEvents = .ok report →
      report.reused = reused ∧ report.command = request.command ∧
        rt.receipt request.command = .ok report.receipt) ∧
    rt.started.Nodup ∧
    (∀ id op, rt.records.lookup id = some op → op.receipt.Sound id ∧
      ∀ t, Commands drawn ids rt t → ∃ op', t.records.lookup id = some op' ∧ op.Later op' ∧
        (op.cancel → id ∉ rt.started → id ∉ t.started)) ∧
    (∀ msg, rt.enqueue.2 = .error msg → ∃ model id, rt.Admits model id ∧
      rt.enqueue.1.records = rt.records ∧ rt.enqueue.1.queue = rt.queue ∧
      rt.records.lookup id = none ∧ ∀ m, rt.enqueue.1.control m ≠ some id) ∧
    (∀ t m id, Step drawn ids rt t → rt.control m = some id → ¬drawn id →
      t.control m = some id ∨ Withdrawal ids rt t m id) ∧
    (∀ id op, rt.records.lookup id = some op → op.receipt.phase.settled →
      ∀ m, rt.control m ≠ some id) := by
  have h := hnew.inv.run hrun
  refine ⟨?_, fun engine config command remote id op hop hsel hrecord =>
    admit_known hop hsel hrecord, fun request engine reused models idleEvents report hreply =>
    reply_ok hreply, h.books.started_nodup, fun id op hop => ⟨h.books.receipts id op hop,
    fun t hlater => h.later hlater hop⟩, fun msg he => h.refused he,
    fun t m id hstep hc hforeign => hstep.holds h.locked hc hforeign,
    fun id op hop hsettled m => h.uncontrolled hop hsettled m⟩
  have hpolicy := hnew.inv.policy hrun
  rw [← hpolicy]
  exact h.books.capacity

/-! ## A load -/

/-- The identity of the sample load. -/
def sampleId : String := "11111111-1111-4111-8111-111111111111"

/-- A runtime with one receipt, of the sample load. -/
def sample (server : Server) (closing : Closing) (worker : Worker) (queue started : List String)
    (records : List (String × Operation)) : ModelRuntime where
  nodeId := "owner"
  id := "22222222-2222-4222-8222-222222222222"
  models := .obj []
  policy := .default
  policyRevision := 0
  server := some server
  idleEvents := []
  closing
  records
  queue
  admission := none
  worker
  started

/-- The sample load. -/
def sampleLoad : LifecycleCommand := .load "m" 0 sampleId

/-- The request for it. -/
def sampleRequest : LifecycleRequest where
  schemaVersion := 1
  expectedNodeId := "owner"
  expectedRuntimeId := some "22222222-2222-4222-8222-222222222222"
  command := sampleLoad

/-- Its record in a phase. -/
def sampleRecord (phase : Phase) : List (String × Operation) :=
  [(sampleId, ⟨⟨sampleLoad, phase, none, false, none⟩, false, false⟩)]

/-- The slot of its model, reserved. -/
def sampleSlot : SlotResidency := SlotResidency.fresh.reserve sampleId

/-- The runtime before and after the admission of the load. -/
def sampleBefore : ModelRuntime := sample .new .live .unstarted [] [] []

@[inherit_doc sampleBefore]
def sampleAfter : ModelRuntime :=
  sample (.single sampleSlot .free []) .live .unstarted [sampleId] [] (sampleRecord .queued)

theorem sample_new : sampleBefore.New fun _ => False :=
  ⟨rfl, rfl, rfl, rfl, rfl, nofun⟩

theorem sample_admitted : Commands (fun _ => False) ["m"] sampleBefore sampleAfter := by
  let config : Json := .obj [("node_id", .str "owner"), ("models", .obj [])]
  let engine : Engine := ⟨fun _ => false, false⟩
  let ready := sample (.single .fresh .free []) .live .unstarted [] [] []
  let locked : ModelRuntime := { sample (.single sampleSlot .free []) .live .unstarted [] [] [] with
    admission := some (sampleLoad, false) }
  have h₁ : Step (fun _ => False) ["m"] sampleBefore ready :=
    .server _ .initializeResidency _ (.single .fresh .free []) rfl
      (ModelServer.Step.initializeResidency .new) (Or.inl nofun)
  have h₂ : Step (fun _ => False) ["m"] ready locked :=
    .admitted _ _ false sampleRequest (some engine) (.ok config) false false (by decide +kernel)
      (fun _ _ => id) rfl rfl
  have h₃ : Step (fun _ => False) ["m"] locked sampleAfter := .enqueue _
  exact ((Relation.ReflTransGen.refl.tail h₁).tail h₂).tail h₃

/-- The sample load is under way, with the model's slot and the processes as they are. -/
def sampleRunning (o : ModelServer.Operation) (r : SlotResidency) (p : List (String × Nat)) :
    ModelRuntime :=
  sample (.single r o p) .live (.running sampleId sampleLoad) [] [sampleId] (sampleRecord .running)

/-- The sample load has its process. -/
def sampleLoaded : ModelRuntime :=
  sampleRunning (.loaded "m" sampleId false) sampleSlot.beginLoad [("m", 7)]

/-- And the model is ready for use. -/
def sampleReady : ModelRuntime :=
  { sampleRunning .free (sampleSlot.beginLoad.endLoad 0 false) [("m", 7)] with
    server := some { Server.single (sampleSlot.beginLoad.endLoad 0 false) .free [("m", 7)] with
      lifecycle := .ready } }

theorem sample_loaded : Commands (fun _ => False) ["m"] sampleAfter sampleLoaded := by
  let stage (w : Worker) (q : List String) (p : Phase) :=
    sample (.single sampleSlot .free []) .live w q [] (sampleRecord p)
  have h₁ : Step (fun _ => False) ["m"] sampleAfter (stage .waiting [sampleId] .queued) :=
    .run _ rfl
  have h₂ : Step (fun _ => False) ["m"] (stage .waiting [sampleId] .queued)
      (stage (.popped sampleId) [] .queued) := .recv _ sampleId [] rfl rfl
  have h₃ : Step (fun _ => False) ["m"] (stage (.popped sampleId) [] .queued)
      (stage (.cleared sampleId) [] .queued) := .check _ sampleId rfl
  have h₄ : Step (fun _ => False) ["m"] (stage (.cleared sampleId) [] .queued)
      (stage (.taken sampleId sampleLoad) [] .running) := .take _ sampleId rfl rfl
  have h₅ : Step (fun _ => False) ["m"] (stage (.taken sampleId sampleLoad) [] .running)
      (sampleRunning .free sampleSlot []) := .begin _ sampleId sampleLoad rfl
  have h₆ : Step (fun _ => False) ["m"] (sampleRunning .free sampleSlot [])
      (sampleRunning (.loading "m" sampleId false) sampleSlot.beginLoad []) :=
    .server _ (.loadAdmit "m" sampleId) _
      (.single sampleSlot.beginLoad (.loading "m" sampleId false) []) rfl
      (.loadAdmit _ _ "m" sampleId false rfl) (Or.inr rfl)
  have h₇ : Step (fun _ => False) ["m"]
      (sampleRunning (.loading "m" sampleId false) sampleSlot.beginLoad []) sampleLoaded :=
    .server _ (.loadSpawn 7) _
      (.single sampleSlot.beginLoad (.loaded "m" sampleId false) [("m", 7)]) rfl
      (.loadSpawn _ (.single sampleSlot.beginLoad (.loading "m" sampleId false) [("m", 7)]) "m"
        sampleId false 7 rfl (by decide) rfl) (Or.inl nofun)
  exact ((((((Relation.ReflTransGen.refl.tail h₁).tail h₂).tail h₃).tail h₄).tail h₅).tail
    h₆).tail h₇

theorem sample_ready : Step (fun _ => False) ["m"] sampleLoaded sampleReady :=
  .server _ .loadReady _ _ rfl (.loadReady _ _ (fun _ => true) 0 rfl) (Or.inl nofun)

/-- The load has been ready for use before its receipt says that it is complete, and gave up its
control then. And where the runtime closes between an admission and its reply, the call fails
although its receipt is there. -/
theorem control_before_receipt :
    (∃ rt t op, Commands (fun _ => False) ["m"] sampleBefore rt ∧
      Step (fun _ => False) ["m"] rt t ∧ rt.control "m" = some sampleId ∧ t.control "m" = none ∧
      t.records.lookup sampleId = some op ∧ op.receipt.phase = .running) ∧
    ∃ rt op s, Commands (fun _ => False) ["m"] sampleBefore sampleAfter ∧
      Commands (fun _ => False) ["m"] sampleAfter rt ∧
      rt.records.lookup sampleId = some op ∧ rt.server = some s ∧
      ∀ engine saw observe, reply sampleRequest engine false sampleAfter
        (snapshot ["m"] saw observe s) rt.idleEvents =
          .error "model runtime closed; no new load or inference" := by
  constructor
  · exact ⟨_, _, _, sample_admitted.trans sample_loaded, sample_ready, rfl, rfl, rfl, rfl⟩
  · let stage (s : Server) (c : Closing) (r : List (String × Operation)) :=
      sample s c .unstarted [sampleId] [] r
    let records : List (String × Operation) :=
      [(sampleId, (Operation.admitted sampleLoad false).interrupt)]
    have h₁ : Step (fun _ => False) ["m"] sampleAfter
        (stage (.single sampleSlot .free []) .swapped (sampleRecord .queued)) := .closeSwap _ rfl
    have h₂ : Step (fun _ => False) ["m"]
        (stage (.single sampleSlot .free []) .swapped (sampleRecord .queued))
        (stage (.single sampleSlot .free []) .marked records) := .closeInterrupt _ rfl rfl
    have h₃ : Step (fun _ => False) ["m"] (stage (.single sampleSlot .free []) .marked records)
        (stage (Server.close (.single sampleSlot .free [])) .shut records) := .closeServer _ rfl
    exact ⟨_, _, _, sample_admitted, ((Relation.ReflTransGen.refl.tail h₁).tail h₂).tail h₃, rfl, rfl,
      fun _ _ _ => rfl⟩

/-- The sample load, while its process starts: sent again it is found again, another body under
its identity is refused, and the control it has goes in the section that makes the model
ready. -/
theorem lifecycle_commands_load :
    sampleLoaded.admitCommand none (.error "") sampleLoad false = .ok (sampleLoaded, true) ∧
    sampleLoaded.admitCommand none (.error "") (.unload "m" 0 sampleId) false =
      .error "Model lifecycle receipt conflicts; inspect original" ∧
    sampleLoaded.started = [sampleId] ∧ sampleLoaded.started.Nodup ∧
    sampleLoaded.control "m" = some sampleId ∧ sampleReady.control "m" = none ∧
    Withdrawal ["m"] sampleLoaded sampleReady "m" sampleId := by
  have h := lifecycle_commands (fun _ => False) ["m"] sample_new
    (sample_admitted.trans sample_loaded)
  have hrecord : sampleLoaded.records.lookup sampleId =
      some ⟨⟨sampleLoad, .running, none, false, none⟩, false, false⟩ := rfl
  refine ⟨h.2.1 none (.error "") sampleLoad false sampleId _ rfl rfl hrecord,
    h.2.1 none (.error "") (.unload "m" 0 sampleId) false sampleId _ rfl rfl hrecord, rfl,
    h.2.2.2.1, rfl, rfl, ?_⟩
  rcases h.2.2.2.2.2.2.1 sampleReady "m" sampleId sample_ready rfl id with hheld | hend
  · cases hheld
  · exact hend

end Eef.Node.ModelLifecycle
