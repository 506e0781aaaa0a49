import Mathlib.Data.List.Perm.Subperm
import Eef.Coordinator.SetupWorkers

/-!
# Setup model checks run at most once

A worker exists only in the process that inserted its record, and has to claim the record before
it sends its start request; a record is claimed once, since states only move forward. Everything
a worker relies on is about its own record, which nobody but itself and a cancellation moves. So
the invariant `Inv` splits: a change of the store is checked against what workers and calls rely
on (`Inv.rows`), a change of a worker's phase against its own record (`Inv.phase`), a change of
the map against the workers whose record is live (`Inv.entries`).
-/

namespace Eef.Coordinator.SetupChecks

open Eef.Lib Eef.Node Eef.Node.ModelVerification

theorem State.Moves.live {state next : State} (h : state.Moves next) : state.live = true := by
  cases h <;> rfl

theorem Record.Moved.live {r r' : Record} (h : r.Moved r') (hlive : r'.state.live = true) :
    r.state.live = true := by
  rcases h.state with hs | hs
  · rw [← hs]
    exact hlive
  · exact hs.live

/-- A record that is not live any more stays as it is. -/
theorem Record.Moved.final {r r' : Record} (h : r.Moved r') (hfinal : r.state.live = false) :
    r'.state = r.state := by
  rcases h.state with hs | hs
  · exact hs
  · rw [hs.live] at hfinal
    cases hfinal

/-- A record that its worker claimed. -/
def State.claimed (state : State) : Prop :=
  state = .launching ∨ state = .finished ∨ state = .unknown

theorem State.claimed_of_moves {state next : State} (h : state.Moves next)
    (hs : state.claimed) : next.claimed := by
  cases h with
  | claimed | cancelled | expired | abandoned => rcases hs with hs | hs | hs <;> cases hs
  | finished => exact Or.inr (Or.inl rfl)
  | lost => exact Or.inr (Or.inr rfl)

theorem Record.Moved.claimed {r r' : Record} (h : r.Moved r') (hr : r.state.claimed) :
    r'.state.claimed := by
  rcases h.state with hs | hs
  · rw [hs]
    exact hr
  · exact State.claimed_of_moves hs hr

section

variable [F64] [Sha256]

/-! ## The invariant -/

/-- A worker with a live record is registered. -/
def Registered (active : List (String × Active)) (w : Work) : Prop :=
  ∃ entry, active.lookup w.definition.nodeId = some entry ∧
    entry.operation = w.definition.operationId

/-- The phases before a start request. -/
def Phase.unsent : Phase → Prop
  | .prepared | .waiting | .launched => True
  | _ => False

/-- The phases between the claim and the checkpoint. -/
def Phase.claimed : Phase → Prop
  | .launched | .started => True
  | _ => False

/-- What a worker relies on. -/
structure WorkOk (s : Runtime) (w : Work) : Prop where
  record : ∃ r, Held s.rows w.key r ∧ r.definition = w.definition ∧
    r.coordinatorRuntimeId = s.runtime
  registered : ∀ r, Held s.rows w.key r → r.state.live = true → Registered s.active w
  unsent : w.phase.unsent → ∀ x ∈ s.starts, x.key ≠ w.key
  claimed : w.phase.claimed → ∀ r, Held s.rows w.key r → r.state = .launching

/-- What `prepare` knows while it holds the lock. -/
structure PreparingOk (s : Runtime) (p : Preparing) : Prop where
  accepted : s.Accepts p.request
  definition : p.request.definition = .ok p.definition
  retired : ∀ n ∈ p.retired, ∀ entry, s.active.lookup n = some entry →
    ∃ r, Held s.rows (n, entry.operation) r ∧ r.state.live = false

/-- The flags that a command reports fit what it did. -/
def FlagsOk (rows : List Row) (runtime : String) (request : Request)
    (created reused cancelled : Bool) : Prop :=
  match request.command with
  | .arm _ _ _ => created = !reused ∧ cancelled = false ∧ ∃ d r, request.definition = .ok d ∧
      Held rows (request.nodeId, request.operationId) r ∧ r.definition = d ∧
      (created = true → r.coordinatorRuntimeId = runtime)
  | .inspect => created = false ∧ reused = false ∧ cancelled = false
  | .cancelWait => created = false ∧ reused = false ∧ (cancelled = true → ∃ r,
      Held rows (request.nodeId, request.operationId) r ∧ r.state = .cancelled)

/-- What a command relies on. -/
def CallOk (s : Runtime) : Call → Prop
  | .armed request d => s.Accepts request ∧ request.definition = .ok d ∧
      FlagsOk s.rows s.runtime request true false false
  | .cancelling request => s.Accepts request ∧ FlagsOk s.rows s.runtime request false false true
  | .snapshot request created reused cancelled => s.Accepts request ∧
      FlagsOk s.rows s.runtime request created reused cancelled

/-- The invariant of a coordinator. -/
structure Inv (s : Runtime) : Prop where
  works : (s.works.map Work.key).Nodup
  work : ∀ w ∈ s.works, WorkOk s w
  nodes : (s.active.map Prod.fst).Nodup
  bounded : s.active.length ≤ s.maxActive
  reasons : ∀ e ∈ s.active, validReason e.2.reason = true
  preparing : ∀ p, s.preparing = some p → PreparingOk s p
  calls : ∀ c ∈ s.calls, CallOk s c
  once : (s.starts.map Start.key).Nodup
  starts : ∀ x ∈ s.starts, ∃ r, Held s.rows x.key r ∧ r.coordinatorRuntimeId = x.runtime ∧
    r.state.claimed
  reports : ∀ p ∈ s.reports, confirmed p.2 p.1 = true ∧ (p.2.waitingCancelled = true →
    ∃ r, Held s.rows (p.1.nodeId, p.1.operationId) r ∧ r.state = .cancelled)

omit [F64] in
theorem Inv.opened (runtime : String) (maxActive : Nat) :
    Inv (.opened [] runtime maxActive [] []) where
  works := List.nodup_nil
  work _ h := by cases h
  nodes := List.nodup_nil
  bounded := Nat.zero_le _
  reasons _ h := by cases h
  preparing _ h := by cases h
  calls _ h := by cases h
  once := List.nodup_nil
  starts _ h := by cases h
  reports _ h := by cases h

omit [F64] in
theorem PreparingOk.frame {s t : Runtime} {p : Preparing} (h : PreparingOk s p)
    (hrows : t.rows = s.rows) (hruntime : t.runtime = s.runtime) (hactive : t.active = s.active) :
    PreparingOk t p := by
  refine ⟨⟨h.accepted.1, h.accepted.2.trans hruntime.symm⟩, h.definition, ?_⟩
  rw [hrows, hactive]
  exact h.retired

omit [F64] in
theorem CallOk.frame {s t : Runtime} {c : Call} (h : CallOk s c) (hrows : t.rows = s.rows)
    (hruntime : t.runtime = s.runtime) : CallOk t c := by
  unfold CallOk Runtime.Accepts at h ⊢
  rw [hrows, hruntime]
  exact h

/-! ## Changes of the store -/

omit [F64] in
theorem FlagsOk.kept {rows rows' : List Row} {runtime : String} {request : Request}
    {created reused cancelled : Bool} (h : FlagsOk rows runtime request created reused cancelled)
    (hkept : Kept rows rows') : FlagsOk rows' runtime request created reused cancelled := by
  unfold FlagsOk at h ⊢
  cases hc : request.command with
  | arm model wait approve =>
    rw [hc] at h
    obtain ⟨hcreated, hcancelled, d, r, hdef, hheld, hrd, hruntime⟩ := h
    obtain ⟨r', hheld', hmoved⟩ := hkept _ r hheld
    refine ⟨hcreated, hcancelled, d, r', hdef, hheld', hmoved.definition.trans hrd, fun hcr => ?_⟩
    exact hmoved.runtime.trans (hruntime hcr)
  | inspect =>
    rw [hc] at h
    exact h
  | cancelWait =>
    rw [hc] at h
    obtain ⟨hcreated, hreused, hcancelled⟩ := h
    refine ⟨hcreated, hreused, fun hcan => ?_⟩
    obtain ⟨r, hheld, hstate⟩ := hcancelled hcan
    obtain ⟨r', hheld', hmoved⟩ := hkept _ r hheld
    refine ⟨r', hheld', (hmoved.final ?_).trans hstate⟩
    rw [hstate]
    rfl

omit [F64] in
/-- The records of a new store carry everything on, as long as nobody else moved the record of a
worker that has claimed its own. -/
theorem Inv.rows {s : Runtime} (h : Inv s) {rows : List Row} (hkept : Kept s.rows rows)
    (hclaimed : ∀ w ∈ s.works, w.phase.claimed → ∀ r, Held s.rows w.key r → Held rows w.key r) :
    Inv { s with rows } where
  works := h.works
  work w hw := by
    have hok := h.work w hw
    obtain ⟨r, hheld, hdef, hruntime⟩ := hok.record
    obtain ⟨r', hheld', hmoved⟩ := hkept _ r hheld
    refine ⟨⟨r', hheld', hmoved.definition.trans hdef, hmoved.runtime.trans hruntime⟩, ?_,
      hok.unsent, ?_⟩
    · intro q hq hlive
      have := hheld'.unique hq
      subst this
      exact hok.registered r hheld (hmoved.live hlive)
    · intro hphase q hq
      have := (hclaimed w hw hphase r hheld).unique hq
      subst this
      exact hok.claimed hphase r hheld
  nodes := h.nodes
  bounded := h.bounded
  reasons := h.reasons
  preparing p hp := by
    have hok := h.preparing p hp
    refine ⟨hok.accepted, hok.definition, fun n hn entry hentry => ?_⟩
    obtain ⟨r, hheld, hfinal⟩ := hok.retired n hn entry hentry
    obtain ⟨r', hheld', hmoved⟩ := hkept _ r hheld
    refine ⟨r', hheld', ?_⟩
    rw [hmoved.final hfinal]
    exact hfinal
  calls c hc := by
    have hok := h.calls c hc
    cases c with
    | armed request d => exact ⟨hok.1, hok.2.1, hok.2.2.kept hkept⟩
    | cancelling request => exact ⟨hok.1, hok.2.kept hkept⟩
    | snapshot request created reused cancelled => exact ⟨hok.1, hok.2.kept hkept⟩
  once := h.once
  starts x hx := by
    obtain ⟨r, hheld, hruntime, hclaim⟩ := h.starts x hx
    obtain ⟨r', hheld', hmoved⟩ := hkept _ r hheld
    exact ⟨r', hheld', hmoved.runtime.trans hruntime, hmoved.claimed hclaim⟩
  reports p hp := by
    obtain ⟨hconfirmed, hcancelled⟩ := h.reports p hp
    refine ⟨hconfirmed, fun hcan => ?_⟩
    obtain ⟨r, hheld, hstate⟩ := hcancelled hcan
    obtain ⟨r', hheld', hmoved⟩ := hkept _ r hheld
    refine ⟨r', hheld', (hmoved.final ?_).trans hstate⟩
    rw [hstate]
    rfl

omit [F64] in
/-- A worker moves its own record; the others have other records. -/
theorem Inv.ownRows {s : Runtime} (h : Inv s) {pre post : List Work} {w : Work}
    (hworks : s.works = pre ++ w :: post) (hphase : ¬w.phase.claimed) {rows : List Row}
    {r r' : Record} (hheld : Held s.rows w.key r) (hchanged : Changed s.rows rows w.key r')
    (hmoved : r.Moved r') : Inv { s with rows } := by
  refine h.rows (hchanged.kept hheld hmoved) fun v hv hclaimed q hq => ?_
  refine hchanged.others v.key q (fun hkey => hphase ?_) hq
  have hw : w ∈ s.works := by
    rw [hworks]
    exact List.mem_append_right _ (List.mem_cons_self ..)
  have := List.inj_on_of_nodup_map h.works hv hw hkey
  rw [← this]
  exact hclaimed

/-! ## Changes of a worker -/

omit [F64] [Sha256] in
theorem mem_replaced {pre post : List Work} {w v u : Work} (h : u ∈ pre ++ v :: post) :
    u = v ∨ u ∈ pre ++ w :: post := by
  rcases List.mem_append.mp h with h | h
  · exact Or.inr (List.mem_append_left _ h)
  · rcases List.mem_cons.mp h with h | h
    · exact Or.inl h
    · exact Or.inr (List.mem_append_right _ (List.mem_cons_of_mem _ h))

omit [F64] in
/-- A worker goes on to another phase. -/
theorem Inv.phase {s : Runtime} (h : Inv s) {pre post : List Work} {w : Work}
    (hworks : s.works = pre ++ w :: post) (phase : Phase)
    (hunsent : phase.unsent → w.phase.unsent)
    (hclaimed : phase.claimed → ∀ r, Held s.rows w.key r → r.state = .launching) :
    Inv { s with works := pre ++ ⟨w.definition, phase⟩ :: post } where
  works := by
    have := h.works
    rw [hworks] at this
    simpa [Work.key] using this
  work u hu := by
    rcases mem_replaced (w := w) hu with rfl | hu
    · have hok := h.work w (by rw [hworks]; exact List.mem_append_right _ (List.mem_cons_self ..))
      exact ⟨hok.record, hok.registered, fun hph => hok.unsent (hunsent hph), hclaimed⟩
    · rw [← hworks] at hu
      have hok := h.work u hu
      exact ⟨hok.record, hok.registered, hok.unsent, hok.claimed⟩
  nodes := h.nodes
  bounded := h.bounded
  reasons := h.reasons
  preparing p hp := (h.preparing p hp).frame rfl rfl rfl
  calls c hc := (h.calls c hc).frame rfl rfl
  once := h.once
  starts := h.starts
  reports := h.reports

omit [F64] in
/-- The start request of a worker. Its record is claimed, and it is the first one. -/
theorem Inv.start {s : Runtime} (h : Inv s) {pre post : List Work} {w : Work}
    (hworks : s.works = pre ++ w :: post) (hphase : w.phase = .launched) :
    Inv { s with
      works := pre ++ ⟨w.definition, .started⟩ :: post
      starts := ⟨w.key, s.runtime⟩ :: s.starts } := by
  have hw : w ∈ s.works := by
    rw [hworks]
    exact List.mem_append_right _ (List.mem_cons_self ..)
  have hok := h.work w hw
  have hunsent := hok.unsent (by rw [hphase]; trivial)
  have hlaunching := hok.claimed (by rw [hphase]; trivial)
  have hmid := h.phase hworks .started (fun hph => hph.elim) (fun _ => hlaunching)
  refine { hmid with work := ?_, preparing := ?_, calls := ?_, once := ?_, starts := ?_ }
  · intro u hu
    have hu' := hmid.work u hu
    refine ⟨hu'.record, hu'.registered, fun hph x hx => ?_, hu'.claimed⟩
    rcases List.mem_cons.mp hx with rfl | hx
    · -- the other workers have other records
      intro hkey
      have hown : (⟨w.definition, .started⟩ : Work) ∈ pre ++ ⟨w.definition, .started⟩ :: post :=
        List.mem_append_right _ (List.mem_cons_self ..)
      have := List.inj_on_of_nodup_map hmid.works hown hu hkey
      subst this
      exact hph
    · exact hu'.unsent hph x hx
  · exact fun p hp => (h.preparing p hp).frame rfl rfl rfl
  · exact fun c hc => (h.calls c hc).frame rfl rfl
  · rw [List.map_cons, List.nodup_cons]
    refine ⟨fun hmem => ?_, h.once⟩
    obtain ⟨x, hx, hkey⟩ := List.mem_map.mp hmem
    exact hunsent x hx hkey
  · intro x hx
    rcases List.mem_cons.mp hx with rfl | hx
    · obtain ⟨r, hheld, -, hruntime⟩ := hok.record
      exact ⟨r, hheld, hruntime, Or.inl (hlaunching r hheld)⟩
    · exact h.starts x hx

/-! ## Changes of the map -/

omit [F64] in
/-- The map may change while nobody prepares, as long as workers with live records stay in it. -/
theorem Inv.entries {s : Runtime} (h : Inv s) (hfree : s.preparing = none)
    {active : List (String × Active)} {works : List Work} (hsub : works.Sublist s.works)
    (hnodes : (active.map Prod.fst).Nodup) (hlength : active.length ≤ s.active.length)
    (hreasons : ∀ e ∈ active, validReason e.2.reason = true)
    (hregistered : ∀ w ∈ works, ∀ r, Held s.rows w.key r → r.state.live = true →
      Registered s.active w → Registered active w) :
    Inv { s with active, works } where
  works := h.works.sublist (hsub.map _)
  work w hw := by
    have hok := h.work w (hsub.subset hw)
    exact ⟨hok.record, fun r hr hlive => hregistered w hw r hr hlive (hok.registered r hr hlive), hok.unsent,
      hok.claimed⟩
  nodes := hnodes
  bounded := Nat.le_trans hlength h.bounded
  reasons := hreasons
  preparing p hp := by
    change s.preparing = some p at hp
    rw [hfree] at hp
    cases hp
  calls c hc := (h.calls c hc).frame rfl rfl
  once := h.once
  starts := h.starts
  reports := h.reports

omit [F64] [Sha256] in
theorem keys_changeEntry (active : List (String × Active)) (node operation : String)
    (f : Active → Active) :
    (changeEntry active node operation f).map Prod.fst = active.map Prod.fst := by
  unfold changeEntry
  split
  · rename_i entry hentry
    split
    · exact Assoc.map_fst_set hentry
    · rfl
  · rfl

omit [F64] [Sha256] in
theorem registered_changeEntry {active : List (String × Active)} {node operation : String}
    {f : Active → Active} (hf : ∀ e, (f e).operation = e.operation) {w : Work}
    (h : Registered active w) : Registered (changeEntry active node operation f) w := by
  obtain ⟨entry, hentry, hop⟩ := h
  unfold changeEntry
  split
  · rename_i e he
    split
    · rw [Registered, Assoc.lookup_set]
      by_cases hnode : w.definition.nodeId = node
      · rw [hnode, he] at hentry
        cases hentry
        exact ⟨f entry, if_pos hnode, (hf entry).trans hop⟩
      · exact ⟨entry, by rw [if_neg hnode]; exact hentry, hop⟩
    · exact ⟨entry, hentry, hop⟩
  · exact ⟨entry, hentry, hop⟩

omit [F64] [Sha256] in
theorem mem_changeEntry {active : List (String × Active)} {node operation : String}
    {f : Active → Active} {e : String × Active} (h : e ∈ changeEntry active node operation f) :
    (∃ e' ∈ active, e.2 = f e'.2) ∨ e ∈ active := by
  unfold changeEntry at h
  split at h
  · rename_i entry hentry
    split at h
    · rcases Assoc.mem_set h with rfl | h
      · exact Or.inl ⟨_, Assoc.mem_of_lookup hentry, rfl⟩
      · exact Or.inr h
    · exact Or.inr h
  · exact Or.inr h

omit [F64] in
theorem Inv.changeEntry {s : Runtime} (h : Inv s) (hfree : s.preparing = none)
    (node operation : String) {f : Active → Active} (hf : ∀ e, (f e).operation = e.operation)
    (hreason : ∀ e, validReason e.reason = true → validReason (f e).reason = true) :
    Inv { s with active := SetupChecks.changeEntry s.active node operation f } := by
  have hkeys := keys_changeEntry s.active node operation f
  refine h.entries hfree (List.Sublist.refl _) ?_ ?_ ?_ ?_
  · rw [hkeys]
    exact h.nodes
  · have := congrArg List.length hkeys
    rw [List.length_map, List.length_map] at this
    exact Nat.le_of_eq this
  · intro e he
    rcases mem_changeEntry he with ⟨e', he', heq⟩ | he
    · rw [heq]
      exact hreason _ (h.reasons e' he')
    · exact h.reasons e he
  · exact fun w _ _ _ _ hw => registered_changeEntry hf hw

omit [F64] [Sha256] in
theorem dropGuard_sublist (active : List (String × Active)) (w : Work) :
    (dropGuard active w).Sublist active := by
  unfold dropGuard
  split
  · split
    · exact List.filter_sublist
    · exact List.Sublist.refl _
  · exact List.Sublist.refl _

omit [F64] [Sha256] in
/-- A guard never unregisters another worker, not even a successor on its node. -/
theorem registered_dropGuard {active : List (String × Active)} {v w : Work} (hne : w.key ≠ v.key)
    (h : Registered active w) : Registered (dropGuard active v) w := by
  obtain ⟨entry, hentry, hop⟩ := h
  unfold dropGuard
  split
  · rename_i e he
    split
    · rename_i hown
      refine ⟨entry, ?_, hop⟩
      rw [Assoc.lookup_erase]
      by_cases hnode : w.definition.nodeId = v.definition.nodeId
      · rw [← hnode, hentry] at he
        cases he
        exact absurd (Prod.ext hnode (hop.symm.trans hown)) hne
      · rw [if_neg hnode]
        exact hentry
    · exact ⟨entry, hentry, hop⟩
  · exact ⟨entry, hentry, hop⟩

omit [F64] in
theorem Inv.others_ne {s : Runtime} (h : Inv s) {pre post : List Work} {v w : Work}
    (hworks : s.works = pre ++ v :: post) (hw : w ∈ pre ++ post) : w.key ≠ v.key := by
  have hnd := h.works
  rw [hworks, List.map_append, List.map_cons, List.nodup_append] at hnd
  obtain ⟨-, hpost, hdisj⟩ := hnd
  rcases List.mem_append.mp hw with hw | hw
  · exact hdisj _ (List.mem_map_of_mem hw) _ (List.mem_cons_self ..)
  · rw [List.nodup_cons] at hpost
    exact fun heq => hpost.1 (heq ▸ List.mem_map_of_mem hw)

omit [F64] in
theorem Inv.retire {s : Runtime} (h : Inv s) (hfree : s.preparing = none) {pre post : List Work}
    {v : Work} (hworks : s.works = pre ++ v :: post) :
    Inv { s with active := dropGuard s.active v, works := pre ++ post } := by
  have hsub := dropGuard_sublist s.active v
  refine h.entries hfree ?_ (h.nodes.sublist (hsub.map _)) hsub.length_le ?_ ?_
  · rw [hworks]
    exact (List.Sublist.refl pre).append (List.sublist_cons_self v post)
  · exact fun e he => h.reasons e (hsub.subset he)
  · exact fun w hw _ _ _ hreg => registered_dropGuard (h.others_ne hworks hw) hreg

/-! ## Steps -/

theorem Inv.worker {s t : Runtime} (h : Inv s) {pre post : List Work} {w : Work}
    (hworks : s.works = pre ++ w :: post) (hstep : WorkerStep s pre post w.definition w.phase t) :
    Inv t ∧ Kept s.rows t.rows := by
  have hw : w ∈ s.works := by
    rw [hworks]
    exact List.mem_append_right _ (List.mem_cons_self ..)
  have hok := h.work w hw
  obtain ⟨d, phase⟩ := w
  cases hstep with
  | notReady reason hreason hfree =>
    refine ⟨h.changeEntry hfree _ _ (fun _ => rfl) fun _ _ => ?_, Kept.refl _⟩
    rcases hreason with rfl | ⟨issue, rfl⟩
    · change validReason "waiting_for_exact_model" = true
      decide
    · exact validReason_reasonOf issue
  | cancelled _ =>
    exact ⟨h.phase hworks .ended (fun hph => hph.elim) fun hph => hph.elim, Kept.refl _⟩
  | claim hlaunch =>
    obtain ⟨r, hheld, -, -, ⟨hfalse, -, -⟩ | ⟨-, hwaiting, hchanged⟩⟩ := launch_ok hlaunch
    · cases hfalse
    · have hmoved : r.Moved { r with state := .launching } :=
        ⟨rfl, rfl, rfl, Or.inr (by rw [hwaiting]; exact .claimed)⟩
      have hmid := h.ownRows hworks (fun hph => hph) hheld hchanged hmoved
      refine ⟨hmid.phase hworks .launched (fun _ => trivial) fun _ q hq => ?_,
        hchanged.kept hheld hmoved⟩
      have := hchanged.held.unique hq
      rw [← this]
  | lostRace hlaunch =>
    obtain ⟨r, -, -, -, ⟨-, rfl, -⟩ | ⟨htrue, -, -⟩⟩ := launch_ok hlaunch
    · exact ⟨h.phase hworks .ended (fun hph => hph.elim) fun hph => hph.elim, Kept.refl _⟩
    · cases htrue
  | start => exact ⟨h.start hworks rfl, Kept.refl _⟩
  | outcome o _ =>
    exact ⟨h.phase hworks _ (fun hph => hph.elim) fun hph => hph.elim, Kept.refl _⟩
  | give expired _ =>
    exact ⟨h.phase hworks _ (fun hph => hph.elim) fun hph => hph.elim, Kept.refl _⟩
  | @checkpoint outcome expired rows hfinish =>
    obtain ⟨r, hheld, -, -, ⟨rfl, -⟩ | ⟨state, hstate, hchanged⟩⟩ := finish_ok hfinish
    · exact ⟨h.phase hworks .ended (fun hph => hph.elim) fun hph => hph.elim, Kept.refl _⟩
    · have hmoved : r.Moved { r with state, outcome } :=
        ⟨rfl, rfl, rfl, Or.inr (finishState_moves hstate)⟩
      have hmid := h.ownRows hworks (fun hph => hph) hheld hchanged hmoved
      exact ⟨hmid.phase hworks .ended (fun hph => hph.elim) fun hph => hph.elim,
        hchanged.kept hheld hmoved⟩
  | abort _ => exact ⟨h.phase hworks .ended (fun hph => hph.elim) fun hph => hph.elim, Kept.refl _⟩
  | retire hfree => exact ⟨h.retire hfree hworks, Kept.refl _⟩

omit [F64] in
/-- The lock and the commands may change on their own. -/
theorem Inv.memory {s : Runtime} (h : Inv s) (preparing : Option Preparing) (calls : List Call)
    (hpreparing : ∀ p, preparing = some p → PreparingOk s p) (hcalls : ∀ c ∈ calls, CallOk s c) :
    Inv { s with preparing, calls } :=
  { h with
    work := fun w hw => ⟨(h.work w hw).record, (h.work w hw).registered, (h.work w hw).unsent,
      (h.work w hw).claimed⟩
    preparing := fun p hp => (hpreparing p hp).frame rfl rfl rfl
    calls := fun c hc => (hcalls c hc).frame rfl rfl }

omit [F64] [Sha256] in
theorem lookup_unregister {active : List (String × Active)} {retired : List String} {node : String}
    (h : node ∉ retired) : (unregister active retired).lookup node = active.lookup node := by
  induction active with
  | nil => rfl
  | cons e active ih =>
    obtain ⟨n, a⟩ := e
    unfold unregister at ih ⊢
    rw [List.filter_cons]
    by_cases hn : n ∈ retired
    · rw [if_neg (by simpa using hn), ih, Assoc.lookup_cons, if_neg]
      rintro rfl
      exact h hn
    · rw [if_pos (by simpa using hn), Assoc.lookup_cons, Assoc.lookup_cons, ih]

omit [F64] in
/-- Only workers whose record is final lose their entry. -/
theorem Inv.unregister {s : Runtime} (h : Inv s) {p : Preparing} (hp : s.preparing = some p) :
    Inv { s with preparing := none, active := SetupChecks.unregister s.active p.retired } := by
  have hretired := (h.preparing p hp).retired
  have hfree := h.memory none s.calls (fun _ h => nomatch h) h.calls
  have hsub : (SetupChecks.unregister s.active p.retired).Sublist s.active := List.filter_sublist
  refine hfree.entries rfl (List.Sublist.refl _) (h.nodes.sublist (hsub.map _)) hsub.length_le
    (fun e he => h.reasons e (hsub.subset he)) ?_
  intro w _ r hr hlive ⟨entry, hentry, hop⟩
  refine ⟨entry, ?_, hop⟩
  rw [lookup_unregister, hentry]
  intro hn
  obtain ⟨q, hq, hfinal⟩ := hretired _ hn entry hentry
  rw [hop] at hq
  rw [hr.unique hq, hfinal] at hlive
  cases hlive

omit [F64] in
/-- The worker of a new record. -/
theorem Inv.register {s : Runtime} (h : Inv s) (hfree : s.preparing = none) {d : Definition}
    {r : Record} (hheld : Held s.rows (d.nodeId, d.operationId) r) (hdef : r.definition = d)
    (hruntime : r.coordinatorRuntimeId = s.runtime) (hroom : s.active.length < s.maxActive)
    (hnode : s.active.lookup d.nodeId = none)
    (hworks : ∀ w ∈ s.works, w.key ≠ (d.nodeId, d.operationId))
    (hstarts : ∀ x ∈ s.starts, x.key ≠ (d.nodeId, d.operationId)) :
    Inv { s with
      active := (d.nodeId, ⟨d.operationId, false, "waiting_for_setup"⟩) :: s.active
      works := ⟨d, .prepared⟩ :: s.works } where
  works := by
    rw [List.map_cons, List.nodup_cons]
    refine ⟨fun hmem => ?_, h.works⟩
    obtain ⟨w, hw, hkey⟩ := List.mem_map.mp hmem
    exact hworks w hw hkey
  work w hw := by
    rcases List.mem_cons.mp hw with rfl | hw
    · refine ⟨⟨r, hheld, hdef, hruntime⟩, fun _ _ _ => ?_, fun _ => hstarts, fun hph => hph.elim⟩
      refine ⟨⟨d.operationId, false, "waiting_for_setup"⟩, ?_, rfl⟩
      rw [Assoc.lookup_cons, if_pos rfl]
    · have hok := h.work w hw
      refine ⟨hok.record, fun q hq hlive => ?_, hok.unsent, hok.claimed⟩
      obtain ⟨entry, hentry, hop⟩ := hok.registered q hq hlive
      refine ⟨entry, ?_, hop⟩
      rw [Assoc.lookup_cons, if_neg]
      · exact hentry
      · intro heq
        rw [heq, hnode] at hentry
        cases hentry
  nodes := by
    rw [List.map_cons, List.nodup_cons]
    refine ⟨fun hmem => ?_, h.nodes⟩
    obtain ⟨⟨n, a⟩, he, rfl⟩ := List.mem_map.mp hmem
    rw [(Assoc.lookup_eq_some_iff h.nodes).mpr he] at hnode
    cases hnode
  bounded := hroom
  reasons e he := by
    rcases List.mem_cons.mp he with rfl | he
    · change validReason "waiting_for_setup" = true
      decide
    · exact h.reasons e he
  preparing p hp := by
    change s.preparing = some p at hp
    rw [hfree] at hp
    cases hp
  calls c hc := (h.calls c hc).frame rfl rfl
  once := h.once
  starts := h.starts
  reports := h.reports

omit [F64] [Sha256] in
/-- An arm request defines the check that it names. -/
theorem Request.definition_ok {request : Request} {d : Definition}
    (h : request.definition = .ok d) :
    d.nodeId = request.nodeId ∧ d.operationId = request.operationId ∧
      ∃ model wait approve, request.command = .arm model wait approve := by
  unfold Request.definition at h
  cases hc : request.command with
  | arm model wait approve =>
    rw [hc] at h
    cases h
    exact ⟨rfl, rfl, model, wait, approve, rfl⟩
  | inspect =>
    rw [hc] at h
    cases h
  | cancelWait =>
    rw [hc] at h
    cases h

omit [F64] in
theorem flagsOk_arm {rows : List Row} {runtime : String} {request : Request} {d : Definition}
    {r : Record} (created : Bool) (hdef : request.definition = .ok d)
    (hheld : Held rows (d.nodeId, d.operationId) r) (hrd : r.definition = d)
    (hruntime : created = true → r.coordinatorRuntimeId = runtime) :
    FlagsOk rows runtime request created (!created) false := by
  obtain ⟨hnode, hop, model, wait, approve, hc⟩ := Request.definition_ok hdef
  unfold FlagsOk
  rw [hc]
  refine ⟨by simp, rfl, d, r, hdef, ?_, hrd, hruntime⟩
  rw [← hnode, ← hop]
  exact hheld

theorem Inv.arm {s t : Runtime} (h : Inv s) (hstep : ArmStep s t) :
    Inv t ∧ Kept s.rows t.rows := by
  cases hstep with
  | armBegin hreq hdef hfree hnone =>
    refine ⟨h.memory _ _ (fun p hp => ?_) h.calls, Kept.refl _⟩
    cases hp
    exact ⟨hreq, hdef, fun n hn => nomatch hn⟩
  | armReuse hreq hdef hfree hread hsame =>
    refine ⟨h.memory _ _ h.preparing fun c hc => ?_, Kept.refl _⟩
    rcases List.mem_cons.mp hc with rfl | hc
    · exact ⟨hreq, flagsOk_arm false hdef hread hsame fun hf => nomatch hf⟩
    · exact h.calls c hc
  | @armScan p node todo entry r hp htodo hentry hread hruntime =>
    have hok := h.preparing p hp
    refine ⟨h.memory _ _ (fun q hq => ?_) h.calls, Kept.refl _⟩
    cases hq
    refine ⟨hok.accepted, hok.definition, fun n hn e he => ?_⟩
    change n ∈ (if r.state.live then p.retired else node :: p.retired) at hn
    split at hn
    · exact hok.retired n hn e he
    · rename_i hfinal
      rcases List.mem_cons.mp hn with rfl | hn
      · rw [hentry] at he
        cases he
        exact ⟨r, hread, by simpa using hfinal⟩
      · exact hok.retired n hn e he
  | armFail hp =>
    exact ⟨h.memory _ _ (fun _ hq => nomatch hq) h.calls, Kept.refl _⟩
  | armRefuse hp _ => exact ⟨h.unregister hp, Kept.refl _⟩
  | @armCommit p quota now rows r hp htodo hclosing hroom hnode harm =>
    have hok := h.preparing p hp
    obtain ⟨-, hnone, rfl, hchanged⟩ | ⟨hfalse, -⟩ := arm_ok harm
    · have hnew : ∀ q, ¬Held s.rows (p.definition.nodeId, p.definition.operationId) q := by
        intro q hq
        rw [Held, hnone] at hq
        cases hq
      have hkept := hchanged.kept_new hnew
      have hworks : ∀ w ∈ s.works, w.key ≠ (p.definition.nodeId, p.definition.operationId) := by
        intro w hw heq
        obtain ⟨q, hq, -⟩ := (h.work w hw).record
        exact hnew q (heq ▸ hq)
      have hstarts : ∀ x ∈ s.starts, x.key ≠ (p.definition.nodeId, p.definition.operationId) := by
        intro x hx heq
        obtain ⟨q, hq, -⟩ := h.starts x hx
        exact hnew q (heq ▸ hq)
      have hstored := (h.unregister hp).rows hkept fun w hw _ q hq =>
        hchanged.others w.key q (hworks w hw) hq
      have hreg := hstored.register rfl hchanged.held rfl rfl hroom hnode hworks hstarts
      refine ⟨hreg.memory none _ (fun _ hq => nomatch hq) fun c hc => ?_, hkept⟩
      rcases List.mem_cons.mp hc with rfl | hc
      · exact ⟨hok.accepted, hok.definition,
          flagsOk_arm true hok.definition hchanged.held rfl fun _ => rfl⟩
      · exact hreg.calls c hc
    · cases hfalse
  | @armKnown p quota now rows r hp htodo harm =>
    have hok := h.preparing p hp
    obtain ⟨htrue, -⟩ | ⟨-, rfl, hheld, hrd⟩ := arm_ok harm
    · cases htrue
    · have hmid := h.unregister hp
      refine ⟨hmid.memory none _ (fun _ hq => nomatch hq) fun c hc => ?_, Kept.refl _⟩
      rcases List.mem_cons.mp hc with rfl | hc
      · refine ⟨hok.accepted, flagsOk_arm false hok.definition ?_ hrd
          fun hf => nomatch hf⟩
        rw [← hrd]
        exact hheld
      · exact hmid.calls c hc

/-! ## Reports -/

omit [F64] [Sha256] in
/-- What a snapshot says of a worker. -/
theorem snapshot_some {active : List (String × Active)} {runtime node operation : String}
    {r : Record} (hreasons : ∀ e ∈ active, validReason e.2.reason = true) {owned : Bool}
    {reason : Option String}
    (h : snapshot active runtime node operation (some r) = (owned, reason)) :
    (owned = true → r.coordinatorRuntimeId = runtime ∧ r.state.live = true) ∧
      (reason.isSome = true ↔ owned = true ∧ r.state = .waiting) ∧
      reason.all validReason = true := by
  simp only [snapshot, Option.any_some, Prod.mk.injEq] at h
  obtain ⟨howned, hreason⟩ := h
  cases hentry : (active.lookup node).filter fun e => e.operation = operation with
  | none =>
    rw [hentry] at howned hreason
    simp only [Option.isSome_none, Bool.and_false] at howned hreason
    subst howned
    simp only [Bool.false_and, Bool.false_eq_true, if_false] at hreason
    subst hreason
    simp
  | some entry =>
    rw [hentry] at howned hreason
    simp only [Option.isSome_some, Bool.and_true] at howned hreason
    rw [howned] at hreason
    have hvalid : validReason entry.reason = true := by
      obtain ⟨hmem, -⟩ := Option.filter_eq_some_iff.mp hentry
      exact hreasons _ (Assoc.mem_of_lookup hmem)
    refine ⟨fun ho => ?_, ?_, ?_⟩
    · rw [ho] at howned
      simpa using howned
    · by_cases hw : owned = true ∧ r.state = .waiting
      · rw [if_pos (by simp [hw.1, hw.2])] at hreason
        subst hreason
        simp [hw.1, hw.2]
      · rw [if_neg (by simpa using hw)] at hreason
        subst hreason
        simp [hw]
    · split at hreason
      · subst hreason
        simpa using hvalid
      · subst hreason
        rfl

omit [F64] in
/-- A report of a record that the store holds satisfies its request. -/
theorem recordConfirmed_report {s : Runtime} (h : Inv s) {request : Request}
    {created reused cancelled : Bool} (hacc : s.Accepts request)
    (hflags : FlagsOk s.rows s.runtime request created reused cancelled) {record : Option Record}
    (hread : read s.rows request.nodeId request.operationId = .ok record) {owned : Bool}
    {reason : Option String} (hsnap : SetupChecks.snapshot s.active s.runtime request.nodeId
      request.operationId record = (owned, reason)) :
    (report s.runtime request record owned reason created reused cancelled).recordConfirmed request
      record = true := by
  obtain ⟨-, hruntime⟩ := hacc
  cases record with
  | none =>
    cases hsnap
    unfold FlagsOk at hflags
    cases hc : request.command with
    | arm model wait approve =>
      rw [hc] at hflags
      obtain ⟨-, -, d, r, -, hheld, -⟩ := hflags
      rw [Held, hread] at hheld
      cases hheld
    | inspect =>
      rw [hc] at hflags
      obtain ⟨rfl, rfl, rfl⟩ := hflags
      simp [Report.recordConfirmed, report, hc, Command.isArm]
    | cancelWait =>
      rw [hc] at hflags
      obtain ⟨rfl, rfl, hcan⟩ := hflags
      have : cancelled = false := by
        cases cancelled with
        | false => rfl
        | true =>
          obtain ⟨r, hheld, -⟩ := hcan rfl
          rw [Held, hread] at hheld
          cases hheld
      subst this
      simp [Report.recordConfirmed, report, hc, Command.isArm]
  | some r =>
    have hheld : Held s.rows (request.nodeId, request.operationId) r := hread
    have hkey := hheld.key
    simp only [Record.key, Prod.mk.injEq] at hkey
    obtain ⟨howned, hreason, hvalid⟩ := snapshot_some h.reasons hsnap
    have hown : (!owned || (r.coordinatorRuntimeId == s.runtime && r.state.live)) = true := by
      cases owned with
      | false => rfl
      | true => simp [howned rfl]
    have hwait : (reason.isNone || (owned && r.state == .waiting)) = true := by
      cases reason with
      | none => rfl
      | some text => simpa using hreason.mp rfl
    have hmust : (!(owned && r.state == .waiting) || reason.isSome) = true := by
      by_cases hw : owned = true ∧ r.state = .waiting
      · simp [hreason.mpr hw]
      · cases owned with
        | false => rfl
        | true =>
          have hstate : r.state ≠ .waiting := fun hs => hw ⟨rfl, hs⟩
          simp [hstate]
    simp only [Report.recordConfirmed, report, hruntime, hheld.validate, isOk, hkey.1, hkey.2, hown,
      hwait, hmust, hvalid, beq_self_eq_true, Option.map_some, Bool.true_and, Bool.and_true,
      Bool.and_eq_true]
    unfold FlagsOk at hflags
    cases hc : request.command with
    | arm model wait approve =>
      rw [hc] at hflags
      obtain ⟨rfl, rfl, d, q, hdef, hheldq, hq, hcreated⟩ := hflags
      cases hheld.unique hheldq
      rw [hdef, hq]
      cases reused with
      | false => simp [Command.isArm, hcreated rfl]
      | true => simp [Command.isArm]
    | inspect =>
      rw [hc] at hflags
      obtain ⟨rfl, rfl, rfl⟩ := hflags
      simp [Command.isArm]
    | cancelWait =>
      rw [hc] at hflags
      obtain ⟨rfl, rfl, hcan⟩ := hflags
      cases cancelled with
      | false => simp [Command.isArm]
      | true =>
        obtain ⟨q, hheldq, hstate⟩ := hcan rfl
        cases hheld.unique hheldq
        simp [Command.isArm, hstate]

omit [F64] in
theorem confirmed_report {s : Runtime} (h : Inv s) {request : Request}
    {created reused cancelled : Bool} (hacc : s.Accepts request)
    (hflags : FlagsOk s.rows s.runtime request created reused cancelled) {record : Option Record}
    (hread : read s.rows request.nodeId request.operationId = .ok record) {owned : Bool}
    {reason : Option String} (hsnap : SetupChecks.snapshot s.active s.runtime request.nodeId
      request.operationId record = (owned, reason)) :
    confirmed (report s.runtime request record owned reason created reused cancelled) request =
      true := by
  have hrecord := recordConfirmed_report h hacc hflags hread hsnap
  obtain ⟨hvalid, hruntime⟩ := hacc
  have hshape : (!created || request.command.isArm) = true ∧
      (!cancelled || request.command == .cancelWait) = true ∧ (created && reused) = false := by
    unfold FlagsOk at hflags
    cases hc : request.command with
    | arm model wait approve =>
      rw [hc] at hflags
      obtain ⟨rfl, rfl, -⟩ := hflags
      simp [Command.isArm]
    | inspect =>
      rw [hc] at hflags
      obtain ⟨rfl, rfl, rfl⟩ := hflags
      simp
    | cancelWait =>
      rw [hc] at hflags
      obtain ⟨rfl, rfl, -⟩ := hflags
      simp
  simp only [confirmed, hvalid, isOk]
  simp only [report] at hrecord ⊢
  rw [hrecord]
  simp [hruntime, hshape.1, hshape.2.1, hshape.2.2]

/-! ## Commands -/

omit [F64] in
theorem Inv.call {s t : Runtime} (h : Inv s) {pre post : List Call} {c : Call}
    (hcalls : s.calls = pre ++ c :: post) (hstep : CallStep s pre post c t) :
    Inv t ∧ t.rows = s.rows := by
  have hc := h.calls c (by rw [hcalls]; exact List.mem_append_right _ (List.mem_cons_self ..))
  have hothers : ∀ d ∈ pre ++ post, CallOk s d := by
    intro d hd
    refine h.calls d ?_
    rw [hcalls]
    rcases List.mem_append.mp hd with hd | hd
    · exact List.mem_append_left _ hd
    · exact List.mem_append_right _ (List.mem_cons_of_mem _ hd)
  have hnext : ∀ d, CallOk s d → ∀ e ∈ pre ++ d :: post, CallOk s e := by
    intro d hd e he
    rcases List.mem_append.mp he with he | he
    · exact hothers e (List.mem_append_left _ he)
    · rcases List.mem_cons.mp he with rfl | he
      · exact hd
      · exact hothers e (List.mem_append_right _ he)
  cases hstep with
  | @spawn request d before after hworks _ =>
    have hmid := h.phase hworks .waiting (fun _ => trivial) (fun hph => hph.elim)
    exact ⟨hmid.memory _ _ hmid.preparing fun e he =>
      (hnext (.snapshot request true false false) ⟨hc.1, hc.2.2⟩ e he).frame rfl rfl, rfl⟩
  | refuse hworks =>
    have hmid := h.phase hworks .ended (fun hph => hph.elim) (fun hph => hph.elim)
    exact ⟨hmid.memory _ _ hmid.preparing fun e he => (hothers e he).frame rfl rfl, rfl⟩
  | @cancel request hfree =>
    have hmid := h.changeEntry hfree request.nodeId request.operationId
      (f := ({ · with cancel := true })) (fun _ => rfl) fun _ he => he
    exact ⟨hmid.memory _ _ hmid.preparing fun e he =>
      (hnext (.snapshot request false false true) ⟨hc.1, hc.2⟩ e he).frame rfl rfl, rfl⟩
  | @snapshot request created reused cancelled record hfree hread =>
    have hmid := h.memory _ _ h.preparing hothers
    refine ⟨{ hmid with work := ?_, preparing := ?_, calls := ?_, reports := ?_ }, rfl⟩
    · exact fun w hw => ⟨(h.work w hw).record, (h.work w hw).registered, (h.work w hw).unsent,
        (h.work w hw).claimed⟩
    · exact fun p hp => (h.preparing p hp).frame rfl rfl rfl
    · exact fun e he => (hothers e he).frame rfl rfl
    · intro q hq
      rcases List.mem_cons.mp hq with rfl | hq
      · refine ⟨confirmed_report h hc.1 hc.2 hread rfl, fun hcan => ?_⟩
        change cancelled = true at hcan
        have hflags := hc.2
        unfold FlagsOk at hflags
        cases hcommand : request.command with
        | arm model wait approve =>
          rw [hcommand] at hflags
          rw [hflags.2.1] at hcan
          cases hcan
        | inspect =>
          rw [hcommand] at hflags
          rw [hflags.2.2] at hcan
          cases hcan
        | cancelWait =>
          rw [hcommand] at hflags
          exact hflags.2.2 hcan
      · exact h.reports q hq
  | unread _ => exact ⟨h.memory _ _ h.preparing hothers, rfl⟩

theorem Inv.cancelWait {s : Runtime} (h : Inv s) {request : Request} {rows : List Row}
    {cancelled : Bool} (hreq : s.Accepts request) (hcommand : request.command = .cancelWait)
    (hcancel : SetupChecks.cancelWait s.rows request.nodeId request.operationId =
      .ok (rows, cancelled)) :
    Inv { s with
      rows
      calls := (if cancelled then .cancelling request
        else .snapshot request false false false) :: s.calls } ∧ Kept s.rows rows := by
  rcases cancelWait_ok hcancel with ⟨rfl, rfl⟩ | ⟨rfl, r, hheld, hwaiting, hchanged⟩
  · refine ⟨h.memory _ _ h.preparing fun c hc => ?_, Kept.refl _⟩
    rcases List.mem_cons.mp hc with rfl | hc
    · refine ⟨hreq, ?_⟩
      unfold FlagsOk
      rw [hcommand]
      exact ⟨rfl, rfl, fun hf => nomatch hf⟩
    · exact h.calls c hc
  · have hmoved : r.Moved { r with state := .cancelled } :=
      ⟨rfl, rfl, rfl, Or.inr (by rw [hwaiting]; exact .cancelled)⟩
    have hkept := hchanged.kept hheld hmoved
    have hmid := h.rows hkept fun w hw hclaimed q hq => by
      refine hchanged.others w.key q (fun hkey => ?_) hq
      -- a claimed record does not wait
      have hlaunching := (h.work w hw).claimed hclaimed r (by rw [hkey]; exact hheld)
      rw [hwaiting] at hlaunching
      cases hlaunching
    refine ⟨hmid.memory _ _ hmid.preparing fun c hc => ?_, hkept⟩
    rcases List.mem_cons.mp hc with rfl | hc
    · refine ⟨hreq, ?_⟩
      unfold FlagsOk
      rw [hcommand]
      exact ⟨rfl, rfl, fun _ => ⟨_, hchanged.held, rfl⟩⟩
    · exact hmid.calls c hc

omit [F64] in
theorem Inv.restart {s : Runtime} (h : Inv s) (runtime : String) (maxActive : Nat) :
    Inv (.opened s.rows runtime maxActive s.starts s.reports) where
  works := List.nodup_nil
  work _ hw := by cases hw
  nodes := List.nodup_nil
  bounded := Nat.zero_le _
  reasons _ he := by cases he
  preparing _ hp := by cases hp
  calls _ hc := by cases hc
  once := h.once
  starts := h.starts
  reports := h.reports

/-- Every step keeps the invariant and moves records forward only. -/
theorem Inv.step {s t : Runtime} (h : Inv s) (hstep : Step s t) : Inv t ∧ Kept s.rows t.rows := by
  cases hstep with
  | worker hworks hstep => exact h.worker hworks hstep
  | arm hstep => exact h.arm hstep
  | call hcalls hstep =>
    obtain ⟨hinv, hrows⟩ := h.call hcalls hstep
    exact ⟨hinv, by rw [hrows]; exact Kept.refl _⟩
  | cancelWait hreq hcommand hcancel => exact h.cancelWait hreq hcommand hcancel
  | inspect hreq hcommand =>
    refine ⟨h.memory _ _ h.preparing fun c hc => ?_, Kept.refl _⟩
    rcases List.mem_cons.mp hc with rfl | hc
    · refine ⟨hreq, ?_⟩
      unfold FlagsOk
      rw [hcommand]
      exact ⟨rfl, rfl, rfl⟩
    · exact h.calls c hc
  | close =>
    exact ⟨{ h with
      work := fun w hw => ⟨(h.work w hw).record, (h.work w hw).registered, (h.work w hw).unsent,
        (h.work w hw).claimed⟩
      preparing := fun p hp => (h.preparing p hp).frame rfl rfl rfl
      calls := fun c hc => (h.calls c hc).frame rfl rfl }, Kept.refl _⟩
  | restart runtime maxActive _ => exact ⟨h.restart runtime maxActive, Kept.refl _⟩

/-! ## Where workers and start requests come from -/

/-- A worker is created with its record, and a start request is sent by a worker that has claimed
its record. -/
structure Sent (s t : Runtime) : Prop where
  works : ∀ w ∈ t.works, (∃ v ∈ s.works, v.key = w.key) ∨ ∀ r, ¬Held s.rows w.key r
  starts : ∀ x ∈ t.starts, x ∈ s.starts ∨ ∃ w ∈ s.works, w.key = x.key ∧ w.phase = .launched ∧
    x.runtime = s.runtime ∧ ∃ r, Held s.rows w.key r ∧ r.definition = w.definition ∧
      r.coordinatorRuntimeId = s.runtime ∧ r.state = .launching

omit [F64] in
theorem Sent.same {s t : Runtime} (hworks : ∀ w ∈ t.works, ∃ v ∈ s.works, v.key = w.key)
    (hstarts : t.starts = s.starts) : Sent s t := by
  refine ⟨fun w hw => Or.inl (hworks w hw), fun x hx => Or.inl ?_⟩
  rw [← hstarts]
  exact hx

omit [F64] [Sha256] in
theorem key_replaced {s : Runtime} {pre post : List Work} {d : Definition} {phase : Phase}
    (hworks : s.works = pre ++ ⟨d, phase⟩ :: post) (phase' : Phase) :
    ∀ u ∈ pre ++ ⟨d, phase'⟩ :: post, ∃ v ∈ s.works, v.key = u.key := by
  intro u hu
  rcases mem_replaced (w := ⟨d, phase⟩) hu with rfl | hu
  · refine ⟨⟨d, phase⟩, ?_, rfl⟩
    rw [hworks]
    exact List.mem_append_right _ (List.mem_cons_self ..)
  · exact ⟨u, by rw [hworks]; exact hu, rfl⟩

theorem Inv.sent {s t : Runtime} (h : Inv s) (hstep : Step s t) : Sent s t := by
  cases hstep with
  | @worker _ pre post w hworks hstep =>
    have hw : w ∈ s.works := by
      rw [hworks]
      exact List.mem_append_right _ (List.mem_cons_self ..)
    have hok := h.work w hw
    obtain ⟨d, phase⟩ := w
    cases hstep with
    | notReady reason hreason hfree => exact .same (fun w hw => ⟨w, hw, rfl⟩) rfl
    | cancelled _ | claim _ | lostRace _ | outcome _ _ | give _ _ | checkpoint _ | abort _ =>
      exact .same (key_replaced hworks _) rfl
    | start =>
      refine ⟨fun u hu => Or.inl (key_replaced hworks _ u hu), fun x hx => ?_⟩
      rcases List.mem_cons.mp hx with rfl | hx
      · obtain ⟨r, hheld, hdef, hruntime⟩ := hok.record
        exact Or.inr ⟨_, hw, rfl, rfl, rfl, r, hheld, hdef, hruntime, hok.claimed trivial r hheld⟩
      · exact Or.inl hx
    | retire hfree =>
      refine .same (fun u hu => ⟨u, ?_, rfl⟩) rfl
      rw [hworks]
      rcases List.mem_append.mp hu with hu | hu
      · exact List.mem_append_left _ hu
      · exact List.mem_append_right _ (List.mem_cons_of_mem _ hu)
  | arm hstep =>
    cases hstep with
    | @armCommit p quota now rows r hp _ _ _ _ harm =>
      refine ⟨fun w hw => ?_, fun x hx => Or.inl hx⟩
      rcases List.mem_cons.mp hw with rfl | hw
      · right
        intro q hq
        obtain ⟨-, hnone, -⟩ | ⟨hfalse, -⟩ := arm_ok harm
        · rw [Held, Work.key, hnone] at hq
          cases hq
        · cases hfalse
      · exact Or.inl ⟨w, hw, rfl⟩
    | armBegin _ _ _ _ | armReuse _ _ _ _ _ | armScan _ _ _ _ _ | armFail _ | armRefuse _ _
      | armKnown _ _ _ => exact .same (fun w hw => ⟨w, hw, rfl⟩) rfl
  | call hcalls hstep =>
    cases hstep with
    | spawn hworks _ => exact .same (key_replaced hworks _) rfl
    | refuse hworks => exact .same (key_replaced hworks _) rfl
    | cancel _ | snapshot _ _ | unread _ => exact .same (fun w hw => ⟨w, hw, rfl⟩) rfl
  | cancelWait _ _ _ | inspect _ _ | close => exact .same (fun w hw => ⟨w, hw, rfl⟩) rfl
  | restart runtime maxActive _ => exact .same (fun w hw => absurd hw List.not_mem_nil) rfl

/-! ## Runs -/

/-- Records keep what the owner consented to, and only move forward. -/
def Later (rows rows' : List Row) : Prop :=
  ∀ k r, Held rows k r → ∃ r', Held rows' k r' ∧ r'.definition = r.definition ∧
    r'.coordinatorRuntimeId = r.coordinatorRuntimeId ∧ r'.createdAtMs = r.createdAtMs ∧
    Relation.ReflTransGen State.Moves r.state r'.state

theorem Inv.run {s t : Runtime} (h : Inv s) (hrun : Run Step s t) : Inv t ∧ Later s.rows t.rows := by
  induction hrun with
  | refl => exact ⟨h, fun k r hr => ⟨r, hr, rfl, rfl, rfl, .refl⟩⟩
  | tail _ hlast ih =>
    obtain ⟨hinv, hlater⟩ := ih
    obtain ⟨hinv', hkept⟩ := hinv.step hlast
    refine ⟨hinv', fun k r hr => ?_⟩
    obtain ⟨r', hr', hdef, hruntime, hcreated, hmoves⟩ := hlater k r hr
    obtain ⟨r'', hr'', hmoved⟩ := hkept k r' hr'
    refine ⟨r'', hr'', hmoved.definition.trans hdef, hmoved.runtime.trans hruntime,
      hmoved.created.trans hcreated, ?_⟩
    rcases hmoved.state with hs | hs
    · rw [hs]
      exact hmoves
    · exact hmoves.tail hs

/-- What a restarted process sends is about records that it inserted itself. -/
theorem Inv.restarted {s u : Runtime} (h : Inv s) {runtime : String} {maxActive : Nat}
    (hrun : Run Step (.opened s.rows runtime maxActive s.starts s.reports) u) :
    (∀ k r, Held s.rows k r → ∃ r', Held u.rows k r') ∧
      (∀ w ∈ u.works, ∀ r, ¬Held s.rows w.key r) ∧
      ∀ x ∈ u.starts, x ∈ s.starts ∨ ∀ r, ¬Held s.rows x.key r := by
  have hopened := h.restart runtime maxActive
  have hall : Inv u ∧ (∀ k r, Held s.rows k r → ∃ r', Held u.rows k r') ∧
      (∀ w ∈ u.works, ∀ r, ¬Held s.rows w.key r) ∧
      ∀ x ∈ u.starts, x ∈ s.starts ∨ ∀ r, ¬Held s.rows x.key r := by
    induction hrun with
    | refl =>
      exact ⟨hopened, fun k r hr => ⟨r, hr⟩, fun w hw => (nomatch hw), fun x hx => Or.inl hx⟩
    | tail _ hlast ih =>
      obtain ⟨hinv, hstay, hworks, hstarts⟩ := ih
      obtain ⟨hinv', hkept⟩ := hinv.step hlast
      have hsent := hinv.sent hlast
      refine ⟨hinv', fun k r hr => ?_, fun w hw r hr => ?_, fun x hx => ?_⟩
      · obtain ⟨r', hr'⟩ := hstay k r hr
        obtain ⟨r'', hr'', -⟩ := hkept k r' hr'
        exact ⟨r'', hr''⟩
      · rcases hsent.works w hw with ⟨v, hv, hkey⟩ | hnew
        · exact hworks v hv r (by rw [hkey]; exact hr)
        · obtain ⟨r', hr'⟩ := hstay w.key r hr
          exact hnew r' hr'
      · rcases hsent.starts x hx with hx | ⟨w, hw, hkey, -⟩
        · exact hstarts x hx
        · exact Or.inr fun r hr => hworks w hw r (by rw [hkey]; exact hr)
  exact hall.2

/-- What holds of a coordinator at any time. -/
structure AtMostOnce (s : Runtime) : Prop where
  once : (s.starts.map Start.key).Nodup
  claimed : ∀ x ∈ s.starts, ∃ r, Held s.rows x.key r ∧ r.coordinatorRuntimeId = x.runtime ∧
    r.state.claimed
  registered : s.active.length ≤ s.maxActive ∧ (s.active.map Prod.fst).Nodup
  workers : ∀ ws : List Work, ws.Sublist s.works →
    (∀ w ∈ ws, ∃ r, Held s.rows w.key r ∧ r.state.live = true) →
    ws.length ≤ s.maxActive ∧ (ws.map fun w => w.definition.nodeId).Nodup
  guards : ∀ pre v post, s.works = pre ++ v :: post → ∀ w ∈ pre ++ post,
    Registered s.active w → Registered (dropGuard s.active v) w
  reports : ∀ p ∈ s.reports, confirmed p.2 p.1 = true

omit [F64] in
/-- Workers with live records are registered, so there are no more of them than entries. -/
theorem Inv.workers {s : Runtime} (h : Inv s) {ws : List Work} (hsub : ws.Sublist s.works)
    (hlive : ∀ w ∈ ws, ∃ r, Held s.rows w.key r ∧ r.state.live = true) :
    ws.length ≤ s.maxActive ∧ (ws.map fun w => w.definition.nodeId).Nodup := by
  have hreg : ∀ w ∈ ws, Registered s.active w := by
    intro w hw
    obtain ⟨r, hr, hl⟩ := hlive w hw
    exact (h.work w (hsub.subset hw)).registered r hr hl
  have hkeys : (ws.map Work.key).Nodup := h.works.sublist (hsub.map _)
  have hnodes : (ws.map fun w => w.definition.nodeId).Nodup := by
    refine List.Nodup.map_on ?_ (List.Nodup.of_map _ hkeys)
    intro v hv w hw hnode
    obtain ⟨e, he, hop⟩ := hreg v hv
    obtain ⟨e', he', hop'⟩ := hreg w hw
    rw [hnode, he'] at he
    cases he
    exact List.inj_on_of_nodup_map hkeys hv hw (Prod.ext hnode (hop.symm.trans hop'))
  refine ⟨?_, hnodes⟩
  have hsubset : (ws.map fun w => w.definition.nodeId) ⊆ s.active.map Prod.fst := by
    intro n hn
    obtain ⟨w, hw, rfl⟩ := List.mem_map.mp hn
    obtain ⟨e, he, -⟩ := hreg w hw
    exact List.mem_map_of_mem (Assoc.mem_of_lookup he)
  have hle := (hnodes.subperm hsubset).length_le
  rw [List.length_map, List.length_map] at hle
  exact Nat.le_trans hle h.bounded

omit [F64] in
theorem Inv.atMostOnce {s : Runtime} (h : Inv s) : AtMostOnce s where
  once := h.once
  claimed := h.starts
  registered := ⟨h.bounded, h.nodes⟩
  workers _ hsub hlive := h.workers hsub hlive
  guards _ _ _ hworks _ hw hreg := registered_dropGuard (h.others_ne hworks hw) hreg
  reports p hp := (h.reports p hp).1

/-- Setup model checks run at most once, over every interleaving and any number of restarts. -/
theorem setup_checks_at_most_once {runtime : String} {maxActive : Nat} {s t : Runtime}
    (hs : Run Step (.opened [] runtime maxActive [] []) s) (ht : Run Step s t) :
    AtMostOnce t ∧ Later s.rows t.rows ∧
    (∀ u, Step t u → Kept t.rows u.rows ∧ Sent t u) ∧
    (∀ p ∈ s.reports, p.2.waitingCancelled = true →
      ∀ x ∈ t.starts, x.key ≠ (p.1.nodeId, p.1.operationId)) ∧
    ∀ runtime' maxActive' u,
      Run Step (.opened s.rows runtime' maxActive' s.starts s.reports) u →
      ∀ x ∈ u.starts, x ∈ s.starts ∨ ∀ r, ¬Held s.rows x.key r := by
  obtain ⟨hinv, -⟩ := (Inv.opened runtime maxActive).run hs
  obtain ⟨hinv', hlater⟩ := hinv.run ht
  refine ⟨hinv'.atMostOnce, hlater, fun u hu => ⟨(hinv'.step hu).2, hinv'.sent hu⟩, ?_, ?_⟩
  · intro p hp hcan x hx hkey
    obtain ⟨r, hr, hstate⟩ := (hinv.reports p hp).2 hcan
    obtain ⟨r', hr', -, -, -, hmoves⟩ := hlater _ r hr
    -- a cancelled record stays cancelled, and a started one is not
    have hstay : r'.state = .cancelled := by
      rw [hstate] at hmoves
      rcases Relation.ReflTransGen.cases_head hmoves with heq | ⟨c, hc, -⟩
      · exact heq.symm
      · cases hc
    obtain ⟨q, hq, -, hclaim⟩ := hinv'.starts x hx
    rw [hkey] at hq
    have := hr'.unique hq
    subst this
    rw [hstay] at hclaim
    rcases hclaim with h | h | h <;> cases h
  · exact fun runtime' maxActive' u hu => (hinv.restarted hu).2.2

end

/-! ## One check -/

/-- A check of a node's model. -/
def sampleDefinition : Definition :=
  ⟨1, "hall", "550e8400-e29b-41d4-a716-446655440000", ⟨.ollama, "tiny"⟩, 5000⟩

/-- The runtime that arms it. -/
def sampleId : String := "550e8400-e29b-41d4-a716-446655440001"

/-- The owner's request. -/
def sampleRequest : Request :=
  ⟨1, sampleId, sampleDefinition.nodeId, sampleDefinition.operationId,
    .arm sampleDefinition.model sampleDefinition.maxWaitMs true⟩

/-- A hash with one value. -/
@[reducible]
def sampleSha : Sha256 := .constant _ hexDigest_a

section

attribute [local instance] F64.bits sampleSha

/-- The row of the check in a state. -/
def sampleRow (state : State) : Row :=
  .of "aaaaaaaa-aaaa-8aaa-aaaa-aaaaaaaaaaaa" ⟨1, sampleDefinition, sampleId, 7, state, none⟩

/-- The coordinator with the worker in a phase. -/
def sampleRuntime (state : State) (phase : Phase) (calls : List Call) (starts : List Start) :
    Runtime where
  rows := [sampleRow state]
  runtime := sampleId
  active := [("hall", ⟨sampleDefinition.operationId, false, "waiting_for_setup"⟩)]
  maxActive := 1
  closing := false
  preparing := none
  works := [⟨sampleDefinition, phase⟩]
  calls := calls
  starts := starts
  reports := []

/-- What the functions of the journal make of the check. -/
theorem sample_checked : sampleRequest.validate = .ok ()
    ∧ read [] sampleDefinition.nodeId sampleDefinition.operationId = .ok none
    ∧ arm [] sampleDefinition sampleId ⟨.ok none, 0, 0, 8192, 10⟩ 7 =
      .ok ([sampleRow .waiting], ⟨1, sampleDefinition, sampleId, 7, .waiting, none⟩, true)
    ∧ launch [sampleRow .waiting] sampleDefinition sampleId =
      .ok ([sampleRow .launching], true) := by
  decide +kernel

/-- The check is armed, its worker spawned, its record claimed, and the start request sent. -/
theorem sample_run : Run Step (.opened [] sampleId 1 [] [])
    (sampleRuntime .launching .started [.snapshot sampleRequest true false false]
      [⟨("hall", sampleDefinition.operationId), sampleId⟩]) := by
  obtain ⟨hvalid, hread, harm, hlaunch⟩ := sample_checked
  have hbegin : Step (.opened [] sampleId 1 [] [])
      { Runtime.opened [] sampleId 1 [] [] with
        preparing := some ⟨sampleRequest, sampleDefinition, [], []⟩ } :=
    .arm (.armBegin ⟨hvalid, rfl⟩ rfl rfl hread)
  have hcommit : Step _ (sampleRuntime .waiting .prepared [.armed sampleRequest sampleDefinition] [])
    := .arm (.armCommit (s := { Runtime.opened [] sampleId 1 [] [] with
      preparing := some ⟨sampleRequest, sampleDefinition, [], []⟩ }) rfl rfl rfl (by decide) rfl
      harm)
  have hspawn : Step (sampleRuntime .waiting .prepared [.armed sampleRequest sampleDefinition] [])
      (sampleRuntime .waiting .waiting [.snapshot sampleRequest true false false] []) :=
    @Step.call _ _ _ _ [] [] _ rfl (@CallStep.spawn _ _ _ _ sampleRequest sampleDefinition [] [] rfl rfl)
  have hclaim : Step (sampleRuntime .waiting .waiting [.snapshot sampleRequest true false false] [])
      (sampleRuntime .launching .launched [.snapshot sampleRequest true false false] []) :=
    @Step.worker _ _ _ _ [] [] _ rfl (.claim hlaunch)
  have hstart : Step
      (sampleRuntime .launching .launched [.snapshot sampleRequest true false false] [])
      (sampleRuntime .launching .started [.snapshot sampleRequest true false false]
        [⟨("hall", sampleDefinition.operationId), sampleId⟩]) :=
    @Step.worker _ _ _ _ [] [] _ rfl .start
  exact ((((Relation.ReflTransGen.single hbegin).tail hcommit).tail hspawn).tail hclaim).tail hstart

/-- The guarantees after that run. -/
theorem setup_checks_at_most_once_started :
    AtMostOnce (sampleRuntime .launching .started [.snapshot sampleRequest true false false]
      [⟨("hall", sampleDefinition.operationId), sampleId⟩]) :=
  (setup_checks_at_most_once .refl sample_run).1

end

end Eef.Coordinator.SetupChecks
