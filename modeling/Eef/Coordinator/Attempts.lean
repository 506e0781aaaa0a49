import Eef.Coordinator.Executed

/-!
# The last attempt of an execution

By `chain` only the last attempt of a plan that is not a pair can be unsettled, so a
transition touches the last attempt and its task; every other issued task is completed,
and a task without an attempt can only be cancelled. `settle_executed` is the frame of
every transition that ends the last attempt: a report, and a recovery.
-/

namespace Eef.Coordinator

open Eef.Lib Eef.Node

/-! ## Lists -/

/-- If a test fails everywhere but at the end, it holds at most once. -/
theorem countP_le_one {α : Type} {P : α → Bool} {l : List α}
    (h : ∀ (i : Nat) b, l[i]? = some b → i + 1 < l.length → P b = false) : l.countP P ≤ 1 := by
  rcases List.eq_nil_or_concat' l with rfl | ⟨init, last, rfl⟩
  · simp
  · have hinit : init.countP P = 0 := by
      rw [List.countP_eq_zero]
      intro b hb
      obtain ⟨i, hi⟩ := List.mem_iff_getElem?.1 hb
      have hlt : i < init.length := (List.getElem?_eq_some_iff.1 hi).1
      have := h i b (by rw [List.getElem?_append_left hlt]; exact hi) (by simp; omega)
      simp [this]
    rw [List.countP_append, hinit, Nat.zero_add]
    exact List.countP_le_length

theorem map_modify_of_eq {α β : Type} (g : α → β) {f : α → α} (l : List α) (i : Nat)
    (hf : ∀ a, g (f a) = g a) : (l.modify i f).map g = l.map g := by
  refine List.ext_getElem? fun j => ?_
  rw [List.getElem?_map, List.getElem?_map, List.getElem?_modify]
  cases l[j]? with
  | none => rfl
  | some a =>
    by_cases hij : i = j
    · simp [hij, hf]
    · simp [hij]

theorem filterMap_modify_of_eq {α β : Type} (g : α → Option β) {f : α → α} (l : List α) (i : Nat)
    (hf : ∀ a, g (f a) = g a) : (l.modify i f).filterMap g = l.filterMap g := by
  have hmap : ∀ l : List α, l.filterMap g = (l.map g).filterMap id := by
    intro l
    rw [List.filterMap_map]
    rfl
  rw [hmap, hmap, map_modify_of_eq g l i hf]

/-! ## Cancelling what waits -/

namespace Task

theorem cancelled_fresh (t : Task) : t.cancelled.fresh = t.fresh := by
  unfold cancelled
  split <;> rfl

theorem cancelled_taskId (t : Task) : t.cancelled.taskId = t.taskId := by
  unfold cancelled
  split <;> rfl

theorem cancelled_result (t : Task) : t.cancelled.result = t.result := by
  unfold cancelled
  split <;> rfl

theorem cancelled_eq {t : Task} (h : t.status ≠ .pending) : t.cancelled = t := if_neg h

theorem cancelled_unissued {t : Task} (h : t.unissued) :
    t.cancelled.unissued ∧ t.cancelled.status = .cancelled := by
  obtain ⟨hs, h1, h2, h3⟩ := h
  unfold cancelled
  split
  · exact ⟨⟨Or.inr rfl, h1, h2, h3⟩, rfl⟩
  · rename_i hp
    have hc : t.status = .cancelled := hs.resolve_left hp
    exact ⟨⟨Or.inr hc, h1, h2, h3⟩, hc⟩

theorem interrupted_fresh (t : Task) : t.interrupted.fresh = t.fresh := by
  unfold interrupted
  split <;> rfl

end Task

namespace Plan

/-! ## Stamping -/

/-- A plan after `stamp`. -/
def stamped (p : Plan) (now : Nat) (history : List JobEvent) : Plan :=
  { p with revision := p.revision + 1, updatedAtMs := now, history := history }

theorem stamp_ok {p q : Plan} {event : String} {now : Nat} (h : p.stamp event now = .ok q) :
    p.revision < u64Max ∧ ∃ history, q = p.stamped now history := by
  simp only [stamp, bind_ok, ensure_ok, pure_ok, exists_const] at h
  obtain ⟨hlt, rfl⟩ := h
  exact ⟨hlt, _, rfl⟩

theorem stamp_eq {p : Plan} (h : p.revision < u64Max) (event : String) (now : Nat) :
    ∃ history, p.stamp event now = .ok (p.stamped now history) := by
  obtain ⟨q, hq⟩ : ∃ q, p.stamp event now = .ok q :=
    ⟨_, by simp only [stamp, ensure, if_pos h, ok_bind]; rfl⟩
  obtain ⟨-, history, rfl⟩ := stamp_ok hq
  exact ⟨history, hq⟩

theorem operationUsed_of {p q : Plan} {e e' : ExecutionRecord} (he : p.execution = some e)
    (he' : q.execution = some e') (hdef : q.definition = p.definition)
    (happroval : q.approval = p.approval) (hcmd : e'.command = e.command)
    (hgrants : e'.attempts.map (·.grant) = e.attempts.map (·.grant)) (id : String) :
    q.operationUsed id = p.operationUsed id := by
  obtain ⟨-, -, hplanning, hreview⟩ := planning_of_definition hdef
  have hany : (e'.attempts.any fun a => a.grant.grantId == id)
      = e.attempts.any fun a => a.grant.grantId == id := by
    simpa [List.any_map, Function.comp_def] using
      congrArg (List.any · fun g => g.grantId == id) hgrants
  simp only [operationUsed, he, he', Option.any_some, hcmd, hany, happroval, hplanning, hreview]

/-! ## Stop evidence and results -/

theorem mem_modify_stop (as : List GrantedAttempt) (i : Nat) (f : GrantedAttempt → GrantedAttempt)
    (hgrant : ∀ a, (f a).grant = a.grant) (hstop : ∀ a, (f a).stop = a.stop) :
    ∀ a' ∈ as.modify i f, ∃ a ∈ as, a'.grant = a.grant ∧ a'.stop = a.stop := by
  intro a' ha'
  obtain ⟨j, hj⟩ := List.mem_iff_getElem?.1 ha'
  rw [List.getElem?_modify] at hj
  obtain ⟨a, ha, rfl⟩ := Option.map_eq_some_iff.1 hj
  refine ⟨a, List.mem_of_getElem? ha, ?_⟩
  split
  · exact ⟨hgrant a, hstop a⟩
  · exact ⟨rfl, rfl⟩

section
variable [F64] [PeerAdmission] [Sha256]

theorem StopKept.of_eq {e e' : ExecutionRecord} (h : StopKept e)
    (hreq : e'.stopRequestedAtMs = e.stopRequestedAtMs) (hstart : e'.startedAtMs = e.startedAtMs)
    (hatt : ∀ a' ∈ e'.attempts, ∃ a ∈ e.attempts, a'.grant = a.grant ∧ a'.stop = a.stop) :
    StopKept e' := by
  refine ⟨fun t ht => ?_, fun a' ha' stop hstop => ?_⟩
  · rw [hreq] at ht
    rw [hstart]
    exact h.requested t ht
  · obtain ⟨a, ha, hgrant, hs⟩ := hatt a' ha'
    rw [hs] at hstop
    rw [hreq, hgrant]
    exact h.delivered a ha stop hstop

end

/-- The results of the tasks after one of them got its result. -/
theorem results_set {p : Plan} {i : Nat} {t : Task} {f c : Task → Task} {v : TaskResult}
    (hids : (p.tasks.map (·.taskId)).Nodup)
    (hres : ∀ k v, p.results.lookup k = some v ↔
      ∃ t ∈ p.tasks, t.taskId = k ∧ t.result = some v)
    (ht : p.tasks[i]? = some t) (hfid : ∀ t, (f t).taskId = t.taskId)
    (hfv : (f t).result = some v) (hcid : ∀ t, (c t).taskId = t.taskId)
    (hcv : ∀ t, (c t).result = t.result) (k : String) (w : TaskResult) :
    (Assoc.set t.taskId v p.results).lookup k = some w ↔
      ∃ t' ∈ (p.tasks.modify i f).map c, t'.taskId = k ∧ t'.result = some w := by
  have hmem : ∀ t', t' ∈ (p.tasks.modify i f).map c ↔
      ∃ j t0, p.tasks[j]? = some t0 ∧ t' = c (if i = j then f t0 else t0) := by
    intro t'
    rw [List.mem_map]
    constructor
    · rintro ⟨t1, h1, rfl⟩
      obtain ⟨j, hj⟩ := List.mem_iff_getElem?.1 h1
      rw [List.getElem?_modify] at hj
      obtain ⟨t0, h0, rfl⟩ := Option.map_eq_some_iff.1 hj
      exact ⟨j, t0, h0, rfl⟩
    · rintro ⟨j, t0, h0, rfl⟩
      refine ⟨_, List.mem_iff_getElem?.2 ⟨j, ?_⟩, rfl⟩
      rw [List.getElem?_modify, h0]
      rfl
  have hinj : ∀ (j : Nat) t0, p.tasks[j]? = some t0 → t0.taskId = t.taskId → j = i := by
    intro j t0 h0 hid
    have hlt : j < (p.tasks.map (·.taskId)).length := by
      simpa using (List.getElem?_eq_some_iff.1 h0).1
    refine (List.getElem?_inj hlt hids).1 ?_
    rw [List.getElem?_map, List.getElem?_map, h0, ht, Option.map_some, Option.map_some, hid]
  rw [Assoc.lookup_set]
  constructor
  · intro h
    split at h
    · rename_i hk
      cases h
      refine ⟨_, (hmem _).2 ⟨i, t, ht, rfl⟩, ?_, ?_⟩
      · rw [hcid, if_pos rfl, hfid, hk]
      · rw [hcv, if_pos rfl, hfv]
    · rename_i hk
      obtain ⟨t0, h0, hid, hw⟩ := (hres k w).1 h
      obtain ⟨j, hj⟩ := List.mem_iff_getElem?.1 h0
      have hne : i ≠ j := by
        rintro rfl
        rw [ht] at hj
        cases hj
        exact hk hid.symm
      refine ⟨_, (hmem _).2 ⟨j, t0, hj, rfl⟩, ?_, ?_⟩
      · rw [hcid, if_neg hne, hid]
      · rw [hcv, if_neg hne, hw]
  · rintro ⟨t', ht', hid, hw⟩
    obtain ⟨j, t0, h0, rfl⟩ := (hmem t').1 ht'
    rw [hcid] at hid
    rw [hcv] at hw
    by_cases hij : i = j
    · subst hij
      rw [ht] at h0
      cases h0
      rw [if_pos rfl] at hid hw
      rw [hfid] at hid
      rw [if_pos hid.symm, ← hfv, hw]
    · rw [if_neg hij] at hid hw
      have hne : k ≠ t.taskId := fun hk => hij (hinj j t0 h0 (hid.trans hk)).symm
      rw [if_neg hne]
      exact (hres k w).2 ⟨t0, List.mem_of_getElem? h0, hid, hw⟩

/-! ## The last attempt -/

theorem chain_modify {as : List GrantedAttempt} {i : Nat} {f : GrantedAttempt → GrantedAttempt}
    (h : ∀ (j : Nat) b, as[j]? = some b → j + 1 < as.length → b.succeeded)
    (hi : i + 1 = as.length) :
    ∀ (j : Nat) b, (as.modify i f)[j]? = some b → j + 1 < (as.modify i f).length →
      b.succeeded := by
  intro j b hb hlt
  rw [List.length_modify] at hlt
  rw [List.getElem?_modify_ne _ _ (by omega)] at hb
  exact h j b hb hlt

theorem not_live_of_succeeded {a : GrantedAttempt} (h : a.succeeded) : a.state.live = false := by
  rw [h.1]
  rfl

theorem countP_live_le {as : List GrantedAttempt}
    (h : ∀ (j : Nat) b, as[j]? = some b → j + 1 < as.length → b.succeeded) :
    as.countP (fun a => a.state.live) ≤ 1 :=
  countP_le_one fun i b hb hlt => not_live_of_succeeded (h i b hb hlt)

theorem ne_abandoned_of_live {s : PlanStatus} (h : s.live = true) : s ≠ .abandoned := by
  rintro rfl
  cases h

section
variable [F64] [PeerAdmission] [Sha256] [Pairing]

variable {p : Plan} {e : ExecutionRecord} {ap : ApprovalRecord} {pl : PlanningRecord}
  {dr : DraftRecord}

omit [Sha256] [Pairing] in
/-- The task of a grant is the one it was issued for. -/
theorem Granted.taskId {i : Nat} {t : Task} {a : GrantedAttempt} (h : p.Granted e ap pl i t a)
    (ht : p.tasks[i]? = some t) : a.grant.taskId = t.taskId := by
  obtain ⟨g, hscope, heq⟩ := h.scope
  simp only [Plan.scope, bind_ok, bailIf_ok, context_ok, ensure_ok, pure_ok, ht, Option.some.injEq,
    exists_eq_left'] at hscope
  obtain ⟨-, -, _, -, _, -, _, -, _, -, _, -, _, -, rfl⟩ := hscope
  rw [heq]
  rfl

/-- What settles the tasks of a plan: nothing, or cancelling the ones that wait. -/
structure Settling (c : Task → Task) : Prop where
  fresh : ∀ t, (c t).fresh = t.fresh
  taskId : ∀ t, (c t).taskId = t.taskId
  result : ∀ t, (c t).result = t.result
  eq : ∀ {t : Task}, t.status ≠ .pending → c t = t
  unissued : ∀ {t : Task}, t.unissued → (c t).unissued

omit [F64] [PeerAdmission] [Sha256] [Pairing] in
theorem settling_id : Settling id := ⟨fun _ => rfl, fun _ => rfl, fun _ => rfl, fun _ => rfl, id⟩

omit [F64] [PeerAdmission] [Sha256] [Pairing] in
theorem settling_cancelled : Settling Task.cancelled :=
  ⟨Task.cancelled_fresh, Task.cancelled_taskId, Task.cancelled_result, Task.cancelled_eq,
    fun h => (Task.cancelled_unissued h).1⟩

omit [F64] [PeerAdmission] [Sha256] [Pairing] in
theorem Settling.getElem? {c : Task → Task} {ts : List Task} {i j : Nat} {f : Task → Task}
    {t' : Task} (h : ((ts.modify i f).map c)[j]? = some t') :
    ∃ t, ts[j]? = some t ∧ t' = c (if i = j then f t else t) := by
  rw [List.getElem?_map, List.getElem?_modify] at h
  obtain ⟨t1, h1, rfl⟩ := Option.map_eq_some_iff.1 h
  obtain ⟨t, ht, rfl⟩ := Option.map_eq_some_iff.1 h1
  exact ⟨t, ht, rfl⟩

omit [F64] [PeerAdmission] [Sha256] [Pairing] in
theorem Settling.definition {c : Task → Task} (hc : Settling c) {i : Nat} {s : TaskStatus}
    {v : TaskResult} (ts : List Task) :
    ((ts.modify i (Task.settle s v)).map c).map Task.fresh = ts.map Task.fresh := by
  have hfresh : Task.fresh ∘ c = Task.fresh := funext hc.fresh
  rw [List.map_map, hfresh]
  exact map_modify_of_eq Task.fresh ts i fun _ => rfl

/-- Beside the last attempt's task there are completed ones and ones without an attempt. -/
theorem Executed.other_task (h : p.Executed e ap pl dr false) {i j : Nat} {t : Task}
    (hlast : i + 1 = e.attempts.length) (hij : i ≠ j) (ht : p.tasks[j]? = some t) :
    t.status = .completed ∨ t.unissued := by
  cases hb : e.attempts[j]? with
  | none => exact Or.inr (h.unissued j t ht hb)
  | some b =>
    have hlt : j < e.attempts.length := (List.getElem?_eq_some_iff.1 hb).1
    have hs := h.chain rfl j b hb (by omega)
    exact Or.inl ((h.tracks j t b ht hb).status.2.2.2.2.2.2 hs)

theorem Executed.not_live_modify (h : p.Executed e ap pl dr false) {i : Nat} {a : GrantedAttempt}
    {F : GrantedAttempt → GrantedAttempt} (ha : e.attempts[i]? = some a)
    (hlast : i + 1 = e.attempts.length) (hF : (F a).state.live = false) :
    ∀ b ∈ e.attempts.modify i F, b.state.live = false := by
  intro b hb
  obtain ⟨j, hj⟩ := List.mem_iff_getElem?.1 hb
  rw [List.getElem?_modify] at hj
  obtain ⟨b0, hb0, rfl⟩ := Option.map_eq_some_iff.1 hj
  by_cases hij : i = j
  · subst hij
    cases ha.symm.trans hb0
    rw [if_pos rfl]
    exact hF
  · have hlt : j < e.attempts.length := (List.getElem?_eq_some_iff.1 hb0).1
    rw [if_neg hij]
    exact not_live_of_succeeded (h.chain rfl j b0 hb0 (by omega))

omit [Pairing] in
theorem validateRecovery_none {q : Plan} {b : GrantedAttempt} (h : b.recovery = none) :
    q.validateRecovery e b = .ok () := by
  simp [validateRecovery, h]

/-- Only the last attempt carries retained evidence. -/
theorem Executed.recovery_last (h : p.Executed e ap pl dr false) {i : Nat} {a : GrantedAttempt}
    (ha : e.attempts[i]? = some a) {r : RecoveryRecord} (hr : a.recovery = some r) :
    i + 1 = e.attempts.length := by
  have hrec := h.recovery a (List.mem_of_getElem? ha)
  simp only [validateRecovery, hr, bind_ok, ensure_ok] at hrec
  obtain ⟨_, -, hb⟩ := hrec
  have hlast := hb.2.2.2.2.2.2.2.2.2.2.1
  rw [List.getLast?_eq_getElem?] at hlast
  obtain ⟨b, hb', hid⟩ := (Option.any_eq_true _ _).1 hlast
  have hij := h.grantId_inj hb' ha (by simpa using hid)
  have hlt : i < e.attempts.length := (List.getElem?_eq_some_iff.1 ha).1
  omega

/-- The last attempt reaches its end and the tasks are settled. -/
theorem settle_executed (h : p.Executed e ap pl dr false)
    (hids : (p.tasks.map (·.taskId)).Nodup) {i : Nat} {a : GrantedAttempt} {t : Task}
    (ha : e.attempts[i]? = some a) (ht : p.tasks[i]? = some t) (hlast : i + 1 = e.attempts.length)
    {F : GrantedAttempt → GrantedAttempt} (hgrant : ∀ a, (F a).grant = a.grant)
    (hstop : ∀ a, (F a).stop = a.stop) {s : TaskStatus} {r : GrantReport}
    (htr : Tracks false (t.settle s (resultOf a.grant r)) (F a)) {c : Task → Task}
    (hc : Settling c) {status : PlanStatus}
    (hstatus : status = .running ∨ status = .stopping ∨ status = .completed ∨ status = .failed
      ∨ status = .interrupted ∨ status = .cancelled ∨ status = .abandoned)
    {q : Plan} {e' : ExecutionRecord} {now : Nat} {hist : List JobEvent}
    (he' : e' = { e with attempts := e.attempts.modify i F })
    (hq : q = ({ p with
      execution := some e'
      tasks := (p.tasks.modify i (Task.settle s (resultOf a.grant r))).map c
      results := Assoc.set a.grant.taskId (resultOf a.grant r) p.results
      status := status } : Plan).stamped now hist)
    (hrec : ∀ b ∈ e'.attempts, q.validateRecovery e' b = .ok ())
    (hstates : q.statusFits e' false) (habandon : q.validateAbandonment e' = .ok ()) :
    q.Executed e' ap pl dr false := by
  subst he' hq
  have hdef := hc.definition (i := i) (s := s) (v := resultOf a.grant r) p.tasks
  have hid := (h.granted i t a ht ha).taskId ht
  refine h.update (by simp only [definition, stamped]; rw [hdef]) (Nat.le_succ _) rfl rfl rfl
    (map_modify_of_eq GrantedAttempt.grant e.attempts i hgrant) ?_ hstatus
    (h.stop.of_eq rfl rfl (mem_modify_stop e.attempts i F hgrant hstop))
    (h.unpaired (by simp only [definition, stamped]; rw [hdef]) rfl) ?_ ?_
    (fun _ => chain_modify (h.chain rfl) hlast) hrec ?_ hstates habandon
  · intro j t0 t' h0 ht' hsome
    obtain ⟨t1, h1, rfl⟩ := Settling.getElem? ht'
    cases h0.symm.trans h1
    obtain ⟨b, hb⟩ := Option.isSome_iff_exists.1 hsome
    have hne := (h.tracks j t0 b h0 hb).status.1
    by_cases hij : i = j
    · subst hij
      cases ht.symm.trans h0
      rw [if_pos rfl, hc.eq htr.status.1]
      exact ⟨rfl, rfl⟩
    · rw [if_neg hij, hc.eq hne]
      exact ⟨rfl, rfl⟩
  · intro j t' ht' hj
    obtain ⟨t1, h1, rfl⟩ := Settling.getElem? ht'
    have hnone : e.attempts[j]? = none := by simpa [List.getElem?_modify] using hj
    have hij : i ≠ j := by
      rintro rfl
      exact absurd (ha.symm.trans hnone) (by simp)
    rw [if_neg hij]
    exact hc.unissued (h.unissued j t1 h1 hnone)
  · intro j t' b' ht' hb'
    obtain ⟨t1, h1, rfl⟩ := Settling.getElem? ht'
    rw [List.getElem?_modify] at hb'
    obtain ⟨b, hb, rfl⟩ := Option.map_eq_some_iff.1 hb'
    by_cases hij : i = j
    · subst hij
      cases ht.symm.trans h1
      cases ha.symm.trans hb
      rw [if_pos rfl, if_pos rfl, hc.eq htr.status.1]
      exact htr
    · have htb := h.tracks j t1 b h1 hb
      rw [if_neg hij, if_neg hij, hc.eq htb.status.1]
      exact htb
  · intro k w
    simp only [stamped]
    rw [hid]
    exact results_set (f := Task.settle s (resultOf a.grant r)) hids h.results ht (fun _ => rfl) rfl
      hc.taskId hc.result k w

end

end Plan

end Eef.Coordinator
