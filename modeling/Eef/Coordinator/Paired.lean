import Eef.Coordinator.Reviewed
import Eef.Coordinator.Engine

/-!
# Paired executions

Both ends of a reviewed transfer are issued at once and settle independently into one
status. `Issued` is what `peer_jobs::validate_retained` asks of such a plan. `settlePair`
computes the status and the validator derives it again; they agree because both are read
off the attempts that are left (`settlePair_status`), so a report is refused only for what
it says itself (`Engine.record_accepted`): it does not follow its attempt's saved state, the
plan no longer runs, or the two ends would have moved different content.

`Engine.paired_execution` collects what holds of a pair in every reachable engine.
-/

namespace Eef.Coordinator

open Eef.Lib Eef.Node

namespace Plan

/-! ## An issued pair -/

section
variable [F64] [PeerAdmission] [Sha256] [Pairing]

/-- A pair whose grants were issued. -/
structure Issued (p : Plan) (e : ExecutionRecord) (record : Json) : Prop where
  definition : p.pairDefinition = .ok true
  sealed : Issuance.validateFor record p (e.attempts.map (·.grant)) = .ok ()
  states : p.pairStates e
  confirmed : ∀ a ∈ e.attempts, (∀ v ∈ a.acknowledgement, Issuance.confirms record a.grant v = true)
    ∧ ∀ v ∈ a.finalReport, Issuance.confirms record a.grant v = true

variable {p q : Plan} {e : ExecutionRecord} {ap : ApprovalRecord} {pl : PlanningRecord}
  {dr : DraftRecord} {record : Json} {paired : Bool}

theorem validatePair_issued (hpeer : e.peer = some record) :
    p.validatePair e = .ok paired ↔ paired = true ∧ p.Issued e record := by
  simp only [validatePair, hpeer, bind_ok, ensure_ok, validateJoint_ok, pure_ok, exists_const]
  constructor
  · rintro ⟨b, hb, rfl, _, hvalid, hstates, hconf, rfl⟩
    exact ⟨rfl, hb, hvalid, hstates, hconf⟩
  · rintro ⟨rfl, hb, hvalid, hstates, hconf⟩
    exact ⟨true, hb, rfl, (), hvalid, hstates, hconf, rfl⟩

theorem Executed.issued (h : p.Executed e ap pl dr paired) (hpeer : e.peer = some record) :
    paired = true ∧ p.Issued e record := (validatePair_issued hpeer).1 h.pair

namespace Issued

/-- Exactly two grants, one for each task. -/
theorem length (h : p.Issued e record) : e.attempts.length = 2 ∧ p.tasks.length = 2 := by
  simpa using Issuance.validateFor_length h.sealed

/-- The status of the plan, where no attempt is live. -/
theorem outcome (h : p.Issued e record) (hlive : ∀ a ∈ e.attempts, a.state.live = false) :
    p.status = p.pairOutcome e ∨ (p.pairOutcome e = .completed ∧ p.status = .cancelled) := by
  have hany : (e.attempts.any fun a => a.state.live) = false := by
    rw [List.any_eq_false]
    intro a ha
    simp [hlive a ha]
  have hst := h.states.2.2.2
  rwa [hany, if_neg (by simp)] at hst

/-- The plan runs while one end does. -/
theorem live (h : p.Issued e record) {a : GrantedAttempt} (ha : a ∈ e.attempts)
    (hlive : a.state.live = true) : p.status.live = true := by
  have hany : (e.attempts.any fun a => a.state.live) = true := List.any_eq_true.2 ⟨a, ha, hlive⟩
  have hst := h.states.2.2.2
  rwa [if_pos hany] at hst

omit [F64] [PeerAdmission] [Sha256] [Pairing] in
theorem pairOutcome_cases (p : Plan) (e : ExecutionRecord) :
    (p.pairOutcome e = .interrupted ∧ ∃ a ∈ e.attempts, a.state = .unknown)
      ∨ (p.pairOutcome e = .failed ∧ (∀ a ∈ e.attempts, a.state ≠ .unknown)
        ∧ ∃ t ∈ p.tasks, t.status = .failed)
      ∨ (p.pairOutcome e = .completed ∧ (∀ a ∈ e.attempts, a.state ≠ .unknown)
        ∧ ∀ t ∈ p.tasks, t.status ≠ .failed) := by
  unfold pairOutcome
  split
  · rename_i hu
    left
    obtain ⟨a, ha, hs⟩ := List.any_eq_true.1 hu
    exact ⟨rfl, a, ha, by simpa using hs⟩
  · rename_i hu
    have hnone : ∀ a ∈ e.attempts, a.state ≠ .unknown := by
      intro a ha hs
      exact hu (List.any_eq_true.2 ⟨a, ha, by simp [hs]⟩)
    split
    · rename_i hf
      right; left
      obtain ⟨t, ht, hs⟩ := List.any_eq_true.1 hf
      exact ⟨rfl, hnone, t, ht, by simpa using hs⟩
    · rename_i hf
      right; right
      refine ⟨rfl, hnone, fun t ht hs => ?_⟩
      exact hf (List.any_eq_true.2 ⟨t, ht, by simp [hs]⟩)

/-- A pair runs, or it stands where its ends stand. -/
theorem status_cases (h : p.Issued e record) : p.status.live = true
    ∨ ((∀ a ∈ e.attempts, a.state.live = false) ∧ (p.status = .interrupted ∨ p.status = .failed
      ∨ ((p.status = .completed ∨ p.status = .cancelled) ∧ p.pairOutcome e = .completed))) := by
  by_cases hlive : ∃ a ∈ e.attempts, a.state.live = true
  · obtain ⟨a, ha, hl⟩ := hlive
    exact Or.inl (h.live ha hl)
  · have hdead : ∀ a ∈ e.attempts, a.state.live = false := by
      intro a ha
      by_contra hl
      exact hlive ⟨a, ha, by simpa using hl⟩
    refine Or.inr ⟨hdead, ?_⟩
    rcases h.outcome hdead with hs | ⟨ho, hs⟩
    · rcases pairOutcome_cases p e with ⟨ho, -⟩ | ⟨ho, -⟩ | ⟨ho, -⟩
      · exact Or.inl (hs.trans ho)
      · exact Or.inr (Or.inl (hs.trans ho))
      · exact Or.inr (Or.inr ⟨Or.inl (hs.trans ho), ho⟩)
    · exact Or.inr (Or.inr ⟨Or.inr hs, ho⟩)

/-- When no end is live and the outcome is completion, every task completed. -/
theorem all_completed (h : p.Issued e record)
    (htracks : ∀ (i : Nat) t a, p.tasks[i]? = some t → e.attempts[i]? = some a → Tracks true t a)
    (hdead : ∀ a ∈ e.attempts, a.state.live = false) (ho : p.pairOutcome e = .completed) :
    ∀ t ∈ p.tasks, t.status = .completed := by
  intro t ht
  obtain ⟨i, hi⟩ := List.mem_iff_getElem?.1 ht
  have hlt : i < e.attempts.length := by
    have := (List.getElem?_eq_some_iff.1 hi).1
    have hlen := h.length
    omega
  have ha : e.attempts[i]? = some e.attempts[i] := List.getElem?_eq_getElem hlt
  have hmem := List.mem_of_getElem? ha
  obtain ⟨h1, h2, h3, h4, h5, -⟩ := (htracks i t _ hi ha).status
  rcases pairOutcome_cases p e with ⟨hc, -⟩ | ⟨hc, -⟩ | ⟨-, hu, hf⟩
  · rw [ho] at hc
    cases hc
  · rw [ho] at hc
    cases hc
  · have hrunning : t.status ≠ .running := fun hs => by
      have := h4.1 hs
      rw [hdead _ hmem] at this
      cases this
    have hint : t.status ≠ .interrupted := fun hs => hu _ hmem (h5.1 hs)
    have hfailed := hf t ht
    cases hs : t.status <;> simp_all

/-- The joint state implies what the validator asks of every execution. -/
theorem statusFits (h : p.Issued e record)
    (htracks : ∀ (i : Nat) t a, p.tasks[i]? = some t → e.attempts[i]? = some a → Tracks true t a) :
    p.statusFits e true := by
  refine ⟨fun hno a ha => ?_, fun hs => ?_, fun hs => ?_, fun hs t ht => ?_, ?_, ?_⟩
  · by_contra hl
    rw [h.live ha (by simpa using hl)] at hno
    cases hno
  · rcases h.status_cases with hl | ⟨hdead, hi | hf | ⟨-, ho⟩⟩
    · rw [hs] at hl
      cases hl
    · rw [hs] at hi
      cases hi
    · rw [hs] at hf
      cases hf
    · exact h.all_completed htracks hdead ho
  · rcases h.status_cases with hl | ⟨hdead, -⟩
    · rw [hs] at hl
      cases hl
    · rcases h.outcome hdead with ho | ⟨-, ho⟩
      · rcases pairOutcome_cases p e with ⟨hc, -⟩ | ⟨-, -, hf⟩ | ⟨hc, -⟩
        · exact absurd ((hs.symm.trans ho).trans hc) (by simp)
        · exact hf
        · exact absurd ((hs.symm.trans ho).trans hc) (by simp)
      · exact absurd (hs.symm.trans ho) (by simp)
  · rcases h.status_cases with hl | ⟨hdead, hi | hf | ⟨-, ho⟩⟩
    · rw [hs] at hl
      cases hl
    · rw [hs] at hi
      cases hi
    · rw [hs] at hf
      cases hf
    · simp [h.all_completed htracks hdead ho t ht]
  · intro hno
    cases hno
  · have hlen := h.length
    have hle := List.countP_le_length (p := fun a : GrantedAttempt => a.state.live) (l := e.attempts)
    simp only [if_true]
    omega

theorem status_mem (h : p.Issued e record) :
    p.status = .running ∨ p.status = .stopping ∨ p.status = .completed ∨ p.status = .failed
      ∨ p.status = .interrupted ∨ p.status = .cancelled ∨ p.status = .abandoned := by
  rcases h.status_cases with hl | ⟨-, hs | hs | ⟨hs | hs, -⟩⟩
  · simp only [PlanStatus.live, Bool.or_eq_true, beq_iff_eq] at hl
    rcases hl with hs | hs <;> simp [hs]
  all_goals simp [hs]

end Issued

/-! ## One end moves -/

/-- A transition of one end keeps the pair, once the joint state is shown. -/
theorem Executed.modify_pair (h : p.Executed e ap pl dr true) (hpeer : e.peer = some record)
    (hlive : p.status.live = true) {i : Nat} {a : GrantedAttempt} {t : Task}
    (ha : e.attempts[i]? = some a) (ht : p.tasks[i]? = some t)
    {F : GrantedAttempt → GrantedAttempt} {T : Task → Task}
    (hgrant : ∀ a, (F a).grant = a.grant) (hrecovery : ∀ a, (F a).recovery = a.recovery)
    (hstop : ∀ a, (F a).stop = a.stop) (hfresh : ∀ t, (T t).fresh = t.fresh)
    (hkept : ∀ t, (T t).attempts = t.attempts ∧ (T t).assignments = t.assignments)
    (htr : Tracks true (T t) (F a))
    (hconf : (∀ v ∈ (F a).acknowledgement, Issuance.confirms record a.grant v = true)
      ∧ ∀ v ∈ (F a).finalReport, Issuance.confirms record a.grant v = true)
    {status : PlanStatus} {results : List (String × TaskResult)} {e' : ExecutionRecord} {now : Nat}
    {hist : List JobEvent} (he' : e' = { e with attempts := e.attempts.modify i F })
    (hq : q = ({ p with execution := some e', tasks := p.tasks.modify i T, status := status,
                        results := results } : Plan).stamped now hist)
    (hcontent : pairContent e')
    (hstates : if e'.attempts.any fun a => a.state.live then status.live = true
      else status = q.pairOutcome e' ∨ (q.pairOutcome e' = .completed ∧ status = .cancelled))
    (hresults : ∀ k v, results.lookup k = some v ↔
      ∃ t ∈ p.tasks.modify i T, t.taskId = k ∧ t.result = some v) :
    q.Executed e' ap pl dr true := by
  obtain ⟨-, hI⟩ := h.issued hpeer
  have hqs : q.status = status := by rw [hq]; rfl
  have hdef : q.definition = p.definition := by
    rw [hq]
    simp only [definition, stamped]
    rw [map_modify_of_eq Task.fresh p.tasks i hfresh]
  have hgrants : e'.attempts.map (·.grant) = e.attempts.map (·.grant) := by
    rw [he']
    exact map_modify_of_eq GrantedAttempt.grant e.attempts i hgrant
  -- the attempts and tasks of the new plan
  have hgetA : ∀ (j : Nat) b', e'.attempts[j]? = some b' →
      ∃ b, e.attempts[j]? = some b ∧ b' = if i = j then F b else b := by
    intro j b' hb'
    rw [he', List.getElem?_modify] at hb'
    obtain ⟨b, hb, rfl⟩ := Option.map_eq_some_iff.1 hb'
    exact ⟨b, hb, rfl⟩
  have hget : ∀ (j : Nat) t', q.tasks[j]? = some t' →
      ∃ t0, p.tasks[j]? = some t0 ∧ t' = if i = j then T t0 else t0 := by
    intro j t' ht'
    rw [hq] at ht'
    simp only [stamped, List.getElem?_modify] at ht'
    obtain ⟨t0, h0, rfl⟩ := Option.map_eq_some_iff.1 ht'
    exact ⟨t0, h0, rfl⟩
  have htracks : ∀ (j : Nat) t' b', q.tasks[j]? = some t' → e'.attempts[j]? = some b' →
      Tracks true t' b' := by
    intro j t' b' ht' hb'
    obtain ⟨t0, h0, rfl⟩ := hget j t' ht'
    obtain ⟨b, hb, rfl⟩ := hgetA j b' hb'
    by_cases hij : i = j
    · subst hij
      cases ht.symm.trans h0
      cases ha.symm.trans hb
      rw [if_pos rfl, if_pos rfl]
      exact htr
    · rw [if_neg hij, if_neg hij]
      exact h.tracks j t0 b h0 hb
  have hnorec : ∀ b ∈ e'.attempts, b.recovery = none := by
    intro b' hb'
    obtain ⟨j, hj⟩ := List.mem_iff_getElem?.1 hb'
    obtain ⟨b, hb, rfl⟩ := hgetA j b' hj
    have hn := h.recovery_none hlive (List.mem_of_getElem? hb)
    split
    · rw [hrecovery, hn]
    · exact hn
  have hnab : e'.abandonment = none := by
    rw [he']
    exact h.abandonment_none (ne_abandoned_of_live hlive)
  have hissued : q.Issued e' record := by
    have hdef' := (pairDefinition_of_definition hdef).trans hI.definition
    have happroval : q.approval = p.approval := by rw [hq]; rfl
    refine ⟨hdef', ?_, ⟨hcontent, hnab, hnorec, by rw [hqs]; exact hstates⟩, fun b' hb' => ?_⟩
    · rw [hgrants, validateFor_of_definition hdef happroval]
      exact hI.sealed
    · obtain ⟨j, hj⟩ := List.mem_iff_getElem?.1 hb'
      obtain ⟨b, hb, rfl⟩ := hgetA j b' hj
      by_cases hij : i = j
      · subst hij
        cases ha.symm.trans hb
        rw [if_pos rfl, hgrant]
        exact hconf
      · rw [if_neg hij]
        exact hI.confirmed b (List.mem_of_getElem? hb)
  have hpeer' : e'.peer = some record := by rw [he']; exact hpeer
  refine h.update hdef (by rw [hq]; exact Nat.le_succ _) (by rw [he']) (by rw [he']) (by rw [he'])
    hgrants ?_ hissued.status_mem (h.stop.of_eq (by rw [he']) (by rw [he']) ?_)
    ((validatePair_issued hpeer').2 ⟨rfl, hissued⟩) ?_ htracks (fun hp => by cases hp)
    (fun b hb => validateRecovery_none (hnorec b hb)) ?_ (hissued.statusFits htracks) ?_
  · intro j t0 t' h0 ht' _
    obtain ⟨t1, h1, rfl⟩ := hget j t' ht'
    cases h0.symm.trans h1
    split
    · exact hkept t0
    · exact ⟨rfl, rfl⟩
  · rw [he']
    exact mem_modify_stop e.attempts i F hgrant hstop
  · -- both tasks were issued
    intro j t' ht' hj
    have hlt := (List.getElem?_eq_some_iff.1 ht').1
    have hlen := hissued.length
    rw [List.getElem?_eq_none_iff] at hj
    omega
  · intro k v
    rw [hq]
    exact hresults k v
  · have hne : q.status ≠ .abandoned := by
      intro hs
      rcases hissued.status_cases with hl | ⟨-, hc | hc | ⟨hc | hc, -⟩⟩
      · rw [hs] at hl
        cases hl
      all_goals rw [hs] at hc; cases hc
    simpa only [validateAbandonment, hnab, ensure_ok] using hne

/-! ## Reports -/

omit [F64] [PeerAdmission] [Sha256] [Pairing] in
theorem pairContent_of_reports {e e' : ExecutionRecord} (h : pairContent e)
    (hr : e'.attempts.filterMap (·.report) = e.attempts.filterMap (·.report)) : pairContent e' := by
  unfold pairContent pairReports at h ⊢
  rwa [hr]

/-- An end accepts its grant. -/
theorem accept_pair (h : p.Executed e ap pl dr true) (hpeer : e.peer = some record)
    (hlive : p.status.live = true) {i : Nat} {a : GrantedAttempt} {r : GrantReport}
    (ha : e.attempts[i]? = some a) (hstate : a.state = .issued) (hr : r.state = .accepted)
    (hconf : Issuance.confirms record a.grant r = true) {e' : ExecutionRecord} {now : Nat}
    {hist : List JobEvent}
    (he' : e' = { e with attempts := e.attempts.modify i (GrantedAttempt.accept r) })
    (hq : q = ({ p with execution := some e' } : Plan).stamped now hist) :
    q.Executed e' ap pl dr true := by
  obtain ⟨-, hI⟩ := h.issued hpeer
  obtain ⟨t, ht⟩ := h.task_of ha
  have hscope : r.confirms a.grant := by
    simp only [Issuance.confirms, Bool.and_eq_true, decide_eq_true_eq] at hconf
    exact hconf.1
  obtain ⟨s, o, hlife, hstatus, hresult⟩ := (h.tracks i t a ht ha).lifecycle
  have hreports := (h.tracks i t a ht ha).reports
  simp only [GrantedAttempt.lifecycle, hstate] at hlife
  split at hlife
  swap
  · cases hlife
  rename_i hnone
  cases hlife
  have htr : Tracks true (id t) (a.accept r) := by
    refine ⟨⟨?_, ?_⟩, .running, none, ?_, hstatus, hresult⟩
    · simp [GrantedAttempt.accept, hr, hscope]
    · simpa [GrantedAttempt.accept] using hreports.2
    · simp [GrantedAttempt.accept, GrantedAttempt.lifecycle, hnone.2]
  have hsome : (e'.attempts.any fun b => b.state.live) = true := by
    refine List.any_eq_true.2 ⟨a.accept r, List.mem_iff_getElem?.2 ⟨i, ?_⟩, rfl⟩
    rw [he', List.getElem?_modify_eq, ha]
    rfl
  have hq' : q = ({ p with
      execution := some e', tasks := p.tasks.modify i id, status := p.status
      results := p.results } : Plan).stamped now hist := by
    rw [hq, List.modify_id]
  refine h.modify_pair (F := GrantedAttempt.accept r) (T := id) hpeer hlive ha ht
    (fun _ => rfl) (fun _ => rfl) (fun _ => rfl) (fun _ => rfl) (fun _ => ⟨rfl, rfl⟩) htr
    ⟨fun v hv => ?_, (hI.confirmed a (List.mem_of_getElem? ha)).2⟩ he' hq' ?_ ?_ ?_
  · cases hv
    exact hconf
  · refine pairContent_of_reports hI.states.1 ?_
    rw [he']
    exact filterMap_modify_of_eq _ e.attempts i fun _ => rfl
  · rw [if_pos hsome]
    exact hlive
  · rw [List.modify_id]
    exact h.results

/-- The status `settle` leaves, once no end is live. -/
def settledPair (p : Plan) (e : ExecutionRecord) : PlanStatus :=
  if p.pairOutcome e = .completed ∧ p.status = .stopping then .cancelled else p.pairOutcome e

omit [F64] [PeerAdmission] [Sha256] [Pairing] in
/-- `settle` and the validator read the outcome off the same attempts. -/
theorem settlePair_status (he : p.execution = some e) :
    p.settlePair = { p with
      status := if e.attempts.any fun a => a.state.live then p.status else p.settledPair e } := by
  have hatt : p.attempts = e.attempts := by
    rw [attempts, he]
    rfl
  unfold settlePair settledPair pairOutcome
  rw [hatt]
  by_cases hl : (e.attempts.any fun a => a.state.live) = true
  · rw [if_pos hl, if_pos hl]
  · rw [if_neg hl, if_neg hl]
    congr 1
    by_cases hu : (e.attempts.any fun a => a.state == .unknown) = true
    · simp [hu]
    · by_cases hf : (p.tasks.any fun t => t.status == .failed) = true
      · simp [hu, hf]
      · simp [hu, hf]

omit [F64] [PeerAdmission] [Sha256] [Pairing] in
/-- What a final report makes of an issued pair. -/
theorem settleReport_pair (he : p.execution = some e) (hpeer : e.peer = some record) (i j : Nat)
    (g : ExecutionGrant) (r : GrantReport) : (p.applyReport i j g r).settleReport r = { p with
      execution := some { e with attempts := e.attempts.modify i (GrantedAttempt.settle r) }
      tasks := p.tasks.modify j (Task.settle (finalStatus r) (resultOf g r))
      status := if (e.attempts.modify i (GrantedAttempt.settle r)).any fun a => a.state.live then
          p.status
        else (p.applyReport i j g r).settledPair
          { e with attempts := e.attempts.modify i (GrantedAttempt.settle r) }
      results := Assoc.set g.taskId (resultOf g r) p.results } := by
  have happly := applyReport_eq he i j g r
  have hsettle := settlePair_status (p := p.applyReport i j g r)
    (e := { e with attempts := e.attempts.modify i (GrantedAttempt.settle r) }) (by rw [happly])
  have hsome : ((p.applyReport i j g r).execution.any fun e => e.peer.isSome) = true := by
    rw [happly]
    simp [hpeer]
  rw [settleReport, if_pos hsome, hsettle, happly]

/-- A final report of an end: it is settled, and the plan once both are. -/
theorem report_pair (h : p.Executed e ap pl dr true) (he : p.execution = some e)
    (hpeer : e.peer = some record) (hids : (p.tasks.map (·.taskId)).Nodup)
    (hlive : p.status.live = true) {i : Nat} {a : GrantedAttempt} {r : GrantReport}
    (ha : e.attempts[i]? = some a) (hconf : Issuance.confirms record a.grant r = true)
    (hallowed : finalAllowed e a r) {e' : ExecutionRecord}
    (he' : e' = { e with attempts := e.attempts.modify i (GrantedAttempt.settle r) })
    (hcontent : pairContent e') {now : Nat} {hist : List JobEvent}
    (hq : q = ((p.applyReport i i a.grant r).settleReport r).stamped now hist) :
    q.execution = some e' ∧ q.Executed e' ap pl dr true := by
  obtain ⟨t, ht⟩ := h.task_of ha
  have hscope : r.confirms a.grant := by
    simp only [Issuance.confirms, Bool.and_eq_true, decide_eq_true_eq] at hconf
    exact hconf.1
  have hnone := h.recovery_none hlive (List.mem_of_getElem? ha)
  have hack := (h.tracks i t a ht ha).reports.1
  obtain ⟨-, hI⟩ := h.issued hpeer
  have htr := settle_tracks (h.tracks i t a ht ha) hnone (fun hp => by cases hp) hscope hallowed
  have hid := (h.granted i t a ht ha).taskId ht
  have happly := applyReport_eq he i i a.grant r
  have hqeq : q = ({ p with
      execution := some e'
      tasks := p.tasks.modify i (Task.settle (finalStatus r) (resultOf a.grant r))
      status := if e'.attempts.any fun a => a.state.live then p.status
        else (p.applyReport i i a.grant r).settledPair e'
      results := Assoc.set a.grant.taskId (resultOf a.grant r) p.results } : Plan).stamped
        now hist := by
    rw [hq, settleReport_pair he hpeer, he']
  refine ⟨by rw [hqeq]; rfl, ?_⟩
  refine h.modify_pair (F := GrantedAttempt.settle r)
    (T := Task.settle (finalStatus r) (resultOf a.grant r)) hpeer hlive ha ht
    (fun _ => rfl) (fun _ => rfl) (fun _ => rfl) (fun _ => rfl) (fun _ => ⟨rfl, rfl⟩) htr
    ⟨(hI.confirmed a (List.mem_of_getElem? ha)).1, fun v hv => ?_⟩ he' hqeq hcontent ?_ ?_
  · simp only [GrantedAttempt.finalReport, GrantedAttempt.settle, hnone] at hv
    cases hv
    exact hconf
  · have hout : q.pairOutcome e' = (p.applyReport i i a.grant r).pairOutcome e' := by
      rw [hqeq, happly]
      rfl
    have hstop : (p.applyReport i i a.grant r).status = p.status := by rw [happly]
    rw [hout]
    split
    · exact hlive
    · unfold settledPair
      split
      · rename_i hc
        exact Or.inr ⟨hc.1, rfl⟩
      · exact Or.inl rfl
  · intro k w
    rw [hid]
    simpa using results_set (f := Task.settle (finalStatus r) (resultOf a.grant r)) (c := id) hids
      h.results ht (fun _ => rfl) rfl (fun _ => rfl) (fun _ => rfl) k w

/-! ## What one edit leaves of a pair -/

/-- The issuance of a pair and the grants it was made for. -/
def sealedPair (p : Plan) : Option (Json × List ExecutionGrant) :=
  p.execution.bind fun e => e.peer.map fun record => (record, e.attempts.map (·.grant))

omit [F64] [PeerAdmission] [Sha256] [Pairing] in
theorem sealedPair_of {x : Json × List ExecutionGrant} (h : p.sealedPair = some x) :
    ∃ e, p.execution = some e ∧ e.peer = some x.1 ∧ e.attempts.map (·.grant) = x.2 := by
  obtain ⟨e, he, hx⟩ := Option.bind_eq_some_iff.1 h
  obtain ⟨record, hr, rfl⟩ := Option.map_eq_some_iff.1 hx
  exact ⟨e, he, hr, rfl⟩

omit [F64] [PeerAdmission] [Sha256] [Pairing] in
/-- A change of attempts that keeps their grants. -/
theorem sealedPair_congr {e e' : ExecutionRecord} (he : p.execution = some e)
    (he' : q.execution = some e') (hpeer : e'.peer = e.peer)
    (hgrants : e'.attempts.map (·.grant) = e.attempts.map (·.grant)) :
    q.sealedPair = p.sealedPair := by
  simp only [sealedPair, he, he', Option.bind_some, hpeer, hgrants]

omit [F64] [PeerAdmission] [Sha256] [Pairing] in
theorem sealedPair_updateAttempt {i : Nat} {F : GrantedAttempt → GrantedAttempt}
    (hF : ∀ a, (F a).grant = a.grant) : (p.updateAttempt i F).sealedPair = p.sealedPair := by
  cases he : p.execution with
  | none => simp [sealedPair, updateAttempt, he]
  | some e =>
    have he' : (p.updateAttempt i F).execution
        = some { e with attempts := e.attempts.modify i F } := by
      rw [updateAttempt, he]
      rfl
    exact sealedPair_congr he he' rfl (map_modify_of_eq GrantedAttempt.grant e.attempts i hF)

theorem record_sealed {grantId : String} {r : GrantReport}
    (h : p.record grantId r = .ok (some q)) : q.sealedPair = p.sealedPair := by
  obtain ⟨e, i, a, he, -, -, -, hcase⟩ := Tracked.record_ok h
  rcases hcase with ⟨-, -, rfl⟩ | ⟨-, j, -, rfl⟩
  · exact sealedPair_updateAttempt fun _ => rfl
  · have hsettle : ∀ p : Plan, (p.settleReport r).execution = p.execution := by
      intro p
      unfold settleReport settlePair
      repeat' split
      all_goals rfl
    have he' : ((p.applyReport i j a.grant r).settleReport r).execution
        = some { e with attempts := e.attempts.modify i (GrantedAttempt.settle r) } := by
      rw [hsettle, applyReport_eq he]
    refine sealedPair_congr he he' rfl ?_
    exact map_modify_of_eq GrantedAttempt.grant e.attempts i fun _ => rfl

omit [F64] [PeerAdmission] [Sha256] [Pairing] in
theorem deliverStop_sealed {g : ExecutionGrant} {now : Nat}
    (h : p.deliverStop g now = .ok (some q)) : q.sealedPair = p.sealedPair := by
  simp only [deliverStop, bind_ok] at h
  obtain ⟨e, -, h⟩ := h
  split at h
  · cases h
  · simp only [bind_ok] at h
    obtain ⟨_, -, _, -, _, -, h⟩ := h
    split at h
    · cases h
    · cases h
      exact sealedPair_updateAttempt fun _ => rfl

omit [Pairing] in
theorem confirmStop_sealed {g : ExecutionGrant} {r : StopReport}
    (h : p.confirmStop g r = .ok (some q)) : q.sealedPair = p.sealedPair := by
  simp only [confirmStop, bind_ok] at h
  obtain ⟨_, -, _, -, _, -, _, -, _, -, h⟩ := h
  split at h
  · simp only [bind_ok, pure_ok, reduceCtorEq, and_false, exists_false] at h
  · cases h
    exact sealedPair_updateAttempt fun _ => rfl

omit [F64] [PeerAdmission] [Sha256] [Pairing] in
theorem cancel_sealed {runner : Bool} {now : Nat} (h : p.cancel runner now = .ok q) :
    q.sealedPair = p.sealedPair := by
  simp only [cancel, bind_ok, pure_ok] at h
  obtain ⟨_, -, _, -, rfl⟩ := h
  cases he : p.execution with
  | none => cases runner <;> simp [sealedPair, cancelPending, he]
  | some e => cases runner <;> simp [sealedPair, cancelPending, he]

omit [F64] [PeerAdmission] [Sha256] [Pairing] in
theorem interrupt_sealed : p.interrupt.sealedPair = p.sealedPair := by
  cases he : p.execution with
  | none =>
    unfold interrupt
    repeat' split
    all_goals simp [sealedPair, settleStop, cancelPending, he]
  | some e =>
    have hgrants : (e.attempts.map GrantedAttempt.interrupted).map (·.grant)
        = e.attempts.map (·.grant) := by
      rw [List.map_map]
      exact List.map_congr_left fun a _ => interrupted_grant a
    unfold interrupt
    split
    · split
      · rfl
      · simpa only [sealedPair, he, Option.map_some, Option.bind_some] using
          congrArg (fun gs => e.peer.map fun record => (record, gs)) hgrants
    · rfl

/-! ## Edits a pair refuses -/

omit [Sha256] in
/-- No grant of a pair is issued on its own. -/
theorem issueNext_refused (hpair : p.pairDefinition = .ok true) {grantId session : String}
    {now : Nat} : p.issueNext grantId session now ≠ .ok q := by
  intro h
  simp only [issueNext, issue, bind_ok, bailIf_ok, hpair] at h
  obtain ⟨_, -, b, hb, _, hnot, -⟩ := h
  cases hb
  exact hnot rfl

/-- Only an untouched plan is issued. -/
theorem issuePair_refused {e : ExecutionRecord} (he : p.execution = some e)
    (hne : e.attempts ≠ [] ∨ e.peer ≠ none) {g₁ g₂ : ExecutionGrant} {issuance : Json} :
    p.issuePair g₁ g₂ issuance ≠ .ok q := by
  intro h
  simp only [issuePair, bind_ok, context_ok, ensure_ok, he] at h
  obtain ⟨_, hs, _, hu, -⟩ := h
  cases hs
  exact hne.elim (fun hn => hn hu.2.1) fun hn => hn hu.2.2.1

/-- What happened to a pair is never decided by hand. -/
theorem recover_refused (hnorec : ∀ a ∈ p.attempts, a.recovery = none)
    (hpeer : ∀ e, p.execution = some e → e.attempts ≠ [] → e.peer.isSome = true)
    {c : RecoverCommand} {origin : Option String} {unavailable : Bool} {evidence : RetainedResult}
    {now : Nat} {o : Option Plan} : p.recover c origin unavailable evidence now ≠ .ok o := by
  intro h
  simp only [recover, eligible, receiptAttempt, bind_ok, context_ok] at h
  obtain ⟨reused, ⟨_, -, a, ⟨_, -, _, -, _, -, _, -, _, -, ha⟩, hcase⟩, -⟩ := h
  have hmem := List.mem_of_find?_eq_some ha
  rw [hnorec a hmem] at hcase
  simp only [bind_ok, context_ok, bailIf_ok] at hcase
  obtain ⟨e, he, _, hnot, -⟩ := hcase
  rw [attempts, he] at hmem
  exact hnot (hpeer e he (List.ne_nil_of_mem hmem))

theorem abandon_refused
    (hpeer : ∀ e, p.execution = some e → e.attempts ≠ [] → e.peer.isSome = true)
    {c : AbandonCommand} {origin : Option String} {unavailable : Bool} {now : Nat}
    {o : Option Plan} : p.abandon c origin unavailable now ≠ .ok o := by
  intro h
  simp only [abandon, receiptAttempt, bind_ok, context_ok, bailIf_ok] at h
  obtain ⟨_, -, a, ⟨_, -, _, -, _, -, _, -, _, -, ha⟩, e, he, _, hnot, -⟩ := h
  have hmem := List.mem_of_find?_eq_some ha
  rw [attempts, he] at hmem
  exact hnot (hpeer e he (List.ne_nil_of_mem hmem))

end

end Plan

/-! ## The stored pairs -/

section
variable [F64] [PeerAdmission] [Sha256] [Pairing] [Planner] [Reservations]

namespace Engine

variable {s s' : Engine} {id event : String} {fenced : Bool} {saved : Nat}
  {f : Plan → Result (Option Plan)} {p : Plan} {x : Json × List ExecutionGrant}

/-- The execution of a stored pair. -/
theorem Inv.pair (h : s.Inv) (hp : s.jobs.lookup id = some p) {e : ExecutionRecord}
    (he : p.execution = some e)
    (hpair : p.goal.template = "peer_transfer" ∨ ∃ record, e.peer = some record) :
    e.workload = none ∧ ∃ ap pl dr, p.approval = some ap ∧ p.planning = some pl
      ∧ p.requestReview = some dr ∧ (p.tasks.map (·.taskId)).Nodup
      ∧ p.Executed e ap pl dr true := by
  have hvalid := h.stored id p hp
  simp only [Plan.validateStored, bind_ok] at hvalid
  obtain ⟨_, hvalid, -⟩ := hvalid
  have hreviewed := h.reviewed id p hp
  have hw : e.workload = none := by
    cases hw : e.workload with
    | none => rfl
    | some w =>
      obtain ⟨a, t, task, -, htemplate, -, -, -, -, -, hfixed, -⟩ :=
        (Plan.validateWorkload_ok he hw).1 (Plan.workload_of_review hvalid hreviewed he hw)
      rcases hpair with hpair | ⟨record, hrecord⟩
      · simp only [Plan.template, bind_ok, ensure_ok] at htemplate
        obtain ⟨_, ⟨hname, -⟩, -⟩ := htemplate
        rw [hpair] at hname
        exact absurd hname (by decide)
      · rw [hfixed.2.1] at hrecord
        cases hrecord
  obtain ⟨ap, pl, dr, paired, hap, hpl, hdr, hids, hx⟩ :=
    Plan.executed_of_review hvalid hreviewed he hw
  have htrue : paired = true := by
    rcases hpair with hpair | ⟨record, hrecord⟩
    · have hdef := Plan.pairDefinition_of_validatePair hx.pair
      simp only [Plan.pairDefinition, if_pos hpair, bind_ok, pure_ok] at hdef
      obtain ⟨_, -, hb⟩ := hdef
      exact hb.symm
    · exact (hx.issued hrecord).1
  rw [htrue] at hx
  exact ⟨hw, ap, pl, dr, hap, hpl, hdr, hids, hx⟩

omit [Planner] [Reservations] in
/-- A pair that has not been issued has no attempt. -/
theorem unissued_of_executed {e : ExecutionRecord} {ap : ApprovalRecord} {pl : PlanningRecord}
    {dr : DraftRecord} (hx : p.Executed e ap pl dr true) (hpeer : e.peer = none) :
    e.attempts = [] := by
  have hpair := hx.pair
  simp only [Plan.validatePair, hpeer, bind_ok, ensure_ok, pure_ok] at hpair
  obtain ⟨b, -, _, hcase, hb⟩ := hpair
  rw [hb] at hcase
  exact hcase.resolve_left (by simp)

/-- An edit keeps every issuance, if its closure does. -/
theorem edit_sealed (hs : s.edit id event fenced saved f = .ok s')
    (hf : ∀ p q, s.jobs.lookup id = some p → f p = .ok (some q) → p.sealedPair = some x →
      q.sealedPair = some x) {j : String} (hp : s.jobs.lookup j = some p)
    (hx : p.sealedPair = some x) : ∃ p', s'.jobs.lookup j = some p' ∧ p'.sealedPair = some x := by
  rcases edit_ok hs with rfl | ⟨p0, q, hist, hp0, hq, -, rfl⟩
  · exact ⟨p, hp, hx⟩
  · by_cases hj : j = id
    · subst hj
      cases hp.symm.trans hp0
      refine ⟨q.stamped saved hist, ?_, hf p q hp hq hx⟩
      rw [Assoc.lookup_set, if_pos rfl]
    · exact ⟨p, by rw [Assoc.lookup_set, if_neg hj]; exact hp, hx⟩

/-- An issuance that is stored is one the validator accepts. -/
theorem Inv.sealed (h : s.Inv) (hp : s.jobs.lookup id = some p) (hx : p.sealedPair = some x) :
    ∃ e, p.execution = some e ∧ e.peer = some x.1 ∧ e.attempts.map (·.grant) = x.2
      ∧ p.Issued e x.1 := by
  obtain ⟨e, he, hpeer, hgrants⟩ := Plan.sealedPair_of hx
  obtain ⟨-, ap, pl, dr, -, -, -, -, hexec⟩ := h.pair hp he (Or.inr ⟨_, hpeer⟩)
  exact ⟨e, he, hpeer, hgrants, (hexec.issued hpeer).2⟩

/-- No step takes an issuance back, exchanges its grants or adds one. -/
theorem step_sealed (h : s.Inv) {event : Event} (hs : s.step saved event = .ok s')
    (hp : s.jobs.lookup id = some p) (hx : p.sealedPair = some x) :
    ∃ p', s'.jobs.lookup id = some p' ∧ p'.sealedPair = some x := by
  cases event with
  | claim c fenced now =>
    simp only [step, claim, bind_ok, pure_ok] at hs
    obtain ⟨_, -, _, -, s1, hedit, rfl⟩ := hs
    refine edit_sealed hedit (fun p q _ hq hx => ?_) hp hx
    -- a job starts once
    simp only [bind_ok, pure_ok, Option.some.injEq] at hq
    obtain ⟨q', hq, rfl⟩ := hq
    obtain ⟨e, he, -⟩ := Plan.sealedPair_of hx
    simp only [Plan.start, bind_ok, ensure_ok, pure_ok] at hq
    obtain ⟨_, -, _, -, _, -, _, ⟨hnone, -⟩, -⟩ := hq
    rw [he] at hnone
    cases hnone
  | issue j grantId session fenced now =>
    refine edit_sealed hs (fun p q hp hq hx => ?_) hp hx
    simp only [bind_ok, pure_ok, Option.some.injEq] at hq
    obtain ⟨q', hq, rfl⟩ := hq
    obtain ⟨e, -, -, -, hI⟩ := h.sealed hp hx
    exact absurd hq (Plan.issueNext_refused hI.definition)
  | issuePair j g₁ g₂ issuance fenced =>
    refine edit_sealed hs (fun p q _ hq hx => ?_) hp hx
    simp only [bind_ok, pure_ok, Option.some.injEq] at hq
    obtain ⟨q', hq, rfl⟩ := hq
    obtain ⟨e, he, hpeer, -⟩ := Plan.sealedPair_of hx
    exact absurd hq (Plan.issuePair_refused he (Or.inr (by simp [hpeer])))
  | record j grantId r =>
    exact edit_sealed hs (fun p q _ hq hx => (Plan.record_sealed hq).trans hx) hp hx
  | deliver j g now =>
    exact edit_sealed hs (fun p q _ hq hx => (Plan.deliverStop_sealed hq).trans hx) hp hx
  | confirm j g r =>
    exact edit_sealed hs (fun p q _ hq hx => (Plan.confirmStop_sealed hq).trans hx) hp hx
  | cancel j now =>
    refine edit_sealed hs (fun p q _ hq hx => ?_) hp hx
    simp only [bind_ok, pure_ok, Option.some.injEq] at hq
    obtain ⟨q', hq, rfl⟩ := hq
    exact (Plan.cancel_sealed hq).trans hx
  | settle j =>
    refine edit_sealed hs (fun p q _ hq hx => ?_) hp hx
    cases hq
    exact hx
  | recover c origin evidence now =>
    refine edit_sealed hs (fun p q hp hq hx => ?_) hp hx
    obtain ⟨e, he, hpeer, -, hI⟩ := h.sealed hp hx
    refine absurd hq (Plan.recover_refused (fun a ha => ?_) fun e' he' _ => ?_)
    · rw [Plan.attempts, he] at ha
      exact hI.states.2.2.1 a ha
    · cases he.symm.trans he'
      simp [hpeer]
  | abandon c origin now =>
    refine edit_sealed hs (fun p q hp hq hx => ?_) hp hx
    obtain ⟨e, he, hpeer, -⟩ := h.sealed hp hx
    refine absurd hq (Plan.abandon_refused fun e' he' _ => ?_)
    cases he.symm.trans he'
    simp [hpeer]
  | shutdown =>
    cases hs
    exact ⟨p, hp, hx⟩
  | drop j =>
    simp only [step, Except.ok.injEq] at hs
    split at hs
    · rw [← hs, drop]
      cases hi : s.interrupt j saved with
      | ok s1 =>
        refine edit_sealed hi (fun p q _ hq hx => ?_) hp hx
        split at hq
        · cases hq
          exact Plan.interrupt_sealed.trans hx
        · cases hq
      | error _ => exact ⟨p, hp, hx⟩
    · rw [← hs]
      exact ⟨p, hp, hx⟩

theorem run_sealed (h : s.Inv) (hrun : Run Step s s') (hp : s.jobs.lookup id = some p)
    (hx : p.sealedPair = some x) : ∃ p', s'.jobs.lookup id = some p' ∧ p'.sealedPair = some x := by
  have hstep : ∀ a b : Engine,
      (a.Inv ∧ ∃ p, a.jobs.lookup id = some p ∧ p.sealedPair = some x) → a.Step b →
      b.Inv ∧ ∃ p, b.jobs.lookup id = some p ∧ p.sealedPair = some x := by
    rintro a b ⟨ha, p, hp, hx⟩ hab
    refine ⟨run_inv ha hab, ?_⟩
    obtain ⟨-, saved, event, rfl⟩ := hab
    unfold run
    split
    · rename_i hs
      exact step_sealed ha hs hp hx
    · exact ⟨p, hp, hx⟩
  exact (Run.invariant hstep ⟨h, p, hp, hx⟩ hrun).2

/-! ## Completion -/

/-- Both ends of a pair have reported the same transfer. -/
structure Joint (record : Json) (a b : GrantedAttempt) : Prop where
  completed : a.state = .completed ∧ b.state = .completed
  reports : ∃ ra rb ta tb, a.report = some ra ∧ b.report = some rb
    ∧ ra.success = true ∧ rb.success = true
    ∧ ra.data.index "payload_bytes" = rb.data.index "payload_bytes"
    ∧ ra.data.index "payload_sha256" = rb.data.index "payload_sha256"
    ∧ TransferReceipt.fromJson ra.data = some ta ∧ TransferReceipt.fromJson rb.data = some tb
    ∧ ta.pairSessionId = tb.pairSessionId ∧ ta.scopeSha256 = tb.scopeSha256
    ∧ (Issuance.scope record).index "session_id" = .str ta.pairSessionId
    ∧ Issuance.scopeDigest record = .ok ta.scopeSha256
    ∧ (ra.data.isObject = true → rb.data.isObject = true →
      ta.payloadBytes = tb.payloadBytes ∧ ta.payloadSha256 = tb.payloadSha256)

omit [Planner] [Reservations] in
/-- The report of an end that succeeded, and the receipt in it. -/
theorem report_of_succeeded {e : ExecutionRecord} {record : Json} (hI : p.Issued e record)
    {a : GrantedAttempt} (ha : a ∈ e.attempts) {t : Task} (htr : Plan.Tracks true t a)
    (hs : a.succeeded) : ∃ r tr, a.report = some r ∧ r.success = true ∧ r.state = .completed
      ∧ TransferReceipt.fromJson r.data = some tr ∧ Issuance.names record a.grant tr := by
  have hrec := hI.states.2.2.1 a ha
  obtain ⟨hstate, hany⟩ := hs
  have hfinal : a.finalReport = a.report := by simp [GrantedAttempt.finalReport, hrec]
  rw [hfinal] at hany
  obtain ⟨r, hr, hsuc⟩ := (Option.any_eq_true _ _).1 hany
  obtain ⟨s, o, hlife, -, -⟩ := htr.lifecycle
  simp only [GrantedAttempt.lifecycle, hstate, hfinal, hr] at hlife
  split at hlife
  swap
  · cases hlife
  rename_i hcond
  have hconf := (hI.confirmed a ha).2 r (by rw [hfinal]; exact hr)
  simp only [Issuance.confirms, Bool.and_eq_true, Bool.or_eq_true, decide_eq_true_eq] at hconf
  have hnames := hconf.2.resolve_left (by simp [hcond.2, hsuc])
  obtain ⟨tr, htr', hn⟩ := (Option.any_eq_true _ _).1 hnames
  exact ⟨r, tr, hr, hsuc, hcond.2, htr', by simpa using hn⟩

/-- A pair is completed only by both of its ends. -/
theorem Inv.joint (h : s.Inv) (hp : s.jobs.lookup id = some p)
    (hpair : p.goal.template = "peer_transfer") (hstatus : p.status = .completed) :
    ∃ e record a b, p.execution = some e ∧ e.peer = some record ∧ e.attempts = [a, b]
      ∧ Joint record a b := by
  have hvalid := h.stored id p hp
  simp only [Plan.validateStored, bind_ok] at hvalid
  obtain ⟨_, hvalid, -⟩ := hvalid
  have hreviewed := h.reviewed id p hp
  obtain ⟨dr, hdr⟩ := Option.isSome_iff_exists.1 hreviewed
  cases hpl : p.planning with
  | none =>
    obtain ⟨-, -, -, -, -, hs, -⟩ := (Plan.validateReview_unplanned hpl hdr).1 hvalid
    rcases hs with hs | hs <;> rw [hs] at hstatus <;> cases hstatus
  | some pl =>
    obtain ⟨-, -, -, hbounds, -, -⟩ := (Plan.validateReview_planned hpl hdr).1 hvalid
    obtain ⟨e, he⟩ : ∃ e, p.execution = some e := by
      refine Option.ne_none_iff_exists'.1 fun hnone => ?_
      rcases hbounds.2.2.1 hnone with hs | hs | hs <;> rw [hs] at hstatus <;> cases hstatus
    obtain ⟨-, ap, pl', dr', -, -, -, -, hx⟩ := h.pair hp he (Or.inl hpair)
    have hall := hx.states.2.1 hstatus
    cases hpeer : e.peer with
    | none =>
      -- a task that was never issued is not completed
      have hnil := unissued_of_executed hx hpeer
      obtain ⟨t, ts, hts⟩ := List.exists_cons_of_ne_nil hbounds.2.2.2.1
      have ht : p.tasks[0]? = some t := by rw [hts]; rfl
      have hun := (hx.unissued 0 t ht (by rw [hnil]; rfl)).1
      rw [hall t (List.mem_of_getElem? ht)] at hun
      rcases hun with hun | hun <;> cases hun
    | some record =>
      obtain ⟨-, hI⟩ := hx.issued hpeer
      obtain ⟨hlen, hlen'⟩ := hI.length
      obtain ⟨a, b, hab⟩ := List.length_eq_two.1 hlen
      obtain ⟨t, u, htu⟩ := List.length_eq_two.1 hlen'
      have hta := hx.tracks 0 t a (by rw [htu]; rfl) (by rw [hab]; rfl)
      have hub := hx.tracks 1 u b (by rw [htu]; rfl) (by rw [hab]; rfl)
      have hsa := hta.status.2.2.2.2.2.1 (hall t (by simp [htu]))
      have hsb := hub.status.2.2.2.2.2.1 (hall u (by simp [htu]))
      obtain ⟨ra, ta, hra, hsuca, hca, htra, hna⟩ := report_of_succeeded hI (by simp [hab]) hta hsa
      obtain ⟨rb, tb, hrb, hsucb, hcb, htrb, hnb⟩ := report_of_succeeded hI (by simp [hab]) hub hsb
      have hreports : Plan.pairReports e = [ra, rb] := by
        simp [Plan.pairReports, hab, hra, hrb, hca, hcb, hsuca, hsucb]
      obtain ⟨hbytes, hsha⟩ := hI.states.1 ra rb hreports
      refine ⟨e, record, a, b, he, hpeer, hab, ⟨hsa.1, hsb.1⟩, ra, rb, ta, tb, hra, hrb, hsuca,
        hsucb, hbytes, hsha, htra, htrb, ?_, ?_, hna.1, hna.2.1, fun hoa hob => ?_⟩
      · have := hna.1.symm.trans hnb.1
        simpa using this
      · have := hna.2.1.symm.trans hnb.2.1
        simpa using this
      · cases hda : ra.data with
        | obj fa =>
          cases hdb : rb.data with
          | obj fb =>
            rw [hda] at htra hbytes hsha
            rw [hdb] at htrb hbytes hsha
            obtain ⟨h1, h2⟩ := TransferReceipt.fromJson_obj htra
            obtain ⟨h3, h4⟩ := TransferReceipt.fromJson_obj htrb
            rw [h1, h3] at hbytes
            rw [h2, h4] at hsha
            exact ⟨by simpa [Json.nat] using hbytes, by simpa using hsha⟩
          | _ => rw [hdb] at hob; cases hob
        | _ => rw [hda] at hoa; cases hoa

/-! ## What a report meets -/

/-- The report is the next one of its attempt. -/
def Awaits (e : ExecutionRecord) (a : GrantedAttempt) (r : GrantReport) : Prop :=
  (r.state = .accepted ∧ a.state = .issued) ∨ Plan.finalAllowed e a r

/-- The other end already reported other content. -/
def Disagrees (e : ExecutionRecord) (i : Nat) (r : GrantReport) : Prop :=
  r.state = .completed ∧ r.success = true ∧ ∃ j b rb, j ≠ i ∧ e.attempts[j]? = some b
    ∧ b.report = some rb ∧ rb.state = .completed ∧ rb.success = true
    ∧ ¬(r.data.index "payload_bytes" = rb.data.index "payload_bytes"
      ∧ r.data.index "payload_sha256" = rb.data.index "payload_sha256")

omit [F64] [PeerAdmission] [Sha256] [Pairing] [Planner] [Reservations] in
/-- A final report keeps the content test, or it contradicts the other end. -/
theorem content_or_disagrees {e e' : ExecutionRecord} {i : Nat} {a : GrantedAttempt}
    {r : GrantReport} (hlen : e.attempts.length = 2) (ha : e.attempts[i]? = some a)
    (he' : e' = { e with attempts := e.attempts.modify i (GrantedAttempt.settle r) }) :
    Plan.pairContent e' ∨ Disagrees e i r := by
  obtain ⟨x, y, hxy⟩ := List.length_eq_two.1 hlen
  have hlt := (List.getElem?_eq_some_iff.1 ha).1
  -- the other end, whichever of the two it is
  have hother : ∃ j b, j ≠ i ∧ e.attempts[j]? = some b
      ∧ (e'.attempts = [a.settle r, b] ∨ e'.attempts = [b, a.settle r]) := by
    rw [hxy] at ha hlt ⊢
    rw [he', hxy]
    match i, ha with
    | 0, ha =>
      cases ha
      exact ⟨1, y, by simp, rfl, Or.inl rfl⟩
    | 1, ha =>
      cases ha
      exact ⟨0, x, by simp, rfl, Or.inr rfl⟩
    | n + 2, ha => cases ha
  obtain ⟨j, b, hji, hb, hatt⟩ := hother
  by_cases hgood : r.state = .completed ∧ r.success = true
  · cases hrb : b.report with
    | none =>
      left
      intro u v huv
      rcases hatt with hatt | hatt <;>
        simp [Plan.pairReports, hatt, GrantedAttempt.settle, hrb, hgood.1, hgood.2] at huv
    | some rb =>
      by_cases hother : rb.state = .completed ∧ rb.success = true
      · by_cases hsame : r.data.index "payload_bytes" = rb.data.index "payload_bytes"
          ∧ r.data.index "payload_sha256" = rb.data.index "payload_sha256"
        · left
          intro u v huv
          rcases hatt with hatt | hatt
          · simp [Plan.pairReports, hatt, GrantedAttempt.settle, hrb, hgood.1, hgood.2, hother.1,
              hother.2] at huv
            obtain ⟨rfl, rfl⟩ := huv
            exact hsame
          · simp [Plan.pairReports, hatt, GrantedAttempt.settle, hrb, hgood.1, hgood.2, hother.1,
              hother.2] at huv
            obtain ⟨rfl, rfl⟩ := huv
            exact ⟨hsame.1.symm, hsame.2.symm⟩
        · exact Or.inr ⟨hgood.1, hgood.2, j, b, rb, hji, hb, hrb, hother.1, hother.2, hsame⟩
      · left
        intro u v huv
        have hfalse : (rb.state == .completed && rb.success) = false := by
          simpa using fun hc => by simpa [hc] using hother
        rcases hatt with hatt | hatt <;>
          simp [Plan.pairReports, hatt, GrantedAttempt.settle, hrb, hfalse, hgood.1, hgood.2] at huv
  · left
    intro u v huv
    have hfalse : (r.state == .completed && r.success) = false := by
      simpa using fun hc => by simpa [hc] using hgood
    have hle : (Plan.pairReports e').length ≤ 1 := by
      rcases hatt with hatt | hatt <;> cases hrb : b.report <;>
        simp only [Plan.pairReports, hatt, List.filterMap_cons, GrantedAttempt.settle, hrb,
          List.filterMap_nil, List.filter_cons, hfalse, Bool.false_eq_true, if_false,
          List.filter_nil]
      · simp
      · split <;> simp
      · simp
      · split <;> simp
    rw [huv] at hle
    simp at hle

omit [Planner] [Reservations] in
/-- A grant's id finds its attempt. -/
theorem find_attempt {e : ExecutionRecord} {ap : ApprovalRecord} {pl : PlanningRecord}
    {dr : DraftRecord} {paired : Bool} (hx : p.Executed e ap pl dr paired) {i : Nat}
    {a : GrantedAttempt} (ha : e.attempts[i]? = some a) :
    (e.attempts.findIdx? fun b => b.grant.grantId == a.grant.grantId) = some i := by
  obtain ⟨hlt, heq⟩ := List.getElem?_eq_some_iff.1 ha
  refine List.findIdx?_eq_some_iff_getElem.2 ⟨hlt, by simp [heq], fun j hj hid => ?_⟩
  have hj' : e.attempts[j]? = some e.attempts[j] := List.getElem?_eq_getElem (by omega)
  have := hx.grantId_inj hj' ha (by simpa using hid)
  omega

omit [Planner] [Reservations] in
/-- A grant's task is found. -/
theorem find_task {e : ExecutionRecord} {ap : ApprovalRecord} {pl : PlanningRecord}
    {dr : DraftRecord} {paired : Bool} (hx : p.Executed e ap pl dr paired)
    (hids : (p.tasks.map (·.taskId)).Nodup) {i : Nat} {a : GrantedAttempt}
    (ha : e.attempts[i]? = some a) :
    (p.tasks.findIdx? fun t => t.taskId == a.grant.taskId) = some i := by
  obtain ⟨t, ht⟩ := hx.task_of ha
  have hid := (hx.granted i t a ht ha).taskId ht
  cases hj : p.tasks.findIdx? fun t => t.taskId == a.grant.taskId with
  | some j => exact congrArg some (Tracked.task_of_report hx hids ha hj)
  | none =>
    have := List.findIdx?_eq_none_iff.1 hj t (List.mem_of_getElem? ht)
    simp [hid] at this

/-- A closure that leaves its plan alone leaves the engine alone. -/
theorem edit_none (hp : s.jobs.lookup id = some p) (hstored : p.validateStored = .ok ())
    (hf : f p = .ok none) : s.edit id event false saved f = .ok s := by
  simp only [edit, hp, context, ok_bind, hstored, bailIf, Bool.false_eq_true, if_false, hf]
  rfl

/-- What a report makes of one end is saved, once it is a valid execution again. -/
theorem record_saves (h : s.Inv) (hp : s.jobs.lookup id = some p) (hrev : p.revision < u64Max)
    {e e' : ExecutionRecord} {record : Json} (he : p.execution = some e)
    (hpeer : e.peer = some record) {i : Nat} {a : GrantedAttempt} (ha : e.attempts[i]? = some a)
    {r : GrantReport} {q : Plan} (hrec : p.record a.grant.grantId r = .ok (some q))
    {F : GrantedAttempt → GrantedAttempt} (hgrant : ∀ a, (F a).grant = a.grant)
    (hstop : ∀ a, (F a).stop = a.stop)
    (he' : e' = { e with attempts := e.attempts.modify i F }) (hexec : q.execution = some e')
    (hx' : ∀ hist ap pl dr, p.Executed e ap pl dr true →
      (q.stamped saved hist).Executed e' ap pl dr true)
    (hdef : q.definition = p.definition) (happroval : q.approval = p.approval)
    (hrevq : q.revision = p.revision) :
    ∃ s' p', s.step saved (.record id a.grant.grantId r) = .ok s' ∧ s'.jobs.lookup id = some p'
      ∧ p'.execution = some e' ∧ e'.attempts[i]? = some (F a) := by
  obtain ⟨hw, ap, pl, dr, hap, hpl, hdr, hids, hx⟩ := h.pair hp he (Or.inr ⟨_, hpeer⟩)
  have hstored := h.stored id p hp
  have hvalid := hstored
  simp only [Plan.validateStored, bind_ok] at hvalid
  obtain ⟨_, hvalid, -⟩ := hvalid
  have hdeliveries : q.deliveries = p.deliveries := by
    simp only [Plan.deliveries, Plan.attempts, hexec, he, he', Option.map_some, Option.getD_some]
    exact filterMap_modify_of_eq _ e.attempts i fun b => by rw [hstop, hgrant]
  obtain ⟨h1, h2, h3⟩ := Plan.saves_of_execution hvalid he hw hap hpl hdr hids hx hexec
    (fun hist => hx' hist ap pl dr hx) hdef happroval hrevq (by rw [he']; exact hw)
    (fun t ht => by rw [he']; exact ht) hdeliveries
  obtain ⟨hist, hedit, -⟩ : ∃ hist, s.step saved (.record id a.grant.grantId r)
      = .ok { s with jobs := Assoc.set id (q.stamped saved hist) s.jobs }
      ∧ (q.stamped saved hist).validateStored = .ok () :=
    edit_saves (f := fun p => p.record a.grant.grantId r) hp hstored hrec h1 h2 h3 hdef happroval
      hrevq hrev
  refine ⟨_, q.stamped saved hist, hedit, by rw [Assoc.lookup_set, if_pos rfl], hexec, ?_⟩
  rw [he', List.getElem?_modify_eq, ha]
  rfl

/-- A report that names its grant and its session is on record afterwards, unless the plan no
longer runs, the report is not the next one of its attempt, or the other end already moved
something else. -/
theorem record_accepted (h : s.Inv) (hp : s.jobs.lookup id = some p) (hrev : p.revision < u64Max)
    {e : ExecutionRecord} {record : Json} (he : p.execution = some e)
    (hpeer : e.peer = some record) {i : Nat} {a : GrantedAttempt} (ha : e.attempts[i]? = some a)
    {r : GrantReport} (hconf : Issuance.confirms record a.grant r = true) (saved : Nat) :
    (∃ s' p' e' a', s.step saved (.record id a.grant.grantId r) = .ok s'
        ∧ s'.jobs.lookup id = some p' ∧ p'.execution = some e' ∧ e'.attempts[i]? = some a'
        ∧ (a'.acknowledgement = some r ∨ a'.report = some r))
      ∨ p.status.live = false ∨ ¬Awaits e a r ∨ Disagrees e i r := by
  obtain ⟨hw, ap, pl, dr, hap, hpl, hdr, hids, hx⟩ := h.pair hp he (Or.inr ⟨_, hpeer⟩)
  have hI := (hx.issued hpeer).2
  have hstored := h.stored id p hp
  have hvalid := hstored
  simp only [Plan.validateStored, bind_ok] at hvalid
  obtain ⟨_, hvalid, -⟩ := hvalid
  have hscope : r.confirms a.grant := by
    simp only [Issuance.confirms, Bool.and_eq_true, decide_eq_true_eq] at hconf
    exact hconf.1
  have hcross : ∀ peer ∈ e.peer, Issuance.confirms peer a.grant r = true := by
    intro peer hpe
    cases hpeer.symm.trans hpe
    exact hconf
  by_cases hdup : a.acknowledgement = some r ∨ a.report = some r
  · -- a repetition is answered without an edit
    refine Or.inl ⟨s, p, e, a, edit_none hp hstored ?_, hp, he, ha, hdup⟩
    simp only [Plan.record, he, context, ok_bind, find_attempt hx ha, ha, ensure, if_pos hscope,
      if_pos hcross, if_pos hdup]
    rfl
  by_cases hlive : p.status.live = true
  swap
  · exact Or.inr (Or.inl (by simpa using hlive))
  by_cases hawaits : Awaits e a r
  swap
  · exact Or.inr (Or.inr (Or.inl hawaits))
  rcases hawaits with ⟨hr, hstate⟩ | hallowed
  · have hrec : p.record a.grant.grantId r
        = .ok (some (p.updateAttempt i (GrantedAttempt.accept r))) := by
      simp only [Plan.record, he, context, ok_bind, find_attempt hx ha, ha, ensure, if_pos hscope,
        if_pos hcross, if_neg hdup, if_pos hlive, if_pos hr, if_pos hstate]
      rfl
    have heq : p.updateAttempt i (GrantedAttempt.accept r) = { p with
        execution := some { e with attempts := e.attempts.modify i (GrantedAttempt.accept r) } } := by
      simp only [Plan.updateAttempt, he, Option.map_some]
    rw [heq] at hrec
    obtain ⟨s', p', hstep, hp', he', ha'⟩ := record_saves h hp hrev he hpeer ha hrec
      (F := GrantedAttempt.accept r) (fun _ => rfl) (fun _ => rfl) rfl rfl
      (fun hist ap pl dr hx => Plan.accept_pair hx hpeer hlive ha hstate hr hconf rfl rfl) rfl rfl rfl
    exact Or.inl ⟨s', p', _, _, hstep, hp', he', ha', Or.inl rfl⟩
  · have hne : r.state ≠ .accepted := by
      rcases hallowed with ⟨-, hr⟩ | ⟨-, -, hr⟩ | ⟨-, hr | hr⟩ <;> simp [hr]
    have hrec : p.record a.grant.grantId r
        = .ok (some ((p.applyReport i i a.grant r).settleReport r)) := by
      simp only [Plan.record, he, context, ok_bind, find_attempt hx ha, ha, ensure, if_pos hscope,
        if_pos hcross, if_neg hdup, if_pos hlive, if_neg hne, if_pos hallowed,
        find_task hx hids ha]
      rfl
    rcases content_or_disagrees hI.length.1 ha (r := r) rfl with hcontent | hdis
    swap
    · exact Or.inr (Or.inr (Or.inr hdis))
    have hboth := fun hist {ap pl dr} (hx : p.Executed e ap pl dr true) =>
      Plan.report_pair hx he hpeer hids hlive ha hconf hallowed rfl hcontent
        (rfl : ((p.applyReport i i a.grant r).settleReport r).stamped saved hist = _)
    have heq := Plan.settleReport_pair he hpeer i i a.grant r
    have hdef : ((p.applyReport i i a.grant r).settleReport r).definition = p.definition := by
      rw [heq]
      simp only [Plan.definition]
      rw [map_modify_of_eq Task.fresh
        (f := Task.settle (finalStatus r) (Plan.resultOf a.grant r)) p.tasks i fun _ => rfl]
    obtain ⟨s', p', hstep, hp', he', ha'⟩ := record_saves h hp hrev he hpeer ha hrec
      (F := GrantedAttempt.settle r) (fun _ => rfl) (fun _ => rfl) rfl (hboth [] hx).1
      (fun hist ap pl dr hx => (hboth hist hx).2) hdef (by rw [heq]) (by rw [heq])
    exact Or.inl ⟨s', p', _, _, hstep, hp', he', ha', Or.inr rfl⟩

/-! ## Every reachable engine -/

omit [Planner] [Reservations] in
/-- What a final report leaves of a pair whose other end is settled too. -/
theorem settle_status {e : ExecutionRecord} {record : Json} (he : p.execution = some e)
    (hpeer : e.peer = some record) {grantId : String} {r : GrantReport} {q : Plan}
    (hrec : p.record grantId r = .ok (some q)) (hr : r.state ≠ .accepted) :
    ∃ e', q.execution = some e' ∧ ((∀ a ∈ e'.attempts, a.state.live = false) →
      q.status = if q.pairOutcome e' = .completed ∧ p.status = .stopping then .cancelled
        else q.pairOutcome e') := by
  obtain ⟨e1, i, a, he1, -, -, -, hcase⟩ := Tracked.record_ok hrec
  cases he.symm.trans he1
  rcases hcase with ⟨hacc, -⟩ | ⟨-, j, -, rfl⟩
  · exact absurd hacc hr
  · have heq := Plan.settleReport_pair he hpeer i j a.grant r
    refine ⟨_, by rw [heq], fun hdead => ?_⟩
    have hany : ((e.attempts.modify i (GrantedAttempt.settle r)).any fun a => a.state.live)
        = false := by
      rw [List.any_eq_false]
      intro b hb
      simp [hdead b hb]
    have hst : (p.applyReport i j a.grant r).status = p.status := by rw [Plan.applyReport_eq he]
    have hout : ∀ e', (p.applyReport i j a.grant r).pairOutcome e'
        = ((p.applyReport i j a.grant r).settleReport r).pairOutcome e' := by
      intro e'
      rw [heq, Plan.applyReport_eq he]
      rfl
    have hsettled : ((p.applyReport i j a.grant r).settleReport r).status
        = (p.applyReport i j a.grant r).settledPair
          { e with attempts := e.attempts.modify i (GrantedAttempt.settle r) } := by
      rw [heq]
      simp only [hany, Bool.false_eq_true, if_false]
    rw [hsettled, Plan.settledPair, hst, hout]

omit [Planner] [Reservations] in
/-- An interruption leaves a pair whose outcome is uncertain. -/
theorem interrupt_status {e : ExecutionRecord} {record : Json} (hI : p.Issued e record)
    (he : p.execution = some e) (hactive : p.status.active = true) :
    p.interrupt.status = .interrupted ∧ ∃ e', p.interrupt.execution = some e'
      ∧ (∀ a ∈ e'.attempts, a.state.live = false) ∧ p.interrupt.pairOutcome e' = .interrupted := by
  have hlive : ∃ a ∈ e.attempts, a.state.live = true := by
    by_contra hno
    have hdead : ∀ a ∈ e.attempts, a.state.live = false := by
      intro a ha
      by_contra hl
      exact hno ⟨a, ha, by simpa using hl⟩
    rcases hI.outcome hdead with ho | ⟨-, ho⟩
    · rcases Plan.Issued.pairOutcome_cases p e with ⟨hc, -⟩ | ⟨hc, -⟩ | ⟨hc, -⟩ <;>
        · rw [ho, hc] at hactive
          cases hactive
    · rw [ho] at hactive
      cases hactive
  obtain ⟨a, ha, hl⟩ := hlive
  have hnot : p.canSettleUnissuedStop = false := by
    unfold Plan.canSettleUnissuedStop
    rw [he]
    have hall : (e.attempts.all fun a => a.state == .completed || a.state == .rejected) = false := by
      rw [List.all_eq_false]
      refine ⟨a, ha, ?_⟩
      cases hs : a.state <;> simp_all [AttemptState.live]
    simp [hall]
  have heq : p.interrupt = { p with
      execution := p.execution.map fun e =>
        { e with attempts := e.attempts.map GrantedAttempt.interrupted
                 workload := e.workload.map WorkloadExecution.interrupted }
      status := .interrupted
      tasks := p.tasks.map Task.interrupted } := by
    rw [Plan.interrupt, if_pos hactive, if_neg (by simp [hnot])]
  refine ⟨by rw [heq], _, by rw [heq, he]; rfl, fun b hb => ?_, ?_⟩
  · obtain ⟨b0, -, rfl⟩ := List.mem_map.1 hb
    cases hs : b0.state <;> simp [GrantedAttempt.interrupted, AttemptState.live, hs]
  · have hunknown : ((e.attempts.map GrantedAttempt.interrupted).any
        fun a => a.state == .unknown) = true := by
      refine List.any_eq_true.2 ⟨a.interrupted, List.mem_map_of_mem ha, ?_⟩
      simp [GrantedAttempt.interrupted, hl]
    rw [Plan.pairOutcome, if_pos hunknown]

/-- What holds of a stored transfer. -/
structure PairRules (s : Engine) (id : String) (p : Plan) : Prop where
  issued : ∀ e, p.execution = some e → (e.attempts = [] ∧ e.peer = none)
    ∨ ∃ record a b, e.peer = some record ∧ e.attempts = [a, b]
  alone : ∀ saved grantId session fenced now s',
    s.step saved (.issue id grantId session fenced now) ≠ .ok s'
  once : p.attempts ≠ [] → ∀ saved g₁ g₂ issuance fenced s',
    s.step saved (.issuePair id g₁ g₂ issuance fenced) ≠ .ok s'
  kept : ∀ x s', p.sealedPair = some x → Run Step s s' →
    ∃ p', s'.jobs.lookup id = some p' ∧ p'.sealedPair = some x
  undecided : ∀ saved origin now s', (∀ c evidence, c.id = id →
      s.step saved (.recover c origin evidence now) ≠ .ok s')
    ∧ ∀ c, c.id = id → s.step saved (.abandon c origin now) ≠ .ok s'
  completed : p.status = .completed → ∃ e record a b, p.execution = some e
    ∧ e.peer = some record ∧ e.attempts = [a, b] ∧ Joint record a b
  running : ∀ a ∈ p.attempts, a.state.live = true → p.status = .running ∨ p.status = .stopping
  settled : ∀ e, p.execution = some e → e.peer.isSome = true →
    (∀ a ∈ e.attempts, a.state.live = false) →
    p.status = p.pairOutcome e ∨ (p.pairOutcome e = .completed ∧ p.status = .cancelled)
  settles : ∀ e, p.execution = some e → e.peer.isSome = true → ∀ grantId r q,
    p.record grantId r = .ok (some q) → r.state ≠ .accepted →
    ∃ e', q.execution = some e' ∧ ((∀ a ∈ e'.attempts, a.state.live = false) →
      q.status = if q.pairOutcome e' = .completed ∧ p.status = .stopping then .cancelled
        else q.pairOutcome e')
  interrupted : ∀ e, p.execution = some e → e.peer.isSome = true → p.status.active = true →
    p.interrupt.status = .interrupted ∧ ∃ e', p.interrupt.execution = some e'
      ∧ (∀ a ∈ e'.attempts, a.state.live = false) ∧ p.interrupt.pairOutcome e' = .interrupted
  reports : p.revision < u64Max → ∀ e record, p.execution = some e → e.peer = some record →
    ∀ (i : Nat) a, e.attempts[i]? = some a → ∀ r, Issuance.confirms record a.grant r = true →
    ∀ saved, (∃ s' p' e' a', s.step saved (.record id a.grant.grantId r) = .ok s'
        ∧ s'.jobs.lookup id = some p' ∧ p'.execution = some e' ∧ e'.attempts[i]? = some a'
        ∧ (a'.acknowledgement = some r ∨ a'.report = some r))
      ∨ p.status.live = false ∨ ¬Awaits e a r ∨ Disagrees e i r

/-- What an edit of a stored job takes is what its closure made of that job. -/
theorem edit_closure (hp : s.jobs.lookup id = some p)
    (hs : s.edit id event fenced saved f = .ok s') : ∃ o, f p = .ok o := by
  simp only [edit, bind_ok, context_ok] at hs
  obtain ⟨p', hp', _, -, _, -, o, ho, -⟩ := hs
  cases hp.symm.trans hp'
  exact ⟨o, ho⟩

/-- A transfer is issued once, for exactly two grants; it is completed by both of its ends
together, and what its ends report decides its status whatever the order. -/
theorem paired_execution {s₀ : Engine} (h₀ : s₀.Initial) (hrun : Run Step s₀ s)
    (hp : s.jobs.lookup id = some p) (hpair : p.goal.template = "peer_transfer") :
    PairRules s id p := by
  have hstep : ∀ a b : Engine, a.Inv → a.Step b → b.Inv := fun _ _ => run_inv
  have h : s.Inv := Run.invariant hstep h₀.inv hrun
  have hissued : ∀ e, p.execution = some e → (e.attempts = [] ∧ e.peer = none)
      ∨ ∃ record, e.peer = some record ∧ p.Issued e record := by
    intro e he
    obtain ⟨-, ap, pl, dr, -, -, -, -, hx⟩ := h.pair hp he (Or.inl hpair)
    cases hpeer : e.peer with
    | none => exact Or.inl ⟨unissued_of_executed hx hpeer, rfl⟩
    | some record => exact Or.inr ⟨record, rfl, (hx.issued hpeer).2⟩
  have hrecord : ∀ e, p.execution = some e → e.peer.isSome = true → ∃ record,
      e.peer = some record ∧ p.Issued e record := by
    intro e he hsome
    rcases hissued e he with ⟨-, hn⟩ | hr
    · rw [hn] at hsome
      cases hsome
    · exact hr
  have hpeer : ∀ e, p.execution = some e → e.attempts ≠ [] → e.peer.isSome = true := by
    intro e he hne
    rcases hissued e he with ⟨hn, -⟩ | ⟨record, hr, -⟩
    · exact absurd hn hne
    · simp [hr]
  have hnorec : ∀ a ∈ p.attempts, a.recovery = none := by
    intro a ha
    cases he : p.execution with
    | none => simp [Plan.attempts, he] at ha
    | some e =>
      have ha : a ∈ e.attempts := by simpa [Plan.attempts, he] using ha
      obtain ⟨record, -, hI⟩ := hrecord e he (hpeer e he (List.ne_nil_of_mem ha))
      exact hI.states.2.2.1 a ha
  refine ⟨fun e he => ?_, ?_, ?_, fun x s' hx hrun' => run_sealed h hrun' hp hx, ?_,
    h.joint hp hpair, ?_, ?_, ?_, ?_, ?_⟩
  · rcases hissued e he with hn | ⟨record, hr, hI⟩
    · exact Or.inl hn
    · obtain ⟨a, b, hab⟩ := List.length_eq_two.1 hI.length.1
      exact Or.inr ⟨record, a, b, hr, hab⟩
  · intro saved grantId session fenced now s' hs
    obtain ⟨o, ho⟩ := edit_closure hp hs
    simp only [bind_ok, pure_ok] at ho
    obtain ⟨q, hq, -⟩ := ho
    simp only [Plan.issueNext, Plan.issue, bind_ok, bailIf_ok, Plan.pairDefinition, if_pos hpair,
      pure_ok] at hq
    obtain ⟨_, -, b, ⟨_, -, hb⟩, _, hnot, -⟩ := hq
    exact hnot hb.symm
  · intro hne saved g₁ g₂ issuance fenced s' hs
    obtain ⟨o, ho⟩ := edit_closure hp hs
    simp only [bind_ok, pure_ok] at ho
    obtain ⟨q, hq, -⟩ := ho
    cases he : p.execution with
    | none => exact hne (by simp [Plan.attempts, he])
    | some e =>
      exact Plan.issuePair_refused he (Or.inl (by simpa [Plan.attempts, he] using hne)) hq
  · intro saved origin now s'
    refine ⟨fun c evidence hc hs => ?_, fun c hc hs => ?_⟩
    · obtain ⟨o, ho⟩ := edit_closure (hc ▸ hp) hs
      exact Plan.recover_refused hnorec hpeer ho
    · obtain ⟨o, ho⟩ := edit_closure (hc ▸ hp) hs
      exact Plan.abandon_refused hpeer ho
  · intro a ha hl
    cases he : p.execution with
    | none => simp [Plan.attempts, he] at ha
    | some e =>
      have ha : a ∈ e.attempts := by simpa [Plan.attempts, he] using ha
      obtain ⟨record, -, hI⟩ := hrecord e he (hpeer e he (List.ne_nil_of_mem ha))
      simpa [PlanStatus.live] using hI.live ha hl
  · intro e he hsome hdead
    obtain ⟨record, -, hI⟩ := hrecord e he hsome
    exact hI.outcome hdead
  · intro e he hsome grantId r q hrec hr
    obtain ⟨record, hpr, -⟩ := hrecord e he hsome
    exact settle_status he hpr hrec hr
  · intro e he hsome hactive
    obtain ⟨record, -, hI⟩ := hrecord e he hsome
    exact interrupt_status hI he hactive
  · intro hrev e record he hpr i a ha r hconf saved
    exact record_accepted h hp hrev he hpr ha hconf saved

end Engine

end

/-! ## A transfer between two nodes -/

/-- The limits of the sample transfer. -/
def transferLimits : Json :=
  .obj [("max_wire_bytes", .nat 65536), ("max_bytes_per_second", .nat 65536),
    ("max_frame_bytes", .nat 1024), ("max_frames", .nat 16), ("max_inflight_frames", .nat 1)]

/-- The digest of its four bytes. -/
def transferSha : String := "3a6eb0790f39ac87c94f3856b2dd2c5d110e6811602261a9a923d3bb23adc8b7"

/-- What each end is asked for. -/
def transferDefinition : Role → Json
  | .source => .obj [("schema_version", .nat 1), ("resource_id", .str "owner::files"),
      ("peer_node", .str "desk"), ("peer_resource_id", .str "desk::files"),
      ("payload_bytes", .nat 4), ("payload_sha256", .str transferSha), ("limits", transferLimits)]
  | .destination => .obj [("schema_version", .nat 1), ("resource_id", .str "desk::files"),
      ("peer_node", .str "owner"), ("peer_resource_id", .str "owner::files"),
      ("payload_bytes", .nat 4), ("payload_sha256", .str transferSha), ("limits", transferLimits)]

/-- The parameters it is read from. -/
def transferParams : Json :=
  .obj [("transfer", .obj [("schema_version", .nat 1),
    ("source", .obj [("node_id", .str "owner"), ("resource_id", .str "owner::files")]),
    ("destination", .obj [("node_id", .str "desk"), ("resource_id", .str "desk::files")]),
    ("payload_bytes", .nat 4), ("payload_sha256", .str transferSha), ("limits", transferLimits)])]

def transferPair : Pair :=
  ⟨⟨"owner", "owner::files"⟩, ⟨"desk", "desk::files"⟩, transferLimits, transferDefinition⟩

/-- The second end's task. -/
def receiveTaskId : String := "99999999999949998999999999999999"

/-- The approved transfer. -/
def transferPlan : Plan :=
  { samplePlan with
    planning := some { samplePlanning with
      input := ⟨1, "peer_transfer", transferParams, .obj []⟩
      bindings := [⟨sampleGrant.taskId, "owner", some "owner::files", none, none⟩,
        ⟨receiveTaskId, "desk", some "desk::files", none, none⟩] }
    goal := ⟨some sampleGrant.requestContext, "move", "peer_transfer", transferParams, .obj []⟩
    tasks := [{ sampleTask with
        capability := "peer.transfer", action := "send", params := transferDefinition .source },
      { sampleTask with
        taskId := receiveTaskId, capability := "peer.transfer", action := "receive"
        params := transferDefinition .destination }] }

/-- The grants of one issuance. -/
def sendGrant : ExecutionGrant :=
  { sampleGrant with
    capability := "peer.transfer", action := "send", params := transferDefinition .source
    resourceId := some "owner::files", issuedAtMs := 2000, expiresAtMs := 7000 }

def receiveGrant : ExecutionGrant :=
  { sampleGrant with
    grantId := "77777777-7777-4777-8777-777777777777"
    sessionId := "88888888-8888-4888-8888-888888888888"
    executorNode := "desk", taskId := receiveTaskId, capability := "peer.transfer"
    action := "receive", params := transferDefinition .destination
    resourceId := some "desk::files", issuedAtMs := 2000, expiresAtMs := 7000 }

def sendSha : String := "98d5c887cd247bd3519d296c69df0b44bbf8bfdbc5370cfb39522d6f1011016f"

def receiveSha : String := "6f3e0f6e8cefbd5b34f5bf3cad1c1a2631bc66fc1120466752855ddbd7213f02"

/-- The scope both ends are sealed for. -/
def transferScope : Json :=
  .obj [("schema_version", .nat 1), ("session_id", .str "abababab-abab-4bab-8bab-abababababab"),
    ("issuer_id", .str sampleGrant.issuerId),
    ("coordinator_runtime_id", .str "cdcdcdcd-cdcd-4dcd-8dcd-cdcdcdcdcdcd"),
    ("job_id", .str sampleGrant.jobId), ("plan_sha256", .str sampleGrant.planSha256),
    ("request_context", sampleGrant.requestContext.toJson),
    ("source", .obj [("node_id", .str "owner"), ("control_session_id", .str sendGrant.sessionId),
      ("runtime_generation", .str "efefefef-efef-4fef-8fef-efefefefefef"),
      ("grant_id", .str sendGrant.grantId), ("grant_sha256", .str sendSha),
      ("resource_id", .str "owner::files")]),
    ("destination", .obj [("node_id", .str "desk"),
      ("control_session_id", .str receiveGrant.sessionId),
      ("runtime_generation", .str "fafafafa-fafa-4afa-8afa-fafafafafafa"),
      ("grant_id", .str receiveGrant.grantId), ("grant_sha256", .str receiveSha),
      ("resource_id", .str "desk::files")]),
    ("destination_address", .str "192.0.2.7:7000"), ("issued_at_ms", .nat 2000),
    ("expires_at_ms", .nat 7000), ("limits", transferLimits)]

def scopeSha : String := "89671163468c9d43eff776e574c1fa3634f4c18a4d11b5f238a786ef6a7f9ad7"

/-- The sealed issuance. -/
def transferIssuance : Json :=
  .obj [("schema_version", .nat 1), ("scope", transferScope),
    ("coordinator_certificate", .str "certificate"),
    ("material", .obj [("source", .obj [("role", .str "source")]),
      ("destination", .obj [("role", .str "destination")])])]

/-- The receipt of an end. -/
def transferReceipt (role : Role) : Json :=
  .obj [("schema_version", .nat 1), ("pair_session_id", .str "abababab-abab-4bab-8bab-abababababab"),
    ("scope_sha256", .str scopeSha), ("role", .str role.name), ("payload_bytes", .nat 4),
    ("payload_sha256", .str transferSha), ("data_frames", .nat 1), ("payload_retained", .bool false),
    ("sink_effects_confirmed", .bool false)]

/-- SHA-256 on the approval, the two grants and the scope. -/
@[reducible]
def transferHash : Sha256 :=
  Sha256.table
    [(sampleApproval.toJson, sampleApproval.approvalSha256), (sendGrant.toJson, sendSha),
      (receiveGrant.toJson, receiveSha), (transferScope, scopeSha)] [] []
    sampleGrant.planSha256 sampleGrant_planSha256 (by decide) Sha256.no_rows Sha256.no_rows

/-- The ends admit what they are asked for and confirm what they moved. -/
@[reducible]
def transferAdmission : PeerAdmission where
  admits g := decide (g.params = transferDefinition .source ∨ g.params = transferDefinition .destination)
  confirms g data := decide ((g.params = transferDefinition .source ∧ data = transferReceipt .source)
    ∨ (g.params = transferDefinition .destination ∧ data = transferReceipt .destination))

@[reducible]
def transferPairing : Pairing where
  fromParams params :=
    if params = transferParams then .ok transferPair else .error "Invalid distinct peer pair"
  validateScope scope := ensure (scope = transferScope) "Invalid peer scope or bounds"
  verifyEnvelope scope _ certificate :=
    ensure (scope = transferScope ∧ certificate = .str "certificate")
      "Saved peer envelope identity or scope differs"

@[reducible]
def transferPlanner : Planner where
  definition d := ensure (d = transferPlan.definition) "Damaged review state"

section
attribute [local instance] F64.bits transferAdmission transferHash transferPlanner transferPairing
  Reservations.empty

namespace Engine

/-- A coordinator with the approved transfer. -/
def transfer : Engine := ⟨[(transferPlan.planId, transferPlan)], [], false⟩

/-- The engine after its start. -/
def transferClaimed : Engine := transfer.run 2000 (.claim sampleExecute false 2000)

/-- The engine after its issuance. -/
def transferIssued : Engine :=
  transferClaimed.run 2000
    (.issuePair sampleGrant.jobId sendGrant receiveGrant transferIssuance false)

/-- The pair it stores. -/
def transferStored : Plan := (transferIssued.jobs.lookup sampleGrant.jobId).getD transferPlan

/-- The receiving end's report of a transfer it never accepted. -/
def earlyReport : GrantReport :=
  GrantReport.new receiveGrant .completed (transferReceipt .destination) none

/-- The plan its start leaves. -/
def claimedPlan : Plan :=
  ({ transferPlan with
    execution := some ⟨1, sampleExecute, 2000, [], none, none, none, none⟩
    status := .running } : Plan).stamped 2000 (transferPlan.history ++ [⟨5, 2000,
      "Owner-approved execution requested; grants require a separate durable checkpoint"⟩])

/-- The plan its issuance leaves. -/
def issuedPlan : Plan :=
  ((({ claimedPlan with
    execution := some ⟨1, sampleExecute, 2000, [], none, some transferIssuance, none, none⟩ } :
      Plan).appendAttempt sendGrant).appendAttempt receiveGrant).stamped 2000
    (claimedPlan.history ++ [⟨6, 2000,
      "Both peer grants and sealed delivery saved atomically before either dispatch"⟩])

/-- The execution it leaves. -/
def issuedExecution : ExecutionRecord :=
  ⟨1, sampleExecute, 2000, [GrantedAttempt.ofGrant sendGrant, GrantedAttempt.ofGrant receiveGrant],
    none, some transferIssuance, none, none⟩

/-- The approved transfer is one the journal stores, its start one the validator accepts, and the
issuance is for it and the two grants. -/
theorem transfer_checked : transferPlan.validateStored = .ok ()
    ∧ transferPlan.start sampleExecute 2000
      = .ok { transferPlan with
        execution := some ⟨1, sampleExecute, 2000, [], none, none, none, none⟩
        status := .running }
    ∧ claimedPlan.validateExecution = .ok ()
    ∧ Issuance.validateFor transferIssuance claimedPlan [sendGrant, receiveGrant] = .ok () := by
  decide +kernel

theorem transfer_stored : transferPlan.validateStored = .ok () := transfer_checked.1

theorem transfer_started : transferPlan.start sampleExecute 2000
    = .ok { transferPlan with
      execution := some ⟨1, sampleExecute, 2000, [], none, none, none, none⟩
      status := .running } :=
  transfer_checked.2.1

theorem transfer_sealed :
    Issuance.validateFor transferIssuance claimedPlan [sendGrant, receiveGrant] = .ok () :=
  transfer_checked.2.2.2

/-- Both grants, and the tasks they are for; the early report confirms its own, and is refused. -/
theorem transfer_granted : issuedPlan.approval = some sampleApproval
    ∧ issuedPlan.tasks.zipIdx.map (fun it => issuedPlan.validateTask issuedExecution sampleApproval
        (issuedPlan.planning.getD samplePlanning) true it.2 it.1) = [.ok (), .ok ()]
    ∧ issuedPlan.executionBounds issuedExecution sampleApproval
        (issuedPlan.planning.getD samplePlanning)
        (issuedPlan.requestReview.getD ⟨[], [], [], .null⟩)
    ∧ issuedPlan.statesAgree issuedExecution true ∧ issuedPlan.pairStates issuedExecution
    ∧ Issuance.confirms transferIssuance receiveGrant earlyReport = true
    ∧ isOk (issuedPlan.record receiveGrant.grantId earlyReport) = false := by
  decide +kernel

/-- An issuance is for a pair. -/
theorem paired_of_validateFor {p : Plan} {record : Json} {grants : List ExecutionGrant}
    (h : Issuance.validateFor record p grants = .ok ()) : p.pairDefinition = .ok true := by
  simp only [Issuance.validateFor, bind_ok, ensure_ok] at h
  obtain ⟨b, hb, _, hpaired, -⟩ := h
  rwa [hpaired] at hb

theorem command_of_start {p q : Plan} {c : ExecuteCommand} {now : Nat}
    (h : p.start c now = .ok q) : c.validate = .ok () := by
  simp only [Plan.start, bind_ok] at h
  obtain ⟨_, hvalid, -⟩ := h
  exact hvalid

theorem review_of_stored {p : Plan} (h : p.validateStored = .ok ()) : p.validateReview = .ok () := by
  simp only [Plan.validateStored, bind_ok] at h
  obtain ⟨_, hreview, -⟩ := h
  exact hreview

theorem transfer_reviewed : transferPlan.validateReview = .ok () :=
  review_of_stored transfer_stored

theorem claimed_reviewed : claimedPlan.validateReview = .ok () :=
  Plan.review_of_execution transfer_reviewed rfl rfl rfl rfl rfl (by decide) (by decide)
    transfer_checked.2.2.1

theorem issued_sealed :
    Issuance.validateFor transferIssuance issuedPlan [sendGrant, receiveGrant] = .ok () :=
  (Plan.validateFor_of_definition (p := issuedPlan) (q := claimedPlan) rfl rfl _ _).trans
    transfer_sealed

/-- Neither attempt has heard anything. -/
theorem issued_fresh : ∀ a ∈ issuedExecution.attempts,
    a.acknowledgement = none ∧ a.finalReport = none ∧ a.stop = none := by
  intro a ha
  have hgrant : ∃ g, a = GrantedAttempt.ofGrant g := by
    rcases List.mem_cons.mp ha with h | h
    · exact ⟨_, h⟩
    · exact ⟨_, List.mem_singleton.mp h⟩
  obtain ⟨g, rfl⟩ := hgrant
  exact ⟨rfl, rfl, rfl⟩

theorem issued_paired : issuedPlan.validatePair issuedExecution = .ok true := by
  have hpaired := paired_of_validateFor issued_sealed
  have hreports : ∀ a ∈ issuedExecution.attempts,
      (∀ v ∈ a.acknowledgement, Issuance.confirms transferIssuance a.grant v = true)
        ∧ ∀ v ∈ a.finalReport, Issuance.confirms transferIssuance a.grant v = true := by
    intro a ha
    obtain ⟨hack, hreport, -⟩ := issued_fresh a ha
    rw [hack, hreport]
    exact ⟨fun _ h => (Option.not_mem_none _ h).elim, fun _ h => (Option.not_mem_none _ h).elim⟩
  have hpeer : issuedExecution.peer = some transferIssuance := rfl
  simp only [Plan.validatePair, hpeer, bind_ok, ensure_ok, Plan.validateJoint_ok, pure_ok]
  exact ⟨true, hpaired, (), rfl, (), issued_sealed, (), transfer_granted.2.2.2.2.1, (), hreports, rfl⟩

theorem issued_executed : issuedPlan.validateExecution = .ok () := by
  obtain ⟨happroval, htasks, hbounds, hstates, -⟩ := transfer_granted
  have hexec : issuedPlan.execution = some issuedExecution := rfl
  have hbranch : ¬(issuedPlan.execution.any fun e => e.schemaVersion == 2 || e.workload.isSome)
      = true := by
    rw [hexec]
    decide
  have hstop : issuedPlan.validateStop = .ok () := by
    have hnone : issuedExecution.stopRequestedAtMs = none := rfl
    refine (Plan.validateStop_ok hexec).mpr ⟨fun _ h => ?_, fun a ha => ?_⟩
    · rw [hnone] at h
      exact (Option.not_mem_none _ h).elim
    · rw [(issued_fresh a ha).2.2]
      exact fun _ h => (Option.not_mem_none _ h).elim
  have heach : each (fun it => issuedPlan.validateTask issuedExecution sampleApproval
      (issuedPlan.planning.getD samplePlanning) true it.2 it.1) issuedPlan.tasks.zipIdx = .ok () := by
    refine each_ok.mpr fun it hit => ?_
    have hmem := List.mem_map_of_mem (f := fun it => issuedPlan.validateTask issuedExecution
      sampleApproval (issuedPlan.planning.getD samplePlanning) true it.2 it.1) hit
    rw [htasks] at hmem
    simpa using hmem
  have hcommand := command_of_start transfer_started
  rw [Plan.validateExecution, if_neg hbranch]
  refine bind_ok.mpr ⟨(), hstop, ?_⟩
  rw [hexec]
  refine bind_ok.mpr ⟨true, issued_paired, ?_⟩
  refine bind_ok.mpr ⟨(), hcommand, bind_ok.mpr ⟨_, context_ok.mpr happroval, ?_⟩⟩
  refine bind_ok.mpr ⟨_, context_ok.mpr rfl, bind_ok.mpr ⟨_, context_ok.mpr rfl, ?_⟩⟩
  refine bind_ok.mpr ⟨(), ensure_ok.mpr hbounds, bind_ok.mpr ⟨(), heach, ?_⟩⟩
  exact bind_ok.mpr ⟨(), ensure_ok.mpr hstates, rfl⟩

theorem issued_reviewed : issuedPlan.validateReview = .ok () :=
  Plan.review_of_execution claimed_reviewed rfl rfl rfl rfl rfl (by decide) (by decide)
    issued_executed

/-- The start goes through. -/
theorem transfer_claim : transfer.step 2000 (.claim sampleExecute false 2000)
    = .ok ⟨[(transferPlan.planId, claimedPlan)], [transferPlan.planId], false⟩ := by
  have hcommit : transferPlan.commit { transferPlan with
        execution := some ⟨1, sampleExecute, 2000, [], none, none, none, none⟩
        status := .running }
      "Owner-approved execution requested; grants require a separate durable checkpoint" 2000
      = .ok claimedPlan :=
    bind_ok.mpr ⟨(), by decide, bind_ok.mpr ⟨(), rfl, bind_ok.mpr ⟨claimedPlan, rfl,
      bind_ok.mpr ⟨(), claimed_reviewed, rfl⟩⟩⟩⟩
  have hedit : transfer.edit sampleExecute.id
      "Owner-approved execution requested; grants require a separate durable checkpoint" false 2000
      (fun p => return some (← p.start sampleExecute 2000))
      = .ok ⟨[(transferPlan.planId, claimedPlan)], [], false⟩ := by
    refine bind_ok.mpr ⟨transferPlan, rfl, bind_ok.mpr ⟨(), transfer_stored, ?_⟩⟩
    refine bind_ok.mpr ⟨(), rfl, bind_ok.mpr ⟨_, bind_ok.mpr ⟨_, transfer_started, rfl⟩, ?_⟩⟩
    exact bind_ok.mpr ⟨_, hcommit, bind_ok.mpr ⟨(), rfl, rfl⟩⟩
  exact bind_ok.mpr ⟨(), rfl, bind_ok.mpr ⟨(), rfl, bind_ok.mpr ⟨_, hedit, rfl⟩⟩⟩

/-- The issuance goes through. -/
theorem transfer_issue : (⟨[(transferPlan.planId, claimedPlan)], [transferPlan.planId], false⟩ :
      Engine).step 2000 (.issuePair sampleGrant.jobId sendGrant receiveGrant transferIssuance false)
    = .ok ⟨[(transferPlan.planId, issuedPlan)], [transferPlan.planId], false⟩ := by
  have hstored : claimedPlan.validateStored = .ok () :=
    bind_ok.mpr ⟨(), claimed_reviewed, rfl⟩
  have hissue : claimedPlan.issuePair sendGrant receiveGrant transferIssuance
      = .ok (({ claimedPlan with
        execution := some ⟨1, sampleExecute, 2000, [], none, some transferIssuance, none, none⟩ } :
          Plan).appendAttempt sendGrant |>.appendAttempt receiveGrant) := by
    refine bind_ok.mpr ⟨_, context_ok.mpr rfl, bind_ok.mpr ⟨(), ensure_ok.mpr (by decide), ?_⟩⟩
    exact bind_ok.mpr ⟨(), transfer_sealed, rfl⟩
  have hcommit : claimedPlan.commit (({ claimedPlan with
        execution := some ⟨1, sampleExecute, 2000, [], none, some transferIssuance, none, none⟩ } :
          Plan).appendAttempt sendGrant |>.appendAttempt receiveGrant)
      "Both peer grants and sealed delivery saved atomically before either dispatch" 2000
      = .ok issuedPlan :=
    bind_ok.mpr ⟨(), by decide, bind_ok.mpr ⟨(), rfl, bind_ok.mpr ⟨issuedPlan, rfl,
      bind_ok.mpr ⟨(), issued_reviewed, rfl⟩⟩⟩⟩
  refine bind_ok.mpr ⟨claimedPlan, rfl, bind_ok.mpr ⟨(), hstored, ?_⟩⟩
  refine bind_ok.mpr ⟨(), rfl, bind_ok.mpr ⟨_, bind_ok.mpr ⟨_, hissue, rfl⟩, ?_⟩⟩
  exact bind_ok.mpr ⟨_, hcommit, bind_ok.mpr ⟨(), rfl, rfl⟩⟩

theorem transferClaimed_eq :
    transferClaimed = ⟨[(transferPlan.planId, claimedPlan)], [transferPlan.planId], false⟩ := by
  rw [transferClaimed, run, transfer_claim]

theorem transferIssued_eq :
    transferIssued = ⟨[(transferPlan.planId, issuedPlan)], [transferPlan.planId], false⟩ := by
  rw [transferIssued, run, transferClaimed_eq, transfer_issue]

theorem transferStored_eq : transferStored = issuedPlan := by
  rw [transferStored, transferIssued_eq]
  rfl

/-- The only job of the coordinator. -/
theorem only_job {active : List String} {p : Plan} {id : String} {q : Plan}
    (hq : (⟨[(transferPlan.planId, p)], active, false⟩ : Engine).jobs.lookup id = some q) : q = p := by
  have h := Assoc.mem_of_lookup hq
  simp only [List.mem_singleton, Prod.mk.injEq] at h
  exact h.2

theorem transfer_initial : transfer.Initial := by
  refine ⟨fun id p hp => ?_, fun id p hp => ?_, fun id p hp => ?_, rfl⟩
  · rw [only_job hp]
    exact transfer_stored
  · rw [only_job hp]
    rfl
  · rw [only_job hp]
    rfl

theorem transfer_run : Run Step transfer transferIssued := by
  have h1 : transfer.Writable := by
    intro id p hp
    rw [only_job hp]
    decide
  have h2 : transferClaimed.Writable := by
    intro id p hp
    rw [transferClaimed_eq] at hp
    rw [only_job hp]
    decide
  exact (Relation.ReflTransGen.single ⟨h1, 2000, _, rfl⟩).tail ⟨h2, 2000, _, rfl⟩

theorem paired_execution_transfer :
    PairRules transferIssued sampleGrant.jobId transferStored := by
  have hlookup : transferIssued.jobs.lookup sampleGrant.jobId = some transferStored := by
    rw [transferStored_eq, transferIssued_eq]
    rfl
  have htemplate : transferStored.goal.template = "peer_transfer" := by
    rw [transferStored_eq]
    rfl
  exact paired_execution transfer_initial transfer_run hlookup htemplate

/-- While both ends wait and neither has reported, a report that names its grant, its session and
its scope is refused: it completes what was not accepted. -/
theorem early_report_refused :
    transfer.Initial ∧ Run Step transfer transferIssued
      ∧ transferIssued.jobs.lookup sampleGrant.jobId = some transferStored
      ∧ transferStored.goal.template = "peer_transfer" ∧ transferStored.status = .running
      ∧ transferStored.execution.map (·.peer) = some (some transferIssuance)
      ∧ transferStored.attempts
        = [GrantedAttempt.ofGrant sendGrant, GrantedAttempt.ofGrant receiveGrant]
      ∧ Issuance.confirms transferIssuance receiveGrant earlyReport = true
      ∧ ¬∃ saved s', transferIssued.step saved
        (.record sampleGrant.jobId receiveGrant.grantId earlyReport) = .ok s' := by
  have hlookup : transferIssued.jobs.lookup sampleGrant.jobId = some transferStored := by
    rw [transferStored_eq, transferIssued_eq]
    rfl
  obtain ⟨-, -, -, -, -, hconf, hrefused⟩ := transfer_granted
  refine ⟨transfer_initial, transfer_run, hlookup, ?_, ?_, ?_, ?_, hconf, ?_⟩
  · rw [transferStored_eq]
    rfl
  · rw [transferStored_eq]
    rfl
  · rw [transferStored_eq]
    rfl
  · rw [transferStored_eq]
    rfl
  · rintro ⟨saved, s', hs⟩
    obtain ⟨o, ho⟩ := edit_closure hlookup hs
    rw [transferStored_eq] at ho
    exact absurd ((isOk_iff.mpr ⟨o, ho⟩).symm.trans hrefused) (by decide)

end Engine

end

end Eef.Coordinator
