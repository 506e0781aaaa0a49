import Eef.Coordinator.Attempts

/-!
# Start and issuance keep an execution valid

An approved plan begins with no attempt (`start_executed`), and gets its next attempt once
every earlier one succeeded (`issue_executed`, by `Executed.all_succeeded`).
-/

namespace Eef.Coordinator

open Eef.Lib Eef.Node

namespace Plan

section
variable [F64] [PeerAdmission] [Sha256] [Pairing]

variable {p : Plan} {e : ExecutionRecord} {ap : ApprovalRecord} {pl : PlanningRecord}
  {dr : DraftRecord}

/-! ## Start and issuance -/

/-- An approved plan begins to execute. -/
theorem start_executed {c : ExecuteCommand} {t now : Nat} {hist : List JobEvent} {q : Plan}
    {e : ExecutionRecord} (hnone : p.execution = none) (hbounds : p.plannedBounds pl)
    (happroval : p.status = .approved) (hpair : p.pairDefinition = .ok false)
    (hcommand : c.validate = .ok ()) (hid : p.planId = c.id) (hrev : p.revision = c.expectedRevision)
    (hsha : ap.approvalSha256 = c.approvalSha256) (hsource : ap.sourceRevision < p.revision)
    (hactive : ap.approvedAtMs ≤ t ∧ t < ap.expiresAtMs) (h1 : c.operationId ≠ ap.operationId)
    (h2 : c.operationId ≠ pl.operationId) (h3 : c.operationId ∉ dr.proposals)
    (h4 : c.operationId ∉ dr.answers) (he : e = ⟨1, c, t, [], none, none, none, none⟩)
    (hq : q = ({ p with execution := some e, status := .running } : Plan).stamped now hist) :
    q.Executed e ap pl dr false := by
  subst he
  obtain ⟨-, -, -, -, -, -, hresults, -, htasks⟩ := hbounds
  have hqt : q.tasks = p.tasks := by rw [hq]; rfl
  have hqs : q.status = .running := by rw [hq]; rfl
  have hdef : q.definition = p.definition := by rw [hq]; rfl
  have hun : ∀ t ∈ p.tasks, t.unissued ∧ t.status = .pending := by
    intro t ht
    obtain ⟨ha, hr, hs, hst⟩ := htasks hnone t ht
    rw [happroval, if_neg (by simp)] at hst
    exact ⟨⟨Or.inl hst, ha, hr, hs⟩, hst⟩
  refine ⟨⟨by simp, by simp⟩, validatePair_false.2
    ⟨(pairDefinition_of_definition hdef).trans hpair, rfl⟩, hcommand, ?_, ?_, by simp, by simp,
    by simp, by simp, ?_, ?_, ?_⟩
  · refine ⟨rfl, by rw [hq]; exact hid.symm, hsha.symm, by rw [← hrev]; exact hsource, ?_, hactive.1,
      hactive.2, h1, h2, h3, h4, Or.inl hqs, by simp⟩
    rw [hq, ← hrev]
    exact Nat.lt_succ_self _
  · intro i t' ht' _
    rw [hqt] at ht'
    exact (hun t' (List.mem_of_getElem? ht')).1
  · intro k v
    have hr : q.results = [] := by
      rw [hq]
      exact hresults hnone
    rw [hr, hqt]
    simp only [List.lookup_nil, reduceCtorEq, false_iff]
    rintro ⟨t', ht', -, hv⟩
    rw [(hun t' ht').1.2.2.1] at hv
    cases hv
  · refine ⟨by simp, ?_, ?_, ?_, ?_, by simp⟩
    · rw [hqs]
      simp
    · rw [hqs]
      simp
    · rw [hqs]
      simp
    · intro _ _ t' ht'
      rw [hqt] at ht'
      simp [(hun t' ht').2]
  · simp [validateAbandonment, ensure, hqs]

/-- With a successful report on the last attempt, every attempt succeeded. -/
theorem Executed.all_succeeded (h : p.Executed e ap pl dr false) (hlive : p.status.live = true)
    (hpred : 0 < e.attempts.length →
      (e.attempts[e.attempts.length - 1]?.any fun b => b.report.any fun r => r.success) = true)
    (j : Nat) (b : GrantedAttempt) (hb : e.attempts[j]? = some b) : b.succeeded := by
  have hlt : j < e.attempts.length := (List.getElem?_eq_some_iff.1 hb).1
  by_cases hj : j + 1 < e.attempts.length
  · exact h.chain rfl j b hb hj
  · have hj' : e.attempts.length - 1 = j := by omega
    obtain ⟨b', hb', hsome⟩ := (Option.any_eq_true _ _).1 (hpred (by omega))
    rw [hj'] at hb'
    cases hb.symm.trans hb'
    rcases h.live_or_succeeded hlive hb with hl | hs
    · -- a live attempt has no report yet
      obtain ⟨t1, h1⟩ := h.task_of hb
      obtain ⟨s, r, hlife, -, -⟩ := (h.tracks j t1 b h1 hb).lifecycle
      obtain ⟨rep, hrep, -⟩ := (Option.any_eq_true _ _).1 hsome
      simp only [AttemptState.live, Bool.or_eq_true, beq_iff_eq] at hl
      unfold GrantedAttempt.lifecycle at hlife
      rcases hl with hs | hs <;> simp [hs, hrep] at hlife
    · exact hs

/-- The next grant of a running plan is saved. -/
theorem issue_executed (h : p.Executed e ap pl dr false) (he : p.execution = some e)
    (hrunning : p.status = .running) {t : Task} (ht : p.tasks[e.attempts.length]? = some t)
    (hpred : 0 < e.attempts.length →
      (e.attempts[e.attempts.length - 1]?.any fun b => b.report.any fun r => r.success) = true)
    {g sc : ExecutionGrant} (hvalid : g.validate = .ok ())
    (hscope : p.scope e.attempts.length ap = .ok sc)
    (hg : g = { sc with grantId := g.grantId, sessionId := g.sessionId,
                        issuedAtMs := g.issuedAtMs, expiresAtMs := g.expiresAtMs })
    (hstarted : e.startedAtMs ≤ g.issuedAtMs)
    (hbounded : g.issuedAtMs + g.limits.maxExecutionMs ≤ u64Max)
    (hlease : g.expiresAtMs = min (g.issuedAtMs + g.limits.maxExecutionMs) ap.expiresAtMs)
    (hfresh : ∀ b ∈ e.attempts, b.grant.grantId ≠ g.grantId)
    (hcommand : g.grantId ≠ e.command.operationId) (hap : g.grantId ≠ ap.operationId)
    (hpl : g.grantId ≠ pl.operationId) {q : Plan} {e' : ExecutionRecord} {now : Nat}
    {hist : List JobEvent}
    (he' : e' = { e with attempts := e.attempts ++ [GrantedAttempt.ofGrant g] })
    (hq : q = (p.appendAttempt g).stamped now hist) :
    q.execution = some e' ∧ q.Executed e' ap pl dr false := by
  have hlive : p.status.live = true := by rw [hrunning]; rfl
  have hatt : p.attempts = e.attempts := by simp [attempts, he]
  have hq' : q = ({ p with
      execution := some e'
      tasks := p.tasks.modify e.attempts.length (Task.assign (assignmentOf g)) } :
      Plan).stamped now hist := by
    rw [hq, appendAttempt, hatt, he, he']
    rfl
  have hexec : q.execution = some e' := by rw [hq']; rfl
  have hqs : q.status = .running := by rw [hq']; exact hrunning
  have hnone : e.attempts[e.attempts.length]? = none := by simp
  have hun := h.unissued _ t ht hnone
  have hget : ∀ (j : Nat) t', q.tasks[j]? = some t' → ∃ t1, p.tasks[j]? = some t1
      ∧ t' = if e.attempts.length = j then t1.assign (assignmentOf g) else t1 := by
    intro j t' ht'
    rw [hq'] at ht'
    simp only [stamped, List.getElem?_modify] at ht'
    obtain ⟨t1, h1, rfl⟩ := Option.map_eq_some_iff.1 ht'
    exact ⟨t1, h1, rfl⟩
  have hgetA : ∀ (j : Nat) b, e'.attempts[j]? = some b → e.attempts[j]? = some b
      ∨ (j = e.attempts.length ∧ b = GrantedAttempt.ofGrant g) := by
    intro j b hb
    rw [he'] at hb
    by_cases hj : j < e.attempts.length
    · rw [List.getElem?_append_left hj] at hb
      exact Or.inl hb
    · rw [List.getElem?_append_right (by omega)] at hb
      obtain ⟨hlt, hb⟩ := List.getElem?_eq_some_iff.1 hb
      have hj' : j = e.attempts.length := by
        simp only [List.length_singleton] at hlt
        omega
      exact Or.inr ⟨hj', by simpa using hb.symm⟩
  have hdef : q.definition = p.definition := by
    rw [hq']
    simp only [definition, stamped]
    rw [map_modify_of_eq Task.fresh (f := Task.assign (assignmentOf g)) p.tasks _ fun _ => rfl]
  have hdone := h.all_succeeded hlive hpred
  have hchain : ∀ (j : Nat) b, e'.attempts[j]? = some b → j + 1 < e'.attempts.length →
      b.succeeded := by
    intro j b hb hlt
    rcases hgetA j b hb with hb' | ⟨rfl, -⟩
    · exact hdone j b hb'
    · rw [he'] at hlt
      simp at hlt
  have hnab := h.abandonment_none (ne_abandoned_of_live hlive)
  obtain ⟨b1, b2, b3, b4, b5, b6, b7, b8, b9, b10, b11, -, -⟩ := h.bounds
  have hlen : e.attempts.length < p.tasks.length := (List.getElem?_eq_some_iff.1 ht).1
  refine ⟨hexec, ⟨?_, h.unpaired hdef (by rw [he']), by rw [he']; exact h.command, ?_, ?_, ?_, ?_,
    fun _ => hchain, ?_, ?_, ?_, ?_⟩⟩
  · refine ⟨by rw [he']; exact h.stop.requested, fun b hb stop hs => ?_⟩
    rw [he', List.mem_append, List.mem_singleton] at hb
    rw [he']
    rcases hb with hb | rfl
    · exact h.stop.delivered b hb stop hs
    · cases hs
  · obtain ⟨hid, -, -, -⟩ := planning_of_definition hdef
    rw [he']
    refine ⟨b1, by rw [hid]; exact b2, b3, b4, ?_, b6, b7, b8, b9, b10, b11, Or.inl hqs, ?_⟩
    · rw [hq']
      exact Nat.lt_succ_of_lt b5
    · rw [length_eq_of_definition hdef]
      rw [List.length_append, List.length_singleton]
      exact hlen
  · intro j t' ht' hj
    obtain ⟨t1, h1, rfl⟩ := hget j t' ht'
    have hge : ¬j < e.attempts.length + 1 := by
      intro hlt
      rw [he'] at hj
      simp only [List.getElem?_eq_none_iff, List.length_append, List.length_singleton] at hj
      omega
    rw [if_neg (by omega)]
    exact h.unissued j t1 h1 (by rw [List.getElem?_eq_none_iff]; omega)
  · intro j t' b ht' hb
    obtain ⟨t1, h1, rfl⟩ := hget j t' ht'
    rcases hgetA j b hb with hb' | ⟨rfl, rfl⟩
    · have hlt : j < e.attempts.length := (List.getElem?_eq_some_iff.1 hb').1
      have hold := h.granted j t1 b h1 hb'
      obtain ⟨g1, hs1, heq1⟩ := hold.scope
      rw [if_neg (by omega)]
      refine ⟨hold.valid, ⟨g1, (scope_of_definition hdef j ap).trans hs1, heq1⟩, ?_, hold.expires,
        hold.bounded, hold.lease, ?_, ?_, hold.approval, hold.planning, hold.attempts,
        hold.assigned⟩
      · rw [he']
        exact hold.started
      · rw [he', List.take_append_of_le_length (by omega)]
        exact hold.distinct
      · rw [he']
        exact hold.command
    · cases ht.symm.trans h1
      rw [if_pos rfl]
      refine ⟨hvalid, ⟨sc, (scope_of_definition hdef _ ap).trans hscope, hg⟩, ?_, ?_, hbounded,
        hlease, ?_, ?_, hap, hpl, rfl, ?_⟩
      · rw [he']
        exact hstarted
      · show g.expiresAtMs ≤ ap.expiresAtMs
        rw [hlease]
        exact Nat.min_le_right _ _
      · rw [he', List.take_append_of_le_length (Nat.le_refl _), List.take_length]
        intro g' hg'
        obtain ⟨b, hb, rfl⟩ := List.mem_map.1 hg'
        exact hfresh b hb
      · rw [he']
        exact hcommand
      · simp [Task.assign, hun.2.2.2, GrantedAttempt.ofGrant]
  · intro j t' b ht' hb
    obtain ⟨t1, h1, rfl⟩ := hget j t' ht'
    rcases hgetA j b hb with hb' | ⟨rfl, rfl⟩
    · have hlt : j < e.attempts.length := (List.getElem?_eq_some_iff.1 hb').1
      rw [if_neg (by omega)]
      exact h.tracks j t1 b h1 hb'
    · cases ht.symm.trans h1
      rw [if_pos rfl]
      refine ⟨⟨by simp [GrantedAttempt.ofGrant], by simp [GrantedAttempt.ofGrant]⟩, .running, none,
        rfl, rfl, hun.2.2.1⟩
  · intro b hb
    rw [he', List.mem_append, List.mem_singleton] at hb
    rcases hb with hb | rfl
    · exact validateRecovery_none (h.recovery_none hlive hb)
    · exact validateRecovery_none rfl
  · intro k v
    have hqr : q.results = p.results := by rw [hq']; rfl
    rw [hqr, h.results k v]
    constructor
    · rintro ⟨t1, h1, hid, hv⟩
      obtain ⟨j, hj⟩ := List.mem_iff_getElem?.1 h1
      refine ⟨if e.attempts.length = j then t1.assign (assignmentOf g) else t1, ?_, ?_, ?_⟩
      · refine List.mem_iff_getElem?.2 ⟨j, ?_⟩
        rw [hq']
        simp only [stamped, List.getElem?_modify, hj]
        rfl
      · split
        · exact hid
        · exact hid
      · split
        · exact hv
        · exact hv
    · rintro ⟨t', ht', hid, hv⟩
      obtain ⟨j, hj⟩ := List.mem_iff_getElem?.1 ht'
      obtain ⟨t1, h1, rfl⟩ := hget j t' hj
      refine ⟨t1, List.mem_of_getElem? h1, ?_, ?_⟩
      · split at hid
        · exact hid
        · exact hid
      · split at hv
        · exact hv
        · exact hv
  · refine ⟨?_, ?_, ?_, ?_, ?_, countP_live_le hchain⟩
    · rw [hqs]
      intro hst
      cases hst
    · rw [hqs]
      intro hst
      cases hst
    · rw [hqs]
      intro hst
      cases hst
    · rw [hqs]
      intro hst
      cases hst
    · intro _ _ t' ht'
      obtain ⟨j, hj⟩ := List.mem_iff_getElem?.1 ht'
      obtain ⟨t1, h1, rfl⟩ := hget j t' hj
      split
      · simp [Task.assign]
      · exact h.states.2.2.2.2.1 rfl hlive t1 (List.mem_of_getElem? h1)
  · have hnab' : e'.abandonment = none := by rw [he']; exact hnab
    simp [validateAbandonment, hnab', ensure, hqs]

end

end Plan

end Eef.Coordinator
