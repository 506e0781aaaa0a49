import Eef.Coordinator.VerificationRuns

/-!
# The turns of a model check

What one turn of a call guarantees, for whatever it read. `Filled` is the part of `confirmed` that
a report keeps on the way, whatever error comes next; `Concluded` is the part that the end of a
call has to supply. A failed report concludes by itself. `Going` says for each phase what the
report holds already, and `TurnOk` that a turn hands on what the next phase needs.

The only thing a turn needs of the store is that an intent stays: `Held rows d`.
-/

namespace Eef.Coordinator.Verification

open Eef.Lib
open Eef.Node hiding Definition
open Eef.Node.ModelVerification

/-! ## Intents stay -/

section

variable [Sha256]

/-- The definition that a call finds under its own name. -/
def Held (rows : List IntentRow) (d : ModelVerification.Definition) : Prop :=
  readIntent rows d.nodeId d.operationId = .ok (some d)

theorem Held.unique {rows : List IntentRow} {d d' : ModelVerification.Definition} (h : Held rows d)
    (h' : Held rows d') (hnode : d.nodeId = d'.nodeId) (hop : d.operationId = d'.operationId) :
    d = d' := by
  unfold Held at h h'
  rw [hnode, hop, h'] at h
  cases h
  rfl

/-- What is read under a name is held. -/
theorem held_of_read {rows : List IntentRow} {node operation : String} {d : ModelVerification.Definition}
    (h : readIntent rows node operation = .ok (some d)) :
    Held rows d ∧ d.validate = .ok () ∧ d.nodeId = node ∧ d.operationId = operation := by
  have hread := h
  simp only [readIntent, bind_ok] at h
  obtain ⟨source, -, h⟩ := h
  split at h
  · cases h
  · rename_i row hrow
    simp only [bind_ok, bailIf_ok, context_ok, pure_ok, not_or, not_not, Option.some.injEq] at h
    obtain ⟨_, -, intent, -, _, hvalid, _, ⟨hnode, hop⟩, rfl⟩ := h
    refine ⟨?_, ?_, hnode, hop⟩
    · unfold Held
      rw [hnode, hop]
      exact hread
    · simp only [Intent.validate, bind_ok] at hvalid
      obtain ⟨_, hd, -⟩ := hvalid
      exact hd

/-- A row of another source changes no reading that found something. -/
theorem Held.insert {rows : List IntentRow} {d : ModelVerification.Definition} (h : Held rows d) (row : IntentRow) :
    Held (rows ++ [row]) d := by
  unfold Held readIntent at h ⊢
  simp only [bind_ok] at h ⊢
  obtain ⟨source, hsource, h⟩ := h
  refine ⟨source, hsource, ?_⟩
  cases hfind : Table.find IntentRow.sourceId source rows with
  | none =>
    rw [hfind] at h
    cases h
  | some r =>
    rw [hfind] at h
    rw [Table.find_insert, hfind, Option.some_or]
    exact h

variable [F64]

/-- What `reserve` does: it finds the same intent, or it adds the row of its own. -/
theorem reserve_ok {rows rows' : List IntentRow} {d : ModelVerification.Definition} {runtime : String}
    {quota : IntentQuota} {now : Nat} {created : Bool}
    (h : reserve rows d runtime quota now = .ok (rows', created)) :
    (created = false ∧ rows' = rows ∧ Held rows d) ∨
      (created = true ∧ readIntent rows d.nodeId d.operationId = .ok none ∧
        (∃ row, rows' = rows ++ [row]) ∧ Held rows' d) := by
  simp only [reserve, bind_ok] at h
  obtain ⟨_, hvalid, found, hread, h⟩ := h
  cases found with
  | some existing =>
    simp only [bind_ok, bailIf_ok, not_not, pure_ok, Prod.mk.injEq] at h
    obtain ⟨_, rfl, rfl, rfl⟩ := h
    exact Or.inl ⟨rfl, rfl, hread⟩
  | none =>
    simp only [bind_ok, bailIf_ok, not_or, not_lt, not_le, pure_ok, Prod.mk.injEq] at h
    obtain ⟨_, ⟨hsize, -⟩, _, -, source, hsource, _, hnone, rfl, rfl⟩ := h
    refine Or.inr ⟨rfl, hread, ⟨_, rfl⟩, ?_⟩
    simp only [ModelVerification.Definition.receipt, bind_ok] at hsource
    obtain ⟨_, -, hsource⟩ := hsource
    have hfind : Table.find IntentRow.sourceId source rows = none := by
      rw [← Option.not_isSome_iff_eq_none]
      exact hnone
    unfold Held readIntent
    simp only [bind_ok]
    refine ⟨source, hsource, ?_⟩
    rw [Table.find_insert, hfind, Option.none_or, if_pos rfl]
    simp only [bind_ok, bailIf_ok, context_ok, pure_ok, not_lt]
    exact ⟨(), hsize, _, rfl, (), hvalid, (), by simp, rfl⟩

end

/-! ## Reports -/

section

variable [Sha256]

/-- What a report keeps on the way. -/
structure Filled (request : Request) (r : Report) : Prop where
  accepted : request.validate = .ok ()
  source : receiptId request.nodeId request.operationId "source" none = .ok r.sourceOperationId
  header : r.schemaVersion = 1 ∧ r.reportType = "coordinator_model_verification" ∧
    r.coordinatorRuntimeId = request.expectedRuntimeId ∧ r.nodeId = request.nodeId ∧
    r.operationId = request.operationId ∧ r.note = Verification.note
  never : r.modelQualityApproved = false ∧ r.currentSetupVerified = false ∧
    r.restartRequested = false ∧ r.automaticallyRetried = false
  definition : ∀ d, r.definition = some d →
    d.validate = .ok () ∧ d.nodeId = request.nodeId ∧ d.operationId = request.operationId
  intent : r.intentRetained = true → r.definition.isSome = true
  grant : r.grantId.isSome = r.executorSessionId.isSome
  granted : r.grantId.isSome = true → r.jobId.isSome = true ∧ r.definition.isSome = true
  evidence : r.evidenceSource.isSome = true → r.grantId.isSome = true
  job : ∀ id, r.jobId = some id → draftId id = true
  ids : ∀ id, r.grantId = some id ∨ r.executorSessionId = some id → uuid id = true
  current : r.historical = true ∨ request.command ≠ .inspect ∧
    ∀ d d', request.command.definition = some d → r.definition = some d' → d' = d
  historical : r.historical = true → r.requested = false
  execution : r.executionRequested = true →
    r.ownerApprovalRequested = true ∧ r.sourcePreparationRequested = true

/-- A report without readiness guidance and returned text. -/
def Report.plain (r : Report) : Prop :=
  r.readinessIssue = none ∧ r.inferenceReturnedText = false ∧ r.success = false

/-- Nothing was retained for the check. -/
def Report.blank (r : Report) : Prop :=
  r.definition = none ∧ r.jobId = none ∧ r.grantId = none ∧ r.executorSessionId = none ∧
    r.evidenceSource = none ∧ r.intentRetained = false ∧ r.requested = false

/-- What the end of a call supplies. -/
structure Concluded (command : Command) (r : Report) : Prop where
  success : r.success = r.state.success
  returned : r.inferenceReturnedText = (r.state == .returnedText)
  unknown : r.outcomeUnknown = (r.state == .unknown || r.state == .unconfirmed)
  guided : r.guided command = true
  ready : r.state = .notReady → r.readinessIssue.isSome = true
  issue : r.intentRetained = true → r.readinessIssue = none
  filled : (r.state = .notFound ∨ r.state = .notReady ∨ r.state = .unconfirmed) ∨
    r.definition.isSome = true ∧
      (r.jobId.isSome = true ∨ r.state = .unknown ∧ r.intentRetained = true)
  blank : r.state = .notFound → r.blank
  text : r.state = .returnedText ∨ r.state = .noText →
    r.grantId.isSome = true ∧ r.evidenceSource.isSome = true ∧ r.definition.isSome = true ∧
      r.jobId.isSome = true

/-- A report that is filled and concluded is confirmed. -/
theorem confirmed_of {request : Request} {r : Report} (h : Filled request r)
    (hend : Concluded request.command r) : confirmed r request = true := by
  obtain ⟨h1, h2, h3, h4, h5, h6⟩ := h.header
  obtain ⟨n1, n2, n3, n4⟩ := h.never
  have hdefinition : (r.definition.all fun d => isOk d.validate && d.nodeId == r.nodeId &&
      d.operationId == r.operationId) = true := by
    rw [Option.all_eq_true]
    intro d hd
    obtain ⟨hvalid, hnode, hop⟩ := h.definition d hd
    simp [hvalid, isOk, hnode, hop, h4, h5]
  have hjob : (r.jobId.all fun id => isOk (validateDraftId id)) = true := by
    rw [Option.all_eq_true]
    intro id hid
    exact isOk_unit.2 (validateDraftId_ok.2 (h.job id hid))
  have hgrant : (r.grantId.all fun id => isOk (validateUuid id)) = true := by
    rw [Option.all_eq_true]
    intro id hid
    exact isOk_unit.2 (validateUuid_ok.2 (h.ids id (Or.inl hid)))
  have hsession : (r.executorSessionId.all fun id => isOk (validateUuid id)) = true := by
    rw [Option.all_eq_true]
    intro id hid
    exact isOk_unit.2 (validateUuid_ok.2 (h.ids id (Or.inr hid)))
  have hcurrent : r.current request.command = true := by
    unfold Report.current
    rcases h.current with hh | ⟨hcommand, hdef⟩
    · rw [hh, Bool.true_or]
    · cases hc : request.command with
      | inspect => exact absurd hc hcommand
      | startSelected a => simp
      | start d a =>
        rw [Bool.or_eq_true, Option.all_eq_true]
        refine Or.inr fun d' hd' => ?_
        rw [hc] at hdef
        exact beq_iff_eq.2 (hdef d d' rfl hd')
  have hinspect : request.command = .inspect → r.requested = false := by
    intro hc
    rcases h.current with hh | ⟨hcommand, -⟩
    · exact h.historical hh
    · exact absurd hc hcommand
  unfold confirmed
  rw [h.source]
  simp only [Bool.and_eq_true, Bool.or_eq_true, Bool.not_eq_true', bne_iff_ne, ne_eq, beq_iff_eq,
    isOk_unit, and_assoc]
  refine ⟨h.accepted, h1, h2, h3, h4, h5, trivial, hend.success, hend.guided, ?_, hend.returned, n1,
    n2, n3, n4, h6, hdefinition, ?_, ?_, ?_, hend.unknown, h.grant, ?_, ?_, ?_, ?_, hcurrent, hjob,
    hgrant, hsession, ?_, ?_, ?_, ?_⟩
  · by_cases hs : r.state = .notReady
    · exact Or.inr (hend.ready hs)
    · exact Or.inl hs
  · rcases hend.filled with (hs | hs | hs) | hs
    · exact Or.inl (Or.inl (Or.inl hs))
    · exact Or.inl (Or.inl (Or.inr hs))
    · exact Or.inl (Or.inr hs)
    · exact Or.inr hs
  · cases hi : r.intentRetained with
    | false => exact Or.inl rfl
    | true =>
      refine Or.inr ⟨h.intent hi, ?_⟩
      rw [hend.issue hi]
      rfl
  · by_cases hs : r.state = .notFound
    · obtain ⟨hd, hj, hg, hx, he, -, -⟩ := hend.blank hs
      refine Or.inr ?_
      rw [hd, hj, hg, hx, he, hend.unknown, hs]
      decide
    · exact Or.inl hs
  · cases hg : r.grantId with
    | none => exact Or.inl rfl
    | some id =>
      refine Or.inr (h.granted ?_)
      rw [hg]
      rfl
  · by_cases hs : r.state = .returnedText ∨ r.state = .noText
    · exact Or.inr (hend.text hs).1
    · exact Or.inl (by simpa using hs)
  · by_cases hs : r.state = .returnedText ∨ r.state = .noText
    · exact Or.inr (hend.text hs).2.1
    · exact Or.inl (by simpa using hs)
  · cases he : r.evidenceSource with
    | none => exact Or.inl rfl
    | some e =>
      refine Or.inr (h.evidence ?_)
      rw [he]
      rfl
  · cases hh : r.historical with
    | false => exact Or.inl rfl
    | true => exact Or.inr (h.historical hh)
  · by_cases hc : request.command = .inspect
    · exact Or.inr (hinspect hc)
    · exact Or.inl hc
  · by_cases hs : r.state = .returnedText
    · obtain ⟨hg, -, hd, hj⟩ := hend.text (Or.inl hs)
      refine Or.inr ⟨?_, hd, hj, hg, ?_, ?_⟩
      · rw [hend.success, hs]
        rfl
      · rw [← h.grant]
        exact hg
      · rw [hend.unknown, hs]
        rfl
    · refine Or.inl ?_
      rw [hend.returned, beq_eq_false_iff_ne]
      exact hs
  · cases he : r.executionRequested with
    | false => exact Or.inl rfl
    | true => exact Or.inr (h.execution he)

/-- A failed report concludes by itself. -/
theorem Filled.failed {request : Request} {r : Report} (h : Filled request r)
    (hissue : r.readinessIssue = none) : confirmed r.failed request = true := by
  have hfilled : Filled request r.failed := by
    obtain ⟨a, b, c, d, e, f, g, i, j, k, l, m, n, o⟩ := h
    exact ⟨a, b, c, d, e, f, g, i, j, k, l, m, n, o⟩
  refine confirmed_of hfilled ⟨rfl, rfl, rfl, ?_, nofun, fun _ => hissue,
    Or.inl (Or.inr (Or.inr rfl)), nofun, by rintro (h | h) <;> cases h⟩
  unfold Report.guided Report.failed
  rw [hissue]

/-- The first report of a call. -/
theorem Filled.initial {runtime source : String} {request : Request}
    (hvalid : request.validate = .ok ()) (hruntime : request.expectedRuntimeId = runtime)
    (hsource : receiptId request.nodeId request.operationId "source" none = .ok source) :
    Filled request (.initial runtime request source) where
  accepted := hvalid
  source := hsource
  header := ⟨rfl, rfl, hruntime.symm, rfl, rfl, rfl⟩
  never := ⟨rfl, rfl, rfl, rfl⟩
  definition := nofun
  intent := nofun
  grant := rfl
  granted := nofun
  evidence := nofun
  job := nofun
  ids _ h := by rcases h with h | h <;> cases h
  current := by
    by_cases hc : request.command = .inspect
    · left
      rw [Report.initial, hc]
      rfl
    · exact Or.inr ⟨hc, nofun⟩
  historical _ := rfl
  execution := nofun

omit [Sha256] in
/-- The initial report is blank. -/
theorem blank_initial (runtime : String) (request : Request) (source : String) :
    (Report.initial runtime request source).blank :=
  ⟨rfl, rfl, rfl, rfl, rfl, rfl, rfl⟩

end

/-! ## What the phases know -/

section

variable [F64] [PeerAdmission] [Sha256] [Pairing] [Planner] [SourceText]

/-- The definition of an intent that the call committed. -/
def Phase.committed : Phase → Option ModelVerification.Definition
  | .prepare d | .prepared d | .saved d _ | .approve d _ | .approved d _ | .check d _ | .execute d
  | .executed d => some d
  | _ => none

/-- How many of the three requests a phase has behind it at most. -/
def Phase.rank : Phase → Nat
  | .intent | .source | .select | .reserve _ | .prepare _ => 0
  | .prepared _ | .saved _ _ | .approve _ _ => 1
  | .approved _ _ | .check _ _ | .execute _ => 2
  | _ => 3

/-- An intent that fits the request. -/
def Fits (request : Request) (d : ModelVerification.Definition) : Prop :=
  d.validate = .ok () ∧ d.nodeId = request.nodeId ∧ d.operationId = request.operationId

/-- The definition is the requested one, if there is one. -/
def Wanted (request : Request) (d : ModelVerification.Definition) : Prop :=
  ∀ d', request.command.definition = some d' → d = d'

/-- A plan that was read has exactly one attempt, and the report names it. -/
def Names (reads : List (Nat × Plan)) (call : Nat) (p : Plan) (a : GrantedAttempt)
    (r : Report) : Prop :=
  (call, p) ∈ reads ∧ (∃ d, fixedSource p = .ok d) ∧
    p.execution.map ExecutionRecord.attempts = some [a] ∧ r.jobId = some p.planId ∧
    r.grantId = some a.grant.grantId ∧ r.executorSessionId = some a.grant.sessionId ∧
    r.definition.isSome = true

/-- What the report of a phase holds already. -/
def Going (rows : List IntentRow) (reads : List (Nat × Plan)) (call : Nat) (request : Request)
    (r : Report) : Phase → Prop
  | .intent | .source => r.blank ∧ r.historical = false ∧ request.command ≠ .inspect
  | .select => r.blank ∧ r.historical = false ∧ ∃ a, request.command = .startSelected a
  | .reserve d => r.blank ∧ r.historical = false ∧ Fits request d ∧ Wanted request d
  | .prepare d | .prepared d | .saved d _ => Held rows d ∧ Fits request d ∧ Wanted request d ∧
      r.historical = false ∧ r.definition = some d ∧ r.sourcePreparationRequested = true ∧
      r.ownerApprovalRequested = false ∧ r.executionRequested = false
  | .approve d _ | .approved d _ | .check d _ | .execute d | .executed d =>
      Held rows d ∧ Fits request d ∧ Wanted request d ∧ r.historical = false ∧
      r.sourcePreparationRequested = true ∧ r.ownerApprovalRequested = true
  | .observe => r.historical = true ∧ r.blank ∨
      ∃ d, Held rows d ∧ Fits request d ∧ (r.historical = true ∨ Wanted request d)
  | .observePlan none => r.historical = true ∧ r.blank
  | .observePlan (some d) => r.intentRetained = true ∧ r.definition = some d ∧
      (r.historical = true ∨ Wanted request d)
  | .observeResult p a => r.state = planState p.status ∧ Names reads call p a r
  | .done => False

/-- Returned text was read from a final report that confirms the grant of the single attempt. -/
def Shown (reads : List (Nat × Plan)) (replies : List (Nat × GrantReport)) (call : Nat)
    (r : Report) : Prop :=
  r.state = .returnedText → ∃ p a f, Names reads call p a r ∧
    (a.finalReport = some f ∨ (call, f) ∈ replies) ∧ reportState a.grant f = .ok .returnedText

/-- A turn hands on what the next phase needs, whichever way it ends. -/
def TurnOk (rows : List IntentRow) (reads : List (Nat × Plan))
    (replies : List (Nat × GrantReport)) (call : Nat) (request : Request) : Turn → Prop
  | (r, .error _) => Filled request r ∧ r.readinessIssue = none
  | (r, .ok .done) => Filled request r ∧ Concluded request.command r ∧
      Shown reads replies call r
  | (r, .ok phase) => Filled request r ∧ r.plain ∧ Going rows reads call request r phase

/-! ## What was read -/

omit [F64] [PeerAdmission] [Pairing] [Planner] [SourceText] in
/-- The definition of a start fits its request. -/
theorem fits_of_requested {request : Request} {d : ModelVerification.Definition} (h : request.validate = .ok ())
    (hd : request.command.definition = some d) : Fits request d := by
  simp only [Request.validate, bind_ok] at h
  obtain ⟨_, -, _, -, _, -, h⟩ := h
  cases hc : request.command with
  | startSelected a =>
    rw [hc] at hd
    cases hd
  | inspect =>
    rw [hc] at hd
    cases hd
  | start d' a =>
    rw [hc] at hd h
    cases hd
    simp only [Command.validate, bind_ok, bailIf_ok, not_or, not_not] at h
    obtain ⟨_, hvalid, -, hnode, hop⟩ := h
    exact ⟨hvalid, hnode, hop⟩

/-- What a fixed source guarantees. -/
theorem fixedSource_ok {p : Plan} {d : ModelVerification.Definition} (h : fixedSource p = .ok d) :
    p.validateReview = .ok () ∧ p.requestReview.isSome = true ∧ d.validate = .ok () := by
  simp only [fixedSource, bind_ok, context_ok, pure_ok] at h
  obtain ⟨_, hreview, draft, hdraft, _, -, input, -, d', hd', _, -, _, hsource, _, -, _, -, rfl⟩ := h
  refine ⟨hreview, by rw [hdraft]; rfl, ?_⟩
  simp only [ModelVerification.Definition.receipt, bind_ok] at hsource
  obtain ⟨_, hvalid, -⟩ := hsource
  exact hvalid

/-- The plan of a check is a job, and its source is that of the check. -/
theorem verificationPlan_ok {jobs : List Plan} {node operation : String} {p : Plan}
    (h : verificationPlan jobs node operation = .ok (some p)) :
    p ∈ jobs ∧ ∃ d, fixedSource p = .ok d ∧ d.nodeId = node ∧ d.operationId = operation := by
  simp only [verificationPlan, bind_ok] at h
  obtain ⟨source, -, h⟩ := h
  split at h
  · cases h
  · rename_i q hq
    simp only [bind_ok, bailIf_ok, pure_ok, not_or, not_not, Option.some.injEq] at h
    obtain ⟨d, hd, _, ⟨hnode, hop⟩, rfl⟩ := h
    have hmem : q ∈ sources jobs node source := by
      rw [hq]
      exact List.mem_cons_self ..
    exact ⟨(List.mem_filter.mp hmem).1, d, hd, hnode, hop⟩
  · cases h

omit [SourceText] in
/-- The single attempt of a reviewed plan has a valid grant. -/
theorem attempt_valid {p : Plan} {a : GrantedAttempt} (h : p.validateReview = .ok ())
    (hreviewed : p.requestReview.isSome = true)
    (ha : p.execution.map ExecutionRecord.attempts = some [a]) : a.grant.Valid := by
  obtain ⟨e, he, hattempts⟩ := Option.map_eq_some_iff.mp ha
  cases hw : e.workload with
  | some w =>
    -- a workload has no attempts
    have hv := Plan.workload_of_review h hreviewed he hw
    obtain ⟨_, _, _, -, -, -, -, -, -, -, hfixed, -⟩ := (Plan.validateWorkload_ok he hw).1 hv
    rw [hfixed.1] at hattempts
    cases hattempts
  | none =>
    obtain ⟨_, _, _, _, -, -, -, -, hx⟩ := Plan.executed_of_review h hreviewed he hw
    have hget : e.attempts[0]? = some a := by
      rw [hattempts]
      rfl
    obtain ⟨t, ht⟩ := hx.task_of hget
    exact ExecutionGrant.validate_ok.1 (hx.granted 0 t a ht hget).valid

/-! ## One turn -/

variable {rows : List IntentRow} {reads : List (Nat × Plan)} {replies : List (Nat × GrantReport)}
  {call : Nat} {request : Request} {r : Report}

omit [F64] [PeerAdmission] [Pairing] [Planner] [SourceText] in
/-- A call that requested nothing may turn historical. -/
theorem Filled.historic (h : Filled request r) (hnone : r.requested = false) :
    Filled request { r with historical := true } :=
  { h with current := Or.inl rfl, historical := fun _ => hnone }

theorem afterIntent_ok (found : Result (Option ModelVerification.Definition)) (h : Filled request r) (hp : r.plain)
    (hg : Going rows reads call request r .intent) :
    TurnOk rows reads replies call request
      (afterIntent request.command.definition found r) := by
  obtain ⟨hblank, hhist, hcommand⟩ := hg
  unfold afterIntent
  split
  · exact ⟨h, hp.1⟩
  · exact ⟨h, hp, hblank, hhist, hcommand⟩
  · split
    · exact ⟨h, hp.1⟩
    · exact ⟨h.historic hblank.2.2.2.2.2.2, hp, Or.inl ⟨rfl, hblank⟩⟩

theorem afterSource_ok (found : Result (Option Plan)) (h : Filled request r) (hp : r.plain)
    (hg : Going rows reads call request r .source) :
    TurnOk rows reads replies call request
      (afterSource request.command.definition found r) := by
  obtain ⟨hblank, hhist, hcommand⟩ := hg
  have hobserve : TurnOk rows reads replies call request
      ({ r with historical := true }, .ok .observe) :=
    ⟨h.historic hblank.2.2.2.2.2.2, hp, Or.inl ⟨rfl, hblank⟩⟩
  unfold afterSource
  split
  · exact ⟨h, hp.1⟩
  · rename_i d hd
    refine ⟨h, hp, hblank, hhist, fits_of_requested h.accepted hd, fun d' hd' => ?_⟩
    rw [hd] at hd'
    cases hd'
    rfl
  · rename_i hnone
    refine ⟨h, hp, hblank, hhist, ?_⟩
    cases hc : request.command with
    | startSelected a => exact ⟨a, rfl⟩
    | start d a =>
      rw [hc] at hnone
      cases hnone
    | inspect => exact absurd hc hcommand
  · split
    · exact ⟨h, hp.1⟩
    · split
      · exact ⟨h, hp.1⟩
      · exact hobserve
  · exact hobserve

theorem afterSelect_ok {selected : Except ReadinessIssue ModelVerification.Definition} (h : Filled request r)
    (hp : r.plain) (hg : Going rows reads call request r .select)
    (hselected : Selected request selected) :
    TurnOk rows reads replies call request (afterSelect selected r) := by
  obtain ⟨hblank, hhist, a, hcommand⟩ := hg
  obtain ⟨hdef, hjob, hgrant, hsession, hevidence, hintent, hrequested⟩ := id hblank
  unfold afterSelect
  split
  · rename_i d
    refine ⟨h, hp, hblank, hhist, hselected d rfl, fun d' hd' => ?_⟩
    rw [hcommand] at hd'
    cases hd'
  · rename_i issue
    refine ⟨?_, ?_, ?_⟩
    · obtain ⟨a, b, c, d, e, f, g, i, j, k, l, m, n, o⟩ := h
      exact ⟨a, b, c, d, e, f, g, i, j, k, l, m, n, o⟩
    · simp only [Report.requested, Bool.or_eq_false_iff] at hrequested
      obtain ⟨⟨hsource, happroval⟩, hexecution⟩ := hrequested
      have hguided : ∀ state, state = (if issue.unconfirmed then State.unconfirmed
          else State.notReady) → Report.guided
            { r with
              readinessIssue := some issue
              state
              outcomeUnknown := issue.unconfirmed } request.command = true := by
        rintro _ rfl
        simp [Report.guided, hcommand, hhist, hdef, hjob, hgrant, hsession, hevidence, hsource,
          happroval, hexecution]
      have hretained : ∀ {q : Prop}, r.intentRetained = true → q := by
        intro q hi
        rw [hintent] at hi
        cases hi
      cases hi : issue.unconfirmed with
      | true =>
        refine ⟨hp.2.2, hp.2.1, rfl, ?_, nofun, hretained, Or.inl (Or.inr (Or.inr rfl)), nofun,
          by rintro (h | h) <;> cases h⟩
        rw [hi] at hguided
        exact hguided _ rfl
      | false =>
        refine ⟨hp.2.2, hp.2.1, rfl, ?_, fun _ => rfl, hretained, Or.inl (Or.inr (Or.inl rfl)),
          nofun, by rintro (h | h) <;> cases h⟩
        rw [hi] at hguided
        exact hguided _ rfl
    · intro hs
      simp only at hs
      split at hs <;> cases hs

theorem afterReserve_ok {rows' : List IntentRow} {d : ModelVerification.Definition} (committed : Result Bool)
    (h : Filled request r) (hp : r.plain) (hg : Going rows reads call request r (.reserve d))
    (hheld : ∀ b, committed = .ok b → Held rows' d) :
    TurnOk rows' reads replies call request (afterReserve d committed r) := by
  obtain ⟨hblank, hhist, hfits, hwanted⟩ := hg
  have hdef : Filled request { r with definition := some d } :=
    { h with
      definition := fun d' hd' => by
        cases hd'
        exact hfits
      intent := fun _ => rfl
      granted := fun hgrant => ⟨(h.granted hgrant).1, rfl⟩
      current := by
        rcases h.current with hh | ⟨hcommand, -⟩
        · exact Or.inl hh
        · refine Or.inr ⟨hcommand, fun d' d'' hd' hd'' => ?_⟩
          cases hd''
          exact hwanted d' hd' }
  obtain ⟨-, -, -, -, -, -, hrequested⟩ := hblank
  unfold afterReserve
  split
  · exact ⟨hdef, hp.1⟩
  · exact ⟨hdef.historic hrequested, hp, Or.inr ⟨d, hheld _ rfl, hfits, Or.inl rfl⟩⟩
  · simp only [Report.requested, Bool.or_eq_false_iff] at hrequested
    obtain ⟨⟨-, happroval⟩, hexecution⟩ := hrequested
    refine ⟨{ hdef with intent := fun _ => rfl, historical := ?_, execution := ?_ }, hp,
      hheld _ rfl, hfits, hwanted, hhist, rfl, rfl, happroval, hexecution⟩
    · intro hh
      rw [show r.historical = false from hhist] at hh
      cases hh
    · intro he
      rw [show r.executionRequested = false from hexecution] at he
      cases he

theorem afterPrepared_ok (runtime : String) {d : ModelVerification.Definition} (reply : Result PrepareReply)
    (h : Filled request r) (hp : r.plain) (hg : Going rows reads call request r (.prepared d)) :
    TurnOk rows reads replies call request (afterPrepared runtime d reply r) := by
  unfold afterPrepared
  split
  · exact ⟨h, hp.1⟩
  · split
    · exact ⟨h, hp.1⟩
    · split
      · exact ⟨h, hp.1⟩
      · exact ⟨h, hp, hg⟩

theorem afterSaved_ok {d : ModelVerification.Definition} {reused : Bool} {found : Result (Option Plan)}
    (h : Filled request r) (hp : r.plain) (hg : Going rows reads call request r (.saved d reused))
    (hjob : ∀ p, found = .ok (some p) → p.requestReview.isSome = true → draftId p.planId = true) :
    TurnOk rows reads replies call request (afterSaved d reused found r) := by
  obtain ⟨hheld, hfits, hwanted, hhist, hdef, hsource, happroval, hexecution⟩ := hg
  unfold afterSaved
  cases hsaved : savedSource d found with
  | error e => exact ⟨h, hp.1⟩
  | ok _ =>
    simp only [savedSource, bind_ok, context_ok, pure_ok] at hsaved
    obtain ⟨_, hfound, p, rfl, d', hd', _, -, rfl⟩ := hsaved
    have hvalid := hjob _ hfound (fixedSource_ok hd').2.1
    have hfilled : Filled request { r with jobId := some p.planId } :=
      { h with
        granted := fun hgrant => ⟨rfl, (h.granted hgrant).2⟩
        job := fun id hid => by
          cases hid
          exact hvalid }
    dsimp only
    split
    · refine ⟨{ hfilled with current := Or.inl rfl, historical := fun _ => ?_, execution := ?_ },
        hp, Or.inr ⟨d, hheld, hfits, Or.inl rfl⟩⟩
      · simp [Report.requested, happroval, hexecution]
      · intro he
        exact absurd hexecution (by rw [show r.executionRequested = true from he]; decide)
    · split
      · exact ⟨hfilled, hp.1⟩
      · refine ⟨{ hfilled with historical := ?_, execution := ?_ }, hp, hheld, hfits, hwanted,
          hhist, hsource, rfl⟩
        · intro hh
          exact absurd hhist (by rw [show r.historical = true from hh]; decide)
        · exact fun _ => ⟨rfl, hsource⟩

theorem afterCheck_ok {d : ModelVerification.Definition} {command : Approve} (found : Result Plan) (now : Nat)
    (h : Filled request r) (hp : r.plain) (hg : Going rows reads call request r (.check d command)) :
    TurnOk rows reads replies call request (afterCheck d command found now r) := by
  obtain ⟨hheld, hfits, hwanted, hhist, hsource, happroval⟩ := hg
  unfold afterCheck
  split
  · exact ⟨h, hp.1⟩
  · split
    · exact ⟨h, hp.1⟩
    · refine ⟨{ h with historical := ?_, execution := fun _ => ⟨happroval, hsource⟩ }, hp, hheld,
        hfits, hwanted, hhist, hsource, happroval⟩
      intro hh
      rw [show r.historical = true from hh] at hhist
      cases hhist

theorem afterCommand_ok (result : Result Unit) {next : Phase} (h : Filled request r)
    (hp : r.plain) (hnext : next ≠ .done) (hg : Going rows reads call request r next) :
    TurnOk rows reads replies call request (afterCommand result next r) := by
  unfold afterCommand
  split
  · exact ⟨h, hp.1⟩
  · cases next with
    | done => exact absurd rfl hnext
    | _ => exact ⟨h, hp, hg⟩

/-! ## Observation -/

theorem observeIntent_ok {found : Result (Option ModelVerification.Definition)} (h : Filled request r)
    (hp : r.plain) (hg : Going rows reads call request r .observe)
    (hfound : Reads found (readIntent rows request.nodeId request.operationId)) :
    TurnOk rows reads replies call request (observeIntent found r) := by
  unfold observeIntent
  split
  · exact ⟨h, hp.1⟩
  · refine ⟨h, hp, ?_⟩
    rcases hfound with hfound | ⟨e, he⟩
    · rcases hg with hg | ⟨d, hheld, ⟨-, hnode, hop⟩, -⟩
      · exact hg
      · -- an intent that stays is found
        unfold Held at hheld
        rw [hnode, hop, ← hfound] at hheld
        cases hheld
    · cases he
  · rename_i d
    have hread : readIntent rows request.nodeId request.operationId = .ok (some d) := by
      rcases hfound with hfound | ⟨e, he⟩
      · exact hfound.symm
      · cases he
    obtain ⟨hheld, hvalid, hnode, hop⟩ := held_of_read hread
    have hcurrent : r.historical = true ∨ Wanted request d := by
      rcases hg with hg | ⟨d', hheld', ⟨-, hnode', hop'⟩, hcurrent⟩
      · exact Or.inl hg.1
      · rw [hheld.unique hheld' (hnode.trans hnode'.symm) (hop.trans hop'.symm)]
        exact hcurrent
    refine ⟨{ h with
      definition := ?_
      intent := fun _ => rfl
      granted := fun hgrant => ⟨(h.granted hgrant).1, rfl⟩
      current := ?_ }, hp, rfl, rfl, hcurrent⟩
    · intro d' hd'
      cases hd'
      exact ⟨hvalid, hnode, hop⟩
    · rcases h.current with hh | ⟨hcommand, -⟩
      · exact Or.inl hh
      · rcases hcurrent with hh | hwanted
        · exact Or.inl hh
        · refine Or.inr ⟨hcommand, fun d' d'' hd' hd'' => ?_⟩
          cases hd''
          exact hwanted d' hd'

/-- A state that an observation ends in. -/
def State.observed (s : State) : Prop :=
  s ≠ .notFound ∧ s ≠ .notReady ∧ s ≠ .unconfirmed

omit [F64] [PeerAdmission] [Sha256] [Pairing] [Planner] [SourceText] in
theorem planState_observed (s : PlanStatus) :
    (planState s).observed ∧ planState s ≠ .returnedText ∧ planState s ≠ .noText := by
  cases s <;> exact ⟨⟨nofun, nofun, nofun⟩, nofun, nofun⟩

omit [F64] [PeerAdmission] [Sha256] [Pairing] [Planner] [SourceText] in
theorem concluded_observed (hp : r.plain) (hstate : r.state.observed)
    (hdef : r.definition.isSome = true) (hjob : r.jobId.isSome = true)
    (htext : r.state = .returnedText ∨ r.state = .noText →
      r.grantId.isSome = true ∧ r.evidenceSource.isSome = true) :
    Concluded request.command r.observed where
  success := rfl
  returned := rfl
  unknown := rfl
  guided := by
    unfold Report.guided Report.observed
    rw [show r.readinessIssue = none from hp.1]
  ready h := absurd h hstate.2.1
  issue _ := hp.1
  filled := Or.inr ⟨hdef, Or.inl hjob⟩
  blank h := absurd h hstate.1
  text h := ⟨(htext h).1, (htext h).2, hdef, hjob⟩

omit [F64] [PeerAdmission] [Pairing] [Planner] [SourceText] in
theorem Filled.observed (h : Filled request r) : Filled request r.observed := by
  obtain ⟨a, b, c, d, e, f, g, i, j, k, l, m, n, o⟩ := h
  exact ⟨a, b, c, d, e, f, g, i, j, k, l, m, n, o⟩

/-- What an observation of the single attempt holds. -/
structure Reported (reads : List (Nat × Plan)) (replies : List (Nat × GrantReport)) (call : Nat)
    (request : Request) (p : Plan) (a : GrantedAttempt) (r : Report) : Prop where
  filled : Filled request r
  plain : r.plain
  names : Names reads call p a r
  state : r.state.observed
  text : r.state = .returnedText ∨ r.state = .noText → r.evidenceSource.isSome = true
  shown : Shown reads replies call r

variable {p : Plan} {a : GrantedAttempt}

theorem Reported.observed (h : Reported reads replies call request p a r) :
    TurnOk rows reads replies call request (r.observed, .ok .done) := by
  obtain ⟨hread, hfixed, hattempts, hjob, hgrant, hsession, hdef⟩ := h.names
  refine ⟨h.filled.observed, concluded_observed h.plain h.state hdef (by rw [hjob]; rfl)
    fun hs => ⟨by rw [hgrant]; rfl, h.text hs⟩, ?_⟩
  exact h.shown

/-- The state of a final report takes the place of what was observed before. -/
theorem Reported.withReport (h : Reported reads replies call request p a r) {f : GrantReport}
    (hf : a.finalReport = some f ∨ (call, f) ∈ replies) {evidence : Evidence} {r' : Report}
    {result : Result Unit} (hwith : withReport a.grant f evidence r = (r', result)) :
    Reported reads replies call request p a r' := by
  unfold Verification.withReport at hwith
  cases hstate : reportState a.grant f with
  | error e =>
    rw [hstate] at hwith
    cases hwith
    exact h
  | ok state =>
    rw [hstate] at hwith
    cases hwith
    have hobserved : state.observed := by
      simp only [reportState, bind_ok, pure_ok] at hstate
      obtain ⟨_, -, _, -, rfl⟩ := hstate
      split <;> (try split) <;> (try split) <;> refine ⟨?_, ?_, ?_⟩ <;> intro hs <;> cases hs
    obtain ⟨hread, hfixed, hattempts, hjob, hgrant, hsession, hdef⟩ := h.names
    refine ⟨{ h.filled with evidence := fun _ => by rw [hgrant]; rfl }, h.plain, h.names, hobserved,
      fun _ => rfl, fun hs => ?_⟩
    rw [show state = .returnedText from hs] at hstate
    exact ⟨p, a, f, h.names, hf, hstate⟩

theorem observeNode_ok (result : Retained) (h : Reported reads replies call request p a r)
    (hreply : ∀ f, result.join = some f → (call, f) ∈ replies) :
    TurnOk rows reads replies call request (observeNode a result r) := by
  unfold observeNode
  split
  · exact h.observed
  · exact ⟨h.filled, h.plain.1⟩
  · rename_i retained
    have hmem := hreply retained rfl
    split
    · rename_i heq
      have := h.withReport (Or.inr hmem) heq
      exact ⟨this.filled, this.plain.1⟩
    · rename_i heq
      exact (h.withReport (Or.inr hmem) heq).observed

/-- Before the reply, the state is that of the plan. -/
theorem Reported.of_going (h : Filled request r) (hp : r.plain)
    (hg : Going rows reads call request r (.observeResult p a)) :
    Reported reads replies call request p a r := by
  obtain ⟨hstate, hnames⟩ := hg
  obtain ⟨hobserved, hreturned, hno⟩ := planState_observed p.status
  refine ⟨h, hp, hnames, by rw [hstate]; exact hobserved, fun hs => ?_, fun hs => ?_⟩
  · rw [hstate] at hs
    rcases hs with hs | hs
    · exact absurd hs hreturned
    · exact absurd hs hno
  · rw [hstate] at hs
    exact absurd hs hreturned

theorem observeResult_ok (result : Result Retained) (h : Filled request r) (hp : r.plain)
    (hg : Going rows reads call request r (.observeResult p a))
    (hreply : ∀ o f, result = .ok o → o.join = some f → (call, f) ∈ replies) :
    TurnOk rows reads replies call request (observeResult a result r) := by
  have hrep : Reported reads replies call request p a r := .of_going h hp hg
  unfold observeResult
  split
  · split
    · exact ⟨h, hp.1⟩
    · rename_i o
      exact observeNode_ok o hrep fun f hf => hreply o f rfl hf
  · rename_i f hfinal
    split
    · rename_i heq
      have := hrep.withReport (Or.inl hfinal) heq
      exact ⟨this.filled, this.plain.1⟩
    · rename_i heq
      have hnext := hrep.withReport (Or.inl hfinal) heq
      split
      · exact observeNode_ok none hnext nofun
      · rename_i o
        exact observeNode_ok o hnext fun f hf => hreply o f rfl hf

theorem observeAttempt_ok {d : ModelVerification.Definition} (h : Filled request r) (hp : r.plain)
    (hstate : r.state = planState p.status) (hread : (call, p) ∈ reads)
    (hfixed : fixedSource p = .ok d)
    (hattempts : p.execution.map ExecutionRecord.attempts = some [a])
    (hjob : r.jobId = some p.planId) (hdef : r.definition.isSome = true) :
    TurnOk rows reads replies call request (observeAttempt p a r) := by
  obtain ⟨hreview, hreviewed, -⟩ := fixedSource_ok hfixed
  have hvalid := attempt_valid hreview hreviewed hattempts
  have hfilled : Filled request { r with
      grantId := some a.grant.grantId
      executorSessionId := some a.grant.sessionId } :=
    { h with
      grant := rfl
      granted := fun _ => ⟨by rw [hjob]; rfl, hdef⟩
      evidence := fun _ => rfl
      ids := by
        rintro id (hid | hid)
        · cases hid
          exact hvalid.grantId
        · cases hid
          exact hvalid.sessionId }
  have hgoing : Going rows reads call request { r with
      grantId := some a.grant.grantId
      executorSessionId := some a.grant.sessionId } (.observeResult p a) :=
    ⟨hstate, hread, ⟨d, hfixed⟩, hattempts, hjob, rfl, rfl, hdef⟩
  unfold observeAttempt
  dsimp only
  split
  · exact ⟨hfilled, hp, hgoing⟩
  · rename_i f hf
    have hfinal : a.finalReport = some f := (Option.filter_eq_some_iff.1 hf).1
    have hrep : Reported reads replies call request p a _ := .of_going hfilled hp hgoing
    split
    · rename_i heq
      have := hrep.withReport (Or.inl hfinal) heq
      exact ⟨this.filled, this.plain.1⟩
    · rename_i heq
      exact (hrep.withReport (Or.inl hfinal) heq).observed

theorem observeSource_ok {intent : Option ModelVerification.Definition} {found : Result (Option Plan)}
    (h : Filled request r) (hp : r.plain)
    (hg : Going rows reads call request r (.observePlan intent))
    (hread : ∀ p, found = .ok (some p) → (call, p) ∈ reads)
    (hjob : ∀ p, found = .ok (some p) → p.requestReview.isSome = true → draftId p.planId = true)
    (hnames : ∀ p d, found = .ok (some p) → fixedSource p = .ok d →
      d.nodeId = request.nodeId ∧ d.operationId = request.operationId) :
    TurnOk rows reads replies call request (observeSource intent found r) := by
  unfold observeSource
  split
  · exact ⟨h, hp.1⟩
  · -- no source: unknown if there is an intent
    have hfilled : ∀ state unknown, Filled request
        { r with state, success := false, outcomeUnknown := unknown } := by
      intro state unknown
      obtain ⟨a, b, c, d, e, f, g, i, j, k, l, m, n, o⟩ := h
      exact ⟨a, b, c, d, e, f, g, i, j, k, l, m, n, o⟩
    have hguided : ∀ state unknown, Report.guided
        { r with state, success := false, outcomeUnknown := unknown } request.command = true := by
      intro state unknown
      unfold Report.guided
      rw [show r.readinessIssue = none from hp.1]
    cases intent with
    | none =>
      refine ⟨hfilled _ _, ⟨rfl, hp.2.1, rfl, hguided _ _, nofun, fun _ => hp.1,
        Or.inl (Or.inl rfl), fun _ => hg.2, by rintro (h | h) <;> cases h⟩, nofun⟩
    | some d =>
      obtain ⟨hintent, hdef, -⟩ := hg
      refine ⟨hfilled _ _, ⟨rfl, hp.2.1, rfl, hguided _ _, nofun, fun _ => hp.1,
        Or.inr ⟨?_, Or.inr ⟨rfl, hintent⟩⟩, nofun, by rintro (h | h) <;> cases h⟩, nofun⟩
      rw [show r.definition = some d from hdef]
      rfl
  · rename_i p
    split
    · exact ⟨h, hp.1⟩
    · rename_i d hfixed
      split
      · exact ⟨h, hp.1⟩
      · rename_i hsame
        obtain ⟨-, hreviewed, hvalid⟩ := fixedSource_ok hfixed
        have hwanted : r.historical = true ∨ Wanted request d := by
          cases intent with
          | none => exact Or.inl hg.1
          | some d' =>
            have : d' = d := by simpa using hsame
            rw [← this]
            exact hg.2.2
        have hfilled : Filled request { r with
            definition := some d
            jobId := some p.planId
            state := planState p.status } :=
          { h with
            definition := fun d' hd' => by
              cases hd'
              exact ⟨hvalid, hnames p d rfl hfixed⟩
            intent := fun _ => rfl
            granted := fun _ => ⟨rfl, rfl⟩
            job := fun id hid => by
              cases hid
              exact hjob p rfl hreviewed
            current := by
              rcases h.current with hh | ⟨hcommand, -⟩
              · exact Or.inl hh
              · rcases hwanted with hh | hwanted
                · exact Or.inl hh
                · refine Or.inr ⟨hcommand, fun d' d'' hd' hd'' => ?_⟩
                  cases hd''
                  exact hwanted d' hd' }
        obtain ⟨hobserved, hreturned, hno⟩ := planState_observed p.status
        have hdone : TurnOk rows reads replies call request
            (Report.observed { r with
              definition := some d
              jobId := some p.planId
              state := planState p.status }, .ok .done) := by
          refine ⟨hfilled.observed, concluded_observed hp hobserved rfl rfl ?_,
            fun hs => absurd hs hreturned⟩
          rintro (hs | hs)
          · exact absurd hs hreturned
          · exact absurd hs hno
        dsimp only
        split
        · exact hdone
        · exact hdone
        · rename_i a hattempts
          exact observeAttempt_ok hfilled hp rfl (hread p rfl) hfixed hattempts rfl rfl
        · exact ⟨hfilled, hp.1⟩

end

end Eef.Coordinator.Verification
