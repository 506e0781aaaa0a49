import Eef.Node.DraftHistory
import Eef.Coordinator.JournalRuns

/-!
# Commands of a request review

`request_drafts.rs` of the coordinator: the node that a request came from answers a question of its
review, revises the proposal, or has it resolved from the answers. Every command carries a receipt,
the id of its own request; one that repeats a receipt of the record is compared with the entry it
was recorded as and changes nothing, and a new one has to name the revision it was made for.

A command is one edit of the journal (`draftCommand_command`), and what it can do to the job is one
of three things (`Advances`).
-/

namespace Eef.Coordinator

open Eef.Lib Eef.Node

/-- The revision that a prepared question names. -/
def preparedRevision (source : Drafts.Fields) : Option Nat :=
  (((Json.obj source).index "evidence").index "source_revision").asUInt 64

/-- The record of a review, as a job keeps it. -/
def retainedDraft (d : Drafts.DraftRecord) : DraftRecord where
  proposals := d.proposals.map (·.operationId)
  answers := d.answers.map (·.operationId)
  sourceRevisions := (d.proposals.filterMap fun r => r.resolution.map (·.sourceRevision.toNat))
    ++ d.proposals.filterMap fun r => r.preparation.bind preparedRevision
  document := d.toJson

namespace Plan

/-- The record of a job's review. -/
def review (p : Plan) : Result Drafts.DraftRecord := do
  let r ← context p.requestReview "Not a durable request review"
  context (Drafts.DraftRecord.fromJson r.document) "Damaged job record; retained for recovery"

theorem review_retained {p : Plan} {d : Drafts.DraftRecord}
    (h : p.requestReview = some (retainedDraft d)) : p.review = .ok d := by
  unfold review
  rw [h]
  show context (Drafts.DraftRecord.fromJson d.toJson) _ = _
  rw [Drafts.DraftRecord.fromJson_toJson]
  rfl

/-- The `owns` of `command`. -/
def ownedBy (p : Plan) (origin : RequestContext) : Bool :=
  p.goal.requestContext.any fun c => c.originNode == origin.originNode

section
variable [F64] [Sha256] [Drafts.Choices]

/-- `report`. -/
def draftReport (p : Plan) (operation : String) (reused : Bool) : Result Json := do
  let d ← p.review
  d.validate
  return .obj [("schema_version", .nat 1), ("report_type", .str "coordinator_request_draft"),
    ("id", .str p.planId), ("revision", .nat p.revision), ("status", .str p.status.name),
    ("operation_id", .str operation),
    ("request_context", .ofOption RequestContext.toJson p.goal.requestContext),
    ("draft", d.toJson), ("review_state", .str d.state), ("reused", .bool reused),
    ("execution_authorized", .bool false), ("dispatched", .bool false), ("persisted", .bool true),
    ("note", .str ("Read-only request inspection; this command issued no grant or execution. "
      ++ "The retained record may include separately requested execution and its receipts."))]

/-- The `Answer` of `command`. -/
def answerDraft (p : Plan) (d : Drafts.DraftRecord) (receipt : String) (revision : UInt64)
    (text : String) (atMs : UInt64) : Result (Option Drafts.DraftRecord) :=
  match Table.find (·.operationId) receipt d.answers with
  | some a => do
    bailIf (a.text ≠ text ∨ (a.source.any fun s => s.revision != revision) = true)
      "Answer receipt conflicts with retained review"
    return none
  | none => do
    bailIf (receipt ∈ d.proposals.map (·.operationId)) "Receipt already belongs to a proposal"
    bailIf (p.status ≠ .review ∨ p.revision ≠ revision.toNat)
      "Draft state or revision changed; inspect it before retrying"
    let question ← context (d.current.bind (·.clarification))
      "This proposal has no clarification question"
    let source ← d.answerSource revision
    return some (d.answer ⟨receipt, UInt64.ofNat (d.proposals.length - 1), question, text, atMs,
      some source⟩)

/-- The `Revise` of `command`, and its `Resolve` with the evidence. -/
def reviseDraft (p : Plan) (d : Drafts.DraftRecord) (receipt : String) (capabilities : List String)
    (revision : UInt64) (text : String) (proposal : Drafts.Proposal)
    (resolution : Option Drafts.ResolutionEvidence) (atMs : UInt64) :
    Result (Option Drafts.DraftRecord) := do
  bailIf (text ≠ d.originalText) "Original request text is immutable"
  match Table.find (·.operationId) receipt d.proposals with
  | some r => do
    bailIf (r.proposal ≠ proposal ∨ r.resolution ≠ resolution ∨ r.preparation.isSome = true)
      "Proposal receipt conflicts with retained review"
    return none
  | none => do
    bailIf (receipt ∈ d.answers.map (·.operationId)) "Receipt already belongs to an answer"
    bailIf (p.status ≠ .review ∨ p.revision ≠ revision.toNat)
      "Draft state or revision changed; inspect it before retrying"
    each (fun e => ensure (e.confirmsSource d)
      "Clarification resolution source changed or has no recorded answer") resolution.toList
    Drafts.validateProposal text proposal capabilities
    return some (d.revise ⟨receipt, proposal, capabilities, atMs, resolution, none⟩)

/-- The record that a command leaves, if it is another. -/
def editDraft (p : Plan) (d : Drafts.DraftRecord) (c : Drafts.DraftCommand) (receipt : String)
    (capabilities : List String) (atMs : UInt64) : Result (Option Drafts.DraftRecord) :=
  match c with
  -- `Get` is not an edit
  | .get _ => .ok none
  | .answer _ revision text => p.answerDraft d receipt revision text atMs
  | .revise _ revision text proposal =>
    p.reviseDraft d receipt capabilities revision text proposal none atMs
  | .resolve _ revision text proposal evidence =>
    p.reviseDraft d receipt capabilities revision text proposal (some evidence) atMs

/-- The closure of `command`. -/
def applyDraft (c : Drafts.DraftCommand) (origin : RequestContext) (capabilities : List String)
    (atMs : UInt64) (p : Plan) : Result (Option Plan) := do
  ensure (p.ownedBy origin = true) "Draft not found for this node"
  let d ← p.review
  d.validate
  match ← p.editDraft d c origin.requestId capabilities atMs with
  | none => return none
  | some e => do
    e.validate
    return some { p with requestReview := some (retainedDraft e) }

end

end Plan

/-- The operation of a draft command. -/
def draftOperation : String → Option String
  | "requests.draft_get" => some "get"
  | "requests.draft_answer" => some "answer"
  | "requests.draft_revise" => some "revise"
  | "requests.draft_resolve" => some "resolve"
  | _ => none

section
variable [F64] [PeerAdmission] [Sha256] [Planner] [Pairing] [ScopeCompiler] [Drafts.Choices]

/-- What `command` reads of its payload. -/
def readDraftCommand (kind : String) (payload : Json) : Result Drafts.DraftCommand := do
  bailIf (payload.isObject = false ∨ (payload.get? "operation").isSome = true
    ∨ 64 * 1024 < payload.size) "Invalid draft command payload"
  let operation ← context (draftOperation kind) "Unsupported draft command"
  let c ← context (Drafts.DraftCommand.fromJson (payload.set "operation" (.str operation)))
    "invalid draft command"
  let _ ← c.submission
  return c

/-- What `open` reads of its payload, as `request_review::review` checked it. -/
structure ReviewOpening where
  originalText : String
  proposal : Drafts.Proposal
  deriving DecidableEq, Repr

/-- `request_review::review`, which reads and checks what `open` reads again. -/
def readOpening (payload : Json) (capabilities : List String) : Result ReviewOpening := do
  bailIf (64 * 1024 < payload.size) "review submission exceeds bounds"
  let fs ← context (payload.struct ["schema_version", "original_text", "proposal"] 3)
    "invalid review submission"
  let version ← context (Json.field fs "schema_version" Drafts.asU32) "invalid review submission"
  let text ← context (Json.field fs "original_text" Json.asStr) "invalid review submission"
  let proposal ← context (Json.field fs "proposal" Drafts.Proposal.fromJson)
    "invalid review submission"
  bailIf (version ≠ 1) "unsupported review schema version"
  Drafts.validateProposal text proposal capabilities
  return ⟨text, proposal⟩

/-- The record that a review begins with. -/
def ReviewOpening.draft (o : ReviewOpening) (origin : RequestContext) (capabilities : List String)
    (atMs : UInt64) : Drafts.DraftRecord where
  schemaVersion := 1
  originalText := o.originalText
  concreteInput := none
  audioSource := none
  proposals := [⟨origin.requestId, o.proposal, capabilities, atMs, none, none⟩]
  answers := []

/-- The job that a review begins with. -/
def ReviewOpening.plan (o : ReviewOpening) (d : Drafts.DraftRecord) (origin : RequestContext)
    (planId : String) : Plan where
  execution := none
  approval := none
  planning := none
  requestReview := some (retainedDraft d)
  planId := planId
  goal := ⟨some origin, o.proposal.goal, "request_review", .obj [], .obj []⟩
  tasks := []
  status := .review
  results := []
  revision := 0
  updatedAtMs := 0
  history := []

namespace Store

/-- `request_drafts::open`, under an id that was just drawn, while the coordinator is `closing` or
not. -/
def openDraft (s : Store) (closing : Bool) (payload : Json) (origin : RequestContext)
    (capabilities : List String) (planId : String) (atMs : UInt64) (now saved : Nat) :
    Result (Store × Json) := do
  validateOperationId origin.requestId
  let o ← readOpening payload capabilities
  let d := o.draft origin capabilities atMs
  d.validate
  bailIf (closing = true) "Coordinator is stopping; no new request review is accepted"
  let (t, admission) ← s.admitRequest (o.plan d origin planId) now saved
  let report ← admission.plan.draftReport origin.requestId admission.reused
  return (t, report)

/-- The edit of `command`, with the job that it returns and whether the receipt was there before. -/
def saveDraft (s : Store) (c : Drafts.DraftCommand) (origin : RequestContext)
    (capabilities : List String) (atMs : UInt64) (now saved : Nat) :
    Result (Store × Plan × Bool) := do
  let p ← s.readJob c.id
  let t ← s.editJob c.id "Origin updated request review" none now saved
    (Plan.applyDraft c origin capabilities atMs)
  match ← p.applyDraft c origin capabilities atMs with
  | none => return (t, p, true)
  | some _ => do
    let row ← context (Table.find (fun row => row.plan.planId) c.id t.jobs) "Job not found"
    return (t, row.plan, false)

/-- The job that a command is about. -/
def runDraft (s : Store) (c : Drafts.DraftCommand) (origin : RequestContext)
    (capabilities : List String) (atMs : UInt64) (now saved : Nat) : Result (Store × Plan × Bool) :=
  match c with
  | .get id => do
    let p ← s.readJob id
    ensure (p.ownedBy origin = true) "Draft not found for this node"
    return (s, p, false)
  | c => s.saveDraft c origin capabilities atMs now saved

/-- `request_drafts::command`. -/
def draftCommand (s : Store) (kind : String) (payload : Json) (origin : RequestContext)
    (capabilities : List String) (atMs : UInt64) (now saved : Nat) : Result (Store × Json) := do
  validateOperationId origin.requestId
  let c ← readDraftCommand kind payload
  let (t, p, reused) ← s.runDraft c origin capabilities atMs now saved
  let report ← p.draftReport origin.requestId reused
  return (t, report)

end Store

/-! ## What one command does -/

variable {d e : Drafts.DraftRecord} {c : Drafts.DraftCommand} {origin : RequestContext}
  {capabilities : List String} {atMs : UInt64}

/-- One entry is added to the record, with what the command asks for. -/
structure Records (p : Plan) (d e : Drafts.DraftRecord) (c : Drafts.DraftCommand)
    (origin : RequestContext) : Prop where
  owned : p.ownedBy origin = true
  reviewed : p.status = .review
  current : c.expectedRevision.map (·.toNat) = some p.revision
  fresh : origin.requestId ∉ d.receipts
  one : (∃ a, e = d.answer a ∧ a.operationId = origin.requestId) ∨
    ∃ r, e = d.revise r ∧ r.operationId = origin.requestId ∧ r.preparation = none
  valid : e.Valid
  asks : c.content.isSome = true
  entry : e.entry origin.requestId = c.content

namespace Plan

variable {p q : Plan}

omit [PeerAdmission] [Planner] [Pairing] [ScopeCompiler] in
theorem answerDraft_some {receipt text : String} {revision : UInt64}
    (h : p.answerDraft d receipt revision text atMs = .ok (some e)) :
    p.status = .review ∧ p.revision = revision.toNat ∧ receipt ∉ d.receipts ∧
      ∃ q, e = d.answer (d.nextAnswer receipt q text revision atMs) := by
  unfold answerDraft at h
  cases hfind : Table.find (·.operationId) receipt d.answers with
  | some a =>
    simp only [hfind, bind_ok, pure_ok] at h
    obtain ⟨_, -, h⟩ := h
    cases h
  | none =>
    simp only [hfind, bind_ok, bailIf_ok, context_ok, pure_ok, not_or, Decidable.not_not] at h
    obtain ⟨_, hnew, _, ⟨hstatus, hrevision⟩, q, -, s, hs, h⟩ := h
    obtain ⟨-, rfl, -⟩ := Drafts.DraftRecord.answerSource_ok.mp hs
    refine ⟨hstatus, hrevision, fun hmem => ?_, q, (Option.some.inj h).symm⟩
    rcases List.mem_append.mp hmem with hmem | hmem
    · exact hnew hmem
    · obtain ⟨a, ha, hkey⟩ := List.mem_map.mp hmem
      exact Table.find_none.mp hfind a ha hkey

omit [PeerAdmission] [Planner] [Pairing] [ScopeCompiler] [Drafts.Choices] in
theorem reviseDraft_some {receipt text : String} {revision : UInt64} {proposal : Drafts.Proposal}
    {resolution : Option Drafts.ResolutionEvidence}
    (h : p.reviseDraft d receipt capabilities revision text proposal resolution atMs =
      .ok (some e)) :
    p.status = .review ∧ p.revision = revision.toNat ∧ receipt ∉ d.receipts ∧
      text = d.originalText ∧
      e = d.revise ⟨receipt, proposal, capabilities, atMs, resolution, none⟩ := by
  unfold reviseDraft at h
  cases hfind : Table.find (·.operationId) receipt d.proposals with
  | some r =>
    simp only [hfind, bind_ok, pure_ok] at h
    obtain ⟨_, -, _, -, h⟩ := h
    cases h
  | none =>
    simp only [hfind, bind_ok, bailIf_ok, pure_ok, not_or, Decidable.not_not] at h
    obtain ⟨_, htext, _, hnew, _, ⟨hstatus, hrevision⟩, _, -, _, -, h⟩ := h
    refine ⟨hstatus, hrevision, fun hmem => ?_, htext, (Option.some.inj h).symm⟩
    rcases List.mem_append.mp hmem with hmem | hmem
    · obtain ⟨r, hr, hkey⟩ := List.mem_map.mp hmem
      exact Table.find_none.mp hfind r hr hkey
    · exact hnew hmem

omit [F64] [PeerAdmission] [Sha256] [Planner] [Pairing] [ScopeCompiler] [Drafts.Choices] in
theorem entry_answer {a : Drafts.ClarificationAnswer} {s : Drafts.AnswerSource}
    (hnew : a.operationId ∉ d.receipts) (hs : a.source = some s) :
    (d.answer a).entry a.operationId = some (.answer s.revision a.text) := by
  have hfound : Table.find (·.operationId) a.operationId (d.answer a).answers = some a :=
    Table.find_insert_self (Drafts.DraftRecord.find_not_mem fun h =>
      hnew (List.mem_append_right _ h))
  unfold Drafts.DraftRecord.entry
  rw [hfound]
  exact congrArg (Option.map _) hs

omit [F64] [PeerAdmission] [Sha256] [Planner] [Pairing] [ScopeCompiler] [Drafts.Choices] in
theorem entry_revise {r : Drafts.ProposalRevision} (hnew : r.operationId ∉ d.receipts)
    (hnone : r.preparation = none) : (d.revise r).entry r.operationId =
      some (.proposal d.originalText r.proposal r.resolution) := by
  have hanswers : Table.find (·.operationId) r.operationId (d.revise r).answers = none :=
    Drafts.DraftRecord.find_not_mem fun h => hnew (List.mem_append_right _ h)
  have hfound : Table.find (·.operationId) r.operationId (d.revise r).proposals = some r :=
    Table.find_insert_self (Drafts.DraftRecord.find_not_mem fun h =>
      hnew (List.mem_append_left _ h))
  unfold Drafts.DraftRecord.entry
  rw [hanswers, hfound]
  show (if r.preparation.isSome = true then none else _) = _
  rw [hnone]
  rfl

omit [PeerAdmission] [Planner] [Pairing] [ScopeCompiler] in
/-- A command that changes the record adds one entry, for the revision that it was made for. -/
theorem editDraft_some (howned : p.ownedBy origin = true) (he : e.Valid)
    (h : p.editDraft d c origin.requestId capabilities atMs = .ok (some e)) :
    Records p d e c origin := by
  have hrevised : ∀ {revision : UInt64} {text : String} {proposal : Drafts.Proposal}
      {resolution : Option Drafts.ResolutionEvidence}, c.expectedRevision = some revision →
      c.content = some (.proposal text proposal resolution) →
      p.reviseDraft d origin.requestId capabilities revision text proposal resolution atMs =
        .ok (some e) → Records p d e c origin := by
    intro revision text proposal resolution hexpected hcontent hedit
    obtain ⟨hstatus, hrevision, hnew, htext, rfl⟩ := reviseDraft_some hedit
    refine ⟨howned, hstatus, ?_, hnew, .inr ⟨_, rfl, rfl, rfl⟩, he, ?_, ?_⟩
    · rw [hexpected, Option.map_some, hrevision]
    · rw [hcontent]
      rfl
    · rw [hcontent, htext]
      exact entry_revise (r := ⟨origin.requestId, proposal, capabilities, atMs, resolution, none⟩)
        hnew rfl
  cases c with
  | get id => cases h
  | answer id revision text =>
    obtain ⟨hstatus, hrevision, hnew, question, rfl⟩ := answerDraft_some h
    refine ⟨howned, hstatus, ?_, hnew, .inl ⟨_, rfl, rfl⟩, he, rfl, ?_⟩
    · rw [hrevision]
      rfl
    · exact entry_answer (a := ⟨origin.requestId, _, question, text, atMs, _⟩) hnew rfl
  | revise id revision text proposal => exact hrevised rfl rfl h
  | resolve id revision text proposal evidence => exact hrevised rfl rfl h

omit [PeerAdmission] [Planner] [Pairing] [ScopeCompiler] in
theorem applyDraft_some (hd : p.requestReview = some (retainedDraft d))
    (h : p.applyDraft c origin capabilities atMs = .ok (some q)) :
    ∃ e, Records p d e c origin ∧ q = { p with requestReview := some (retainedDraft e) } := by
  simp only [applyDraft, review_retained hd, bind_ok, ensure_ok, Except.ok.injEq] at h
  obtain ⟨_, howned, _, rfl, _, -, edited, hedit, h⟩ := h
  cases edited with
  | none =>
    rw [pure_ok] at h
    cases h
  | some e =>
    simp only [bind_ok, pure_ok, Option.some.injEq] at h
    obtain ⟨_, he, rfl⟩ := h
    exact ⟨e, editDraft_some howned (Drafts.DraftRecord.validate_iff.mp he) hedit, rfl⟩

end Plan

namespace Store

variable {s t : Store} {p q : Plan} {id event : String} {now saved : Nat} {reused : Bool}
  {f : Plan → Result (Option Plan)}

/-- A job of the journal. -/
def job (s : Store) (id : String) : Option Plan :=
  (Table.find (fun row => row.plan.planId) id s.jobs).map (·.plan)

omit [Drafts.Choices] in
theorem readJob_ok (h : s.readJob id = .ok p) : s.job id = some p ∧ p.planId = id := by
  simp only [readJob, bind_ok, context_ok, pure_ok] at h
  obtain ⟨row, hfind, _, -, _, -, rfl⟩ := h
  refine ⟨?_, (Table.find_some hfind).2⟩
  rw [job, hfind]
  rfl

omit [Drafts.Choices] in
theorem editJob_none (hread : s.readJob id = .ok p) (hf : f p = .ok none) :
    s.editJob id event none now saved f = .ok s := by
  unfold editJob
  rw [hread, ok_bind]
  show (f p >>= _) = _
  rw [hf]
  rfl

omit [Drafts.Choices] in
theorem editJob_some (hread : s.readJob id = .ok p) (hf : f p = .ok (some q))
    (h : s.editJob id event none now saved f = .ok t) :
    ∃ history, s.updateJob (q.stamped saved history) = .ok t := by
  have hcommitted : ∃ q', p.commit q event saved = .ok q' ∧ s.updateJob q' = .ok t := by
    unfold editJob at h
    simp only [hread, ok_bind, hf] at h
    split at h
    · split at h
      · simp only [bind_ok] at h
        obtain ⟨_, -, q', hcommit, _, -, hupdate⟩ := h
        exact ⟨q', hcommit, hupdate⟩
      · simp only [bind_ok] at h
        obtain ⟨q', hcommit, _, -, hupdate⟩ := h
        exact ⟨q', hcommit, hupdate⟩
    · simp only [bind_ok] at h
      obtain ⟨q', hcommit, _, -, hupdate⟩ := h
      exact ⟨q', hcommit, hupdate⟩
  obtain ⟨q', hcommit, hupdate⟩ := hcommitted
  simp only [Plan.commit, bind_ok, pure_ok] at hcommit
  obtain ⟨_, -, _, -, _, hstamp, _, -, rfl⟩ := hcommit
  obtain ⟨-, history, rfl⟩ := Plan.stamp_ok hstamp
  exact ⟨history, hupdate⟩

/-- A job under review, with its record. -/
structure Reviewing (s : Store) (id : String) (p : Plan) (d : Drafts.DraftRecord) : Prop where
  found : s.job id = some p
  review : p.requestReview = some (retainedDraft d)

omit [PeerAdmission] [Sha256] [Planner] [Pairing] [ScopeCompiler] [Drafts.Choices] in
/-- The saved job takes the place of the one with its id. -/
theorem job_update (h : s.updateJob q = .ok t) (id : String) :
    t.job id = if id = q.planId then (s.job id).map fun _ => q else s.job id := by
  have hjobs : t.jobs = Table.update (fun e => e.plan.planId == q.planId) (fun _ => ⟨q, q.reserve⟩)
      s.jobs := by rw [updateJob_ok h]
  have hreplaced := @Table.find_replace _ _ _ (fun e : JobRow => e.plan.planId) ⟨q, q.reserve⟩ id
    s.jobs
  unfold job
  rw [hjobs, hreplaced]
  by_cases hid : id = q.planId
  · rw [if_pos hid, if_pos hid, Option.map_map, Option.map_map]
    rfl
  · rw [if_neg hid, if_neg hid]

/-- The job with its next record, as it is saved. -/
def recorded (p : Plan) (e : Drafts.DraftRecord) (saved : Nat) (history : List JobEvent) : Plan :=
  Plan.stamped { p with requestReview := some (retainedDraft e) } saved history

/-- What an edit leaves: the journal as it was, or one more entry in the record of its job, at the
next revision. -/
theorem saveDraft_ok (hs : s.Reviewing c.id p d)
    (h : s.saveDraft c origin capabilities atMs now saved = .ok (t, q, reused)) :
    p.applyDraft c origin capabilities atMs = .ok none ∧ t = s ∧ q = p ∧ reused = true ∨
      reused = false ∧ ∃ e history, Records p d e c origin ∧ q = recorded p e saved history ∧
        s.updateJob q = .ok t := by
  simp only [saveDraft, bind_ok] at h
  obtain ⟨p', hread, u, hedit, edited, happly, h⟩ := h
  obtain ⟨hjob, hid⟩ := readJob_ok hread
  obtain rfl : p = p' := Option.some.inj (hs.found.symm.trans hjob)
  cases edited with
  | none =>
    rw [editJob_none hread happly] at hedit
    cases hedit
    rw [pure_ok] at h
    cases h
    exact .inl ⟨happly, rfl, rfl, rfl⟩
  | some p' =>
    obtain ⟨e, hrecords, rfl⟩ := Plan.applyDraft_some hs.review happly
    obtain ⟨history, hsaved⟩ := editJob_some hread happly hedit
    have hupdate : s.updateJob (recorded p e saved history) = .ok u := hsaved
    simp only [bind_ok, context_ok, pure_ok] at h
    obtain ⟨row, hrow, h⟩ := h
    cases h
    have hfound := job_update hupdate c.id
    rw [if_pos (show c.id = (recorded p e saved history).planId from hid.symm), hs.found, job, hrow]
      at hfound
    obtain hplan : row.plan = recorded p e saved history := Option.some.inj hfound
    rw [hplan]
    exact .inr ⟨rfl, e, history, hrecords, rfl, hupdate⟩

omit [PeerAdmission] [Planner] [Pairing] [ScopeCompiler] in
/-- The job stays the same job. -/
theorem applyDraft_keeps : KeepsRequest (Plan.applyDraft c origin capabilities atMs) := by
  intro p q happly
  simp only [Plan.applyDraft, bind_ok] at happly
  obtain ⟨_, -, d, -, _, -, edited, -, happly⟩ := happly
  cases edited with
  | none =>
    rw [pure_ok] at happly
    cases happly
  | some e =>
    simp only [bind_ok, pure_ok, Option.some.injEq] at happly
    obtain ⟨_, -, rfl⟩ := happly
    exact ⟨rfl, rfl⟩

/-- A command is an edit of the journal, or leaves it as it was. -/
theorem saveDraft_command
    (h : s.saveDraft c origin capabilities atMs now saved = .ok (t, q, reused)) : s.Command t := by
  simp only [saveDraft, bind_ok] at h
  obtain ⟨p, -, u, hedit, edited, -, h⟩ := h
  cases edited with
  | none =>
    rw [pure_ok] at h
    cases h
    exact .edit _ _ _ _ _ _ applyDraft_keeps hedit
  | some p' =>
    simp only [bind_ok, pure_ok] at h
    obtain ⟨row, -, h⟩ := h
    cases h
    exact .edit _ _ _ _ _ _ applyDraft_keeps hedit

theorem draftCommand_ok {kind : String} {payload report : Json}
    (h : s.draftCommand kind payload origin capabilities atMs now saved = .ok (t, report)) :
    ∃ c, validateOperationId origin.requestId = .ok () ∧ readDraftCommand kind payload = .ok c ∧
      (c.content = none ∧ t = s ∨ c.content.isSome = true ∧ ∃ q reused,
        s.saveDraft c origin capabilities atMs now saved = .ok (t, q, reused) ∧
        q.draftReport origin.requestId reused = .ok report) := by
  simp only [draftCommand, bind_ok, pure_ok] at h
  obtain ⟨_, hid, c, hread, ⟨u, q, reused⟩, hrun, r, hreport, h⟩ := h
  cases h
  refine ⟨c, hid, hread, ?_⟩
  cases c with
  | get id =>
    simp only [runDraft, bind_ok, pure_ok] at hrun
    obtain ⟨_, -, _, -, hrun⟩ := hrun
    cases hrun
    exact .inl ⟨rfl, rfl⟩
  | answer id revision text => exact .inr ⟨rfl, q, reused, hrun, hreport⟩
  | revise id revision text proposal => exact .inr ⟨rfl, q, reused, hrun, hreport⟩
  | resolve id revision text proposal evidence => exact .inr ⟨rfl, q, reused, hrun, hreport⟩

theorem draftCommand_command {kind : String} {payload report : Json}
    (h : s.draftCommand kind payload origin capabilities atMs now saved = .ok (t, report)) :
    t = s ∨ s.Command t := by
  obtain ⟨c, -, -, ⟨-, rfl⟩ | ⟨-, q, reused, hsave, -⟩⟩ := draftCommand_ok h
  · exact .inl rfl
  · exact .inr (saveDraft_command hsave)

/-- A new review begins with the proposal that it was opened with, at the first revision. -/
theorem openDraft_ok {closing : Bool} {payload report : Json} {planId : String}
    (hnew : s.job planId = none)
    (h : s.openDraft closing payload origin capabilities planId atMs now saved = .ok (t, report)) :
    t = s ∨ s.Command t ∧ ∃ o p, readOpening payload capabilities = .ok o ∧
      (o.draft origin capabilities atMs).Valid ∧ p.revision = 1 ∧ p.status = .review ∧
      p.goal.requestContext = some origin ∧
      t.Reviewing planId p (o.draft origin capabilities atMs) := by
  simp only [openDraft, bind_ok] at h
  obtain ⟨_, -, o, hread, _, hvalid, _, -, ⟨u, admission⟩, hadmit, _, -, h⟩ := h
  rw [pure_ok] at h
  cases h
  have hcommand : s.Command u := .request _ _ _ hadmit
  simp only [admitRequest, bind_ok] at hadmit
  obtain ⟨_, -, _, -, _, -, found, -, hadmit⟩ := hadmit
  cases found with
  | some existing =>
    simp only [bind_ok, pure_ok] at hadmit
    obtain ⟨_, -, hadmit⟩ := hadmit
    cases hadmit
    exact .inl rfl
  | none =>
    simp only [bind_ok, pure_ok] at hadmit
    obtain ⟨⟨v, q⟩, hinsert, hadmit⟩ := hadmit
    cases hadmit
    simp only [insertJob, bind_ok, pure_ok] at hinsert
    obtain ⟨_, -, _, -, _, -, _, -, q', hstamp, _, -, _, -, _, -, hinsert⟩ := hinsert
    cases hinsert
    obtain ⟨-, history, rfl⟩ := Plan.stamp_ok hstamp
    refine .inr ⟨hcommand, o,
      (o.plan (o.draft origin capabilities atMs) origin planId).stamped saved history, hread,
      Drafts.DraftRecord.validate_iff.mp hvalid, rfl, rfl, rfl, ?_, rfl⟩
    unfold job at hnew ⊢
    rw [Table.find_insert, Option.map_eq_none_iff.mp hnew, Option.none_or]
    exact congrArg (Option.map _) (if_pos rfl)

end Store

end

end Eef.Coordinator
