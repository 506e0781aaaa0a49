import Eef.Node.Pipeline

/-!
# The record of a request review

`request_drafts.rs`, with what it uses of `interpretation.rs` and `request_resolution.rs`: a request
is kept with every proposal that was made for it and every answer to a question of a proposal. An
answer says from which proposals and answers it was given, and a proposal that resolves a question
says from which ones it was made, by their numbers and a digest. `DraftRecord.validate` rebuilds
that part of the record for each of them and compares.

What a concrete input, a typed audio source and a prepared question are, is checked elsewhere; they
are documents here (`Choices`).
-/

namespace Eef.Node.Drafts

open Eef.Lib

/-- The fields of a document that is not read here. -/
abbrev Fields := List (String × Json)

def asFields : Json → Option Fields
  | .obj fields => some fields
  | _ => none

/-- A `u32`, and a `u64` or `usize`, as `serde_json` reads it. -/
def asU32 (j : Json) : Option UInt32 := (j.asUInt 32).map UInt32.ofNat

@[inherit_doc asU32]
def asU64 (j : Json) : Option UInt64 := (j.asUInt 64).map UInt64.ofNat

/-- A field that `skip_serializing_if = "Option::is_none"` leaves out. -/
def present {α : Type} (key : String) (f : α → Json) : Option α → Fields
  | none => []
  | some a => [(key, f a)]

def strings (xs : List String) : Json := .arr (xs.map .str)

/-! ## Proposals -/

inductive Intent where
  | information
  | action
  | conversation
  | unknown
  deriving DecidableEq, Repr

inductive Workload where
  | oneShot
  | continuous
  | unknown
  deriving DecidableEq, Repr

inductive Complexity where
  | simple
  | moderate
  | complex
  | unknown
  deriving DecidableEq, Repr

def Intent.name : Intent → String
  | information => "information"
  | action => "action"
  | conversation => "conversation"
  | unknown => "unknown"

def Intent.ofName : String → Option Intent
  | "information" => some information
  | "action" => some action
  | "conversation" => some conversation
  | "unknown" => some unknown
  | _ => none

def Workload.name : Workload → String
  | oneShot => "one_shot"
  | continuous => "continuous"
  | unknown => "unknown"

def Workload.ofName : String → Option Workload
  | "one_shot" => some oneShot
  | "continuous" => some continuous
  | "unknown" => some unknown
  | _ => none

def Complexity.name : Complexity → String
  | simple => "simple"
  | moderate => "moderate"
  | complex => "complex"
  | unknown => "unknown"

def Complexity.ofName : String → Option Complexity
  | "simple" => some simple
  | "moderate" => some moderate
  | "complex" => some complex
  | "unknown" => some unknown
  | _ => none

/-- `interpretation::Proposal`. -/
structure Proposal where
  schemaVersion : UInt32
  intent : Intent
  goal : String
  contextHints : List String
  constraints : List String
  suggestedCapabilities : List String
  complexity : Complexity
  workload : Workload
  needsClarification : Bool
  clarification : Option String
  deriving DecidableEq, Repr

namespace Proposal

/-- Derived `Serialize`. -/
def toJson (p : Proposal) : Json :=
  .obj [("schema_version", .nat p.schemaVersion.toNat), ("intent", .str p.intent.name),
    ("goal", .str p.goal), ("context_hints", strings p.contextHints),
    ("constraints", strings p.constraints),
    ("suggested_capabilities", strings p.suggestedCapabilities),
    ("complexity", .str p.complexity.name), ("workload", .str p.workload.name),
    ("needs_clarification", .bool p.needsClarification),
    ("clarification", .ofOption .str p.clarification)]

/-- `required_nullable_question`: `null`, but not absent. -/
def question : Json → Option (Option String)
  | .null => some none
  | .str s => some (some s)
  | _ => none

/-- Derived `Deserialize`. -/
def fromJson (j : Json) : Option Proposal := do
  let fs ← j.struct ["schema_version", "intent", "goal", "context_hints", "constraints",
    "suggested_capabilities", "complexity", "workload", "needs_clarification", "clarification"] 10
  let schemaVersion ← Json.field fs "schema_version" asU32
  let intent ← Json.field fs "intent" fun v => v.asVariant.bind Intent.ofName
  let goal ← Json.field fs "goal" Json.asStr
  let contextHints ← Json.field fs "context_hints" (Json.asList Json.asStr)
  let constraints ← Json.field fs "constraints" (Json.asList Json.asStr)
  let suggestedCapabilities ← Json.field fs "suggested_capabilities" (Json.asList Json.asStr)
  let complexity ← Json.field fs "complexity" fun v => v.asVariant.bind Complexity.ofName
  let workload ← Json.field fs "workload" fun v => v.asVariant.bind Workload.ofName
  let needsClarification ← Json.field fs "needs_clarification" Json.asBool
  let clarification ← Json.field fs "clarification" question
  return ⟨schemaVersion, intent, goal, contextHints, constraints, suggestedCapabilities, complexity,
    workload, needsClarification, clarification⟩

end Proposal

/-- `text_bound`: a text that is not blank and has no controls but newlines and tabs. -/
def textBound (value : String) (maximum : Nat) (msg : String) : Result Unit :=
  bailIf (value.toList.all isWhitespace = true ∨ maximum < value.utf8ByteSize
    ∨ (value.toList.any fun c => isControl c && !(c == '\n' || c == '\r' || c == '\t')) = true) msg

/-- `validate_answer`. -/
def validateAnswer (text : String) : Result Unit :=
  textBound text 8192 "clarification answer must contain 1-8192 bytes without unsupported controls"

/-- `capability_set`. -/
def capabilitySet (values : List String) (msg : String) : Result Unit :=
  ensure (values.length ≤ 64 ∧ values.Nodup ∧ ∀ v ∈ values, identifier v = true) msg

/-- `MAX_INPUT_BYTES`. -/
def maxInputBytes : Nat := 32 * 1024

/-- `MAX_PROPOSAL_BYTES`. -/
def maxProposalBytes : Nat := 16 * 1024

/-- `MAX_HINTS`. -/
def maxHints : Nat := 8

/-- The hints of a proposal. -/
def validateHints (hints : List String) : Result Unit := do
  bailIf (maxHints < hints.length) "interpretation hints are invalid"
  each (fun hint => textBound hint 256 "interpretation hints are invalid") hints

/-- The question and whether one is needed. -/
def Proposal.consistent (p : Proposal) : Prop :=
  p.needsClarification = p.clarification.isSome
    ∧ (p.intent = .unknown → p.needsClarification = true)
    ∧ (p.workload = .unknown → p.needsClarification = true)

instance (p : Proposal) : Decidable p.consistent := inferInstanceAs (Decidable (_ ∧ _))

section
variable [F64]

/-- `validate_with_cap_limit`, of the text that `output` is written as. -/
def validateWithCapLimit (originalText : String) (output : Json) (allowed : List String)
    (capLimit : Nat) : Result Unit := do
  textBound originalText maxInputBytes "interpretation input is invalid"
  bailIf (maxProposalBytes < output.size) "interpretation proposal is oversized"
  capabilitySet allowed "interpretation capability context is invalid"
  let p ← context (Proposal.fromJson output) "invalid interpretation proposal schema"
  bailIf (p.schemaVersion ≠ 1) "unsupported interpretation schema version"
  textBound p.goal 2048 "interpretation goal is invalid"
  validateHints p.contextHints
  validateHints p.constraints
  ensure (p.suggestedCapabilities.length ≤ capLimit ∧ p.suggestedCapabilities.Nodup
    ∧ ∀ c ∈ p.suggestedCapabilities, c ∈ allowed)
    "interpretation capability suggestions are invalid"
  each (fun q => textBound q 1024 "interpretation clarification question is invalid")
    p.clarification.toList
  ensure p.consistent "uncertain interpretation needs an explicit clarification question"

/-- `interpretation::validate`. -/
def validateProposal (originalText : String) (p : Proposal) (allowed : List String) : Result Unit :=
  validateWithCapLimit originalText p.toJson allowed maxHints

end

/-! ## Evidence -/

/-- `ResolutionEvidence`. -/
structure ResolutionEvidence where
  schemaVersion : UInt32
  sourceRevision : UInt64
  sourceSha256 : String
  sourceProposalCount : UInt64
  sourceAnswerCount : UInt64
  backend : String
  modelId : String
  deriving DecidableEq, Repr

namespace ResolutionEvidence

def toJson (e : ResolutionEvidence) : Json :=
  .obj [("schema_version", .nat e.schemaVersion.toNat),
    ("source_revision", .nat e.sourceRevision.toNat), ("source_sha256", .str e.sourceSha256),
    ("source_proposal_count", .nat e.sourceProposalCount.toNat),
    ("source_answer_count", .nat e.sourceAnswerCount.toNat), ("backend", .str e.backend),
    ("model_id", .str e.modelId)]

def fromJson (j : Json) : Option ResolutionEvidence := do
  let fs ← j.struct ["schema_version", "source_revision", "source_sha256", "source_proposal_count",
    "source_answer_count", "backend", "model_id"] 7
  let schemaVersion ← Json.field fs "schema_version" asU32
  let sourceRevision ← Json.field fs "source_revision" asU64
  let sourceSha256 ← Json.field fs "source_sha256" Json.asStr
  let sourceProposalCount ← Json.field fs "source_proposal_count" asU64
  let sourceAnswerCount ← Json.field fs "source_answer_count" asU64
  let backend ← Json.field fs "backend" Json.asStr
  let modelId ← Json.field fs "model_id" Json.asStr
  return ⟨schemaVersion, sourceRevision, sourceSha256, sourceProposalCount, sourceAnswerCount,
    backend, modelId⟩

/-- `ResolutionEvidence::validate`. -/
def validate (e : ResolutionEvidence) : Result Unit :=
  bailIf (e.schemaVersion ≠ 1 ∨ e.sourceRevision.toNat = 0 ∨ e.sourceRevision.toNat = 2 ^ 64 - 1
      ∨ e.sourceProposalCount.toNat = 0 ∨ 16 < e.sourceProposalCount.toNat
      ∨ e.sourceAnswerCount.toNat = 0 ∨ 16 < e.sourceAnswerCount.toNat
      ∨ e.sourceRevision.toNat < e.sourceProposalCount.toNat + e.sourceAnswerCount.toNat
      ∨ hexDigest e.sourceSha256 = false ∨ e.backend ∉ ["ollama", "llamacpp"]
      ∨ e.modelId.toList.all isWhitespace = true ∨ 256 < e.modelId.utf8ByteSize
      ∨ e.modelId.toList.any isControl = true) "invalid clarification resolution evidence"

end ResolutionEvidence

/-- `AnswerSource`. -/
structure AnswerSource where
  schemaVersion : UInt32
  revision : UInt64
  sha256 : String
  proposalCount : UInt64
  answerCount : UInt64
  deriving DecidableEq, Repr

namespace AnswerSource

def toJson (s : AnswerSource) : Json :=
  .obj [("schema_version", .nat s.schemaVersion.toNat), ("revision", .nat s.revision.toNat),
    ("sha256", .str s.sha256), ("proposal_count", .nat s.proposalCount.toNat),
    ("answer_count", .nat s.answerCount.toNat)]

def fromJson (j : Json) : Option AnswerSource := do
  let fs ← j.struct ["schema_version", "revision", "sha256", "proposal_count", "answer_count"] 5
  let schemaVersion ← Json.field fs "schema_version" asU32
  let revision ← Json.field fs "revision" asU64
  let sha256 ← Json.field fs "sha256" Json.asStr
  let proposalCount ← Json.field fs "proposal_count" asU64
  let answerCount ← Json.field fs "answer_count" asU64
  return ⟨schemaVersion, revision, sha256, proposalCount, answerCount⟩

end AnswerSource

/-! ## The record -/

/-- `ProposalRevision`. -/
structure ProposalRevision where
  operationId : String
  proposal : Proposal
  allowedCapabilities : List String
  atMs : UInt64
  resolution : Option ResolutionEvidence
  preparation : Option Fields
  deriving DecidableEq, Repr

namespace ProposalRevision

def toJson (r : ProposalRevision) : Json :=
  .obj ([("operation_id", .str r.operationId), ("proposal", r.proposal.toJson),
    ("allowed_capabilities", strings r.allowedCapabilities), ("at_ms", .nat r.atMs.toNat)]
    ++ present "resolution" ResolutionEvidence.toJson r.resolution
    ++ present "preparation" Json.obj r.preparation)

def fromJson (j : Json) : Option ProposalRevision := do
  let fs ← j.struct ["operation_id", "proposal", "allowed_capabilities", "at_ms", "resolution",
    "preparation"] 4
  let operationId ← Json.field fs "operation_id" Json.asStr
  let proposal ← Json.field fs "proposal" Proposal.fromJson
  let allowedCapabilities ← Json.field fs "allowed_capabilities" (Json.asList Json.asStr)
  let atMs ← Json.field fs "at_ms" asU64
  let resolution ← Json.optField fs "resolution" ResolutionEvidence.fromJson
  let preparation ← Json.optField fs "preparation" asFields
  return ⟨operationId, proposal, allowedCapabilities, atMs, resolution, preparation⟩

end ProposalRevision

/-- `ClarificationAnswer`. -/
structure ClarificationAnswer where
  operationId : String
  proposalIndex : UInt64
  question : String
  text : String
  atMs : UInt64
  source : Option AnswerSource
  deriving DecidableEq, Repr

namespace ClarificationAnswer

def toJson (a : ClarificationAnswer) : Json :=
  .obj ([("operation_id", .str a.operationId), ("proposal_index", .nat a.proposalIndex.toNat),
    ("question", .str a.question), ("text", .str a.text), ("at_ms", .nat a.atMs.toNat)]
    ++ present "source" AnswerSource.toJson a.source)

def fromJson (j : Json) : Option ClarificationAnswer := do
  let fs ← j.struct ["operation_id", "proposal_index", "question", "text", "at_ms", "source"] 5
  let operationId ← Json.field fs "operation_id" Json.asStr
  let proposalIndex ← Json.field fs "proposal_index" asU64
  let question ← Json.field fs "question" Json.asStr
  let text ← Json.field fs "text" Json.asStr
  let atMs ← Json.field fs "at_ms" asU64
  let source ← Json.optField fs "source" AnswerSource.fromJson
  return ⟨operationId, proposalIndex, question, text, atMs, source⟩

end ClarificationAnswer

/-- `DraftRecord`. -/
structure DraftRecord where
  schemaVersion : UInt32
  originalText : String
  concreteInput : Option Fields
  audioSource : Option Fields
  proposals : List ProposalRevision
  answers : List ClarificationAnswer
  deriving DecidableEq, Repr

namespace DraftRecord

def toJson (d : DraftRecord) : Json :=
  .obj ([("schema_version", .nat d.schemaVersion.toNat), ("original_text", .str d.originalText)]
    ++ present "concrete_input" Json.obj d.concreteInput
    ++ present "audio_source" Json.obj d.audioSource
    ++ [("proposals", .arr (d.proposals.map ProposalRevision.toJson)),
      ("answers", .arr (d.answers.map ClarificationAnswer.toJson))])

def fromJson (j : Json) : Option DraftRecord := do
  let fs ← j.struct ["schema_version", "original_text", "concrete_input", "audio_source",
    "proposals", "answers"] 6
  let schemaVersion ← Json.field fs "schema_version" asU32
  let originalText ← Json.field fs "original_text" Json.asStr
  let concreteInput ← Json.optField fs "concrete_input" asFields
  let audioSource ← Json.optField fs "audio_source" asFields
  let proposals ← Json.field fs "proposals" (Json.asList ProposalRevision.fromJson)
  let answers ← Json.field fs "answers" (Json.asList ClarificationAnswer.fromJson)
  return ⟨schemaVersion, originalText, concreteInput, audioSource, proposals, answers⟩

/-- The record with its first proposals and answers. -/
def upTo (d : DraftRecord) (proposals answers : Nat) : DraftRecord :=
  { d with proposals := d.proposals.take proposals, answers := d.answers.take answers }

/-- `resolvable`. -/
def resolvable (d : DraftRecord) : Bool :=
  (d.proposals.getLast?.any fun p => p.proposal.needsClarification)
    && d.answers.any fun a => a.proposalIndex.toNat + 1 == d.proposals.length

end DraftRecord

section
variable [Sha256]

/-- `AnswerSource::confirms`. -/
def AnswerSource.confirms (s : AnswerSource) (d : DraftRecord) : Prop :=
  s.schemaVersion = 1 ∧ 0 < s.revision.toNat ∧ s.revision.toNat ≠ 2 ^ 64 - 1
    ∧ 0 < s.proposalCount.toNat ∧ s.proposalCount.toNat ≤ 17 ∧ s.answerCount.toNat < 16
    ∧ s.proposalCount.toNat + s.answerCount.toNat ≤ s.revision.toNat
    ∧ s.proposalCount.toNat = d.proposals.length ∧ s.answerCount.toNat = d.answers.length
    ∧ (d.proposals.getLast?.any fun p => p.proposal.needsClarification) = true
    ∧ Sha256.definition d.toJson = s.sha256

instance (s : AnswerSource) (d : DraftRecord) : Decidable (s.confirms d) :=
  inferInstanceAs (Decidable (_ ∧ _))

/-- `confirms_source`. -/
def ResolutionEvidence.confirmsSource (e : ResolutionEvidence) (d : DraftRecord) : Prop :=
  isOk e.validate = true ∧ e.sourceProposalCount.toNat = d.proposals.length
    ∧ e.sourceAnswerCount.toNat = d.answers.length ∧ d.resolvable = true
    ∧ Sha256.definition d.toJson = e.sourceSha256

instance (e : ResolutionEvidence) (d : DraftRecord) : Decidable (e.confirmsSource d) :=
  inferInstanceAs (Decidable (_ ∧ _))

end

/-- What is checked elsewhere: the input, the text and the proposal that a typed audio source stands
for (`AudioInput::concrete`); the capabilities of a concrete input of a supported template
(`PlanInput::validate`, `concrete_capabilities`); and the lineage of a prepared question. -/
class Choices where
  audio : Fields → Fields → Result (Fields × String × Proposal)
  capabilities : Fields → Result (List String)
  lineage : DraftRecord → Nat → Result Unit

/-- Reviews without a concrete input, without a typed audio source and without prepared questions. -/
@[reducible]
def Choices.never : Choices where
  audio _ _ := .error "invalid audio submission"
  capabilities _ := .error "Unsupported explicit one-step request template"
  lineage _ _ := .error "Invalid preparation question lineage"

namespace DraftRecord

section
variable [F64] [Sha256] [Choices]

/-- The checks of a typed audio source. -/
def validateAudio (d : DraftRecord) : Result Unit :=
  each (fun source => do
    let input ← context d.concreteInput "Audio source requires retained concrete input"
    let (expected, text, proposal) ← Choices.audio source input
    bailIf (d.proposals.length ≠ 1 ∨ d.answers ≠ [] ∨ input ≠ expected ∨ d.originalText ≠ text
        ∨ (d.proposals.map (·.proposal)).head? ≠ some proposal)
      "Immutable typed audio source differs from its reviewed choices") d.audioSource.toList

/-- The checks of a concrete input. -/
def validateInput (d : DraftRecord) : Result Unit :=
  each (fun input => do
    let capabilities ← Choices.capabilities input
    bailIf ((d.proposals.map (·.proposal.suggestedCapabilities)).head? ≠ some capabilities)
      "Explicit input differs from its retained capability") d.concreteInput.toList

/-- The record was opened with an explicit pipeline. -/
def explicitPipeline (d : DraftRecord) : Bool :=
  d.concreteInput.any fun input =>
    (Json.obj input).index "template" == .str "local_pipeline"
      || (Json.obj input).index "template" == .str "conditional_pipeline"

/-- The checks of the resolution of a proposal. -/
def checkResolution (d : DraftRecord) (index : Nat) (e : ResolutionEvidence) : Result Unit := do
  e.validate
  bailIf (e.sourceProposalCount.toNat ≠ index ∨ d.answers.length < e.sourceAnswerCount.toNat)
    "resolution source lineage exceeds retained history"
  ensure (e.confirmsSource (d.upTo index e.sourceAnswerCount.toNat))
    "resolution source digest or clarification evidence changed"

/-- The checks of a proposal, but for its receipt. -/
def checkProposal (d : DraftRecord) (index : Nat) (r : ProposalRevision) : Result Unit := do
  validateWithCapLimit d.originalText r.proposal.toJson r.allowedCapabilities
    (if index = 0 ∧ d.explicitPipeline = true then maxSteps + 1 else maxHints)
  each (d.checkResolution index) r.resolution.toList
  each (fun _ => Choices.lineage d index) r.preparation.toList

/-- The loop over the proposals: the receipts seen so far. -/
def validateProposals (d : DraftRecord) : Nat → List String → List ProposalRevision →
    Result (List String)
  | _, receipts, [] => .ok receipts
  | index, receipts, r :: rs => do
    validateOperationId r.operationId
    bailIf (r.operationId ∈ receipts) "duplicate review receipt"
    d.checkProposal index r
    d.validateProposals (index + 1) (receipts ++ [r.operationId]) rs

/-- The checks of the source of an answer. -/
def checkSource (d : DraftRecord) (index : Nat) (a : ClarificationAnswer) (s : AnswerSource) :
    Result Unit := do
  bailIf (s.answerCount.toNat ≠ index ∨ s.proposalCount.toNat ≠ a.proposalIndex.toNat + 1
      ∨ d.proposals.length < s.proposalCount.toNat) "Answer source history changed"
  ensure (s.confirms (d.upTo s.proposalCount.toNat index))
    "Answer source digest or revision is invalid"

/-- The loop over the answers. -/
def validateAnswers (d : DraftRecord) : Nat → List String → List ClarificationAnswer → Result Unit
  | _, _, [] => .ok ()
  | index, receipts, a :: as => do
    validateOperationId a.operationId
    validateAnswer a.text
    bailIf (a.operationId ∈ receipts
        ∨ (d.proposals[a.proposalIndex.toNat]?.bind (·.proposal.clarification)) ≠ some a.question)
      "invalid clarification answer receipt or question"
    each (d.checkSource index a) a.source.toList
    d.validateAnswers (index + 1) (receipts ++ [a.operationId]) as

/-- The bounds of the whole record. -/
def bounded (d : DraftRecord) : Prop :=
  d.schemaVersion = 1 ∧ d.proposals ≠ [] ∧ d.proposals.length ≤ 17 ∧ d.answers.length ≤ 16
    ∧ d.toJson.size ≤ 512 * 1024

instance (d : DraftRecord) : Decidable d.bounded := inferInstanceAs (Decidable (_ ∧ _))

/-- `DraftRecord::validate`. -/
def validate (d : DraftRecord) : Result Unit := do
  ensure d.bounded "durable request review exceeds bounds"
  d.validateAudio
  d.validateInput
  let receipts ← d.validateProposals 0 [] d.proposals
  d.validateAnswers 0 receipts d.answers

/-- `AnswerSource::from_draft`. -/
def answerSource (revision : UInt64) (d : DraftRecord) : Result AnswerSource := do
  d.validate
  let source : AnswerSource := ⟨1, revision, Sha256.definition d.toJson,
    UInt64.ofNat d.proposals.length, UInt64.ofNat d.answers.length⟩
  ensure (source.confirms d) "Answer requires a bounded current clarification source"
  return source

end

/-- `current`. -/
def current (d : DraftRecord) : Option Proposal := d.proposals.getLast?.map (·.proposal)

/-- `state`. -/
def state (d : DraftRecord) : String :=
  match d.proposals.getLast? with
  | none => "review_invalid"
  | some r =>
    if r.proposal.needsClarification = false then "review_required"
    else if d.answers.any fun a => a.proposalIndex.toNat + 1 == d.proposals.length then
      "answer_recorded"
    else "clarification_required"

end DraftRecord

/-! ## Commands -/

/-- `DraftCommand`. -/
inductive DraftCommand where
  | get (id : String)
  | answer (id : String) (expectedRevision : UInt64) (text : String)
  | revise (id : String) (expectedRevision : UInt64) (originalText : String) (proposal : Proposal)
  | resolve (id : String) (expectedRevision : UInt64) (originalText : String) (proposal : Proposal)
      (evidence : ResolutionEvidence)
  deriving DecidableEq, Repr

namespace DraftCommand

def id : DraftCommand → String
  | get id => id
  | answer id _ _ => id
  | revise id _ _ _ => id
  | resolve id _ _ _ _ => id

/-- The revision that a command was made for. -/
def expectedRevision : DraftCommand → Option UInt64
  | get _ => none
  | answer _ revision _ => some revision
  | revise _ revision _ _ => some revision
  | resolve _ revision _ _ _ => some revision

/-- The fields of one operation. -/
def read (operation : String) (j : Json) : Option DraftCommand :=
  match operation with
  | "get" => do
    let fs ← j.struct ["id"] 1
    return get (← Json.field fs "id" Json.asStr)
  | "answer" => do
    let fs ← j.struct ["id", "expected_revision", "text"] 3
    return answer (← Json.field fs "id" Json.asStr) (← Json.field fs "expected_revision" asU64)
      (← Json.field fs "text" Json.asStr)
  | "revise" => do
    let fs ← j.struct ["id", "expected_revision", "original_text", "proposal"] 4
    return revise (← Json.field fs "id" Json.asStr) (← Json.field fs "expected_revision" asU64)
      (← Json.field fs "original_text" Json.asStr) (← Json.field fs "proposal" Proposal.fromJson)
  | "resolve" => do
    let fs ← j.struct ["id", "expected_revision", "original_text", "proposal", "evidence"] 5
    return resolve (← Json.field fs "id" Json.asStr) (← Json.field fs "expected_revision" asU64)
      (← Json.field fs "original_text" Json.asStr) (← Json.field fs "proposal" Proposal.fromJson)
      (← Json.field fs "evidence" ResolutionEvidence.fromJson)
  | _ => none

/-- Derived `Deserialize`, with the operation as its tag. -/
def fromJson (j : Json) : Option DraftCommand := do
  let operation ← (j.get? "operation").bind Json.asStr
  read operation (.obj ((asFields j).getD [] |>.filter fun f => f.1 ≠ "operation"))

/-- `validate_id`. -/
def validateId (id : String) : Result Unit :=
  ensure (draftId id = true) "draft ID must be a lowercase compact UUID"

section
variable [F64]

/-- `submission`. -/
def submission (c : DraftCommand) : Result (String × Json) := do
  validateId c.id
  match c with
  | get id => return ("requests.draft_get", .obj [("id", .str id)])
  | answer id revision text => do
    validateAnswer text
    return ("requests.draft_answer", .obj [("id", .str id),
      ("expected_revision", .nat revision.toNat), ("text", .str text)])
  | revise id revision text proposal => do
    validateProposal text proposal proposal.suggestedCapabilities
    return ("requests.draft_revise", .obj [("id", .str id),
      ("expected_revision", .nat revision.toNat), ("original_text", .str text),
      ("proposal", proposal.toJson)])
  | resolve id revision text proposal evidence => do
    evidence.validate
    bailIf (evidence.sourceRevision ≠ revision) "resolution source revision mismatch"
    validateProposal text proposal proposal.suggestedCapabilities
    return ("requests.draft_resolve", .obj [("id", .str id),
      ("expected_revision", .nat revision.toNat), ("original_text", .str text),
      ("proposal", proposal.toJson), ("evidence", evidence.toJson)])

end

end DraftCommand

end Eef.Node.Drafts
