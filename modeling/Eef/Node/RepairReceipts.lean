import Eef.Lib.SortedSet
import Eef.Node.Identity
import Mathlib.Data.String.Basic

/-!
# Receipts of package repairs

`repair_receipts.rs`: the bounded journal of repair attempts of an installation. Every step of
an attempt is on record before the work of the step begins, and the whole journal is published
at once, over the one that the attempt knows. A stored journal is the `Text` a reader finds: the
document it parses as, its length, and its digest.
-/

namespace Eef.Node.RepairReceipts

open Eef.Lib

/-- `MAX_RECORDS`. -/
def maxRecords : Nat := 128

/-- `MAX_BYTES`. -/
def maxBytes : Nat := 256 * 1024

/-- `Step`. -/
inductive Step where
  | admitted
  | downloading
  | verifying
  | staging
  | staged
  | selecting
  | selected
  deriving DecidableEq, Repr

/-- `Step::ordinal`. -/
def Step.ordinal : Step → Nat
  | .admitted => 0
  | .downloading => 1
  | .verifying => 2
  | .staging => 3
  | .staged => 4
  | .selecting => 5
  | .selected => 6

/-- Derived `Serialize`. -/
def Step.name : Step → String
  | .admitted => "admitted"
  | .downloading => "downloading"
  | .verifying => "verifying"
  | .staging => "staging"
  | .staged => "staged"
  | .selecting => "selecting"
  | .selected => "selected"

/-- Derived `Deserialize`. -/
def Step.decode (j : Json) : Option Step :=
  match j.asVariant with
  | some "admitted" => some .admitted
  | some "downloading" => some .downloading
  | some "verifying" => some .verifying
  | some "staging" => some .staging
  | some "staged" => some .staged
  | some "selecting" => some .selecting
  | some "selected" => some .selected
  | _ => none

/-- `Outcome`. -/
inductive Outcome where
  | inProgress
  | selected
  | failed
  deriving DecidableEq, Repr

@[inherit_doc Step.name]
def Outcome.name : Outcome → String
  | .inProgress => "in_progress"
  | .selected => "selected"
  | .failed => "failed"

@[inherit_doc Step.decode]
def Outcome.decode (j : Json) : Option Outcome :=
  match j.asVariant with
  | some "in_progress" => some .inProgress
  | some "selected" => some .selected
  | some "failed" => some .failed
  | _ => none

/-- `Receipt`. -/
structure Receipt where
  schemaVersion : Nat
  sequence : Nat
  requestId : String
  program : String
  version : String
  definitionSha256 : String
  artifactSha256 : String
  artifactBytes : Nat
  admittedAtMs : Nat
  updatedAtMs : Nat
  step : Step
  outcome : Outcome
  deriving DecidableEq, Repr

namespace Receipt

@[inherit_doc Step.name]
def toJson (r : Receipt) : Json :=
  .obj [("schema_version", .nat r.schemaVersion), ("sequence", .nat r.sequence),
    ("request_id", .str r.requestId), ("program", .str r.program), ("version", .str r.version),
    ("definition_sha256", .str r.definitionSha256), ("artifact_sha256", .str r.artifactSha256),
    ("artifact_bytes", .nat r.artifactBytes), ("admitted_at_ms", .nat r.admittedAtMs),
    ("updated_at_ms", .nat r.updatedAtMs), ("step", .str r.step.name),
    ("outcome", .str r.outcome.name)]

@[inherit_doc Step.decode]
def decode (j : Json) : Option Receipt := do
  let fs ← j.struct ["schema_version", "sequence", "request_id", "program", "version",
    "definition_sha256", "artifact_sha256", "artifact_bytes", "admitted_at_ms", "updated_at_ms",
    "step", "outcome"] 12
  let schemaVersion ← Json.field fs "schema_version" (Json.asUInt 32)
  let sequence ← Json.field fs "sequence" (Json.asUInt 32)
  let requestId ← Json.field fs "request_id" Json.asStr
  let program ← Json.field fs "program" Json.asStr
  let version ← Json.field fs "version" Json.asStr
  let definitionSha256 ← Json.field fs "definition_sha256" Json.asStr
  let artifactSha256 ← Json.field fs "artifact_sha256" Json.asStr
  let artifactBytes ← Json.field fs "artifact_bytes" (Json.asUInt 64)
  let admittedAtMs ← Json.field fs "admitted_at_ms" (Json.asUInt 64)
  let updatedAtMs ← Json.field fs "updated_at_ms" (Json.asUInt 64)
  let step ← Json.field fs "step" Step.decode
  let outcome ← Json.field fs "outcome" Outcome.decode
  return ⟨schemaVersion, sequence, requestId, program, version, definitionSha256, artifactSha256,
    artifactBytes, admittedAtMs, updatedAtMs, step, outcome⟩

end Receipt

/-- `validate_id`. -/
def validateId (id : String) : Result Unit :=
  ensure (uuid id) "repair operation ID must be a non-nil canonical UUID"

/-- `validate_program`. -/
def validateProgram (program : String) : Result Unit :=
  ensure (program = "eef" ∨ program = "eefn") "unsupported repair receipt product"

/-- A version of three numbers, with a suffix after a hyphen. -/
def isVersion (version : String) : Bool :=
  let parts := ((version.toList.splitOn '-').headD []).splitOn '.'
  parts.length == 3 && parts.all (fun part => part != [] && part.all Char.isDigit)
    && version.utf8ByteSize ≤ 100 && version.toList.all isIdentifierChar

/-- `updater::validate_version`. -/
def validateVersion (version : String) : Result Unit :=
  ensure (isVersion version) "unsafe update version"

/-- `Records`, of which the schema is the constant 1. -/
def encode (records : List Receipt) : Json :=
  .obj [("schema_version", .nat 1), ("records", .arr (records.map Receipt.toJson))]

/-- The check of one record, `ids` being those before it. -/
def Receipt.check (r : Receipt) (ids : List String) : Result Unit := do
  validateId r.requestId
  validateProgram r.program
  validateVersion r.version
  ensure (r.schemaVersion = 1 ∧ r.sequence = ids.length + 1 ∧ r.requestId ∉ ids
    ∧ hexDigits64 r.definitionSha256 ∧ hexDigits64 r.artifactSha256 ∧ 0 < r.artifactBytes
    ∧ r.artifactBytes ≤ 512 * 1024 * 1024 ∧ 0 < r.admittedAtMs ∧ r.admittedAtMs ≤ r.updatedAtMs
    ∧ r.updatedAtMs ≤ i64Max ∧ (r.outcome = .selected ↔ r.step = .selected))
    "damaged repair receipt; retained without repair"

/-- The loop of `decode`. -/
def checkRecords : List String → List Receipt → Result Unit
  | _, [] => .ok ()
  | ids, r :: rest => do
    r.check ids
    checkRecords (ids ++ [r.requestId]) rest

/-- `Records`. -/
def decodeRecords (j : Json) : Option (Nat × List Receipt) := do
  let fs ← j.struct ["schema_version", "records"] 2
  let schemaVersion ← Json.field fs "schema_version" (Json.asUInt 32)
  let records ← Json.field fs "records" (Json.asList Receipt.decode)
  return (schemaVersion, records)

/-- A stored text: the document it parses as, its length, and its digest. -/
structure Text where
  document : Option Json
  bytes : Nat
  sha256 : String
  deriving DecidableEq

/-- `decode`. -/
def decode (t : Text) : Result (List Receipt) := do
  let (schemaVersion, records) ← context (t.document.bind decodeRecords)
    "repair receipt journal is damaged; retained without repair"
  bailIf (schemaVersion ≠ 1 ∨ maxRecords < records.length)
    "unsupported repair receipt journal schema/size"
  checkRecords [] records
  return records

/-- `raw`: what a read finds. -/
def raw (journal : Option Text) : Result (Option Text) :=
  match journal with
  | none => .ok none
  | some t => do
    bailIf (maxBytes < t.bytes)
      "repair receipt journal exceeds its bound; retained without repair"
    return some t

/-- `read`, with the leases of the directory. -/
def read (journal : Option Text) (leases : SortedSet String) : Result (List Receipt) := do
  match ← raw journal with
  | some t => decode t
  | none => do
    bailIf (leases.items ≠ [])
      "repair journal missing with retained leases; never assume a fresh installation"
    return []

variable [F64] [Sha256]

/-- The text that is written for a journal. -/
def text (records : List Receipt) : Text :=
  ⟨some (encode records), (encode records).size, Sha256.raw (encode records)⟩

/-- `write`, up to the write itself. -/
def publish (records : List Receipt) : Result Text := do
  bailIf (maxBytes < (text records).bytes) "repair receipt journal byte quota is full"
  return text records

/-- The check of `guarded_write`. -/
def guard (journal : Option Text) (expected : String) : Result Unit := do
  let found ← raw journal
  let found ← context found "repair journal disappeared; no recovery or reset"
  bailIf (found.sha256 ≠ expected) "repair journal changed; retained without overwrite"

/-- `RepairRequest`. -/
structure RepairRequest where
  schemaVersion : Nat
  requestId : String
  version : String
  url : String
  sha256 : String
  sizeBytes : Nat
  allowPrerelease : Bool
  deriving DecidableEq, Repr

/-- The document whose digest binds an admission. -/
def binding (request : RepairRequest) (program executableSha256 runningSlot : String) : Json :=
  .obj [("schema_version", .nat 1),
    ("request", .obj [("schema_version", .nat request.schemaVersion),
      ("request_id", .str request.requestId), ("version", .str request.version),
      ("url", .str request.url), ("sha256", .str request.sha256),
      ("size_bytes", .nat request.sizeBytes),
      ("allow_prerelease", .bool request.allowPrerelease)]),
    ("program", .str program), ("executable_sha256", .str executableSha256),
    ("running_slot", .str runningSlot)]

/-- An admission that is not published yet. `expected` is the digest of the journal that was
read, or none where it has to be created first. -/
structure Pending where
  records : List Receipt
  index : Nat
  expected : Option String
  deriving DecidableEq

/-- The receipt of an admission. -/
def admission (program : String) (request : RepairRequest)
    (executableSha256 runningSlot : String) (now index : Nat) : Receipt where
  schemaVersion := 1
  sequence := index + 1
  requestId := request.requestId
  program := program
  version := request.version
  definitionSha256 := Sha256.raw (binding request program executableSha256 runningSlot)
  artifactSha256 := asciiLower request.sha256
  artifactBytes := request.sizeBytes
  admittedAtMs := now
  updatedAtMs := now
  step := .admitted
  outcome := .inProgress

/-- `Attempt::begin`, up to the first file it touches. -/
def begin (program : String) (request : RepairRequest) (executableSha256 runningSlot : String)
    (now : Nat) (journal : Option Text) (leases : SortedSet String) : Result Pending := do
  validateProgram program
  validateId request.requestId
  validateVersion request.version
  ensure (request.schemaVersion = 1 ∧ hexDigits64 request.sha256 ∧ hexDigits64 executableSha256
    ∧ 0 < request.sizeBytes ∧ request.sizeBytes ≤ 512 * 1024 * 1024)
    "invalid repair admission binding"
  let original ← raw journal
  let records ← read journal leases
  bailIf (request.requestId ∈ records.map Receipt.requestId)
    "repair operation ID was already admitted; inspect its receipt, never replay it"
  bailIf (maxRecords ≤ records.length) "repair receipt quota is full; no work admitted"
  bailIf (request.requestId ∉ leases ∧ maxRecords ≤ leases.items.length)
    "repair lease quota is full; no work admitted"
  let receipt := admission program request executableSha256 runningSlot now records.length
  return ⟨records ++ [receipt], records.length, original.map Text.sha256⟩

/-- `Attempt`. -/
structure Attempt where
  records : List Receipt
  index : Nat
  expectedSha256 : String
  deriving DecidableEq

/-- The record of the attempt after a step. -/
def Receipt.advance (r : Receipt) (step : Step) (now : Nat) : Receipt :=
  { r with
    step
    updatedAtMs := max now r.updatedAtMs
    outcome := if step = .selected then .selected else r.outcome }

/-- `Attempt::step`, up to `persist`. -/
def Attempt.step (a : Attempt) (step : Step) (now : Nat) : Result (List Receipt) := do
  let record ← context a.records[a.index]? "index out of bounds"
  bailIf (record.outcome ≠ .inProgress ∨ step.ordinal ≠ record.step.ordinal + 1)
    "invalid repair receipt transition"
  return a.records.set a.index (record.advance step now)

/-- `Attempt::failed`, up to `persist`. -/
def Attempt.failed (a : Attempt) (now : Nat) : Result (List Receipt) := do
  let record ← context a.records[a.index]? "index out of bounds"
  bailIf (record.outcome ≠ .inProgress) "repair attempt is already terminal"
  return a.records.set a.index
    { record with outcome := .failed, updatedAtMs := max now record.updatedAtMs }

/-! ## Reports -/

/-- `Lease`. -/
inductive Lease where
  | active
  | released
  | unavailable
  deriving DecidableEq, Repr

/-- What `status` tells of one receipt. -/
structure Observation where
  receipt : Receipt
  lease : Lease
  interrupted : Bool
  outcomeUnresolved : Bool
  packageMayBeStaged : Bool
  selectionOutcomeUnknown : Bool
  deriving DecidableEq

omit [F64] [Sha256] in
/-- The observation of a receipt whose lease file reads as `lease`. -/
def observe (r : Receipt) (lease : Lease) : Observation where
  receipt := r
  lease := lease
  interrupted := r.outcome == .inProgress && lease == .released
  outcomeUnresolved := r.outcome == .inProgress && lease != .active
  packageMayBeStaged := Step.staging.ordinal ≤ r.step.ordinal
  selectionOutcomeUnknown := r.step == .selecting

/-- `status`, for the lease files as they read. -/
def status (journal : Option Text) (leases : SortedSet String) (lease : String → Lease)
    (program : String) (id : Option String) : Result (List Observation) := do
  validateProgram program
  each validateId id.toList
  let records ← read journal leases
  return (records.filter fun r => r.program = program ∧ id.all (r.requestId = ·)).map
    fun r => observe r (lease r.requestId)

/-- `outcome_unknown` of the failure report of `application_report`. -/
def outcomeUnknown (receipts : Result (List Observation)) : Bool :=
  match receipts with
  | .error _ => true
  | .ok attempts =>
    attempts.head?.any fun a => a.outcomeUnresolved || a.selectionOutcomeUnknown
      || (a.packageMayBeStaged && a.receipt.outcome != .selected)

end Eef.Node.RepairReceipts
