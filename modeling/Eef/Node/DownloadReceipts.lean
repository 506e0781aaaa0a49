import Eef.Lib.Table
import Eef.Node.ModelServer

/-!
# Receipts of model downloads

`download_receipts.rs`: the journal of installations, a SQLite file. A record is admitted under
the next ordinal, changes only while it downloads, and is never removed. What a reader finds in a
row is what its text parses as, its length, and its digest.

What SQLite and the file system answer is a parameter of every operation: `Opening` for the way
to an open file, `Write` for a statement or transaction. A write that reports an error may have
taken place.
-/

namespace Eef.Node.Download

open Eef.Lib

/-- `MAX_RECORD_BYTES`. -/
def maxRecordBytes : Nat := 2048

/-- `Policy`. -/
structure Policy where
  maxRecords : Nat
  maxBytes : Nat
  deriving DecidableEq, Repr

/-- `Policy::default`. -/
def Policy.standard : Policy := ⟨256, 1024 * 1024⟩

/-- Derived `Deserialize`. -/
def Policy.decode (j : Json) : Option Policy := do
  let fs ← j.struct ["max_records", "max_bytes"] 0
  let maxRecords ← Json.defaultField fs "max_records" (Json.asUInt 64) Policy.standard.maxRecords
  let maxBytes ← Json.defaultField fs "max_bytes" (Json.asUInt 64) Policy.standard.maxBytes
  return ⟨maxRecords, maxBytes⟩

/-- `Policy::from_config`. -/
def Policy.fromConfig (config : Json) : Result Policy := do
  let policy ← match config.pointer "/models/download_receipts" with
    | none => pure Policy.standard
    | some j => context (Policy.decode j) "Invalid model download receipt limits"
  bailIf (¬(1 ≤ policy.maxRecords ∧ policy.maxRecords ≤ 4096) ∨
      ¬(64 * 1024 ≤ policy.maxBytes ∧ policy.maxBytes ≤ 64 * 1024 * 1024))
    "Invalid model download receipt limits"
  return policy

/-- `State`. -/
inductive State where
  | downloading
  | installed
  | cancelled
  | error
  | interrupted
  deriving DecidableEq, Repr

/-- Derived `Serialize`. -/
def State.name : State → String
  | .downloading => "downloading"
  | .installed => "installed"
  | .cancelled => "cancelled"
  | .error => "error"
  | .interrupted => "interrupted"

/-- `Receipt`. -/
structure Receipt where
  schemaVersion : Nat
  sequence : Nat
  id : String
  modelId : String
  backend : String
  definitionSha256 : String
  state : State
  acceptedAtMs : Nat
  updatedAtMs : Nat
  totalBytes : Option Nat
  cancelRequested : Bool
  deriving DecidableEq, Repr

/-- The bounds of `Receipt::validate`. -/
def Receipt.damaged (r : Receipt) : Prop :=
  r.schemaVersion ≠ 1 ∨ ¬(1 ≤ r.sequence ∧ r.sequence ≤ 4096) ∨ isNil r.id = true ∨
    (r.backend ≠ "ollama" ∧ r.backend ≠ "llamacpp") ∨ hexDigest r.definitionSha256 = false ∨
    r.acceptedAtMs = 0 ∨ r.updatedAtMs < r.acceptedAtMs ∨ i64Max < r.updatedAtMs ∨
    (r.totalBytes.any fun n => n == 0 || i64Max < n) = true ∨
    (r.backend = "ollama" ∧ r.totalBytes.isSome = true) ∨
    (r.backend = "llamacpp" ∧ r.totalBytes = none) ∨
    (r.state = .cancelled ∧ r.cancelRequested = false)

instance (r : Receipt) : Decidable r.damaged := inferInstanceAs (Decidable (_ ∨ _))

/-- `Receipt::validate`. -/
def Receipt.validate (r : Receipt) : Result Unit := do
  validateOperationId r.id
  ModelServer.Server.validateId r.modelId
  bailIf r.damaged "Damaged model download receipt; retained without repair"

@[inherit_doc State.name]
def Receipt.toJson (r : Receipt) : Json :=
  .obj [("schema_version", .nat r.schemaVersion), ("sequence", .nat r.sequence),
    ("id", .str r.id), ("model_id", .str r.modelId), ("backend", .str r.backend),
    ("definition_sha256", .str r.definitionSha256), ("state", .str r.state.name),
    ("accepted_at_ms", .nat r.acceptedAtMs), ("updated_at_ms", .nat r.updatedAtMs),
    ("total_bytes", .ofOption .nat r.totalBytes), ("cancel_requested", .bool r.cancelRequested)]

/-- A row of `model_download_receipts`: what its payload parses as, its length and digest. -/
structure Row where
  id : String
  ordinal : Nat
  size : Nat
  record : Option Receipt
  sha256 : String
  deriving DecidableEq, Repr

/-- The journal file, with its rows by ordinal. -/
structure Db where
  rows : List Row
  pageCount : Nat
  pageSize : Nat
  deriving DecidableEq, Repr

/-- What a write came to: it took place, with so many pages in the end, or it failed. -/
inductive Write where
  | done (pageCount : Nat)
  | failed (msg : String) (applied : Bool)
  deriving DecidableEq, Repr

/-- A write to the file. -/
def Db.commit (old new : Db) : Write → Db × Result Unit
  | .done pageCount => ({ new with pageCount }, .ok ())
  | .failed msg applied => (if applied then new else old, .error msg)

section

variable [F64] [Sha256]

/-- The row of a receipt. -/
def Row.of (r : Receipt) : Row :=
  ⟨r.id, r.sequence, r.toJson.size, some r, Sha256.definition r.toJson⟩

/-- The loop of `records`, `n` rows on. -/
def recordsFrom (n : Nat) : List Row → Result (List Receipt)
  | [] => .ok []
  | row :: rows => do
    bailIf (maxRecordBytes < row.size) "Oversized model download receipt retained"
    let record ← context row.record "Damaged model download receipt; retained without repair"
    record.validate
    bailIf (record.id ≠ row.id ∨ record.sequence ≠ row.ordinal ∨ row.ordinal ≠ n + 1 ∨
        Sha256.definition record.toJson ≠ row.sha256)
      "Model download receipt integrity changed"
    bailIf (4096 < n + 1) "Model download receipt history exceeds supported bounds"
    let records ← recordsFrom (n + 1) rows
    return record :: records

/-- `records`. -/
def Db.records (db : Db) : Result (List Receipt) := recordsFrom 0 db.rows

/-- `get`. -/
def Db.get (db : Db) (id : String) : Result (Option Receipt) := do
  let records ← db.records
  return records.find? fun r => r.id = id

/-- `save`, as an insertion. -/
def Db.insert (db : Db) (r : Receipt) : Result Db := do
  r.validate
  bailIf (maxRecordBytes < r.toJson.size) "Model download receipt exceeds reserved size"
  bailIf (∃ row ∈ db.rows, row.id = r.id ∨ row.ordinal = r.sequence)
    "UNIQUE constraint failed: model_download_receipts"
  return { db with rows := db.rows ++ [.of r] }

/-- `save`, as an update. -/
def Db.update (db : Db) (r : Receipt) : Result Db := do
  r.validate
  bailIf (maxRecordBytes < r.toJson.size) "Model download receipt exceeds reserved size"
  let found := fun row : Row => decide (row.id = r.id ∧ row.ordinal = r.sequence)
  bailIf ((db.rows.filter found).length ≠ 1) "Model download receipt changed"
  return { db with rows := Table.update found (fun _ => .of r) db.rows }

/-- A receipt whose transfer the process did not survive. -/
def Receipt.interrupted (r : Receipt) (now : Nat) : Receipt :=
  if r.state = .downloading then
    { r with state := .interrupted, updatedAtMs := max now r.updatedAtMs }
  else r

/-- The loop of `open` over the records. -/
def Db.interrupt (db : Db) (now : Nat) : List Receipt → Result Db
  | [] => .ok db
  | r :: rs => do
    let db ← if r.state = .downloading then db.update (r.interrupted now) else pure db
    db.interrupt now rs

/-- What the file system and SQLite answer to `open`: whether they let it through, and the pages of
a new file. -/
structure Opening where
  checks : Result Unit
  pageCount : Nat
  pageSize : Nat
  write : Write
  deriving DecidableEq, Repr

/-- `Store::open`. -/
def openStore (file : Option Db) (opening : Opening) (now : Nat) : Option Db × Result Unit :=
  let db := file.getD ⟨[], opening.pageCount, opening.pageSize⟩
  match opening.checks with
  | .error msg => (file, .error msg)
  | .ok () =>
    match (do let records ← db.records; db.interrupt now records) with
    | .error msg => (some db, .error msg)
    | .ok new =>
      let (db, result) := db.commit new opening.write
      (some db, result)

/-- The progress document of an installation, as far as it is read. -/
structure Progress where
  id : String
  modelId : String
  backend : String
  definitionSha256 : String
  total : Option Nat
  deriving DecidableEq, Repr

/-- The pages that are kept free for a write do not fit any more. -/
def Db.full (db : Db) (policy : Policy) (count : Nat) : Prop :=
  policy.maxRecords ≤ count ∨ policy.maxBytes < (db.pageCount + 4) * db.pageSize

instance (db : Db) (policy : Policy) (count : Nat) : Decidable (db.full policy count) :=
  inferInstanceAs (Decidable (_ ∨ _))

/-- The receipt of an admission. -/
def admitted (progress : Progress) (count now : Nat) : Receipt where
  schemaVersion := 1
  sequence := count + 1
  id := progress.id
  modelId := progress.modelId
  backend := progress.backend
  definitionSha256 := progress.definitionSha256
  state := .downloading
  acceptedAtMs := now
  updatedAtMs := now
  totalBytes := progress.total
  cancelRequested := false

/-- The checks of `claim`, and the file that it writes. -/
def Db.claimed (db : Db) (policy : Policy) (progress : Progress) (now : Nat) : Result Db := do
  let records ← db.records
  bailIf (∃ r ∈ records, r.id = progress.id)
    "This download ID was already admitted. Inspect its retained receipt; no replay."
  bailIf (∃ r ∈ records, r.state = .downloading)
    "An admitted transfer remains unresolved; no replacement"
  bailIf (db.full policy records.length)
    "Model download receipt quota full; no transfer admitted"
  db.insert (admitted progress records.length now)

/-- The checks of `change`, and the file that it writes. -/
def Db.changed (db : Db) (id : String) (state : Option State) (now : Nat) : Result Db := do
  let found ← db.get id
  let r ← context found "Download receipt missing"
  bailIf (r.state ≠ .downloading) "Download receipt is no longer active"
  let r ← match state with
    | none => pure { r with cancelRequested := true }
    | some state => do
      bailIf (state ≠ .installed ∧ state ≠ .cancelled ∧ state ≠ .error)
        "Invalid download terminal state"
      pure { r with state }
  db.update { r with updatedAtMs := max now r.updatedAtMs }

/-- A checked change, with the write that it ends in. -/
def Db.run (db : Db) (checked : Result Db) (write : Db → Write) : Db × Result Unit :=
  match checked with
  | .error msg => (db, .error msg)
  | .ok new => db.commit new (write new)

/-! ## The journal -/

/-- `Journal`, apart from the file. -/
inductive Handle where
  | empty
  | ready
  | unavailable
  deriving DecidableEq, Repr

/-- The journal of a node, with the file that is or is not there. -/
structure Journal where
  handle : Handle
  file : Option Db
  deriving DecidableEq, Repr

/-- `begin`: it opens a journal that is not there yet. -/
def Journal.opened (j : Journal) (opening : Opening) (now : Nat) : Journal × Result Unit :=
  match j.handle with
  | .empty =>
    match openStore j.file opening now with
    | (file, .ok ()) => (⟨.ready, file⟩, .ok ())
    | (file, .error msg) => (⟨.empty, file⟩, .error msg)
  | .ready => (j, .ok ())
  | .unavailable =>
    (j, .error "Model download receipt journal unavailable; no transfer admitted")

/-- A statement on the file of a journal that is ready. -/
def Journal.on (j : Journal) (f : Db → Db × Result Unit) : Journal × Result Unit :=
  match j.handle, j.file with
  | .ready, some db =>
    let (db, result) := f db
    (⟨.ready, some db⟩, result)
  | _, _ => (j, .error "Model download receipt journal unavailable")

/-- `begin`. The policy is that of the configuration at hand. -/
def Journal.begin (j : Journal) (config : Json) (progress : Progress) (opening : Opening)
    (now : Nat) (write : Db → Write) : Journal × Result Unit :=
  match Policy.fromConfig config with
  | .error msg => (j, .error msg)
  | .ok policy =>
    match j.opened opening now with
    | (j, .error msg) => (j, .error msg)
    | (j, .ok ()) => j.on fun db => db.run (db.claimed policy progress now) write

/-- `cancel`. -/
def Journal.cancel (j : Journal) (id : String) (now : Nat) (write : Db → Write) :
    Journal × Result Unit :=
  j.on fun db => db.run (db.changed id none now) write

/-- `finish`. -/
def Journal.finish (j : Journal) (id : String) (state : State) (now : Nat) (write : Db → Write) :
    Journal × Result Unit :=
  j.on fun db => db.run (db.changed id (some state) now) write

/-- What `availability` reports: the records, and what stands in the way of a transfer. -/
structure Availability where
  limits : Policy
  retainedRecords : Option Nat
  blocker : Option String
  deriving DecidableEq, Repr

/-- `available`. -/
def Availability.available (a : Availability) : Bool := a.blocker.isNone

/-- `availability`. -/
def Journal.availability (j : Journal) (config : Json) : Result Availability := do
  let policy ← Policy.fromConfig config
  match j.handle, j.file with
  | .empty, _ => return ⟨policy, some 0, none⟩
  | .unavailable, _ | .ready, none => return ⟨policy, none, some "receipt_journal_unavailable"⟩
  | .ready, some db => do
    let records ← db.records
    return ⟨policy, some records.length,
      if ∃ r ∈ records, r.state = .downloading then some "receipt_transfer_unresolved"
      else if db.full policy records.length then some "receipt_quota_full"
      else none⟩

/-- `recover`: the journal of a file, with its latest receipt. Everything that `recover` reads on
the way may fail. -/
def recover (file : Option Db) (opening : Opening) (now : Nat) (latest : Result Unit) :
    Journal × Result (Option Receipt) :=
  match file with
  | none => (⟨.empty, none⟩, .ok none)
  | some db =>
    match openStore (some db) opening now with
    | (file, .error msg) => (⟨.unavailable, file⟩, .error msg)
    | (file, .ok ()) =>
      match (do latest; (file.getD db).records) with
      | .error msg => (⟨.unavailable, file⟩, .error msg)
      | .ok records => (⟨.ready, file⟩, .ok records.getLast?)

end

end Eef.Node.Download
