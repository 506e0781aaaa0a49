import Eef.Node.ModelServer

/-!
# The fixed model check: identity

`model_verification.rs` of the node library: the receipts that a model check is known by, and
its definition. A check is named by its node and its operation; source, approval and execution
each have a UUID that is derived from the name.
-/

namespace Eef.Node

open Eef.Lib

/-- `model_selection::Backend`. -/
inductive Backend where
  | ollama
  | llamacpp
  deriving DecidableEq, Repr

/-- Derived `Serialize`. -/
def Backend.name : Backend → String
  | .ollama => "ollama"
  | .llamacpp => "llamacpp"

/-- `setup_check::ModelRef`. -/
structure ModelRef where
  backend : Backend
  modelId : String
  deriving DecidableEq, Repr

@[inherit_doc Backend.name]
def ModelRef.toJson (m : ModelRef) : Json :=
  .obj [("backend", .str m.backend.name), ("model_id", .str m.modelId)]

namespace ModelVerification

/-- The top bits of a hexadecimal digit become `10`. -/
def variantDigit : Char → Char
  | '0' | '4' | '8' | 'c' => '8'
  | '1' | '5' | '9' | 'd' => '9'
  | '2' | '6' | 'a' | 'e' => 'a'
  | _ => 'b'

/-- The first 16 bytes of a digest as a UUID of version 8. -/
def receiptUuid (hex : String) : String :=
  let digits := (hex.toList.take 32).set 12 '8'
  let digits := digits.set 16 (variantDigit (digits.getD 16 '0'))
  String.ofList (digits.take 8 ++ '-' :: (digits.drop 8).take 4 ++ '-' :: (digits.drop 12).take 4 ++
    '-' :: (digits.drop 16).take 4 ++ '-' :: digits.drop 20)

/-- The document that a receipt is derived from. -/
def receiptBody (node operation stage : String) (job : Option String) : Json :=
  .arr [.str "eef.model-verification.v1", .str node, .str operation, .str stage, .ofOption .str job]

/-- `receipt_id`. -/
def receiptId [Sha256] (node operation stage : String) (job : Option String) : Result String := do
  validateRemoteNodeId node
  validateUuid operation
  bailIf ((stage ≠ "source" ∧ stage ≠ "approval" ∧ stage ≠ "execution") ∨
      ¬(stage = "source" ↔ job = none))
    "Unsupported model verification receipt domain"
  each validateDraftId job.toList
  return receiptUuid (Sha256.raw (receiptBody node operation stage job))

/-- `Definition`. -/
structure Definition where
  schemaVersion : Nat
  nodeId : String
  nodeRuntimeId : String
  operationId : String
  model : ModelRef
  deriving DecidableEq, Repr

namespace Definition

/-- `Definition::validate`. -/
def validate (d : Definition) : Result Unit := do
  bailIf (d.schemaVersion ≠ 1) "Unsupported model verification schema"
  validateRemoteNodeId d.nodeId
  validateUuid d.nodeRuntimeId
  validateUuid d.operationId
  ModelServer.Server.validateId d.model.modelId

@[inherit_doc Backend.name]
def toJson (d : Definition) : Json :=
  .obj [("schema_version", .nat d.schemaVersion), ("node_id", .str d.nodeId),
    ("node_runtime_id", .str d.nodeRuntimeId), ("operation_id", .str d.operationId),
    ("model", d.model.toJson)]

/-- `Definition::receipt`. -/
def receipt [Sha256] (d : Definition) (stage : String) (job : Option String) : Result String := do
  d.validate
  receiptId d.nodeId d.operationId stage job

end Definition

end ModelVerification

end Eef.Node
