import Eef.Lib.Json

/-!
# Identities the node accepts

The checks every record of the node's journal is built from: canonical UUIDs
(`job_commands.rs`, `automation_occurrence.rs`), compact draft identifiers
(`request_drafts.rs`), node identifiers (`network.rs`), digests and short ASCII
identifiers (`grants.rs`). `Sha256` stands for the hash the records are bound
with: any function whose output is a 64-character lowercase hex digest.
-/

namespace Eef.Node

open Eef.Lib

/-- `b.is_ascii_digit() || (b'a'..=b'f').contains(&b)`. -/
def isLowerHex (c : Char) : Bool := c.isDigit || ('a' ≤ c && c ≤ 'f')

/-- `b.is_ascii_alphanumeric() || b"._-".contains(&b)`. -/
def isIdentifierChar (c : Char) : Bool := c.isAlphanum || c == '.' || c == '_' || c == '-'

theorem isAlpha_eq (c : Char) : c.isAlpha = (c.isUpper || c.isLower) := rfl

theorem isUpper_iff (c : Char) : c.isUpper = true ↔ 'A' ≤ c ∧ c ≤ 'Z' := by
  show decide (c.val ≥ 'A'.val ∧ c.val ≤ 'Z'.val) = true ↔ _
  rw [decide_eq_true_eq]
  exact Iff.rfl

theorem isLower_iff (c : Char) : c.isLower = true ↔ 'a' ≤ c ∧ c ≤ 'z' := by
  show (decide (c.val ≥ 'a'.val) && decide (c.val ≤ 'z'.val)) = true ↔ _
  rw [Bool.and_eq_true, decide_eq_true_eq, decide_eq_true_eq]
  exact Iff.rfl

/-- Identifier characters need no escape in an encoded string. -/
theorem isPlain_of_identifierChar {c : Char} (h : isIdentifierChar c = true) :
    Json.isPlain c = true := by
  have hne : ∀ d : Char, isIdentifierChar d = false → c ≠ d := by
    rintro d hd rfl
    rw [h] at hd
    cases hd
  have hrange : 32 ≤ c.toNat ∧ c.toNat < 127 := by
    have hv : c.toNat = c.val.toNat := rfl
    simp only [isIdentifierChar, Char.isAlphanum, isAlpha_eq, isUpper_iff, isLower_iff,
      Char.isDigit, Char.le_def, Bool.or_eq_true, Bool.and_eq_true, decide_eq_true_eq, beq_iff_eq,
      UInt32.le_iff_toNat_le, ge_iff_le, or_assoc, Char.reduceVal, UInt32.reduceToNat] at h
    rcases h with h | h | h | rfl | rfl | rfl
    · omega
    · omega
    · omega
    · decide
    · decide
    · decide
  simp [Json.isPlain, hrange.1, hrange.2, hne '"' (by decide), hne '\\' (by decide)]

/-- `char::is_control`: the Unicode `Cc` class. -/
def isControl (c : Char) : Bool := c.toNat < 32 || (127 ≤ c.toNat && c.toNat ≤ 159)

/-- `char::is_whitespace`: the Unicode `White_Space` property. -/
def isWhitespace (c : Char) : Bool :=
  (9 ≤ c.toNat && c.toNat ≤ 13) || c.toNat == 32 || c.toNat == 0x85 || c.toNat == 0xA0
    || c.toNat == 0x1680 || (0x2000 ≤ c.toNat && c.toNat ≤ 0x200A) || c.toNat == 0x2028
    || c.toNat == 0x2029 || c.toNat == 0x202F || c.toNat == 0x205F || c.toNat == 0x3000

/-- `s.trim() == s`: no whitespace at either end. -/
def isTrimmed (s : String) : Bool :=
  !(s.toList.head?.any isWhitespace) && !(s.toList.getLast?.any isWhitespace)

/-- `hex_digest`, also spelled `digest` and `valid_digest` in the sources. -/
def hexDigest (s : String) : Bool := s.utf8ByteSize == 64 && s.toList.all isLowerHex

/-- `b.is_ascii_hexdigit()`. -/
def isHexDigit (c : Char) : Bool := c.isDigit || ('a' ≤ c && c ≤ 'f') || ('A' ≤ c && c ≤ 'F')

/-- 64 hexadecimal digits in either case: `digest` of `repair_receipts.rs`, `hash_valid`. -/
def hexDigits64 (s : String) : Bool := s.utf8ByteSize == 64 && s.toList.all isHexDigit

/-- `s.to_ascii_lowercase()`. -/
def asciiLower (s : String) : String := String.ofList (s.toList.map Char.toLower)

/-- `identifier` of `grants.rs`. -/
def identifier (s : String) : Bool :=
  s != "" && s.utf8ByteSize ≤ 64 && s.toList.all isIdentifierChar

/-- The canonical lowercase hyphenated spelling of a UUID, character by
character. -/
def uuidShape : List Char → Nat → Bool
  | [], i => i == 36
  | c :: cs, i =>
    (if i == 8 || i == 13 || i == 18 || i == 23 then c == '-' else isLowerHex c)
      && uuidShape cs (i + 1)

/-- `validate_operation_id`: 36 bytes that parse as a UUID and print back the
same. -/
def operationId (s : String) : Bool := uuidShape s.toList 0

/-- `Uuid::is_nil` on a canonical spelling. -/
def isNil (s : String) : Bool := s == "00000000-0000-0000-0000-000000000000"

/-- `automation_occurrence::uuid`: a canonical UUID that is not nil. -/
def uuid (s : String) : Bool := operationId s && !isNil s

/-- `request_drafts::validate_id`: a lowercase compact UUID. -/
def draftId (s : String) : Bool := s.utf8ByteSize == 32 && s.toList.all isLowerHex

/-- `network::validate_node_id`. -/
def nodeId (s : String) : Bool :=
  s != "" && s.utf8ByteSize ≤ 128 && isTrimmed s && !(s.toList.any isControl)

/-- `network::validate_remote_node_id`. -/
def remoteNodeId (s : String) : Bool := nodeId s && s != "local" && s != "*"

/-- `job_commands::validate_operation_id`. -/
def validateOperationId (s : String) : Result Unit :=
  ensure (operationId s) "operation ID must be a canonical lowercase hyphenated UUID"

/-- `automation_occurrence::uuid`. -/
def validateUuid (s : String) : Result Unit := do
  validateOperationId s
  bailIf (isNil s) "Nil authority/receipt identity"

/-- `request_drafts::validate_id`. -/
def validateDraftId (s : String) : Result Unit :=
  ensure (draftId s) "draft ID must be a lowercase compact UUID"

/-- `network::validate_remote_node_id`. -/
def validateRemoteNodeId (s : String) : Result Unit := do
  ensure (nodeId s) "node identifier must contain 1-128 bytes without control characters"
  bailIf (s = "local" ∨ s = "*")
    "remote node identifier is reserved; use the node's stable device ID"

theorem validateOperationId_ok {s : String} {u : Unit} :
    validateOperationId s = .ok u ↔ operationId s = true := ensure_ok

theorem validateUuid_ok {s : String} {u : Unit} : validateUuid s = .ok u ↔ uuid s = true := by
  simp [validateUuid, bind_ok, validateOperationId_ok, bailIf_ok, uuid]

theorem validateDraftId_ok {s : String} {u : Unit} :
    validateDraftId s = .ok u ↔ draftId s = true := ensure_ok

theorem validateRemoteNodeId_ok {s : String} {u : Unit} :
    validateRemoteNodeId s = .ok u ↔ remoteNodeId s = true := by
  simp [validateRemoteNodeId, bind_ok, ensure_ok, bailIf_ok, remoteNodeId, and_assoc]

/-- A canonical UUID is 36 ASCII characters, so 36 bytes. -/
theorem uuidShape_bytes : ∀ {cs : List Char} {i : Nat}, uuidShape cs i = true →
    cs.length + i = 36 ∧ String.utf8Len cs = cs.length
  | [], i, h => by simpa [uuidShape] using h
  | c :: cs, i, h => by
    simp only [uuidShape, Bool.and_eq_true] at h
    obtain ⟨hlen, hbytes⟩ := uuidShape_bytes h.2
    have hc : c.utf8Size = 1 := by
      rw [Char.utf8Size_eq_one_iff]
      have h1 := h.1
      split at h1
      · rw [beq_iff_eq] at h1
        subst h1
        decide
      · simp only [isLowerHex, Char.isDigit, Bool.or_eq_true, Bool.and_eq_true, decide_eq_true_eq,
          ge_iff_le, Char.le_def, Char.reduceVal, UInt32.le_iff_toNat_le, UInt32.reduceToNat] at h1
        rw [UInt32.le_iff_toNat_le]
        have : (127 : UInt32).toNat = 127 := rfl
        omega
    rw [List.length_cons, String.utf8Len_cons, hbytes, hc]
    exact ⟨by omega, by omega⟩

theorem operationId_size {s : String} (h : operationId s = true) : s.utf8ByteSize = 36 := by
  obtain ⟨hlen, hbytes⟩ := uuidShape_bytes h
  conv_lhs => rw [← String.ofList_toList (s := s), String.utf8ByteSize_ofList]
  omega

/-- A text of identifier characters is encoded as it is. -/
theorem strSize_identifier {s : String} {n : Nat} (hsize : s.utf8ByteSize ≤ n)
    (h : ∀ c ∈ s.toList, isIdentifierChar c = true) : Json.strSize s ≤ n + 2 := by
  have := Json.strSize_plain (s := s)
    (List.all_eq_true.mpr fun c hc => isPlain_of_identifierChar (h c hc))
  omega

theorem identifierChar_of_hexDigit {c : Char} (h : isHexDigit c = true) :
    isIdentifierChar c = true := by
  simp only [isHexDigit, Bool.or_eq_true, Bool.and_eq_true, decide_eq_true_eq] at h
  simp only [isIdentifierChar, Char.isAlphanum, isAlpha_eq, isUpper_iff, isLower_iff,
    Bool.or_eq_true]
  rcases h with (h | ⟨hlo, hhi⟩) | ⟨hlo, hhi⟩
  · exact Or.inl (Or.inl (Or.inl (Or.inr h)))
  · refine Or.inl (Or.inl (Or.inl (Or.inl (Or.inr ⟨hlo, Char.le_trans hhi ?_⟩))))
    decide
  · refine Or.inl (Or.inl (Or.inl (Or.inl (Or.inl ⟨hlo, Char.le_trans hhi ?_⟩))))
    decide

theorem uuidShape_identifier : ∀ {cs : List Char} {i : Nat}, uuidShape cs i = true →
    ∀ c ∈ cs, isIdentifierChar c = true
  | [], _, _ => by simp
  | c :: cs, i, h => by
    simp only [uuidShape, Bool.and_eq_true] at h
    intro d hd
    rcases List.mem_cons.mp hd with rfl | hd
    · have h1 := h.1
      split at h1
      · rw [beq_iff_eq] at h1
        subst h1
        decide
      · refine identifierChar_of_hexDigit ?_
        simp only [isLowerHex, isHexDigit, Bool.or_eq_true] at h1 ⊢
        exact Or.inl h1
    · exact uuidShape_identifier h.2 d hd

theorem strSize_operationId {s : String} (h : operationId s = true) : Json.strSize s ≤ 38 :=
  strSize_identifier (Nat.le_of_eq (operationId_size h)) (uuidShape_identifier h)

theorem strSize_uuid {s : String} (h : uuid s = true) : Json.strSize s ≤ 38 := by
  simp only [uuid, Bool.and_eq_true] at h
  exact strSize_operationId h.1

theorem strSize_hexDigest {s : String} (h : hexDigest s = true) : Json.strSize s ≤ 66 := by
  simp only [hexDigest, Bool.and_eq_true, beq_iff_eq, List.all_eq_true] at h
  refine strSize_identifier (Nat.le_of_eq h.1) fun c hc => identifierChar_of_hexDigit ?_
  have hlower := h.2 c hc
  simp only [isLowerHex, isHexDigit, Bool.or_eq_true] at hlower ⊢
  exact Or.inl hlower

/-- SHA-256 in lowercase hex. `definition` is `definition_digest`, the digest of a
document's canonical encoding; `raw` the digest of a text as it was written;
`text` the digest of a plain string. -/
class Sha256 where
  definition : Json → String
  raw : Json → String
  text : String → String
  definition_digest : ∀ j, hexDigest (definition j) = true
  raw_digest : ∀ j, hexDigest (raw j) = true
  text_digest : ∀ s, hexDigest (text s) = true

/-- The hash whose only value is `d`, for evaluating a run that hashes one document. -/
@[reducible]
def Sha256.constant (d : String) (h : hexDigest d = true) : Sha256 where
  definition _ := d
  raw _ := d
  text _ := d
  definition_digest _ := h
  raw_digest _ := h
  text_digest _ := h

/-- A digest for runs in which any will do. -/
theorem hexDigest_a : hexDigest (String.ofList (List.replicate 64 'a')) = true := by decide

/-- The hash that is known on the listed documents, texts and strings, and has the value
`d` elsewhere: for evaluating a run that hashes only those. -/
@[reducible]
def Sha256.table (documents raws : List (Json × String)) (texts : List (String × String))
    (d : String) (hd : hexDigest d = true) (hdoc : ∀ p ∈ documents, hexDigest p.2 = true)
    (hraw : ∀ p ∈ raws, hexDigest p.2 = true) (htext : ∀ p ∈ texts, hexDigest p.2 = true) :
    Sha256 where
  definition j := (documents.lookup j).getD d
  raw j := (raws.lookup j).getD d
  text s := (texts.lookup s).getD d
  definition_digest j := by
    cases h : documents.lookup j with
    | none => exact hd
    | some v => exact hdoc _ (Assoc.mem_of_lookup h)
  raw_digest j := by
    cases h : raws.lookup j with
    | none => exact hd
    | some v => exact hraw _ (Assoc.mem_of_lookup h)
  text_digest s := by
    cases h : texts.lookup s with
    | none => exact hd
    | some v => exact htext _ (Assoc.mem_of_lookup h)

theorem Sha256.no_rows {κ : Type} : ∀ p ∈ ([] : List (κ × String)), hexDigest p.2 = true :=
  nofun

/-- `i64::MAX`, the largest integer an SQLite column holds. -/
def i64Max : Nat := 2 ^ 63 - 1

/-- `i64::try_from` of an unsigned value bound for an integer column. -/
def toI64 (n : Nat) : Result Nat :=
  if n ≤ i64Max then .ok n else .error "out of range integral type conversion attempted"

theorem toI64_ok {n m : Nat} : toI64 n = .ok m ↔ n ≤ i64Max ∧ n = m := by
  unfold toI64
  split <;> simp [*]

end Eef.Node
