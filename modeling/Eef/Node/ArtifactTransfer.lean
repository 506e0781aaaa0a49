import Eef.Lib.Checked
import Eef.Lib.Json
import Eef.Node.Identity

/-!
# Transfers of a model artifact

`artifact_transfer.rs`: one artifact is fetched over at most eight attempts. The first asks for all
of it; a later one, where bytes are already written, asks for the rest by a byte range, and what it
gets is appended only if the response is exactly that range (`validate_headers`). Each chunk is
written and hashed, and the transfer is accepted where the length and the digest are the pinned ones.

What the network, the disk and the callbacks do is an `Attempt`, one for each round of the loop; the
model computes what is in the file afterwards, also where the run fails. `Run` is the invariant of
the loop, and the transfers that succeed are exactly the ones that `Delivers` describes.
-/

namespace Eef.Node.ArtifactTransfer

open Eef.Lib hiding bind_ok pure_ok bailIf bailIf_ok context context_ok
open Checked

/-- The bytes of a text or of a file. -/
abbrev Bytes := List UInt8

/-! ## Artifacts -/

/-- `reqwest::Url`, as far as it is looked at. -/
structure Url where
  scheme : String
  hostStr : Option String
  username : String
  password : Option String
  fragment : Option String
  text : String
  deriving DecidableEq, Repr

/-- `GgufArtifact`. -/
structure GgufArtifact where
  schemaVersion : Nat
  url : String
  sha256 : String
  bytes : Nat
  deriving DecidableEq, Repr

/-- `GgufArtifact::from_catalog`, where `parse` is `reqwest::Url::parse`. -/
def GgufArtifact.fromCatalog (parse : String → Option Url) (entry : Json) : Checked GgufArtifact := do
  let rawUrl ← context ((entry.index "url").asStr.filter fun s => s.utf8ByteSize ≤ 8192)
    "Model download address is missing or too long"
  let url ← context (parse rawUrl) "Invalid model download address"
  bailIf (url.scheme ≠ "https" ∨ url.hostStr = none ∨ url.username ≠ "" ∨ url.password.isSome
      ∨ url.fragment.isSome)
    "Model downloads require HTTPS without embedded credentials or fragments"
  let sha256 ← context ((entry.index "sha256").asStr.filter hexDigits64)
    "Model catalog needs a SHA-256 checksum"
  let bytes ← context (((entry.index "bytes").asUInt 64).filter fun n => 0 < n ∧ n ≤ 2 ^ 63 - 1)
    "Model catalog needs a positive supported download size"
  return ⟨1, url.text, sha256, bytes⟩

/-- `json!({"url": .., "sha256": .., "bytes": ..})`. -/
def GgufArtifact.entry (a : GgufArtifact) : Json :=
  .obj [("url", .str a.url), ("sha256", .str a.sha256), ("bytes", .nat a.bytes)]

/-! ## Headers -/

/-- `byte.is_ascii_digit()`. -/
def isDigit (b : UInt8) : Bool := 48 ≤ b.toNat && b.toNat ≤ 57

/-- The number that digits are. -/
def number (digits : Bytes) : Nat := digits.foldl (fun n b => n * 10 + (b.toNat - 48)) 0

/-- `decimal`. -/
def decimal (value : Bytes) : Checked Nat := do
  bailIf (value = [] ∨ value.all isDigit = false) "Invalid model byte range"
  context (if number value < 2 ^ 64 then some (number value) else none) "Invalid model byte range"

/-- `value.split_once(byte)`. -/
def splitOnce (sep : UInt8) : Bytes → Option (Bytes × Bytes)
  | [] => none
  | b :: bs => if b = sep then some ([], bs) else (splitOnce sep bs).map fun p => (b :: p.1, p.2)

/-- `value.strip_prefix(text)`. -/
def stripPrefix (text value : Bytes) : Option Bytes :=
  if value.take text.length = text then some (value.drop text.length) else none

/-- `HeaderMap`: the values under lowercase names. -/
abbrev HeaderMap := List (String × Bytes)

/-- `HeaderValue::to_str`: visible ASCII, and tabs. -/
def toStr (value : Bytes) : Option Bytes :=
  if value.all fun b => (32 ≤ b.toNat && b.toNat < 127) || b.toNat == 9 then some value else none

/-- `b"bytes "`. -/
def bytesUnit : Bytes := [98, 121, 116, 101, 115, 32]

/-- `b"identity"`. -/
def identity : Bytes := [105, 100, 101, 110, 116, 105, 116, 121]

/-- The content range of a response, as `validate_headers` reads it: it is from `offset` to the last
byte. -/
def validateRange (headers : HeaderMap) (offset total : Nat) : Checked Unit := do
  let raw ← context (((headers.lookup "content-range").bind toStr).filter fun v => v.length ≤ 128)
    "Model recovery range is missing"
  let (range, size) ← context ((stripPrefix bytesUnit raw).bind (splitOnce 47))
    "Invalid model byte range"
  let (start, stop) ← context (splitOnce 45 range) "Invalid model byte range"
  let msg := "Model recovery range does not match the pinned artifact"
  bailIf ((← decimal start) ≠ offset) msg
  let stop ← decimal stop
  bailIf (stop ≠ (← sub total 1)) msg
  bailIf ((← decimal size) ≠ total) msg

/-- The length of a response, if it states one. -/
def validateLength (headers : HeaderMap) (offset total : Nat) : Checked Unit :=
  match headers.lookup "content-length" with
  | none => .ok ()
  | some length => do
    let length ← decimal (← context (toStr length) "Invalid model response length")
    bailIf (length ≠ (← sub total offset)) "Model response length does not match the pinned artifact"

/-- What `validate_headers` asks of the status and the range. -/
def validateStatus (status : Nat) (headers : HeaderMap) (offset total : Nat) : Checked Unit :=
  if 0 < offset ∨ status = 206 then do
    bailIf (status ≠ 206) "Model source did not honor the requested recovery range"
    validateRange headers offset total
  else bailIf (status ≠ 200 ∨ (headers.lookup "content-range").isSome)
    "Model source returned an unsupported artifact response"

/-- `validate_headers`. -/
def validateHeaders (status : Nat) (headers : HeaderMap) (offset total : Nat) : Checked Unit := do
  bailIf ((headers.lookup "content-encoding").any (· ≠ identity))
    "Encoded model transfer cannot be byte-range verified"
  validateStatus status headers offset total
  validateLength headers offset total

/-! ## Attempts -/

/-- How a write ends. Where it fails, or the budget of the transfer runs out, a part may be in the
file. -/
inductive Write where
  | done
  | failed (part : Nat) (msg : String)
  | elapsed (part : Nat)
  deriving DecidableEq, Repr

/-- What the stream of a response gives next, and what the calls for a chunk return. -/
inductive Item where
  | broken
  | elapsed
  | chunk (bytes : Bytes) (space : Result Unit) (write : Write) (progress : Result Unit)

/-- What becomes of a request. -/
inductive Sent where
  | failed
  | elapsed
  | response (status : Nat) (headers : HeaderMap) (body : List Item)

/-- All that happens to one round of the loop. -/
structure Attempt where
  space : Result Unit
  progress : Result Unit
  sent : Sent
  slept : Bool

/-- A response that is read: how much was written when it was asked for, and its headers. -/
structure Response where
  start : Nat
  status : Nat
  headers : HeaderMap

/-- A write into the file, with the response it comes from. -/
structure Piece where
  response : Response
  bytes : Bytes

/-- A transfer: the file, what was hashed, and the pieces that were written. -/
structure Transfer where
  file : Bytes
  hashed : Bytes
  count : Nat
  pieces : List Piece

/-- A transfer that has not begun. -/
def Transfer.empty : Transfer := ⟨[], [], 0, []⟩

/-- The budget ran out. -/
def overBudget : Fault := .error "Model artifact transfer exceeded its total time budget"

/-- An error of a callback. -/
def failure (r : Result Unit) : Option Fault :=
  match r with
  | .ok _ => none
  | .error msg => some (.error msg)

namespace Transfer

/-- `file.write_all(&chunk)`: so much of a chunk is in the file. -/
def put (t : Transfer) (r : Response) (bytes : Bytes) : Transfer :=
  { t with file := t.file ++ bytes, pieces := t.pieces ++ [⟨r, bytes⟩] }

/-- One chunk of a response. -/
def chunk (total : Nat) (r : Response) (t : Transfer) (bytes : Bytes) (space : Result Unit)
    (write : Write) (progress : Result Unit) : Transfer × Option Fault :=
  match checkedAdd 64 t.count bytes.length with
  | none => (t, some (.error "Model size overflow"))
  | some next =>
    if total < next then (t, some (.error "Model download is larger than its catalog entry"))
    else if total < t.count then (t, some .panic)
    else
      match failure space, write with
      | some e, _ => (t, some e)
      | none, .failed part msg => (t.put r (bytes.take part), some (.error msg))
      | none, .elapsed part => (t.put r (bytes.take part), some overBudget)
      | none, .done =>
        ({ t.put r bytes with hashed := t.hashed ++ bytes, count := next }, failure progress)

/-- `while let Some(chunk) = stream.next().await`. -/
def readBody (total : Nat) (r : Response) (t : Transfer) : List Item → Transfer × Option Fault
  | [] => (t, none)
  | .broken :: _ => (t, none)
  | .elapsed :: _ => (t, some overBudget)
  | .chunk bytes space write progress :: rest =>
    match t.chunk total r bytes space write progress with
    | (t', some e) => (t', some e)
    | (t', none) => t'.readBody total r rest

/-- The pause before the next attempt. -/
def pause (t : Transfer) (slept : Bool) : Transfer × Except Fault (Option String) :=
  if slept then (t, .ok none) else (t, .error overBudget)

/-- What follows the body of a response: the digest of a whole file, or the next attempt. -/
def settle (sha : Bytes → String) (artifact : GgufArtifact) (t : Transfer) (slept : Bool) :
    Transfer × Except Fault (Option String) :=
  if t.count = artifact.bytes then
    if sha t.hashed ≠ asciiLower artifact.sha256 then
      (t, .error (.error "Model verification failed after transfer; no artifact was installed"))
    else (t, .ok (some (sha t.hashed)))
  else t.pause slept

/-- One round of the loop: it ends the transfer with the digest or with an error, or goes on. -/
def attempt (sha : Bytes → String) (artifact : GgufArtifact) (t : Transfer) (a : Attempt) :
    Transfer × Except Fault (Option String) :=
  if artifact.bytes < t.count then (t, .error .panic) else
  match failure a.space, failure a.progress with
  | some e, _ => (t, .error e)
  | none, some e => (t, .error e)
  | none, none =>
    match a.sent with
    | .failed => t.pause a.slept
    | .elapsed => (t, .error overBudget)
    | .response status headers body =>
      match validateHeaders status headers t.count artifact.bytes with
      | .error e => (t, .error e)
      | .ok _ =>
        match t.readBody artifact.bytes ⟨t.count, status, headers⟩ body with
        | (t', some e) => (t', .error e)
        | (t', none) => t'.settle sha artifact a.slept

/-- The attempts that are left, from the one with a number on. -/
def attempts (sha : Bytes → String) (artifact : GgufArtifact) (env : Nat → Attempt) :
    Nat → Nat → Transfer → Transfer × Except Fault String
  | 0, _, t =>
    (t, .error (.error "Model transfer interrupted; bounded byte-range recovery was exhausted"))
  | left + 1, n, t =>
    match t.attempt sha artifact (env n) with
    | (t', .error e) => (t', .error e)
    | (t', .ok (some digest)) => (t', .ok digest)
    | (t', .ok none) => t'.attempts sha artifact env left (n + 1)

end Transfer

/-- `ATTEMPTS`. -/
def maxAttempts : Nat := 8

/-- `receive`: what is in the file afterwards, and the digest. -/
def receive (parse : String → Option Url) (sha : Bytes → String) (artifact : GgufArtifact)
    (env : Nat → Attempt) : Transfer × Except Fault String :=
  match GgufArtifact.fromCatalog parse artifact.entry with
  | .error e => (.empty, .error e)
  | .ok artifact => Transfer.empty.attempts sha artifact env maxAttempts 0

/-! ## What the headers of an accepted response say -/

/-- The decimal digits of a number. -/
structure Digits (value : Bytes) (n : Nat) : Prop where
  nonempty : value ≠ []
  digits : value.all isDigit = true
  number : number value = n

/-- An unencoded response that is exactly the bytes from an offset on. -/
structure Exact (status : Nat) (headers : HeaderMap) (offset total : Nat) : Prop where
  plain : ∀ v ∈ headers.lookup "content-encoding", v = identity
  range : (offset = 0 ∧ status = 200 ∧ headers.lookup "content-range" = none) ∨
    (status = 206 ∧ ∃ start stop size : Bytes, headers.lookup "content-range"
        = some (bytesUnit ++ (start ++ 45 :: stop) ++ 47 :: size) ∧
      (bytesUnit ++ (start ++ 45 :: stop) ++ 47 :: size).length ≤ 128 ∧
      Digits start offset ∧ Digits stop (total - 1) ∧ Digits size total)
  length : ∀ v ∈ headers.lookup "content-length", Digits v (total - offset)

theorem decimal_ok {value : Bytes} {n : Nat} (hn : n < 2 ^ 64) :
    decimal value = .ok n ↔ Digits value n := by
  simp only [decimal, bind_ok, bailIf_ok, context_ok, not_or]
  constructor
  · intro h
    obtain ⟨_, ⟨hne, hall⟩, hvalue⟩ := h
    by_cases hlt : number value < 2 ^ 64
    · rw [if_pos hlt, Option.some.injEq] at hvalue
      exact ⟨hne, Bool.not_eq_false _ ▸ hall, hvalue⟩
    · rw [if_neg hlt] at hvalue
      cases hvalue
  · intro h
    refine ⟨(), ⟨h.nonempty, ?_⟩, ?_⟩
    · rw [h.digits]
      exact Bool.noConfusion
    · rw [h.number, if_pos hn]

theorem splitOnce_some {sep : UInt8} {value front back : Bytes} :
    splitOnce sep value = some (front, back) ↔ value = front ++ sep :: back ∧ sep ∉ front := by
  induction value generalizing front with
  | nil =>
    constructor
    · intro h
      cases h
    · intro h
      exact absurd h.1 (by simp)
  | cons b bs ih =>
    rw [splitOnce]
    by_cases hb : b = sep
    · subst hb
      rw [if_pos rfl, Option.some.injEq, Prod.mk.injEq]
      constructor
      · intro h
        obtain ⟨rfl, rfl⟩ := h
        exact ⟨rfl, List.not_mem_nil⟩
      · intro h
        obtain ⟨heq, hnot⟩ := h
        cases front with
        | nil => exact ⟨rfl, (List.cons.inj heq).2⟩
        | cons a as =>
          obtain ⟨rfl, -⟩ := List.cons.inj heq
          exact absurd (List.mem_cons_self ..) hnot
    · rw [if_neg hb, Option.map_eq_some_iff]
      constructor
      · intro h
        obtain ⟨⟨xs, ys⟩, hsplit, heq⟩ := h
        obtain ⟨rfl, rfl⟩ := Prod.mk.inj heq
        obtain ⟨hvalue, hnot⟩ := ih.mp hsplit
        refine ⟨by rw [hvalue, List.cons_append], ?_⟩
        intro hmem
        rcases List.mem_cons.mp hmem with heq | hmem
        · exact hb heq.symm
        · exact hnot hmem
      · intro h
        obtain ⟨heq, hnot⟩ := h
        cases front with
        | nil => exact absurd (List.cons.inj heq).1 hb
        | cons a as =>
          obtain ⟨rfl, htail⟩ := List.cons.inj heq
          exact ⟨(as, back), ih.mpr ⟨htail, fun hmem => hnot (List.mem_cons_of_mem _ hmem)⟩, rfl⟩

theorem stripPrefix_some {text value rest : Bytes} :
    stripPrefix text value = some rest ↔ value = text ++ rest := by
  unfold stripPrefix
  by_cases h : value.take text.length = text
  · rw [if_pos h, Option.some.injEq]
    constructor
    · intro hrest
      rw [← hrest]
      conv_lhs => rw [← List.take_append_drop text.length value, h]
    · intro hvalue
      rw [hvalue, List.drop_left]
  · rw [if_neg h]
    constructor
    · intro hnone
      cases hnone
    · intro hvalue
      exact absurd (by rw [hvalue, List.take_left]) h

theorem toStr_some {value text : Bytes} : toStr value = some text ↔
    text = value ∧ (value.all fun b => (32 ≤ b.toNat && b.toNat < 127) || b.toNat == 9) = true := by
  unfold toStr
  split
  · rename_i h
    rw [Option.some.injEq]
    exact ⟨fun he => ⟨he.symm, h⟩, fun he => he.1.symm⟩
  · rename_i h
    constructor
    · intro he
      cases he
    · intro he
      exact absurd he.2 h

/-- Digits contain no separator, and nothing that is not visible. -/
theorem Digits.plain {value : Bytes} {n : Nat} (h : Digits value n) : 45 ∉ value ∧ 47 ∉ value ∧
    (value.all fun b => (32 ≤ b.toNat && b.toNat < 127) || b.toNat == 9) = true := by
  have hdigit : ∀ b ∈ value, 48 ≤ b.toNat ∧ b.toNat ≤ 57 := by
    intro b hb
    have hb := List.all_eq_true.mp h.digits b hb
    simpa only [isDigit, Bool.and_eq_true, decide_eq_true_eq] using hb
  refine ⟨?_, ?_, ?_⟩
  · intro hmem
    have hb := (hdigit 45 hmem).1
    exact absurd hb (by decide)
  · intro hmem
    have hb := (hdigit 47 hmem).1
    exact absurd hb (by decide)
  · rw [List.all_eq_true]
    intro b hb
    obtain ⟨hlow, hhigh⟩ := hdigit b hb
    have hvisible : (32 ≤ b.toNat && b.toNat < 127) = true := by
      rw [Bool.and_eq_true, decide_eq_true_eq, decide_eq_true_eq]
      omega
    rw [hvisible, Bool.true_or]

theorem validateRange_ok {headers : HeaderMap} {offset total : Nat} (htotal : 0 < total)
    (hlt : total < 2 ^ 64) (hle : offset ≤ total) : validateRange headers offset total = .ok () ↔
      ∃ start stop size : Bytes, headers.lookup "content-range"
          = some (bytesUnit ++ (start ++ 45 :: stop) ++ 47 :: size) ∧
        (bytesUnit ++ (start ++ 45 :: stop) ++ 47 :: size).length ≤ 128 ∧
        Digits start offset ∧ Digits stop (total - 1) ∧ Digits size total := by
  simp only [validateRange, bind_ok, context_ok, Option.filter_eq_some_iff, Option.bind_eq_some_iff,
    Prod.exists, bailIf_ok, not_not, sub_ok, toStr_some, stripPrefix_some, splitOnce_some,
    decide_eq_true_eq, exists_const]
  constructor
  · intro h
    obtain ⟨raw, ⟨⟨_, hheader, rfl, -⟩, hlen⟩, range, size, ⟨_, rfl, rfl, -⟩, start, stop, ⟨rfl, -⟩,
      n, hstart, hn, m, hstop, _, ⟨-, rfl⟩, hm, k, hsize, hk⟩ := h
    rw [hn] at hstart
    rw [hm] at hstop
    rw [hk] at hsize
    refine ⟨start, stop, size, ?_, ?_, (decimal_ok (by omega)).mp hstart,
      (decimal_ok (by omega)).mp hstop, (decimal_ok hlt).mp hsize⟩
    · rw [hheader, List.append_assoc bytesUnit]
    · rw [List.append_assoc bytesUnit]
      exact hlen
  · intro h
    obtain ⟨start, stop, size, hheader, hlen, hstart, hstop, hsize⟩ := h
    obtain ⟨hstart₄₅, hstart₄₇, hstart_plain⟩ := hstart.plain
    obtain ⟨-, hstop₄₇, hstop_plain⟩ := hstop.plain
    obtain ⟨-, -, hsize_plain⟩ := hsize.plain
    rw [List.append_assoc bytesUnit] at hheader hlen
    have hrange : 47 ∉ start ++ 45 :: stop := by
      rw [List.mem_append, List.mem_cons]
      intro hmem
      rcases hmem with hmem | hmem | hmem
      · exact hstart₄₇ hmem
      · exact absurd hmem (by decide)
      · exact hstop₄₇ hmem
    have hvisible : (bytesUnit ++ (start ++ 45 :: stop ++ 47 :: size)).all
        (fun b => (32 ≤ b.toNat && b.toNat < 127) || b.toNat == 9) = true := by
      rw [List.all_append, List.all_append, List.all_append, List.all_cons, List.all_cons,
        hstart_plain, hstop_plain, hsize_plain]
      decide
    exact ⟨_, ⟨⟨_, hheader, rfl, hvisible⟩, hlen⟩, _, size, ⟨_, rfl, rfl, hrange⟩, start, stop,
      ⟨rfl, hstart₄₅⟩, _, (decimal_ok (by omega)).mpr hstart, rfl, _,
      (decimal_ok (by omega)).mpr hstop, _, ⟨htotal, rfl⟩, rfl, _, (decimal_ok hlt).mpr hsize, rfl⟩

theorem validateLength_ok {headers : HeaderMap} {offset total : Nat} (hlt : total < 2 ^ 64)
    (hle : offset ≤ total) : validateLength headers offset total = .ok () ↔
      ∀ v ∈ headers.lookup "content-length", Digits v (total - offset) := by
  unfold validateLength
  cases headers.lookup "content-length" with
  | none => exact iff_of_true rfl fun v hv => absurd hv (Option.not_mem_none v)
  | some v =>
    simp only [bind_ok, context_ok, toStr_some, bailIf_ok, sub_ok, not_not, Option.mem_some_iff,
      forall_eq']
    constructor
    · intro h
      obtain ⟨_, ⟨rfl, -⟩, n, hn, _, ⟨-, rfl⟩, rfl⟩ := h
      exact (decimal_ok (by omega)).mp hn
    · intro h
      exact ⟨v, ⟨rfl, h.plain.2.2⟩, _, (decimal_ok (by omega)).mpr h, _, ⟨hle, rfl⟩, rfl⟩

theorem validateHeaders_ok {status : Nat} {headers : HeaderMap} {offset total : Nat}
    (htotal : 0 < total) (hlt : total < 2 ^ 64) (hle : offset ≤ total) :
    validateHeaders status headers offset total = .ok () ↔ Exact status headers offset total := by
  have hplain : ¬((headers.lookup "content-encoding").any (· ≠ identity)) = true ↔
      ∀ v ∈ headers.lookup "content-encoding", v = identity := by
    cases headers.lookup "content-encoding" with
    | none => simp
    | some v => simp
  have hrange : validateStatus status headers offset total = .ok () ↔
      (offset = 0 ∧ status = 200 ∧ headers.lookup "content-range" = none) ∨
      (status = 206 ∧ ∃ start stop size : Bytes, headers.lookup "content-range"
          = some (bytesUnit ++ (start ++ 45 :: stop) ++ 47 :: size) ∧
        (bytesUnit ++ (start ++ 45 :: stop) ++ 47 :: size).length ≤ 128 ∧
        Digits start offset ∧ Digits stop (total - 1) ∧ Digits size total) := by
    unfold validateStatus
    by_cases hpart : 0 < offset ∨ status = 206
    · rw [if_pos hpart]
      simp only [bind_ok, bailIf_ok, not_not, validateRange_ok htotal hlt hle, exists_const]
      constructor
      · exact .inr
      · intro h
        rcases h with ⟨hzero, hstatus, -⟩ | h
        · omega
        · exact h
    · rw [if_neg hpart, bailIf_ok, not_or, not_not, Bool.not_eq_true, Option.isSome_eq_false_iff,
        Option.isNone_iff_eq_none]
      constructor
      · intro h
        exact .inl ⟨by omega, h⟩
      · intro h
        rcases h with ⟨-, h⟩ | ⟨hstatus, -⟩
        · exact h
        · exact absurd (.inr hstatus) hpart
  simp only [validateHeaders, bind_ok, bailIf_ok, hplain, exists_const]
  constructor
  · intro h
    obtain ⟨hv, _, hs, hl⟩ := h
    exact ⟨hv, hrange.mp hs, (validateLength_ok hlt hle).mp hl⟩
  · intro h
    exact ⟨h.plain, (), hrange.mpr h.range, (validateLength_ok hlt hle).mpr h.length⟩

theorem validateHeaders_safe {status : Nat} {headers : HeaderMap} {offset total : Nat}
    (htotal : 0 < total) (hle : offset ≤ total) : Safe (validateHeaders status headers offset total) := by
  have hdecimal : ∀ value : Bytes, Safe (decimal value) := fun value =>
    (Safe.bailIf _ _).bind fun _ _ => Safe.context _ _
  have hstatus : Safe (validateStatus status headers offset total) := by
    unfold validateStatus
    split
    · refine (Safe.bailIf _ _).bind fun _ _ => (Safe.context _ _).bind fun raw _ => ?_
      refine (Safe.context _ _).bind fun range _ => (Safe.context _ _).bind fun parts _ => ?_
      refine (hdecimal _).bind fun _ _ => (Safe.bailIf _ _).bind fun _ _ => ?_
      refine (hdecimal _).bind fun _ _ => (Safe.sub htotal).bind fun _ _ => ?_
      refine (Safe.bailIf _ _).bind fun _ _ => (hdecimal _).bind fun _ _ => Safe.bailIf _ _
    · exact Safe.bailIf _ _
  have hlength : Safe (validateLength headers offset total) := by
    unfold validateLength
    split
    · exact Safe.ok ()
    · refine (Safe.context _ _).bind fun _ _ => (hdecimal _).bind fun _ _ => ?_
      exact (Safe.sub hle).bind fun _ _ => Safe.bailIf _ _
  exact (Safe.bailIf _ _).bind fun _ _ => hstatus.bind fun _ _ => hlength

/-! ## The invariant -/

/-- The bytes of some pieces. -/
def bytesOf (pieces : List Piece) : Bytes := (pieces.map Piece.bytes).flatten

/-- The last pieces are what was written of a response; it was asked for what follows the others. -/
def Reading (r : Response) (pieces : List Piece) : Prop :=
  ∃ before same, pieces = before ++ same ∧ (bytesOf before).length = r.start ∧
    ∀ q ∈ same, q.response = r

/-- What holds of a transfer at any time, also after it failed. -/
structure Run (total : Nat) (t : Transfer) : Prop where
  bound : t.file.length ≤ total
  pieces : bytesOf t.pieces = t.file
  exact : ∀ q ∈ t.pieces, Exact q.response.status q.response.headers q.response.start total
  placed : ∀ front q back, t.pieces = front ++ q :: back → Reading q.response front

/-- What holds of a transfer that goes on: what is hashed is what is in the file. -/
structure Live (total : Nat) (t : Transfer) : Prop where
  run : Run total t
  hashed : t.hashed = t.file
  count : t.count = t.file.length

@[simp] theorem bytesOf_append (ps qs : List Piece) :
    bytesOf (ps ++ qs) = bytesOf ps ++ bytesOf qs := by
  rw [bytesOf, List.map_append, List.flatten_append, bytesOf, bytesOf]

theorem bytesOf_one (q : Piece) : bytesOf [q] = q.bytes := List.append_nil _

/-- Writing a piece of the response that is read. -/
theorem Run.put {total : Nat} {t : Transfer} {r : Response} {bytes : Bytes} (h : Run total t)
    (hexact : Exact r.status r.headers r.start total) (hreading : Reading r t.pieces)
    (hfit : t.file.length + bytes.length ≤ total) : Run total (t.put r bytes) := by
  constructor
  · show (t.file ++ bytes).length ≤ total
    rw [List.length_append]
    exact hfit
  · show bytesOf (t.pieces ++ [⟨r, bytes⟩]) = t.file ++ bytes
    rw [bytesOf_append, bytesOf_one, h.pieces]
  · intro q hq
    rcases List.mem_append.mp hq with hq | hq
    · exact h.exact q hq
    · rw [List.mem_singleton.mp hq]
      exact hexact
  · intro front q back hsplit
    have hsplit : t.pieces ++ [⟨r, bytes⟩] = front ++ q :: back := hsplit
    -- the piece is the new one, or stands where it stood
    rcases List.eq_nil_or_concat back with rfl | ⟨back', last, rfl⟩
    · obtain ⟨hfront, hq⟩ := List.append_inj' hsplit rfl
      obtain rfl : (⟨r, bytes⟩ : Piece) = q := List.singleton_inj.mp hq
      rw [← hfront]
      exact hreading
    · rw [List.concat_eq_append, ← List.cons_append, ← List.append_assoc] at hsplit
      exact h.placed front q back' (List.append_inj' hsplit rfl).1

theorem Reading.put {r : Response} {t : Transfer} {bytes : Bytes} (h : Reading r t.pieces) :
    Reading r (t.put r bytes).pieces := by
  obtain ⟨before, same, hsplit, hstart, hsame⟩ := h
  refine ⟨before, same ++ [⟨r, bytes⟩], ?_, hstart, ?_⟩
  · show t.pieces ++ [⟨r, bytes⟩] = _
    rw [hsplit, List.append_assoc]
  · intro q hq
    rcases List.mem_append.mp hq with hq | hq
    · exact hsame q hq
    · rw [List.mem_singleton.mp hq]

/-! ## One response -/

/-- What a body gives, from a count on, where nothing fails but the connection. -/
inductive Reads (total : Nat) : Nat → List Item → Bytes → Prop
  | ended (count : Nat) : Reads total count [] []
  | broken (count : Nat) (rest : List Item) : Reads total count (.broken :: rest) []
  | chunk {count : Nat} {bytes data : Bytes} {rest : List Item} {space progress : Result Unit}
      (hfit : count + bytes.length ≤ total) (hspace : failure space = none)
      (hprogress : failure progress = none)
      (hrest : Reads total (count + bytes.length) rest data) :
      Reads total count (.chunk bytes space .done progress :: rest) (bytes ++ data)

variable {total : Nat} {t : Transfer} {r : Response}

/-- A chunk that is written and accounted for. -/
def Transfer.took (t : Transfer) (r : Response) (bytes : Bytes) : Transfer :=
  { t.put r bytes with hashed := t.hashed ++ bytes, count := t.count + bytes.length }

theorem Live.took {bytes : Bytes} (h : Live total t) (hexact : Exact r.status r.headers r.start total)
    (hreading : Reading r t.pieces) (hfit : t.count + bytes.length ≤ total) :
    Live total (t.took r bytes) := by
  have hput := h.run.put hexact hreading (h.count ▸ hfit)
  refine ⟨⟨hput.bound, hput.pieces, hput.exact, hput.placed⟩, ?_, ?_⟩
  · show t.hashed ++ bytes = t.file ++ bytes
    rw [h.hashed]
  · show t.count + bytes.length = (t.file ++ bytes).length
    rw [List.length_append, h.count]

/-- A chunk for which nothing fails before the report of its progress. -/
theorem chunk_took (hlt : total < 2 ^ 64) {bytes : Bytes} {space progress : Result Unit}
    (hfit : t.count + bytes.length ≤ total) (hspace : failure space = none) :
    t.chunk total r bytes space .done progress = (t.took r bytes, failure progress) := by
  have hnext : checkedAdd 64 t.count bytes.length = some (t.count + bytes.length) :=
    checkedAdd_some.mpr ⟨by omega, rfl⟩
  simp only [Transfer.chunk, hnext]
  rw [if_neg (by omega), if_neg (by omega), hspace]
  rfl

/-- How one chunk ends: written as a whole, written in part, or not at all. -/
theorem chunk_cases (hcount : t.count ≤ total) (bytes : Bytes)
    (space : Result Unit) (write : Write) (progress : Result Unit) :
    (t.count + bytes.length ≤ total ∧ failure space = none ∧ write = .done ∧
      t.chunk total r bytes space write progress = (t.took r bytes, failure progress)) ∨
    (∃ part e, write ≠ .done ∧ e ≠ .panic ∧ t.count + bytes.length ≤ total ∧
      t.chunk total r bytes space write progress = (t.put r (bytes.take part), some e)) ∨
    (∃ e, e ≠ .panic ∧ t.chunk total r bytes space write progress = (t, some e)) := by
  unfold Transfer.chunk
  by_cases hadd : t.count + bytes.length < 2 ^ 64
  · have hnext : checkedAdd 64 t.count bytes.length = some (t.count + bytes.length) :=
      checkedAdd_some.mpr ⟨hadd, rfl⟩
    simp only [hnext]
    by_cases hlarge : total < t.count + bytes.length
    · rw [if_pos hlarge]
      exact .inr (.inr ⟨_, Fault.noConfusion, rfl⟩)
    · rw [if_neg hlarge, if_neg (Nat.not_lt.mpr hcount)]
      have hfit := Nat.not_lt.mp hlarge
      cases hs : failure space with
      | some e =>
        refine .inr (.inr ⟨e, ?_, rfl⟩)
        cases space with
        | ok u => cases hs
        | error msg =>
          cases hs
          exact Fault.noConfusion
      | none =>
        cases write with
        | done => exact .inl ⟨hfit, rfl, rfl, rfl⟩
        | failed part msg =>
          exact .inr (.inl ⟨part, _, Write.noConfusion, Fault.noConfusion, hfit, rfl⟩)
        | elapsed part =>
          exact .inr (.inl ⟨part, _, Write.noConfusion, Fault.noConfusion, hfit, rfl⟩)
  · have hnext : checkedAdd 64 t.count bytes.length = none := if_neg hadd
    simp only [hnext]
    exact .inr (.inr ⟨_, Fault.noConfusion, rfl⟩)

theorem readBody_chunk {bytes : Bytes} {space progress : Result Unit} {write : Write}
    {rest : List Item} {t' : Transfer} (h : t.chunk total r bytes space write progress = (t', none)) :
    t.readBody total r (.chunk bytes space write progress :: rest) = t'.readBody total r rest := by
  rw [Transfer.readBody, h]

theorem readBody_error {bytes : Bytes} {space progress : Result Unit} {write : Write}
    {rest : List Item} {t' : Transfer} {e : Fault}
    (h : t.chunk total r bytes space write progress = (t', some e)) :
    t.readBody total r (.chunk bytes space write progress :: rest) = (t', some e) := by
  rw [Transfer.readBody, h]

theorem failure_ne_panic {result : Result Unit} {e : Fault} (h : failure result = some e) :
    e ≠ .panic := by
  cases result with
  | ok u => cases h
  | error msg =>
    cases h
    exact Fault.noConfusion

/-- How reading a body ends: the invariant holds, and the transfer goes on exactly if the body gives
some bytes, which then are what was added to the file. -/
structure BodySpec (total : Nat) (t : Transfer) (items : List Item)
    (out : Transfer × Option Fault) : Prop where
  run : Run total out.1
  safe : out.2 ≠ some .panic
  live : out.2 = none → Live total out.1
  sound : out.2 = none → ∃ data, Reads total t.count items data
  complete : ∀ data, Reads total t.count items data → out.2 = none ∧ out.1.file = t.file ++ data

theorem BodySpec.error {items : List Item} {t' : Transfer} {e : Fault} (hrun : Run total t')
    (he : e ≠ .panic) (hno : ∀ data, ¬Reads total t.count items data) :
    BodySpec total t items (t', some e) := by
  refine ⟨hrun, ?_, ?_, ?_, fun data hdata => absurd hdata (hno data)⟩
  · intro h
    exact he (Option.some.inj h)
  · intro h
    cases h
  · intro h
    cases h

theorem BodySpec.nothing {items : List Item} (h : Live total t)
    (hreads : ∀ data, Reads total t.count items data ↔ data = []) :
    BodySpec total t items (t, none) := by
  refine ⟨h.run, ?_, fun _ => h, fun _ => ⟨[], (hreads []).mpr rfl⟩, ?_⟩
  · intro hp
    cases hp
  · intro data hdata
    rw [(hreads data).mp hdata, List.append_nil]
    exact ⟨rfl, rfl⟩

theorem readBody_spec (hlt : total < 2 ^ 64) (h : Live total t)
    (hexact : Exact r.status r.headers r.start total)
    (hreading : Reading r t.pieces) (items : List Item) :
    BodySpec total t items (t.readBody total r items) := by
  induction items generalizing t with
  | nil =>
    refine BodySpec.nothing h fun data => ⟨fun hd => ?_, fun hd => hd ▸ .ended _⟩
    cases hd
    rfl
  | cons item rest ih =>
    cases item with
    | broken =>
      refine BodySpec.nothing h fun data => ⟨fun hd => ?_, fun hd => hd ▸ .broken _ _⟩
      cases hd
      rfl
    | elapsed =>
      refine BodySpec.error h.run Fault.noConfusion fun data hd => ?_
      cases hd
    | chunk bytes space write progress =>
      have hcount : t.count ≤ total := h.count ▸ h.run.bound
      have hcases := chunk_cases (r := r) hcount bytes space write progress
      -- a chunk that is not taken as a whole gives nothing
      have hwhole : ∀ data, Reads total t.count (.chunk bytes space write progress :: rest) data →
          t.chunk total r bytes space write progress = (t.took r bytes, none) := by
        intro data hd
        cases hd with
        | chunk hfit hspace hprogress hrest =>
          rw [chunk_took hlt hfit hspace, hprogress]
      rcases hcases with
        ⟨hfit, hspace, rfl, hchunk⟩ | ⟨part, e, -, he, hfit, hchunk⟩ | ⟨e, he, hchunk⟩
      · have htook := h.took hexact hreading hfit
        cases hprogress : failure progress with
        | some e =>
          rw [hprogress] at hchunk
          rw [readBody_error hchunk]
          refine BodySpec.error htook.run (failure_ne_panic hprogress) fun data hd => ?_
          exact Option.some_ne_none e (congrArg Prod.snd (hchunk.symm.trans (hwhole data hd)))
        | none =>
          rw [hprogress] at hchunk
          rw [readBody_chunk hchunk]
          have hrest := ih htook (Reading.put hreading)
          refine ⟨hrest.run, hrest.safe, hrest.live, ?_, ?_⟩
          · intro hnone
            obtain ⟨data, hdata⟩ := hrest.sound hnone
            exact ⟨bytes ++ data, .chunk hfit hspace hprogress hdata⟩
          · intro data hdata
            cases hdata with
            | chunk _ _ _ hdata =>
              obtain ⟨hnone, hfile⟩ := hrest.complete _ hdata
              refine ⟨hnone, ?_⟩
              rw [hfile, ← List.append_assoc]
              rfl
      · rw [readBody_error hchunk]
        have hpart : (bytes.take part).length ≤ bytes.length := List.length_take_le' _ _
        have hput : Run total (t.put r (bytes.take part)) :=
          h.run.put hexact hreading (by have := h.count; omega)
        refine BodySpec.error hput he fun data hd => ?_
        exact Option.some_ne_none e (congrArg Prod.snd (hchunk.symm.trans (hwhole data hd)))
      · rw [readBody_error hchunk]
        refine BodySpec.error h.run he fun data hd => ?_
        exact Option.some_ne_none e (congrArg Prod.snd (hchunk.symm.trans (hwhole data hd)))

/-! ## One attempt -/

variable {sha : Bytes → String} {artifact : GgufArtifact} {a : Attempt}

/-- A response to an attempt: nothing fails before it, and its headers are those of the bytes from
the count on. -/
structure Responds (total count : Nat) (a : Attempt) (body : List Item) : Prop where
  space : failure a.space = none
  progress : failure a.progress = none
  sent : ∃ status headers, a.sent = .response status headers body ∧ Exact status headers count total

/-- An attempt gives some bytes, from a count on. -/
def Gives (total count : Nat) (a : Attempt) (data : Bytes) : Prop :=
  ∃ body, Responds total count a body ∧ Reads total count body data

/-- An attempt after which the next one is made: its request fails, or its response ends early. -/
inductive Passes (total count : Nat) (a : Attempt) : Bytes → Prop
  | refused (hspace : failure a.space = none) (hprogress : failure a.progress = none)
      (hsent : a.sent = .failed) (hslept : a.slept = true) : Passes total count a []
  | short {data : Bytes} (hgives : Gives total count a data)
      (hshort : count + data.length < total) (hslept : a.slept = true) : Passes total count a data

/-- How an attempt ends: the next one is made exactly if it passes, and the transfer succeeds exactly
if it gives the rest of a file with the pinned digest. -/
structure AttemptSpec (sha : Bytes → String) (artifact : GgufArtifact) (t : Transfer) (a : Attempt)
    (out : Transfer × Except Fault (Option String)) : Prop where
  run : Run artifact.bytes out.1
  safe : out.2 ≠ .error .panic
  live : out.2 = .ok none → Live artifact.bytes out.1 ∧ out.1.count < artifact.bytes
  next : ∀ data, Passes artifact.bytes t.count a data →
    out.2 = .ok none ∧ out.1.file = t.file ++ data
  passed : out.2 = .ok none → ∃ data, Passes artifact.bytes t.count a data
  whole : ∀ data, Gives artifact.bytes t.count a data → t.count + data.length = artifact.bytes →
    sha (t.file ++ data) = asciiLower artifact.sha256 →
    out.2 = .ok (some (asciiLower artifact.sha256)) ∧ out.1.file = t.file ++ data
  ended : ∀ digest, out.2 = .ok (some digest) → ∃ data, Gives artifact.bytes t.count a data ∧
    t.count + data.length = artifact.bytes ∧ sha (t.file ++ data) = asciiLower artifact.sha256 ∧
    digest = asciiLower artifact.sha256

/-- An attempt that fails without a panic, and gives nothing. -/
theorem AttemptSpec.error {t' : Transfer} {e : Fault} (hrun : Run artifact.bytes t')
    (he : e ≠ .panic) (hnext : ∀ data, ¬Passes artifact.bytes t.count a data)
    (hwhole : ∀ data, Gives artifact.bytes t.count a data → t.count + data.length = artifact.bytes →
      sha (t.file ++ data) ≠ asciiLower artifact.sha256) :
    AttemptSpec sha artifact t a (t', .error e) := by
  refine ⟨hrun, ?_, ?_, fun data hd => absurd hd (hnext data), ?_,
    fun data hd hlen hsha => absurd hsha (hwhole data hd hlen), ?_⟩
  · intro h
    exact he (Except.error.inj h)
  · intro h
    cases h
  · intro h
    cases h
  · intro digest h
    cases h

/-- An attempt for which a callback fails before the request, or which gets a bad response. -/
theorem AttemptSpec.nothing {e : Fault} (hrun : Run artifact.bytes t) (he : e ≠ .panic)
    (hgives : ∀ data, ¬Gives artifact.bytes t.count a data)
    (hrefused : ¬(failure a.space = none ∧ failure a.progress = none ∧ a.sent = .failed ∧
      a.slept = true)) :
    AttemptSpec sha artifact t a (t, .error e) := by
  refine AttemptSpec.error hrun he ?_ fun data hd => absurd hd (hgives data)
  intro data hd
  cases hd with
  | refused hspace hprogress hsent hslept => exact hrefused ⟨hspace, hprogress, hsent, hslept⟩
  | short h _ _ => exact hgives data h

theorem pause_spec (h : Live artifact.bytes t) (hcount : t.count < artifact.bytes)
    (hspace : failure a.space = none) (hprogress : failure a.progress = none)
    (hsent : a.sent = .failed) (hgives : ∀ data, ¬Gives artifact.bytes t.count a data) :
    AttemptSpec sha artifact t a (t.pause a.slept) := by
  unfold Transfer.pause
  by_cases hslept : a.slept = true
  · rw [if_pos hslept]
    refine ⟨h.run, ?_, fun _ => ⟨h, hcount⟩, ?_, fun _ => ⟨[], .refused hspace hprogress hsent hslept⟩,
      fun data hd => absurd hd (hgives data), ?_⟩
    · intro he
      cases he
    · intro data hd
      cases hd with
      | refused _ _ _ _ => exact ⟨rfl, (List.append_nil _).symm⟩
      | short hd _ _ => exact absurd hd (hgives data)
    · intro digest he
      cases he
  · rw [if_neg hslept]
    exact AttemptSpec.nothing h.run Fault.noConfusion hgives fun hd => hslept hd.2.2.2

/-- What follows a body that gave `data` and nothing else. -/
theorem settle_spec {t' : Transfer} {data : Bytes} (h : Live artifact.bytes t)
    (hlive : Live artifact.bytes t') (hfile : t'.file = t.file ++ data)
    (hgives : Gives artifact.bytes t.count a data)
    (honly : ∀ other, Gives artifact.bytes t.count a other → other = data)
    (hno : ∀ other, Passes artifact.bytes t.count a other → Gives artifact.bytes t.count a other ∧
      t.count + other.length < artifact.bytes ∧ a.slept = true) :
    AttemptSpec sha artifact t a (t'.settle sha artifact a.slept) := by
  have hcount : t'.count = t.count + data.length := by
    rw [hlive.count, hfile, List.length_append, h.count]
  unfold Transfer.settle
  by_cases hwhole : t'.count = artifact.bytes
  · have hnext : ∀ other, ¬Passes artifact.bytes t.count a other := by
      intro other ho
      obtain ⟨hg, hshort, -⟩ := hno other ho
      rw [honly other hg] at hshort
      omega
    rw [if_pos hwhole]
    by_cases hsha : sha t'.hashed = asciiLower artifact.sha256
    · have hdigest : sha (t.file ++ data) = asciiLower artifact.sha256 := by
        rw [← hfile, ← hlive.hashed]
        exact hsha
      rw [if_neg (not_not.mpr hsha), hsha]
      refine ⟨hlive.run, ?_, ?_, fun other ho => absurd ho (hnext other), ?_, ?_, ?_⟩
      · intro he
        cases he
      · intro he
        cases he
      · intro he
        cases he
      · intro other ho _ _
        rw [honly other ho]
        exact ⟨rfl, hfile⟩
      · intro digest he
        cases he
        exact ⟨data, hgives, hcount ▸ hwhole, hdigest, rfl⟩
    · rw [if_pos hsha]
      refine AttemptSpec.error hlive.run Fault.noConfusion hnext ?_
      intro other ho _
      rw [honly other ho, ← hfile, ← hlive.hashed]
      exact hsha
  · have hbound := hlive.run.bound
    rw [← hlive.count] at hbound
    rw [if_neg hwhole, Transfer.pause]
    by_cases hslept : a.slept = true
    · rw [if_pos hslept]
      refine ⟨hlive.run, ?_, fun _ => ⟨hlive, Nat.lt_of_le_of_ne hbound hwhole⟩, ?_,
        fun _ => ⟨data, .short hgives (by omega) hslept⟩, ?_, ?_⟩
      · intro he
        cases he
      · intro other ho
        rw [honly other (hno other ho).1]
        exact ⟨rfl, hfile⟩
      · intro other ho hlen _
        rw [honly other ho] at hlen
        omega
      · intro digest he
        cases he
    · rw [if_neg hslept]
      refine AttemptSpec.error hlive.run Fault.noConfusion ?_ ?_
      · intro other ho
        exact hslept (hno other ho).2.2
      · intro other ho hlen
        rw [honly other ho] at hlen
        omega

variable (sha a) in
theorem attempt_spec (hbytes : 0 < artifact.bytes) (hlt : artifact.bytes < 2 ^ 64)
    (h : Live artifact.bytes t) (hcount : t.count < artifact.bytes) :
    AttemptSpec sha artifact t a (t.attempt sha artifact a) := by
  have hsent : ∀ {data}, Gives artifact.bytes t.count a data → failure a.space = none ∧
      failure a.progress = none ∧ ∃ status headers body, a.sent = .response status headers body ∧
        Exact status headers t.count artifact.bytes ∧ Reads artifact.bytes t.count body data := by
    intro data hd
    obtain ⟨body, hresponds, hreads⟩ := hd
    obtain ⟨status, headers, hsent, hexact⟩ := hresponds.sent
    exact ⟨hresponds.space, hresponds.progress, status, headers, body, hsent, hexact, hreads⟩
  unfold Transfer.attempt
  rw [if_neg (Nat.not_lt.mpr hcount.le)]
  cases hspace : failure a.space with
  | some e =>
    refine AttemptSpec.nothing h.run (failure_ne_panic hspace) ?_ ?_
    · intro data hd
      rw [(hsent hd).1] at hspace
      cases hspace
    · intro hd
      rw [hd.1] at hspace
      cases hspace
  | none =>
    cases hprogress : failure a.progress with
    | some e =>
      refine AttemptSpec.nothing h.run (failure_ne_panic hprogress) ?_ ?_
      · intro data hd
        rw [(hsent hd).2.1] at hprogress
        cases hprogress
      · intro hd
        rw [hd.2.1] at hprogress
        cases hprogress
    | none =>
      simp only
      cases hs : a.sent with
      | failed =>
        have hgives : ∀ data, ¬Gives artifact.bytes t.count a data := by
          intro data hd
          obtain ⟨-, -, status, headers, body, hresponse, -⟩ := hsent hd
          rw [hs] at hresponse
          cases hresponse
        exact pause_spec h hcount hspace hprogress hs hgives
      | elapsed =>
        refine AttemptSpec.nothing h.run Fault.noConfusion ?_ ?_
        · intro data hd
          obtain ⟨-, -, status, headers, body, hresponse, -⟩ := hsent hd
          rw [hs] at hresponse
          cases hresponse
        · intro hd
          rw [hs] at hd
          cases hd.2.2.1
      | response status headers body =>
        have hnot : ¬(failure a.space = none ∧ failure a.progress = none ∧ a.sent = .failed ∧
            a.slept = true) := by
          intro hd
          rw [hs] at hd
          cases hd.2.2.1
        have honly : ∀ {data}, Gives artifact.bytes t.count a data →
            Exact status headers t.count artifact.bytes ∧ Reads artifact.bytes t.count body data := by
          intro data hd
          obtain ⟨-, -, status', headers', body', hresponse, hexact, hreads⟩ := hsent hd
          rw [hs] at hresponse
          cases hresponse
          exact ⟨hexact, hreads⟩
        cases hv : validateHeaders status headers t.count artifact.bytes with
        | error e =>
          simp only [hv]
          refine AttemptSpec.nothing h.run ?_ ?_ hnot
          · intro he
            rw [he] at hv
            exact validateHeaders_safe hbytes hcount.le hv
          · intro data hd
            rw [(validateHeaders_ok hbytes hlt hcount.le).mpr (honly hd).1] at hv
            cases hv
        | ok u =>
          have hexact := (validateHeaders_ok hbytes hlt hcount.le).mp hv
          have hreading : Reading ⟨t.count, status, headers⟩ t.pieces := by
            refine ⟨t.pieces, [], (List.append_nil _).symm, ?_, fun q hq => absurd hq List.not_mem_nil⟩
            rw [h.run.pieces, h.count]
          have hbody := readBody_spec (r := ⟨t.count, status, headers⟩) hlt h hexact hreading body
          simp only [hv]
          cases hout : t.readBody artifact.bytes ⟨t.count, status, headers⟩ body with
          | mk t' fault =>
            rw [hout] at hbody
            have hno : ∀ data, Passes artifact.bytes t.count a data →
                Gives artifact.bytes t.count a data ∧ t.count + data.length < artifact.bytes ∧
                  a.slept = true := by
              intro data hd
              cases hd with
              | refused hspace hprogress hsent hslept =>
                exact absurd ⟨hspace, hprogress, hsent, hslept⟩ hnot
              | short hd hshort hslept => exact ⟨hd, hshort, hslept⟩
            cases fault with
            | some e =>
              refine AttemptSpec.error hbody.run ?_ ?_ ?_
              · intro he
                exact hbody.safe (congrArg some he)
              · intro data hd
                exact Option.some_ne_none e (hbody.complete data (honly (hno data hd).1).2).1
              · intro data hd
                exact absurd (hbody.complete data (honly hd).2).1 (Option.some_ne_none e)
            | none =>
              have hgives : ∀ data, Reads artifact.bytes t.count body data →
                  Gives artifact.bytes t.count a data :=
                fun data hd => ⟨body, ⟨hspace, hprogress, status, headers, hs, hexact⟩, hd⟩
              obtain ⟨data, hdata⟩ := hbody.sound rfl
              refine settle_spec h (hbody.live rfl) (hbody.complete data hdata).2 (hgives data hdata) ?_ hno
              intro other hother
              have hfile := (hbody.complete other (honly hother).2).2
              rw [(hbody.complete data hdata).2] at hfile
              exact (List.append_cancel_left hfile).symm

/-! ## A whole transfer -/

/-- Attempts that deliver the rest of a file, from a count on: all but the last one pass, and the
last one gives what is left. -/
inductive Delivers (total : Nat) (env : Nat → Attempt) : Nat → Nat → Nat → Bytes → Prop
  | whole {left n count : Nat} {data : Bytes} (hgives : Gives total count (env n) data)
      (hlen : count + data.length = total) : Delivers total env (left + 1) n count data
  | pass {left n count : Nat} {data rest : Bytes} (hpasses : Passes total count (env n) data)
      (hrest : Delivers total env left (n + 1) (count + data.length) rest) :
      Delivers total env (left + 1) n count (data ++ rest)

theorem Delivers.length {env : Nat → Attempt} {left n count : Nat} {data : Bytes}
    (h : Delivers total env left n count data) : count + data.length = total := by
  induction h with
  | whole _ hlen => exact hlen
  | pass _ _ ih =>
    rw [List.length_append]
    omega

variable {env : Nat → Attempt}

theorem attempts_error {left n : Nat} {t' : Transfer} {e : Fault}
    (h : t.attempt sha artifact (env n) = (t', .error e)) :
    t.attempts sha artifact env (left + 1) n = (t', .error e) := by
  rw [Transfer.attempts, h]

theorem attempts_done {left n : Nat} {t' : Transfer} {digest : String}
    (h : t.attempt sha artifact (env n) = (t', .ok (some digest))) :
    t.attempts sha artifact env (left + 1) n = (t', .ok digest) := by
  rw [Transfer.attempts, h]

theorem attempts_next {left n : Nat} {t' : Transfer}
    (h : t.attempt sha artifact (env n) = (t', .ok none)) :
    t.attempts sha artifact env (left + 1) n = t'.attempts sha artifact env left (n + 1) := by
  rw [Transfer.attempts, h]

variable (sha env) in
/-- The loop over the attempts that are left. -/
theorem attempts_spec (hbytes : 0 < artifact.bytes) (hlt : artifact.bytes < 2 ^ 64) (left n : Nat)
    (h : Live artifact.bytes t) (hcount : t.count < artifact.bytes) :
    Run artifact.bytes (t.attempts sha artifact env left n).1 ∧
    (t.attempts sha artifact env left n).2 ≠ .error .panic ∧
    (∀ data, Delivers artifact.bytes env left n t.count data →
      sha (t.file ++ data) = asciiLower artifact.sha256 →
      (t.attempts sha artifact env left n).2 = .ok (asciiLower artifact.sha256) ∧
      (t.attempts sha artifact env left n).1.file = t.file ++ data) ∧
    (∀ digest, (t.attempts sha artifact env left n).2 = .ok digest →
      ∃ data, Delivers artifact.bytes env left n t.count data ∧
        sha (t.file ++ data) = asciiLower artifact.sha256 ∧ digest = asciiLower artifact.sha256) := by
  induction left generalizing t n with
  | zero =>
    refine ⟨h.run, ?_, ?_, ?_⟩
    · intro he
      cases he
    · intro data hd
      cases hd
    · intro digest he
      cases he
  | succ left ih =>
    have hspec := attempt_spec sha (env n) hbytes hlt h hcount
    cases hout : t.attempt sha artifact (env n) with
    | mk t' result =>
      rw [hout] at hspec
      cases result with
      | error e =>
        rw [attempts_error hout]
        refine ⟨hspec.run, ?_, ?_, ?_⟩
        · intro he
          exact hspec.safe (congrArg Except.error (Except.error.inj he))
        · intro data hd hsha
          cases hd with
          | whole hgives hlen =>
            cases (hspec.whole data hgives hlen hsha).1
          | pass hpasses _ =>
            cases (hspec.next _ hpasses).1
        · intro digest he
          cases he
      | ok result =>
        cases result with
        | some digest =>
          obtain ⟨data, hgives, hlen, hsha, rfl⟩ := hspec.ended digest rfl
          rw [attempts_done hout]
          refine ⟨hspec.run, ?_, ?_, ?_⟩
          · intro he
            cases he
          · intro other hd hother
            cases hd with
            | whole hg hl => exact ⟨rfl, (hspec.whole other hg hl hother).2⟩
            | pass hpasses _ =>
              cases (hspec.next _ hpasses).1
          · intro other he
            exact ⟨data, .whole hgives hlen, hsha, (Except.ok.inj he).symm⟩
        | none =>
          obtain ⟨hlive, hless⟩ := hspec.live rfl
          obtain ⟨data, hpasses⟩ := hspec.passed rfl
          have hfile : t'.file = t.file ++ data := (hspec.next data hpasses).2
          have hcount' : t'.count = t.count + data.length := by
            rw [hlive.count, hfile, List.length_append, h.count]
          obtain ⟨hrun, hsafe, hdeliver, hend⟩ := ih (n + 1) hlive hless
          rw [attempts_next hout]
          refine ⟨hrun, hsafe, ?_, ?_⟩
          · intro other hd hsha
            cases hd with
            | whole hg hl =>
              cases (hspec.whole _ hg hl hsha).1
            | @pass _ _ _ front rest hp hrest =>
              have hsame : front = data := by
                have hfront : t'.file = t.file ++ front := (hspec.next _ hp).2
                exact List.append_cancel_left (hfront.symm.trans hfile)
              subst hsame
              rw [← List.append_assoc, ← hfile] at hsha ⊢
              exact hdeliver rest (hcount' ▸ hrest) hsha
          · intro digest he
            obtain ⟨rest, hrest, hsha, hdigest⟩ := hend digest he
            refine ⟨data ++ rest, .pass hpasses (hcount' ▸ hrest), ?_, hdigest⟩
            rw [← List.append_assoc, ← hfile]
            exact hsha

theorem fromCatalog_entry {parse : String → Option Url} {a a' : GgufArtifact}
    (h : GgufArtifact.fromCatalog parse a.entry = .ok a') :
    a'.bytes = a.bytes ∧ a'.sha256 = a.sha256 ∧ 0 < a.bytes ∧ a.bytes < 2 ^ 64 := by
  simp only [GgufArtifact.fromCatalog, bind_ok, context_ok, pure_ok, Option.filter_eq_some_iff,
    decide_eq_true_eq] at h
  obtain ⟨_, -, _, -, _, -, sha256, ⟨hsha, -⟩, bytes, ⟨hbytes, hpos, hmax⟩, rfl⟩ := h
  have hn : Json.nat a.bytes = Json.nat bytes := Json.of_asUInt hbytes
  cases hn
  cases hsha
  exact ⟨rfl, rfl, hpos, by omega⟩

theorem fromCatalog_safe (parse : String → Option Url) (entry : Json) :
    Safe (GgufArtifact.fromCatalog parse entry) := by
  refine (Safe.context _ _).bind fun _ _ => (Safe.context _ _).bind fun _ _ => ?_
  refine (Safe.bailIf _ _).bind fun _ _ => (Safe.context _ _).bind fun _ _ => ?_
  exact (Safe.context _ _).bind fun _ _ => Safe.ok _

theorem Run.empty (total : Nat) : Run total .empty := by
  refine ⟨Nat.zero_le _, rfl, fun q hq => absurd hq List.not_mem_nil, ?_⟩
  intro front q back hsplit
  exact absurd hsplit (by simp [Transfer.empty])

/-- A transfer, whatever the network, the disk and the callbacks do. Nothing underflows; at no time
does the file hold more bytes than the artifact has, and every byte in it was written at its place:
from a response that is exactly the rest of the artifact behind what was there when it was asked
for. The transfer succeeds exactly if the artifact is admitted, its attempts deliver a file, and the
digest of the file is the pinned one; that file is then what was written. -/
theorem receive_exact (parse : String → Option Url) (sha : Bytes → String) (artifact : GgufArtifact)
    (env : Nat → Attempt) :
    Run artifact.bytes (receive parse sha artifact env).1 ∧
    (receive parse sha artifact env).2 ≠ .error .panic ∧
    (∀ digest, (receive parse sha artifact env).2 = .ok digest ↔
      (∃ a', GgufArtifact.fromCatalog parse artifact.entry = .ok a') ∧
      digest = asciiLower artifact.sha256 ∧ ∃ file, file.length = artifact.bytes ∧
        sha file = asciiLower artifact.sha256 ∧
        Delivers artifact.bytes env maxAttempts 0 0 file) ∧
    (∀ digest, (receive parse sha artifact env).2 = .ok digest →
      Delivers artifact.bytes env maxAttempts 0 0 (receive parse sha artifact env).1.file ∧
      (receive parse sha artifact env).1.file.length = artifact.bytes ∧
      sha (receive parse sha artifact env).1.file = digest) := by
  unfold receive
  cases hfrom : GgufArtifact.fromCatalog parse artifact.entry with
  | error e =>
    refine ⟨Run.empty _, ?_, ?_, ?_⟩
    · intro he
      exact fromCatalog_safe parse artifact.entry
        (hfrom.trans (congrArg Except.error (Except.error.inj he)))
    · intro digest
      constructor
      · intro he
        cases he
      · intro h
        obtain ⟨⟨a', ha'⟩, -⟩ := h
        cases ha'
    · intro digest he
      cases he
  | ok a' =>
    obtain ⟨hbytes, hsha, hpos, hlt⟩ := fromCatalog_entry hfrom
    have hlive : Live a'.bytes .empty := ⟨Run.empty _, rfl, rfl⟩
    obtain ⟨hrun, hsafe, hdeliver, hend⟩ := attempts_spec sha env (hbytes ▸ hpos) (hbytes ▸ hlt)
      maxAttempts 0 hlive (hbytes ▸ hpos)
    rw [hbytes] at hrun hdeliver hend
    rw [hsha] at hdeliver hend
    refine ⟨hrun, hsafe, ?_, ?_⟩
    · intro digest
      constructor
      · intro hdone
        obtain ⟨data, hdata, hdigest, rfl⟩ := hend digest hdone
        have hlen := hdata.length
        exact ⟨⟨a', rfl⟩, rfl, data, (Nat.zero_add _).symm.trans hlen, hdigest, hdata⟩
      · intro h
        obtain ⟨-, rfl, file, -, hdigest, hfile⟩ := h
        exact (hdeliver file hfile hdigest).1
    · intro digest hdone
      obtain ⟨data, hdata, hdigest, rfl⟩ := hend digest hdone
      have hwritten : (Transfer.empty.attempts sha a' env maxAttempts 0).1.file = data :=
        (hdeliver data hdata hdigest).2
      show Delivers _ _ _ _ _ (Transfer.empty.attempts sha a' env maxAttempts 0).1.file ∧
        (Transfer.empty.attempts sha a' env maxAttempts 0).1.file.length = _ ∧ _
      rw [hwritten]
      exact ⟨hdata, (Nat.zero_add _).symm.trans hdata.length, hdigest⟩

/-- Two bytes of three, a broken connection, and the last byte by its range. -/
def sampleAttempts : Nat → Attempt
  | 0 => ⟨.ok (), .ok (), .response 200 [] [.chunk [7, 8] (.ok ()) .done (.ok ()), .broken], true⟩
  | _ => ⟨.ok (), .ok (), .response 206
      [("content-range", bytesUnit ++ [50, 45, 50, 47, 51]), ("content-length", [49])]
      [.chunk [9] (.ok ()) .done (.ok ())], true⟩

example : (Transfer.empty.attempts (fun _ => "ab") ⟨1, "", "AB", 3⟩ sampleAttempts 8 0).1.file
    = [7, 8, 9] := by decide

end Eef.Node.ArtifactTransfer
