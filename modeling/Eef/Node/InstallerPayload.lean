import Eef.Lib.Window
import Eef.Node.PeerAudio

/-!
# The payload of an installer

`shared/installer_payload.rs`: a release is one executable image with a ZIP archive behind it. A
footer of 16 bytes (the length of the archive, and `EEFINST1`) closes an unsigned file; signing
appends a certificate table, up to seven zero bytes before it, and points the certificate directory
of the image at it. `content_end` finds where the table starts, `payload_range` where the archive
does. Every offset comes from the file: a read that runs over its end is an error of its own
(`eof`), a sum that overflows a panic, and neither happens (`payloadRange_inside`).

The loop over the certificates and the search for the footer are read as what they accept: a row of
certificates (`entries_ok`), and the only padding that fits (`scan_ok`).
-/

namespace Eef.Node.Installer

open Eef.Lib hiding bind_ok pure_ok bailIf bailIf_ok context context_ok
open Checked Bytes

/-! ## Reading -/

/-- `MAGIC`. -/
def magic : List UInt8 := ascii "EEFINST1"

/-- `b"PK\x03\x04"`. -/
def zipSignature : List UInt8 := [0x50, 0x4b, 3, 4]

/-- `b"PE\0\0"`. -/
def peSignature : List UInt8 := [0x50, 0x45, 0, 0]

/-- The error of `read_exact` when the file ends too early. -/
def eof : String := "failed to fill whole buffer"

/-- `at`: so many bytes from an offset. -/
def readAt (bytes : List UInt8) (n offset : Nat) : Checked (List UInt8) :=
  context (get bytes offset (offset + n)) eof

/-- `u16::from_le_bytes(at(..))`, `u32_at` and the length in the footer. -/
def numberAt (bytes : List UInt8) (n offset : Nat) : Checked Nat := do
  return ofLe (← readAt bytes n offset)

variable {bytes : List UInt8}

/-- A line that returns hands its value on. -/
theorem ok_then {α β : Type} {a : α} {f : α → Checked β} : ((.ok a : Checked α) >>= f) = f a := rfl

theorem readAt_ok {n offset : Nat} {found : List UInt8} :
    readAt bytes n offset = .ok found ↔ offset + n ≤ bytes.length ∧ found = window bytes n offset := by
  simp only [readAt, context_ok, get_some, Nat.le_add_right, true_and, window,
    Nat.add_sub_cancel_left]

theorem numberAt_ok {n offset v : Nat} :
    numberAt bytes n offset = .ok v ↔ offset + n ≤ bytes.length ∧ v = field bytes n offset := by
  simp only [numberAt, bind_ok, readAt_ok, pure_ok, field]
  constructor
  · intro h
    obtain ⟨_, ⟨hle, rfl⟩, rfl⟩ := h
    exact ⟨hle, rfl⟩
  · intro h
    exact ⟨_, ⟨h.1, rfl⟩, h.2.symm⟩

/-! ## The certificate table -/

/-- Where the data directories start in an optional header of a given magic number. -/
def directoriesAt (kind : Nat) : Option Nat :=
  if kind = 0x10b then some 96 else if kind = 0x20b then some 112 else none

/-- `(n + 7) & !7`. -/
def align8 (n : Nat) : Nat := (n + 7) / 8 * 8

/-- The header of an image: the offset of its optional header, the size of that header, and where
the data directories start in it. -/
structure Header where
  optional : Nat
  size : Nat
  directories : Nat
  deriving DecidableEq, Repr

/-- `content_end` up to the data directories. -/
def header (bytes : List UInt8) : Checked Header := do
  let pe ← numberAt bytes 4 0x3c
  bailIf (pe < 64) "invalid PE header"
  let optional ← add 64 pe 24
  bailIf (bytes.length < optional) "invalid PE header"
  bailIf ((← readAt bytes 4 pe) ≠ peSignature) "invalid PE header"
  let size ← numberAt bytes 2 (← add 64 pe 20)
  bailIf (size < 2) "invalid PE optional header"
  bailIf (bytes.length < (← add 64 optional size)) "invalid PE optional header"
  let kind ← numberAt bytes 2 optional
  let directories ← context (directoriesAt kind) "unsupported PE optional header"
  bailIf (size < directories) "truncated PE data directory header"
  return ⟨optional, size, directories⟩

/-- One round of the loop over the certificates. -/
def entryStep (bytes : List UInt8) (position : Nat) : Checked Nat := do
  bailIf (bytes.length - position < 8) "truncated certificate entry"
  let entryLength ← numberAt bytes 4 position
  bailIf (entryLength < 8) "invalid certificate entry length"
  bailIf (bytes.length < (← add 64 position entryLength)) "invalid certificate entry length"
  let padded ← add 64 entryLength 7
  add 64 position (padded / 8 * 8)

/-- A round goes on. -/
theorem entryStep_lt {position next : Nat} (h : entryStep bytes position = .ok next) :
    position < next := by
  simp only [entryStep, bind_ok, bailIf_ok, add_ok] at h
  obtain ⟨_, -, n, -, _, hn, _, -, _, -, _, ⟨-, rfl⟩, -, rfl⟩ := h
  omega

/-- The loop over the certificates. -/
def entries (bytes : List UInt8) (position : Nat) : Checked Nat :=
  if position < bytes.length then
    match _hstep : entryStep bytes position with
    | .error e => .error e
    | .ok next => entries bytes next
  else .ok position
termination_by bytes.length - position
decreasing_by
  have hlt := entryStep_lt _hstep
  omega

/-- `content_end` from the certificate directory on. -/
def certificates (bytes : List UInt8) (h : Header) : Checked (Nat × Bool) := do
  let base ← add 64 h.optional h.directories
  let count ← numberAt bytes 4 (← sub base 4)
  if count ≤ 4 then return (bytes.length, false) else
  bailIf (h.size < (← add 64 h.directories 40)) "truncated PE certificate directory"
  let start ← numberAt bytes 4 (← add 64 base 32)
  let size ← numberAt bytes 4 (← add 64 base 36)
  if start = 0 ∧ size = 0 then return (bytes.length, false) else
  let msg := "invalid PE certificate table bounds"
  bailIf (start < (← add 64 base 40) ∨ start % 8 ≠ 0 ∨ size < 8) msg
  bailIf ((← add 64 start size) ≠ bytes.length) msg
  let position ← entries bytes start
  bailIf (position ≠ bytes.length) "invalid certificate table alignment"
  return (start, true)

/-- `content_end`: where the content ends, and whether a certificate table follows. -/
def contentEnd (bytes : List UInt8) : Checked (Nat × Bool) := do
  if bytes.length < 64 then return (bytes.length, false) else
  if (← readAt bytes 2 0) ≠ ascii "MZ" then return (bytes.length, false) else
  certificates bytes (← header bytes)

/-! ## The payload -/

/-- What `payload_range` does at a footer with the magic, `padding` bytes before the end. -/
def framed (bytes : List UInt8) (stop padding footer : Nat) : Checked (Nat × Nat) := do
  bailIf ((List.range padding).any fun n => readAt bytes 1 (stop - padding + n) ≠ .ok [0])
    "nonzero certificate alignment padding"
  let payloadLength ← numberAt bytes 8 footer
  let start ← context (if payloadLength ≤ footer then some (footer - payloadLength) else none)
    "invalid installer payload length"
  let msg := "installer payload is not a ZIP archive"
  bailIf (payloadLength < 4) msg
  bailIf ((← readAt bytes 4 start) ≠ zipSignature) msg
  return (start, footer)

/-- The search for the footer through the paddings that may be there. -/
def scan (bytes : List UInt8) (stop : Nat) : List Nat → Checked (Nat × Nat)
  | [] => .error (.error "installer payload footer is missing")
  | padding :: rest =>
    if stop < padding + 16 then scan bytes stop rest else do
      let footer := stop - (padding + 16)
      let found ← readAt bytes 8 (← add 64 footer 8)
      if found ≠ magic then scan bytes stop rest else framed bytes stop padding footer

/-- `payload_range`: where the archive starts, and where its footer does. -/
def payloadRange (bytes : List UInt8) : Checked (Nat × Nat) := do
  let (stop, signedContainer) ← contentEnd bytes
  scan bytes stop (List.range (if signedContainer then 8 else 1))

/-! ## Runs that stay inside the file -/

/-- No panic, and no read over the end of the file. -/
structure Inside {α : Type} (x : Checked α) : Prop where
  safe : Safe x
  covered : x ≠ .error (.error eof)

section Inside

variable {α β : Type}

theorem Inside.ok (a : α) : Inside (.ok a) := by
  refine ⟨Safe.ok a, ?_⟩
  intro h
  cases h

theorem Inside.of_ok {x : Checked α} {a : α} (h : x = .ok a) : Inside x := h ▸ Inside.ok a

theorem Inside.error {msg : String} (h : msg ≠ eof) :
    Inside (.error (.error msg) : Checked α) := by
  constructor
  · intro h
    cases h
  · intro he
    injection he with he
    injection he with he
    exact h he

theorem Inside.bind {x : Checked α} {f : α → Checked β} (hx : Inside x)
    (hf : ∀ a, x = .ok a → Inside (f a)) : Inside (x >>= f) := by
  cases x with
  | error e => exact ⟨fun h => hx.safe (congrArg Except.error (Except.error.inj h)),
      fun h => hx.covered (congrArg Except.error (Except.error.inj h))⟩
  | ok a => exact hf a rfl

theorem Inside.bailIf (c : Prop) [Decidable c] {msg : String} (h : msg ≠ eof) :
    Inside (Checked.bailIf c msg) := by
  unfold Checked.bailIf
  split
  · exact Inside.error h
  · exact Inside.ok ()

theorem Inside.context (o : Option α) {msg : String} (h : msg ≠ eof) :
    Inside (Checked.context o msg) := by
  cases o with
  | none => exact Inside.error h
  | some a => exact Inside.ok a

theorem Inside.add {w x y : Nat} (h : x + y < 2 ^ w) : Inside (add w x y) :=
  Inside.of_ok (add_ok.mpr ⟨h, rfl⟩)

theorem Inside.sub {x y : Nat} (h : y ≤ x) : Inside (sub x y) := Inside.of_ok (sub_ok.mpr ⟨h, rfl⟩)

theorem Inside.readAt {n offset : Nat} (h : offset + n ≤ bytes.length) :
    Inside (readAt bytes n offset) := Inside.of_ok (readAt_ok.mpr ⟨h, rfl⟩)

theorem Inside.numberAt {n offset : Nat} (h : offset + n ≤ bytes.length) :
    Inside (numberAt bytes n offset) := Inside.of_ok (numberAt_ok.mpr ⟨h, rfl⟩)

end Inside

/-! ## The header of an image -/

/-- What `content_end` has checked when it reads the data directories. -/
structure HasHeader (bytes : List UInt8) (h : Header) : Prop where
  room : 64 ≤ bytes.length
  image : window bytes 2 0 = ascii "MZ"
  offset : field bytes 4 0x3c + 24 = h.optional
  low : 88 ≤ h.optional
  signature : window bytes 4 (h.optional - 24) = peSignature
  size : field bytes 2 (h.optional - 4) = h.size
  whole : h.optional + h.size ≤ bytes.length
  kind : directoriesAt (field bytes 2 h.optional) = some h.directories
  directories : h.directories ≤ h.size

theorem directoriesAt_some {kind d : Nat} (h : directoriesAt kind = some d) : d = 96 ∨ d = 112 := by
  unfold directoriesAt at h
  by_cases h₁ : kind = 0x10b
  · rw [if_pos h₁, Option.some.injEq] at h
    exact .inl h.symm
  · rw [if_neg h₁] at h
    by_cases h₂ : kind = 0x20b
    · rw [if_pos h₂, Option.some.injEq] at h
      exact .inr h.symm
    · rw [if_neg h₂] at h
      cases h

theorem header_ok {h : Header} (hroom : 64 ≤ bytes.length) (himage : window bytes 2 0 = ascii "MZ") :
    header bytes = .ok h ↔ HasHeader bytes h := by
  have hpe : field bytes 4 0x3c < 256 ^ 4 := field_lt
  simp only [header, bind_ok, bailIf_ok, numberAt_ok, readAt_ok, add_ok, context_ok, pure_ok,
    Nat.not_lt, not_not]
  constructor
  · intro hrun
    obtain ⟨_, ⟨-, rfl⟩, _, hlow, _, ⟨-, rfl⟩, _, hfit, _, ⟨-, rfl⟩, _, hsig, _, ⟨-, rfl⟩, _, ⟨-, rfl⟩,
      _, hsize, _, ⟨-, rfl⟩, _, hwhole, _, ⟨-, rfl⟩, d, hkind, _, hdir, rfl⟩ := hrun
    refine ⟨hroom, himage, rfl, ?_, ?_, ?_, hwhole, hkind, hdir⟩
    · show 88 ≤ field bytes 4 0x3c + 24
      omega
    · show window bytes 4 (field bytes 4 0x3c + 24 - 24) = peSignature
      rw [Nat.add_sub_cancel]
      exact hsig
    · rfl
  · intro hh
    have hlow := hh.low
    have hoffset := hh.offset
    have hwhole := hh.whole
    have hdir := hh.directories
    have hd := directoriesAt_some hh.kind
    have hpe' : h.optional - 24 = field bytes 4 0x3c := by omega
    have hsize' : field bytes 4 0x3c + 20 = h.optional - 4 := by omega
    have hsig := hh.signature
    rw [hpe'] at hsig
    have hsize := hh.size
    rw [← hsize'] at hsize
    have hsize_lt : field bytes 2 (field bytes 4 0x3c + 20) < 256 ^ 2 := field_lt
    refine ⟨_, ⟨by omega, rfl⟩, (), by omega, _, ⟨by omega, rfl⟩, (), by omega, _, ⟨by omega, rfl⟩,
      (), hsig, _, ⟨by omega, rfl⟩, _, ⟨by omega, rfl⟩, (), by omega, _, ⟨by omega, rfl⟩, (),
      by omega, _, ⟨by omega, rfl⟩, h.directories, ?_, (), by omega, ?_⟩
    · rw [hoffset]
      exact hh.kind
    · rw [hoffset, hsize]

theorem header_inside (hroom : 64 ≤ bytes.length) : Inside (header bytes) := by
  have hpe : field bytes 4 0x3c < 256 ^ 4 := field_lt
  unfold header
  refine (Inside.numberAt (by omega)).bind fun pe hn => ?_
  obtain ⟨-, rfl⟩ := numberAt_ok.mp hn
  refine (Inside.bailIf _ (by decide)).bind fun _ hlow => ?_
  refine (Inside.add (by omega)).bind fun optional ho => ?_
  obtain ⟨-, rfl⟩ := add_ok.mp ho
  refine (Inside.bailIf _ (by decide)).bind fun _ hfit => ?_
  have hfit := bailIf_ok.mp hfit
  refine (Inside.readAt (by omega)).bind fun signature _ => ?_
  refine (Inside.bailIf _ (by decide)).bind fun _ _ => ?_
  refine (Inside.add (by omega)).bind fun at20 hat => ?_
  obtain ⟨-, rfl⟩ := add_ok.mp hat
  refine (Inside.numberAt (by omega)).bind fun size hn => ?_
  have hsize : size < 256 ^ 2 := by
    rw [(numberAt_ok.mp hn).2]
    exact field_lt
  refine (Inside.bailIf _ (by decide)).bind fun _ hmin => ?_
  have hmin := bailIf_ok.mp hmin
  refine (Inside.add (by omega)).bind fun limit hl => ?_
  obtain ⟨-, rfl⟩ := add_ok.mp hl
  refine (Inside.bailIf _ (by decide)).bind fun _ hwhole => ?_
  have hwhole := bailIf_ok.mp hwhole
  refine (Inside.numberAt (by omega)).bind fun kind _ => ?_
  refine (Inside.context _ (by decide)).bind fun d _ => ?_
  exact (Inside.bailIf _ (by decide)).bind fun _ _ => Inside.ok _

/-! ## Certificates in a row -/

/-- An entry of the certificate table: what follows its length, and its alignment. -/
structure Certificate where
  content : List UInt8
  pad : List UInt8
  deriving DecidableEq, Repr

namespace Certificate

/-- The length that the entry states, its own four bytes included. -/
def size (c : Certificate) : Nat := 4 + c.content.length

/-- The entry can be written. -/
structure WF (c : Certificate) : Prop where
  size_ge : 8 ≤ c.size
  size_lt : c.size < 256 ^ 4
  pad : c.size + c.pad.length = align8 c.size

/-- The bytes of an entry. -/
def encode (c : Certificate) : List UInt8 := toLe 4 c.size ++ c.content ++ c.pad

/-- The bytes of entries in a row. -/
def encodeAll (cs : List Certificate) : List UInt8 := (cs.map encode).flatten

theorem length_encode {c : Certificate} (h : c.WF) : c.encode.length = align8 c.size := by
  have hpad := h.pad
  simp only [encode, List.length_append, length_toLe]
  unfold size at hpad ⊢
  omega

@[simp] theorem encodeAll_cons (c : Certificate) (cs : List Certificate) :
    encodeAll (c :: cs) = c.encode ++ encodeAll cs := rfl

end Certificate

open Certificate

/-- The bytes are well-formed certificates in a row. -/
def Row (bytes : List UInt8) : Prop :=
  ∃ cs : List Certificate, (∀ c ∈ cs, c.WF) ∧ bytes = encodeAll cs

theorem le_align8 (n : Nat) : n ≤ align8 n ∧ align8 n < n + 8 := by
  unfold align8
  omega

theorem entryStep_ok {position next : Nat} (hlen : bytes.length < 2 ^ 40) :
    entryStep bytes position = .ok next ↔ position + 8 ≤ bytes.length ∧
      8 ≤ field bytes 4 position ∧ position + field bytes 4 position ≤ bytes.length ∧
      next = position + align8 (field bytes 4 position) := by
  have hn : field bytes 4 position < 256 ^ 4 := field_lt
  have halign := le_align8 (field bytes 4 position)
  simp only [entryStep, bind_ok, bailIf_ok, numberAt_ok, add_ok, Nat.not_lt, exists_const]
  constructor
  · intro h
    obtain ⟨hroom, _, ⟨hread, rfl⟩, hmin, _, ⟨-, rfl⟩, hfit, _, ⟨-, rfl⟩, -, rfl⟩ := h
    exact ⟨by omega, hmin, hfit, rfl⟩
  · intro h
    obtain ⟨hroom, hmin, hfit, rfl⟩ := h
    unfold align8 at halign
    exact ⟨by omega, _, ⟨by omega, rfl⟩, hmin, _, ⟨by omega, rfl⟩, hfit, _, ⟨by omega, rfl⟩,
      by omega, rfl⟩

theorem entryStep_inside {position : Nat} (hlen : bytes.length < 2 ^ 40)
    (hlt : position < bytes.length) : Inside (entryStep bytes position) := by
  unfold entryStep
  refine (Inside.bailIf _ (by decide)).bind fun _ hroom => ?_
  have hroom := bailIf_ok.mp hroom
  refine (Inside.numberAt (by omega)).bind fun n hn => ?_
  have hn' : n < 256 ^ 4 := by
    rw [(numberAt_ok.mp hn).2]
    exact field_lt
  refine (Inside.bailIf _ (by decide)).bind fun _ _ => (Inside.add (by omega)).bind fun _ _ => ?_
  refine (Inside.bailIf _ (by decide)).bind fun _ _ => (Inside.add (by omega)).bind fun p hp => ?_
  obtain ⟨-, rfl⟩ := add_ok.mp hp
  exact Inside.add (by omega)

theorem field_encode {c : Certificate} (h : c.WF) (rest : List UInt8) :
    field (c.encode ++ rest) 4 0 = c.size := by
  have hread : window (c.encode ++ rest) 4 0 = toLe 4 c.size := by
    rw [Certificate.encode, List.append_assoc, List.append_assoc]
    exact window_append (toLe 4 c.size) _
  rw [field, hread]
  exact ofLe_toLe h.size_lt

/-- One round of the loop takes one certificate off the row. -/
theorem row_step {position : Nat} (hlen : bytes.length < 2 ^ 40) (hlt : position < bytes.length) :
    Row (bytes.drop position) ↔
      ∃ next ≤ bytes.length, entryStep bytes position = .ok next ∧ Row (bytes.drop next) := by
  have hfield : field bytes 4 position = field (bytes.drop position) 4 0 := by
    rw [field, field, window_drop, Nat.add_zero]
  constructor
  · intro h
    obtain ⟨cs, hwf, hcs⟩ := h
    cases cs with
    | nil =>
      have hnil := congrArg List.length hcs
      rw [List.length_drop] at hnil
      have hzero : (encodeAll []).length = 0 := rfl
      omega
    | cons c cs =>
      have hc := hwf c (List.mem_cons_self ..)
      have hmin := hc.size_ge
      have hsize : field bytes 4 position = c.size := by
        rw [hfield, hcs]
        exact field_encode hc _
      have htotal := congrArg List.length hcs
      rw [encodeAll_cons, List.length_drop, List.length_append, length_encode hc] at htotal
      have halign := le_align8 c.size
      refine ⟨position + align8 c.size, by omega, (entryStep_ok hlen).mpr ?_, cs, ?_, ?_⟩
      · rw [hsize]
        exact ⟨by omega, hmin, by omega, rfl⟩
      · exact fun c' hc' => hwf c' (List.mem_cons_of_mem _ hc')
      · rw [← List.drop_drop, hcs, encodeAll_cons, ← length_encode hc, List.drop_left]
  · intro h
    obtain ⟨next, hle, hstep, cs, hwf, hcs⟩ := h
    obtain ⟨hroom, hmin, hfit, rfl⟩ := (entryStep_ok hlen).mp hstep
    have hn : field bytes 4 position < 256 ^ 4 := field_lt
    have halign := le_align8 (field bytes 4 position)
    generalize hsize : field bytes 4 position = n at *
    -- the entry is what lies between the two positions
    have hlen₁ : (window bytes (n - 4) (position + 4)).length = n - 4 := length_window (by omega)
    have hlen₂ : (window bytes (align8 n - n) (position + n)).length = align8 n - n :=
      length_window (by omega)
    have hsz : Certificate.size
        ⟨window bytes (n - 4) (position + 4), window bytes (align8 n - n) (position + n)⟩ = n := by
      show 4 + (window bytes (n - 4) (position + 4)).length = n
      omega
    refine ⟨⟨window bytes (n - 4) (position + 4), window bytes (align8 n - n) (position + n)⟩ :: cs,
      ?_, ?_⟩
    · intro c hc
      rcases List.mem_cons.mp hc with rfl | hc
      · refine ⟨by rw [hsz]; exact hmin, by rw [hsz]; exact hn, ?_⟩
        rw [hsz]
        show n + (window bytes (align8 n - n) (position + n)).length = align8 n
        omega
      · exact hwf c hc
    · have hnext : position + n + (align8 n - n) = position + align8 n := by omega
      have hcontent : position + 4 + (n - 4) = position + n := by omega
      rw [encodeAll_cons, ← hcs, Certificate.encode, hsz, ← window_eq_toLe (by omega) hsize,
        List.append_assoc, List.append_assoc, ← hnext, ← drop_window, ← hcontent, ← drop_window,
        ← drop_window]

/-- The loop, one round on. -/
theorem entries_step {position next : Nat} (hlt : position < bytes.length)
    (hstep : entryStep bytes position = .ok next) : entries bytes position = entries bytes next := by
  rw [entries, if_pos hlt]
  split
  · rename_i e he
    rw [hstep] at he
    cases he
  · rename_i next' hnext
    rw [hstep] at hnext
    cases hnext
    rfl

/-- The loop stops with its error. -/
theorem entries_error {position : Nat} {e : Fault} (hlt : position < bytes.length)
    (hstep : entryStep bytes position = .error e) : entries bytes position = .error e := by
  rw [entries, if_pos hlt]
  split
  · rename_i e' he
    rw [hstep] at he
    exact congrArg Except.error (Except.error.inj he).symm
  · rename_i next hnext
    rw [hstep] at hnext
    cases hnext

theorem entries_done {position : Nat} (hge : bytes.length ≤ position) :
    entries bytes position = .ok position := by
  rw [entries, if_neg (Nat.not_lt.mpr hge)]

/-- The loop reaches the end of the file exactly on certificates in a row. -/
theorem entries_ok (hlen : bytes.length < 2 ^ 40) {position : Nat} (hle : position ≤ bytes.length) :
    entries bytes position = .ok bytes.length ↔ Row (bytes.drop position) := by
  induction position using entries.induct bytes with
  | case1 position hlt e hstep =>
    rw [entries_error hlt hstep, row_step hlen hlt]
    constructor
    · intro h
      cases h
    · intro h
      obtain ⟨next, -, hok, -⟩ := h
      rw [hstep] at hok
      cases hok
  | case2 position hlt next hstep ih =>
    rw [entries_step hlt hstep, row_step hlen hlt]
    by_cases hnext : next ≤ bytes.length
    · rw [ih hnext]
      constructor
      · exact fun h => ⟨next, hnext, hstep, h⟩
      · intro h
        obtain ⟨next', -, hok, hrow⟩ := h
        rw [hstep] at hok
        cases hok
        exact hrow
    · -- the alignment of the last entry runs over the end
      rw [entries_done (by omega)]
      constructor
      · intro h
        have heq : next = bytes.length := Except.ok.inj h
        omega
      · intro h
        obtain ⟨next', hle', hok, -⟩ := h
        rw [hstep] at hok
        cases hok
        exact absurd hle' hnext
  | case3 position hge =>
    have heq : position = bytes.length := by omega
    rw [entries_done (by omega), heq]
    constructor
    · exact fun _ => ⟨[], fun c hc => absurd hc List.not_mem_nil, List.drop_length⟩
    · exact fun _ => rfl

theorem entries_inside (hlen : bytes.length < 2 ^ 40) (position : Nat) :
    Inside (entries bytes position) := by
  induction position using entries.induct bytes with
  | case1 position hlt e hstep =>
    have hinside := entryStep_inside hlen hlt
    rw [hstep] at hinside
    rw [entries_error hlt hstep]
    refine ⟨fun h => hinside.safe ?_, fun h => hinside.covered ?_⟩
    · rw [Except.error.inj h]
    · rw [Except.error.inj h]
  | case2 position hlt next hstep ih =>
    rw [entries_step hlt hstep]
    exact ih
  | case3 position hge =>
    rw [entries_done (by omega)]
    exact Inside.ok _

/-! ## Where the content ends -/

/-- Where the data directories start. -/
def Header.base (h : Header) : Nat := h.optional + h.directories

/-- A file whose image has no certificate table: it is no image, its header has no certificate
directory, or that directory is empty. -/
inductive Unsigned (bytes : List UInt8) : Prop
  | short (hlen : bytes.length < 64)
  | other (himage : window bytes 2 0 ≠ ascii "MZ")
  | few (h : Header) (hh : HasHeader bytes h) (hcount : field bytes 4 (h.base - 4) ≤ 4)
  | empty (h : Header) (hh : HasHeader bytes h) (hcount : 4 < field bytes 4 (h.base - 4))
      (hroom : h.directories + 40 ≤ h.size) (hstart : field bytes 4 (h.base + 32) = 0)
      (hsize : field bytes 4 (h.base + 36) = 0)

/-- The file ends with a certificate table at an offset, to which the directory of its image
points. -/
structure Table (bytes : List UInt8) (h : Header) (start : Nat) : Prop where
  header : HasHeader bytes h
  count : 4 < field bytes 4 (h.base - 4)
  room : h.directories + 40 ≤ h.size
  directory : field bytes 4 (h.base + 32) = start
  total : start + field bytes 4 (h.base + 36) = bytes.length
  behind : h.base + 40 ≤ start
  aligned : start % 8 = 0
  nonempty : start + 8 ≤ bytes.length
  row : Row (bytes.drop start)

/-- Where the content of a file ends, and whether a certificate table closes it. -/
inductive Content (bytes : List UInt8) : Nat → Bool → Prop
  | unsigned (h : Unsigned bytes) : Content bytes bytes.length false
  | signed (h : Header) (start : Nat) (ht : Table bytes h start) : Content bytes start true

theorem certificates_ok {h : Header} (hh : HasHeader bytes h) {stop : Nat} {signed : Bool} :
    certificates bytes h = .ok (stop, signed) ↔
      (signed = false ∧ stop = bytes.length ∧ (field bytes 4 (h.base - 4) ≤ 4 ∨
        4 < field bytes 4 (h.base - 4) ∧ h.directories + 40 ≤ h.size ∧
          field bytes 4 (h.base + 32) = 0 ∧ field bytes 4 (h.base + 36) = 0)) ∨
      (signed = true ∧ Table bytes h stop) := by
  have hd := directoriesAt_some hh.kind
  have hsize : field bytes 2 (h.optional - 4) < 256 ^ 2 := field_lt
  rw [hh.size] at hsize
  have hoffset : field bytes 4 0x3c < 256 ^ 4 := field_lt
  have hopt := hh.offset
  have hwhole := hh.whole
  have hdir := hh.directories
  have hb : h.base = h.optional + h.directories := rfl
  have hbase : add 64 h.optional h.directories = .ok h.base := add_ok.mpr ⟨by omega, rfl⟩
  have hsub : sub h.base 4 = .ok (h.base - 4) := sub_ok.mpr ⟨by omega, rfl⟩
  have hcount : numberAt bytes 4 (h.base - 4) = .ok (field bytes 4 (h.base - 4)) :=
    numberAt_ok.mpr ⟨by omega, rfl⟩
  have h40 : add 64 h.directories 40 = .ok (h.directories + 40) := add_ok.mpr ⟨by omega, rfl⟩
  have hb32 : add 64 h.base 32 = .ok (h.base + 32) := add_ok.mpr ⟨by omega, rfl⟩
  have hb36 : add 64 h.base 36 = .ok (h.base + 36) := add_ok.mpr ⟨by omega, rfl⟩
  have hb40 : add 64 h.base 40 = .ok (h.base + 40) := add_ok.mpr ⟨by omega, rfl⟩
  simp only [certificates, hbase, hsub, hcount, h40, hb32, hb36, hb40, ok_then]
  by_cases hfew : field bytes 4 (h.base - 4) ≤ 4
  · -- the image has no certificate directory
    rw [if_pos hfew, pure_ok, Prod.mk.injEq]
    constructor
    · intro he
      exact .inl ⟨he.2.symm, he.1.symm, .inl hfew⟩
    · intro he
      rcases he with ⟨hs, hl, -⟩ | ⟨-, ht⟩
      · exact ⟨hl.symm, hs.symm⟩
      · have hcount := ht.count
        omega
  rw [if_neg hfew]
  by_cases hroom : h.size < h.directories + 40
  · have hbail : bailIf (h.size < h.directories + 40) "truncated PE certificate directory"
        = .error (.error "truncated PE certificate directory") := if_pos hroom
    rw [hbail]
    constructor
    · intro he
      cases he
    · intro he
      rcases he with ⟨-, -, hf | ⟨-, hr, -⟩⟩ | ⟨-, ht⟩
      · exact absurd hf hfew
      · omega
      · have hr := ht.room
        omega
  have hstart : numberAt bytes 4 (h.base + 32) = .ok (field bytes 4 (h.base + 32)) :=
    numberAt_ok.mpr ⟨by omega, rfl⟩
  have hlength : numberAt bytes 4 (h.base + 36) = .ok (field bytes 4 (h.base + 36)) :=
    numberAt_ok.mpr ⟨by omega, rfl⟩
  have hskip : bailIf (h.size < h.directories + 40) "truncated PE certificate directory" = .ok () :=
    if_neg hroom
  simp only [hskip, hstart, hlength, ok_then]
  by_cases hnone : field bytes 4 (h.base + 32) = 0 ∧ field bytes 4 (h.base + 36) = 0
  · -- the directory is empty
    rw [if_pos hnone, pure_ok, Prod.mk.injEq]
    constructor
    · intro he
      exact .inl ⟨he.2.symm, he.1.symm, .inr ⟨by omega, by omega, hnone⟩⟩
    · intro he
      rcases he with ⟨hs, hl, -⟩ | ⟨-, ht⟩
      · exact ⟨hl.symm, hs.symm⟩
      · have hdirectory := ht.directory
        have hbehind := ht.behind
        omega
  rw [if_neg hnone]
  have hstart_lt : field bytes 4 (h.base + 32) < 256 ^ 4 := field_lt
  have hlength_lt : field bytes 4 (h.base + 36) < 256 ^ 4 := field_lt
  simp only [bind_ok, bailIf_ok, add_ok, pure_ok, exists_const, Prod.mk.injEq, not_not]
  constructor
  · intro he
    obtain ⟨hbounds, _, ⟨-, rfl⟩, htotal, _, hrow, rfl, rfl, rfl⟩ := he
    have hrow := (entries_ok (by omega) (by omega)).mp hrow
    exact .inr ⟨rfl, hh, by omega, by omega, rfl, htotal, by omega, by omega, by omega, hrow⟩
  · intro he
    rcases he with ⟨-, -, hf | ⟨-, -, hn⟩⟩ | ⟨rfl, ht⟩
    · exact absurd hf hfew
    · exact absurd hn hnone
    · have hbehind := ht.behind
      have haligned := ht.aligned
      have hnonempty := ht.nonempty
      have htotal := ht.total
      have hdirectory := ht.directory
      have hrow := (entries_ok (by omega) (by omega)).mpr ht.row
      rw [hdirectory]
      exact ⟨by omega, _, ⟨by omega, rfl⟩, htotal, _, hrow, rfl, rfl, rfl⟩

theorem certificates_inside {h : Header} (hh : HasHeader bytes h) : Inside (certificates bytes h) := by
  have hd := directoriesAt_some hh.kind
  have hsize : field bytes 2 (h.optional - 4) < 256 ^ 2 := field_lt
  rw [hh.size] at hsize
  have hoffset : field bytes 4 0x3c < 256 ^ 4 := field_lt
  have hopt := hh.offset
  have hwhole := hh.whole
  have hdir := hh.directories
  unfold certificates
  refine (Inside.add (by omega)).bind fun base hbase => ?_
  obtain ⟨-, rfl⟩ := add_ok.mp hbase
  refine (Inside.sub (by omega)).bind fun at4 hat => ?_
  obtain ⟨-, rfl⟩ := sub_ok.mp hat
  refine (Inside.numberAt (by omega)).bind fun count _ => ?_
  by_cases hfew : count ≤ 4
  · rw [if_pos hfew]
    exact Inside.ok _
  rw [if_neg hfew]
  refine (Inside.add (by omega)).bind fun room hr => ?_
  obtain ⟨-, rfl⟩ := add_ok.mp hr
  refine (Inside.bailIf _ (by decide)).bind fun _ hroom => ?_
  have hroom := bailIf_ok.mp hroom
  refine (Inside.add (by omega)).bind fun at32 hat => ?_
  obtain ⟨-, rfl⟩ := add_ok.mp hat
  refine (Inside.numberAt (by omega)).bind fun start hs => ?_
  have hstart : start < 256 ^ 4 := by
    rw [(numberAt_ok.mp hs).2]
    exact field_lt
  refine (Inside.add (by omega)).bind fun at36 hat => ?_
  obtain ⟨-, rfl⟩ := add_ok.mp hat
  refine (Inside.numberAt (by omega)).bind fun size hl => ?_
  have hlength : size < 256 ^ 4 := by
    rw [(numberAt_ok.mp hl).2]
    exact field_lt
  by_cases hnone : start = 0 ∧ size = 0
  · rw [if_pos hnone]
    exact Inside.ok _
  rw [if_neg hnone]
  refine (Inside.add (by omega)).bind fun _ _ => (Inside.bailIf _ (by decide)).bind fun _ _ => ?_
  refine (Inside.add (by omega)).bind fun total ht => ?_
  obtain ⟨-, rfl⟩ := add_ok.mp ht
  refine (Inside.bailIf _ (by decide)).bind fun _ htotal => ?_
  -- both numbers of the directory have four bytes, and the file is their sum
  have htotal := not_not.mp (bailIf_ok.mp htotal)
  refine (entries_inside (by omega) start).bind fun _ _ => ?_
  exact (Inside.bailIf _ (by decide)).bind fun _ _ => Inside.ok _

/-- `content_end` returns where the content ends, and only that. -/
theorem contentEnd_ok {stop : Nat} {signed : Bool} :
    contentEnd bytes = .ok (stop, signed) ↔ Content bytes stop signed := by
  unfold contentEnd
  by_cases hshort : bytes.length < 64
  · rw [if_pos hshort, pure_ok, Prod.mk.injEq]
    constructor
    · intro h
      obtain ⟨rfl, rfl⟩ := h
      exact .unsigned (.short hshort)
    · intro h
      cases h with
      | unsigned h => exact ⟨rfl, rfl⟩
      | signed h start ht => exact absurd ht.header.room (Nat.not_le.mpr hshort)
  rw [if_neg hshort]
  have hmz : readAt bytes 2 0 = .ok (window bytes 2 0) := readAt_ok.mpr ⟨by omega, rfl⟩
  rw [hmz, ok_then]
  by_cases himage : window bytes 2 0 = ascii "MZ"
  · rw [if_neg (not_not.mpr himage), bind_ok]
    constructor
    · intro h
      obtain ⟨hd, hheader, hrun⟩ := h
      have hh := (header_ok (by omega) himage).mp hheader
      rcases (certificates_ok hh).mp hrun with ⟨rfl, rfl, hfew | ⟨hcount, hroom, hstart, hsize⟩⟩ | ⟨rfl, ht⟩
      · exact .unsigned (.few hd hh hfew)
      · exact .unsigned (.empty hd hh hcount hroom hstart hsize)
      · exact .signed hd stop ht
    · intro h
      have hheader : ∀ {hd}, HasHeader bytes hd → header bytes = .ok hd :=
        fun hh => (header_ok (by omega) himage).mpr hh
      cases h with
      | unsigned h =>
        cases h with
        | short hlen => exact absurd hlen hshort
        | other hother => exact absurd himage hother
        | few hd hh hfew =>
          exact ⟨hd, hheader hh, (certificates_ok hh).mpr (.inl ⟨rfl, rfl, .inl hfew⟩)⟩
        | empty hd hh hcount hroom hstart hsize =>
          exact ⟨hd, hheader hh,
            (certificates_ok hh).mpr (.inl ⟨rfl, rfl, .inr ⟨hcount, hroom, hstart, hsize⟩⟩)⟩
      | signed hd start ht =>
        exact ⟨hd, hheader ht.header, (certificates_ok ht.header).mpr (.inr ⟨rfl, ht⟩)⟩
  · rw [if_pos himage, pure_ok, Prod.mk.injEq]
    constructor
    · intro h
      obtain ⟨rfl, rfl⟩ := h
      exact .unsigned (.other himage)
    · intro h
      cases h with
      | unsigned h => exact ⟨rfl, rfl⟩
      | signed h start ht => exact absurd ht.header.image himage

theorem contentEnd_inside : Inside (contentEnd bytes) := by
  unfold contentEnd
  by_cases hshort : bytes.length < 64
  · rw [if_pos hshort]
    exact Inside.ok _
  rw [if_neg hshort]
  refine (Inside.readAt (by omega)).bind fun found hfound => ?_
  obtain ⟨-, rfl⟩ := readAt_ok.mp hfound
  by_cases himage : window bytes 2 0 = ascii "MZ"
  · rw [if_neg (not_not.mpr himage)]
    refine (header_inside (by omega)).bind fun h hh => ?_
    exact certificates_inside ((header_ok (by omega) himage).mp hh)
  · rw [if_pos himage]
    exact Inside.ok _

/-- The content ends in the file. -/
theorem Content.le {stop : Nat} {signed : Bool} (h : Content bytes stop signed) :
    stop ≤ bytes.length := by
  cases h with
  | unsigned h => exact Nat.le_refl _
  | signed h start ht =>
    have hnonempty := ht.nonempty
    omega

/-! ## The footer -/

/-- An archive with its footer, `padding` zero bytes before the end of the content. -/
structure Framed (bytes : List UInt8) (stop padding start footer : Nat) : Prop where
  closes : footer + 16 + padding = stop
  zeros : window bytes padding (stop - padding) = List.replicate padding 0
  trailer : window bytes 16 footer = toLe 8 (footer - start) ++ magic
  room : start + 4 ≤ footer
  archive : window bytes 4 start = zipSignature

/-- The test of `any` on the padding bytes. -/
theorem padding_zero {n offset : Nat} (h : offset + n ≤ bytes.length) :
    ((List.range n).any fun i => readAt bytes 1 (offset + i) ≠ .ok [0]) = false ↔
      window bytes n offset = List.replicate n 0 := by
  have hlen := length_window h
  simp only [List.any_eq_false, List.mem_range, decide_eq_true_eq, not_not]
  rw [List.eq_replicate_iff]
  constructor
  · intro hall
    refine ⟨hlen, ?_⟩
    intro b hb
    obtain ⟨i, hi, rfl⟩ := List.mem_iff_getElem.mp hb
    have hone := (readAt_ok.mp (hall i (by omega))).2
    rw [window_one (by omega) hi] at hone
    exact (List.singleton_inj.mp hone).symm
  · intro hall i hi
    have hlt : i < (window bytes n offset).length := by omega
    refine readAt_ok.mpr ⟨by omega, ?_⟩
    rw [window_one hi hlt, hall.2 _ (List.getElem_mem hlt)]

theorem framed_ok {stop padding footer start last : Nat} (hstop : stop ≤ bytes.length)
    (hlen : bytes.length < 2 ^ 64) (hfooter : footer + 16 + padding = stop)
    (hmagic : window bytes 8 (footer + 8) = magic) :
    framed bytes stop padding footer = .ok (start, last) ↔
      last = footer ∧ Framed bytes stop padding start footer := by
  have hread : field bytes 8 footer < 256 ^ 8 := field_lt
  simp only [framed, bind_ok, bailIf_ok, Bool.not_eq_true, numberAt_ok, context_ok, readAt_ok,
    Nat.not_lt, not_not, pure_ok, exists_const, Prod.mk.injEq]
  rw [padding_zero (by omega)]
  constructor
  · intro h
    obtain ⟨hpad, _, ⟨-, rfl⟩, s, hs, hmin, _, ⟨-, rfl⟩, hzip, rfl, rfl⟩ := h
    by_cases hfit : field bytes 8 footer ≤ footer
    · rw [if_pos hfit, Option.some.injEq] at hs
      have hback : field bytes 8 footer = footer - s := by omega
      refine ⟨rfl, hfooter, hpad, ?_, by omega, hzip⟩
      rw [← hmagic, ← window_eq_toLe (by omega) hback, ← window_split]
    · rw [if_neg hfit] at hs
      cases hs
  · intro h
    obtain ⟨rfl, h⟩ := h
    have hroom := h.room
    have htrailer := h.trailer
    rw [window_split (n := 8) (m := 8)] at htrailer
    have hnumber : window bytes 8 last = toLe 8 (last - start) := by
      refine List.append_inj_left htrailer ?_
      rw [length_window (by omega), length_toLe]
    have hback : field bytes 8 last = last - start := by
      rw [field, hnumber]
      exact ofLe_toLe (by omega)
    refine ⟨h.zeros, _, ⟨by omega, rfl⟩, start, ?_, by omega, _, ⟨by omega, rfl⟩, h.archive, rfl, rfl⟩
    rw [hback, if_pos (by omega)]
    congr 1
    omega

/-- The magic of a footer is the end of its trailer. -/
theorem Framed.magic {stop padding start footer : Nat} (hstop : stop ≤ bytes.length)
    (h : Framed bytes stop padding start footer) : window bytes 8 (footer + 8) = magic := by
  have hcloses := h.closes
  have htrailer := h.trailer
  rw [window_split (n := 8) (m := 8)] at htrailer
  refine List.append_inj_right htrailer ?_
  rw [length_window (by omega), length_toLe]

/-- A smaller padding finds no magic: it would end in one of the zero bytes. -/
theorem Framed.only {stop padding start footer other : Nat} (hstop : stop ≤ bytes.length)
    (h : Framed bytes stop padding start footer) (hlt : other < padding) :
    window bytes 8 (stop - (other + 16) + 8) ≠ Installer.magic := by
  intro hmagic
  have hcloses := h.closes
  have hlen : (window bytes padding (stop - padding)).length = padding := length_window (by omega)
  -- the last byte of the magic, read twice
  have hlast : window bytes 1 (stop - (other + 16) + 8 + 7) = [0x31] := by
    have hlen₈ : 7 < (window bytes 8 (stop - (other + 16) + 8)).length := by
      rw [hmagic]
      decide
    rw [window_one (n := 8) (by decide) hlen₈]
    simp only [hmagic]
    rfl
  have hzero : window bytes 1 (stop - padding + (padding - other - 1)) = [0] := by
    have hin : padding - other - 1 < (window bytes padding (stop - padding)).length := by omega
    rw [window_one (by omega) hin]
    simp only [h.zeros, List.getElem_replicate]
  have hsame : stop - (other + 16) + 8 + 7 = stop - padding + (padding - other - 1) := by omega
  rw [hsame, hzero] at hlast
  revert hlast
  decide

/-- The search finds exactly the padding that fits. -/
theorem scan_ok {stop start footer : Nat} (hstop : stop ≤ bytes.length)
    (hlen : bytes.length < 2 ^ 64) {paddings : List Nat} :
    scan bytes stop paddings = .ok (start, footer) → ∃ padding ∈ paddings,
      Framed bytes stop padding start footer := by
  induction paddings with
  | nil =>
    intro h
    cases h
  | cons padding rest ih =>
    intro h
    rw [scan] at h
    by_cases hshort : stop < padding + 16
    · rw [if_pos hshort] at h
      obtain ⟨p, hp, hframed⟩ := ih h
      exact ⟨p, List.mem_cons_of_mem _ hp, hframed⟩
    · rw [if_neg hshort] at h
      simp only [bind_ok, add_ok, readAt_ok] at h
      obtain ⟨_, ⟨-, rfl⟩, _, ⟨-, rfl⟩, h⟩ := h
      by_cases hmagic : window bytes 8 (stop - (padding + 16) + 8) = magic
      · rw [if_neg (not_not.mpr hmagic)] at h
        obtain ⟨rfl, hframed⟩ := (framed_ok hstop hlen (by omega) hmagic).mp h
        exact ⟨padding, List.mem_cons_self .., hframed⟩
      · rw [if_pos hmagic] at h
        obtain ⟨p, hp, hframed⟩ := ih h
        exact ⟨p, List.mem_cons_of_mem _ hp, hframed⟩

/-- The search passes the paddings that are too small. -/
theorem scan_found {stop padding start footer : Nat} (hstop : stop ≤ bytes.length)
    (hlen : bytes.length < 2 ^ 64) (h : Framed bytes stop padding start footer)
    {front rest : List Nat} (hfront : ∀ p ∈ front, p < padding) :
    scan bytes stop (front ++ padding :: rest) = .ok (start, footer) := by
  have hcloses := h.closes
  induction front with
  | nil =>
    have hfooter : stop - (padding + 16) = footer := by omega
    have hmagic := h.magic hstop
    rw [List.nil_append, scan, if_neg (by omega), hfooter]
    simp only [bind_ok, add_ok, readAt_ok]
    refine ⟨_, ⟨by omega, rfl⟩, _, ⟨by omega, rfl⟩, ?_⟩
    rw [if_neg (not_not.mpr hmagic)]
    exact (framed_ok hstop hlen (by omega) hmagic).mpr ⟨rfl, h⟩
  | cons p front ih =>
    have hlt := hfront p (List.mem_cons_self ..)
    rw [List.cons_append, scan, if_neg (by omega)]
    simp only [bind_ok, add_ok, readAt_ok]
    refine ⟨_, ⟨by omega, rfl⟩, _, ⟨by omega, rfl⟩, ?_⟩
    rw [if_pos (h.only hstop hlt)]
    exact ih fun q hq => hfront q (List.mem_cons_of_mem _ hq)

theorem framed_inside {stop padding footer : Nat} (hstop : stop ≤ bytes.length)
    (hfooter : footer + 16 + padding = stop) : Inside (framed bytes stop padding footer) := by
  unfold framed
  refine (Inside.bailIf _ (by decide)).bind fun _ _ => (Inside.numberAt (by omega)).bind fun n _ => ?_
  refine (Inside.context _ (by decide)).bind fun start hs => ?_
  refine (Inside.bailIf _ (by decide)).bind fun _ hmin => ?_
  have hmin := bailIf_ok.mp hmin
  have hs := context_ok.mp hs
  have hstart : start + n ≤ footer := by
    by_cases hfit : n ≤ footer
    · rw [if_pos hfit, Option.some.injEq] at hs
      omega
    · rw [if_neg hfit] at hs
      cases hs
  refine (Inside.readAt (by omega)).bind fun _ _ => ?_
  exact (Inside.bailIf _ (by decide)).bind fun _ _ => Inside.ok _

theorem scan_inside {stop : Nat} (hstop : stop ≤ bytes.length) (hlen : bytes.length < 2 ^ 64)
    (paddings : List Nat) : Inside (scan bytes stop paddings) := by
  induction paddings with
  | nil => exact Inside.error (by decide)
  | cons padding rest ih =>
    rw [scan]
    by_cases hshort : stop < padding + 16
    · rw [if_pos hshort]
      exact ih
    · rw [if_neg hshort]
      refine (Inside.add (by omega)).bind fun at8 hat => ?_
      obtain ⟨-, rfl⟩ := add_ok.mp hat
      refine (Inside.readAt (by omega)).bind fun found _ => ?_
      by_cases hmagic : found ≠ magic
      · rw [if_pos hmagic]
        exact ih
      · rw [if_neg hmagic]
        exact framed_inside hstop (by omega)

/-! ## What is accepted -/

/-- The largest padding before the end of the content. -/
def slack (signed : Bool) : Nat := if signed then 7 else 0

/-- The file holds an archive: behind its content stand at most `slack` zero bytes, before them the
footer, before the footer the archive. -/
def Holds (bytes : List UInt8) (start footer : Nat) : Prop :=
  ∃ stop signed padding, Content bytes stop signed ∧ padding ≤ slack signed ∧
    Framed bytes stop padding start footer

theorem payloadRange_ok (hlen : bytes.length < 2 ^ 64) {start footer : Nat} :
    payloadRange bytes = .ok (start, footer) ↔ Holds bytes start footer := by
  simp only [payloadRange, bind_ok, Prod.exists, contentEnd_ok]
  constructor
  · intro h
    obtain ⟨stop, signed, hcontent, hscan⟩ := h
    obtain ⟨padding, hp, hframed⟩ := scan_ok hcontent.le hlen hscan
    refine ⟨stop, signed, padding, hcontent, ?_, hframed⟩
    cases signed with
    | false => exact Nat.le_of_lt_succ (List.mem_range.mp hp)
    | true => exact Nat.le_of_lt_succ (List.mem_range.mp hp)
  · intro h
    obtain ⟨stop, signed, padding, hcontent, hle, hframed⟩ := h
    refine ⟨stop, signed, hcontent, ?_⟩
    have hcount : ∀ k, padding < k → scan bytes stop (List.range k) = .ok (start, footer) := by
      intro k hk
      obtain ⟨m, rfl⟩ : ∃ m, k = padding + (m + 1) := ⟨k - padding - 1, by omega⟩
      rw [List.range_add, List.range_succ_eq_map, List.map_cons, Nat.add_zero]
      exact scan_found hcontent.le hlen hframed fun p hp => List.mem_range.mp hp
    cases signed with
    | false => exact hcount 1 (Nat.lt_succ_of_le hle)
    | true => exact hcount 8 (Nat.lt_succ_of_le hle)

theorem payloadRange_inside (hlen : bytes.length < 2 ^ 64) : Inside (payloadRange bytes) := by
  refine contentEnd_inside.bind fun found hfound => ?_
  obtain ⟨stop, signed⟩ := found
  exact scan_inside (contentEnd_ok.mp hfound).le hlen _

/-- `payload_range` never panics and never reads over the end of a file; it returns a range exactly
when the file holds an archive there, and a file holds one archive at most. -/
theorem payloadRange_exact (bytes : List UInt8) (hlen : bytes.length < 2 ^ 64) :
    Inside (payloadRange bytes) ∧
    (∀ start footer, payloadRange bytes = .ok (start, footer) ↔ Holds bytes start footer) ∧
    (∀ start footer start' footer', Holds bytes start footer → Holds bytes start' footer' →
      start = start' ∧ footer = footer') := by
  refine ⟨payloadRange_inside hlen, fun start footer => payloadRange_ok hlen, ?_⟩
  intro start footer start' footer' h h'
  have hrun := (payloadRange_ok hlen).mpr h
  rw [(payloadRange_ok hlen).mpr h'] at hrun
  cases hrun
  exact ⟨rfl, rfl⟩

/-- An unsigned file of the framing tests, cut to its payload. -/
def samplePlain : List UInt8 := ascii "stub" ++ zipSignature ++ toLe 8 4 ++ magic

theorem payloadRange_exact_plain :
    Inside (payloadRange samplePlain) ∧ Holds samplePlain 4 8 ∧ ¬Holds samplePlain 4 7 := by
  obtain ⟨hinside, hexact, -⟩ := payloadRange_exact samplePlain (by decide)
  have hrun : payloadRange samplePlain = .ok (4, 8) := by decide +kernel
  refine ⟨hinside, (hexact 4 8).mp hrun, ?_⟩
  intro h
  have hother := (hexact 4 7).mpr h
  rw [hrun] at hother
  cases hother

end Eef.Node.Installer
