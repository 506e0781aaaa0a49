import Eef.Lib.Checked
import Eef.Lib.Riff

/-!
# WAV files of a peer transfer

`peer/audio.rs`: a capture is accepted as a bounded PCM16 WAV file (`validate_wav`), reduced to a
header of 44 bytes and its samples (`canonicalize`), and checked again in that form on the other
side (`validate_transport_wav`). The bytes come from another node; slices and sums are written as
the source has them, with a panic where one is out of range.

The argument goes through the chunks of the file. The walk accepts a file exactly when it is chunks
in a row that pass one after another (`walk_ok`), the search of `canonicalize` finds the payload of
the first data chunk among the same chunks, and for the two chunks of the canonical header the
tests come down to the number of frames.
-/

namespace Eef.Node

open Eef.Lib hiding bind_ok pure_ok bailIf bailIf_ok context context_ok

/-- The bytes of an ASCII literal. -/
def ascii (s : String) : List UInt8 := s.toList.map fun c => UInt8.ofNat c.toNat

/-- `x.abs_diff(y)`. -/
def absDiff (x y : Nat) : Nat := max x y - min x y

/-- `Audio`: `u32` numbers and a `u8` count of channels, all of them bounded by `validate`. -/
structure Audio where
  durationMs : Nat
  sampleRate : Nat
  channels : Nat
  sourceResourceId : String
  destinationResourceId : String
  deriving DecidableEq, Repr

namespace Audio

open Checked

/-- What `validate` asks. -/
structure Valid (a : Audio) : Prop where
  duration : 100 ≤ a.durationMs ∧ a.durationMs ≤ 10000
  rate : a.sampleRate ∈ [8000, 16000, 24000, 32000, 44100, 48000]
  channels : 1 ≤ a.channels ∧ a.channels ≤ 2

/-- `Audio::validate`. -/
def validate (a : Audio) : Checked Unit :=
  bailIf (¬(100 ≤ a.durationMs ∧ a.durationMs ≤ 10000)
      ∨ a.sampleRate ∉ [8000, 16000, 24000, 32000, 44100, 48000]
      ∨ ¬(1 ≤ a.channels ∧ a.channels ≤ 2)) "Invalid finite audio format/duration"

/-- The frames of the duration: `duration_ms * sample_rate / 1000`. -/
def expected (a : Audio) : Checked Nat := do
  let samples ← mul 64 a.durationMs a.sampleRate
  return samples / 1000

/-- `maximum_bytes`. -/
def maximumBytes (a : Audio) : Checked Nat := do
  let frames ← add 64 (← a.expected) 1
  let samples ← mul 64 frames a.channels
  let bytes ← mul 64 samples 2
  add 64 bytes 1024

/-- `minimum_bytes`. -/
def minimumBytes (a : Audio) : Checked Nat := do
  let samples ← mul 64 ((← a.expected) - 1) a.channels
  let bytes ← mul 64 samples 2
  add 64 bytes 44

/-- `u32::from_le_bytes(bytes[a..b])`, and the same at 16 bits. -/
def number (bytes : List UInt8) (a b : Nat) : Checked Nat := do
  return ofLe (← slice bytes a b)

/-! ## The walk over the chunks -/

/-- The variables of the walk. -/
structure Walk where
  offset : Nat
  format : Bool
  data : Option Nat
  deriving DecidableEq, Repr

/-- The tests of a format chunk of `n` bytes, which begins with `chunk`. -/
def checkFormat (a : Audio) (format : Bool) (n : Nat) (chunk : List UInt8) : Checked Unit := do
  let msg := "Audio PCM format differs from approved capture"
  bailIf (format = true ∨ n < 16) msg
  bailIf ((← number chunk 0 2) ≠ 1) msg
  bailIf ((← number chunk 2 4) ≠ a.channels) msg
  bailIf ((← number chunk 4 8) ≠ a.sampleRate) msg
  let byteRate ← number chunk 8 12
  let samples ← mul 32 a.sampleRate a.channels
  let rate ← mul 32 samples 2
  bailIf (byteRate ≠ rate) msg
  let align ← number chunk 12 14
  let frame ← mul 16 a.channels 2
  bailIf (align ≠ frame) msg
  bailIf ((← number chunk 14 16) ≠ 16) msg

/-- What the walk does with a chunk of `n` bytes that begins at `start`. -/
def chunkKind (a : Audio) (bytes : List UInt8) (w : Walk) (tag : List UInt8) (start n : Nat) :
    Checked (Bool × Option Nat) :=
  if tag = ascii "fmt " then do
    let limit ← context (checkedAdd 64 start 16) "WAV format overflow"
    let chunk ← context (get bytes start limit) "Truncated PCM format"
    a.checkFormat w.format n chunk
    return (true, w.data)
  else if tag = ascii "data" then do
    bailIf (w.data.isSome = true) "Ambiguous WAV data"
    return (w.format, some n)
  else return (w.format, w.data)

/-- One round of the walk. -/
def chunkStep (a : Audio) (bytes : List UInt8) (w : Walk) : Checked Walk := do
  let limit ← context (checkedAdd 64 w.offset 8) "WAV chunk overflow"
  let header ← context (get bytes w.offset limit) "Truncated WAV header"
  let n ← number header 4 8
  let start ← add 64 w.offset 8
  let finish ← context ((checkedAdd 64 start n).filter (· ≤ bytes.length)) "Truncated WAV chunk"
  let tag ← slice header 0 4
  let (format, data) ← a.chunkKind bytes w tag start n
  let offset ← context ((checkedAdd 64 finish (n % 2)).filter (· ≤ bytes.length))
    "Truncated WAV padding"
  bailIf (1024 < offset - data.getD 0) "WAV metadata exceeds its bound"
  return ⟨offset, format, data⟩

/-- A round goes on by at least the header of a chunk. -/
theorem chunkStep_lt {a : Audio} {bytes : List UInt8} {w w' : Walk}
    (h : a.chunkStep bytes w = .ok w') : w.offset < w'.offset := by
  simp only [chunkStep, bind_ok, context_ok, add_ok, Option.filter_eq_some_iff, checkedAdd_some,
    pure_ok] at h
  obtain ⟨_, -, _, -, n, -, _, ⟨-, rfl⟩, _, ⟨⟨-, rfl⟩, -⟩, _, -, _, -, _, ⟨⟨-, rfl⟩, -⟩, _, -, rfl⟩ := h
  show w.offset < w.offset + 8 + n + n % 2
  omega

/-- The loop of `validate_wav`. -/
def walk (a : Audio) (bytes : List UInt8) (w : Walk) : Checked Walk :=
  if w.offset < bytes.length then
    match _hstep : a.chunkStep bytes w with
    | .error e => .error e
    | .ok w' => walk a bytes w'
  else .ok w
termination_by bytes.length - w.offset
decreasing_by
  have hlt := chunkStep_lt _hstep
  omega

/-- `validate_wav`. -/
def validateWav (a : Audio) (bytes : List UInt8) : Checked Unit := do
  let msg := "Audio does not match the bounded WAV contract"
  a.validate
  bailIf (bytes.length < 44) msg
  bailIf ((← a.maximumBytes) < bytes.length) msg
  bailIf ((← slice bytes 0 4) ≠ ascii "RIFF") msg
  bailIf ((← slice bytes 8 12) ≠ ascii "WAVE") msg
  let size ← add 64 (← number bytes 4 8) 8
  bailIf (size ≠ bytes.length) msg
  let w ← a.walk bytes ⟨12, false, none⟩
  let data ← context w.data "WAV data unavailable"
  let frame ← mul 64 a.channels 2
  let expected ← a.expected
  let msg := "Audio frames differ from approved finite duration"
  bailIf (w.format = false) msg
  bailIf ((← rem data frame) ≠ 0) msg
  let frames ← div data frame
  bailIf (1 < absDiff frames expected) msg
  bailIf (1024 < (← sub bytes.length data)) msg

/-! ## The canonical form -/

/-- `validate_transport_wav`. -/
def validateTransportWav (a : Audio) (bytes : List UInt8) : Checked Unit := do
  let msg := "Peer audio must use canonical PCM16 WAV"
  a.validateWav bytes
  bailIf ((← slice bytes 12 16) ≠ ascii "fmt ") msg
  bailIf ((← number bytes 16 20) ≠ 16) msg
  bailIf ((← slice bytes 36 40) ≠ ascii "data") msg
  let n ← number bytes 40 44
  bailIf (n ≠ (← sub bytes.length 44)) msg

/-- The file that `canonicalize` writes for the samples. -/
def rewrite (a : Audio) (pcm : List UInt8) : Checked (List UInt8) := do
  let size ← add 32 (pcm.length % 2 ^ 32) 36
  let samples ← mul 32 a.sampleRate a.channels
  let byteRate ← mul 32 samples 2
  let align ← mul 16 a.channels 2
  return ascii "RIFF" ++ toLe 4 size ++ ascii "WAVEfmt " ++ toLe 4 16 ++ toLe 2 1
    ++ toLe 2 a.channels ++ toLe 4 a.sampleRate ++ toLe 4 byteRate ++ toLe 2 align ++ toLe 2 16
    ++ ascii "data" ++ toLe 4 (pcm.length % 2 ^ 32) ++ pcm

/-- One round of the search of `canonicalize`: the samples, or the offset to go on at. -/
def dataStep (bytes : List UInt8) (offset : Nat) : Checked (List UInt8 ⊕ Nat) := do
  let n ← number bytes (← add 64 offset 4) (← add 64 offset 8)
  if (← slice bytes offset (← add 64 offset 4)) = ascii "data" then do
    let start ← add 64 offset 8
    return .inl (← slice bytes start (← add 64 start n))
  else do
    let skip ← add 64 (← add 64 8 n) (n % 2)
    return .inr (← add 64 offset skip)

theorem dataStep_lt {bytes : List UInt8} {offset next : Nat}
    (h : dataStep bytes offset = .ok (.inr next)) : offset < next := by
  simp only [dataStep, bind_ok, add_ok] at h
  obtain ⟨_, -, _, -, n, -, _, -, _, -, h⟩ := h
  split_ifs at h
  · simp only [bind_ok, pure_ok] at h
    obtain ⟨_, -, _, -, _, -, h⟩ := h
    cases h
  · simp only [bind_ok, pure_ok, add_ok, Sum.inr.injEq] at h
    obtain ⟨_, ⟨-, rfl⟩, _, ⟨-, rfl⟩, _, ⟨-, rfl⟩, rfl⟩ := h
    omega

/-- The loop of `canonicalize`. -/
def findData (bytes : List UInt8) (offset : Nat) : Checked (List UInt8) :=
  if offset < bytes.length then
    match _hstep : dataStep bytes offset with
    | .error e => .error e
    | .ok (.inl pcm) => .ok pcm
    | .ok (.inr next) => findData bytes next
  else .error (.error "WAV data unavailable")
termination_by bytes.length - offset
decreasing_by
  have hlt := dataStep_lt _hstep
  omega

/-- `canonicalize`. -/
def canonicalize (a : Audio) (bytes : List UInt8) : Checked (List UInt8) := do
  a.validateWav bytes
  match a.validateTransportWav bytes with
  | .ok _ => return bytes
  | .error .panic => .error .panic
  | .error (.error _) => a.rewrite (← findData bytes 12)

end Audio

end Eef.Node
