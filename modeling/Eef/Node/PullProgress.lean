import Eef.Lib.Checked
import Eef.Lib.Json
import Eef.Lib.Lines
import Eef.Lib.SortedMap

/-!
# Progress of a model pull

`PullProgress` (`model_manager.rs`) follows the stream of progress lines that the model service
sends while it pulls a model. The bytes arrive in chunks of the transport's choosing; `feed` cuts
a chunk at the newlines and keeps what is left in a bounded buffer, `line` reads one JSON line
into the table of layers, and `finish` asks for a last line that says `success`.

A call that fails leaves a state behind as well, so a call answers with its result and with what
`self` is afterwards. `Tally` is the part of the state that lines change; `reader` shows the calls
to be the bounded line reader of `Eef.Lib.LineReader`, with `heard` as its step.
-/

namespace Eef.Node

open Eef.Lib

/-- `serde_json::from_slice::<Value>`. -/
class FromSlice where
  fromSlice : List UInt8 → Result Json

/-- `MAX_PROGRESS_LINE`. -/
def maxProgressLine : Nat := 64 * 1024

/-- `b'\n'`. -/
def newline : UInt8 := 10

/-- `u8::is_ascii_whitespace`. -/
def isAsciiWhitespace (b : UInt8) : Bool :=
  b = 9 || b = 10 || b = 12 || b = 13 || b = 32

/-- The layers by their digests, each with the bytes completed and the bytes in total; whether the
last line said `success`; and the last status. -/
structure Tally where
  layers : SortedMap String (Nat × Nat)
  success : Bool
  phase : String
  deriving DecidableEq

/-- `PullProgress`. -/
structure PullProgress extends Tally where
  buffer : List UInt8
  deriving DecidableEq

namespace Tally

/-- `Tally::default`. -/
def default : Tally := ⟨SortedMap.empty, false, ""⟩

/-- Whether a line speaks of a layer: it has one of the two numbers. -/
def measures (value : Json) : Bool :=
  (value.get? "total").isSome || (value.get? "completed").isSome

/-- The layer that a line speaks of. -/
def digest (value : Json) : String := (value.index "digest").asStr.getD "legacy-progress"

/-- What a line makes of the entry of its layer. -/
def entryWith (value : Json) (entry : Nat × Nat) : Nat × Nat :=
  let entry : Nat × Nat := match (value.index "total").asUInt 64 with
    | some total => (entry.1, total)
    | none => entry
  let entry : Nat × Nat := match (value.index "completed").asUInt 64 with
    | some completed => (completed, entry.2)
    | none => entry
  if 0 < entry.2 then (min entry.1 entry.2, entry.2) else entry

/-- The entry of the layer is written, with `or_default` for a new one. -/
def write (t : Tally) (value : Json) : Tally :=
  let entry := (t.layers.get? (digest value)).getD (0, 0)
  { t with layers := t.layers.insert (digest value) (entryWith value entry) }

/-- The layer that a line speaks of: there is room for 4096 of them. -/
def measure (t : Tally) (value : Json) : Result Unit × Tally :=
  if 256 < (digest value).utf8ByteSize
      ∨ (t.layers.get? (digest value) = none ∧ 4096 ≤ t.layers.entries.length) then
    (.error "The model service reported too many download layers", t)
  else (.ok (), t.write value)

/-- The status of a line. -/
def status (t : Tally) (value : Json) : Tally :=
  { t with
    phase := (value.index "status").asStr.getD t.phase
    success := (value.index "status").asStr = some "success" }

/-- What `line` does with the document it has read. -/
def report (t : Tally) (value : Json) : Result Unit × Tally :=
  match (value.index "error").asStr with
  | some error => (.error ("Model download failed: " ++ error), t)
  | none => if measures value then (t.status value).measure value else (.ok (), t.status value)

/-- One step of `counts`. -/
def addLayer (sums : Nat × Nat) (layer : String × Nat × Nat) : Result (Nat × Nat) := do
  let done ← context (Checked.checkedAdd 64 sums.1 layer.2.1) "Model progress size overflow"
  let total ← context (Checked.checkedAdd 64 sums.2 layer.2.2) "Model progress size overflow"
  return (done, total)

/-- `counts`. -/
def counts (t : Tally) : Result (Nat × Nat) := t.layers.entries.foldlM addLayer (0, 0)

end Tally

namespace PullProgress

/-- `PullProgress::default`. -/
def default : PullProgress := ⟨Tally.default, []⟩

/-- `self.call()?` and what comes after it. -/
def andThen (r : Result Unit × PullProgress) (k : PullProgress → Result Unit × PullProgress) :
    Result Unit × PullProgress :=
  match r with
  | (.error e, q) => (.error e, q)
  | (.ok (), q) => k q

variable [FromSlice]

/-- `line`. A document that cannot be read stays in the buffer. -/
def line (p : PullProgress) : Result Unit × PullProgress :=
  if p.buffer.all isAsciiWhitespace then (.ok (), { p with buffer := [] })
  else
    match FromSlice.fromSlice p.buffer with
    | .error e => (.error e, p)
    | .ok value =>
      let answer := p.toTally.report value
      (answer.1, ⟨answer.2, []⟩)

/-- `self.buffer.extend_from_slice(part)`. -/
def extend (p : PullProgress) (part : List UInt8) : PullProgress :=
  { p with buffer := p.buffer ++ part }

/-- One part of a chunk. -/
def feedPart (p : PullProgress) (part : List UInt8) : Result Unit × PullProgress :=
  if maxProgressLine - p.buffer.length < part.length then
    (.error "The model service sent an oversized progress line", p)
  else if part.getLast? = some newline then (p.extend part).line
  else (.ok (), p.extend part)

/-- The parts of a chunk, up to the first error. -/
def feedParts (p : PullProgress) : List (List UInt8) → Result Unit × PullProgress
  | [] => (.ok (), p)
  | part :: parts => andThen (p.feedPart part) fun q => feedParts q parts

/-- `feed`. -/
def feed (p : PullProgress) (chunk : List UInt8) : Result Unit × PullProgress :=
  p.feedParts (splitInclusive (· = newline) chunk)

/-- `finish`. -/
def finish (p : PullProgress) : Result Unit × PullProgress :=
  andThen (if p.buffer = [] then (.ok (), p) else p.line) fun q =>
    if q.success then (.ok (), q)
    else
      (.error
        "The model service did not confirm installation. Check the connection and try again.", q)

/-- A stream in chunks: they are fed up to the first error, and then comes `finish`. -/
def follow (p : PullProgress) : List (List UInt8) → Result Unit × PullProgress
  | [] => p.finish
  | chunk :: chunks => andThen (p.feed chunk) fun q => follow q chunks

/-! ## The bounds hold at all times -/

/-- What `self` can be from `default` on: after each statement of `feed` that changes it, and after
`line`, whatever it answered. -/
inductive Reached : PullProgress → Prop
  | start : Reached default
  | extend {p : PullProgress} {part : List UInt8} (h : Reached p)
      (hfit : ¬maxProgressLine - p.buffer.length < part.length) : Reached (p.extend part)
  | line {p : PullProgress} (h : Reached p) : Reached p.line.2

/-- The buffer and the table of layers are within their limits. -/
structure Bounded (p : PullProgress) : Prop where
  buffer : p.buffer.length ≤ maxProgressLine
  layers : p.layers.entries.length ≤ 4096

end PullProgress

namespace Tally

/-- A new layer needs room, and a known one keeps the table as long as it is. -/
theorem measure_room (t : Tally) (value : Json) (h : t.layers.entries.length ≤ 4096) :
    (t.measure value).2.layers.entries.length ≤ 4096 := by
  unfold measure
  by_cases hc : 256 < (digest value).utf8ByteSize
      ∨ (t.layers.get? (digest value) = none ∧ 4096 ≤ t.layers.entries.length)
  · rw [if_pos hc]
    exact h
  · rw [if_neg hc]
    show (t.layers.insert (digest value) _).entries.length ≤ 4096
    by_cases hnew : t.layers.get? (digest value) = none
    · have hroom : ¬4096 ≤ t.layers.entries.length := fun hm => hc (Or.inr ⟨hnew, hm⟩)
      have hle := SortedMap.length_insert_le t.layers (digest value)
        (entryWith value ((t.layers.get? (digest value)).getD (0, 0)))
      omega
    · rw [SortedMap.length_insert_of_mem]
      · exact h
      · by_contra hk
        exact hnew ((SortedMap.get?_none_iff _ _).mpr hk)

theorem report_room (t : Tally) (value : Json) (h : t.layers.entries.length ≤ 4096) :
    (t.report value).2.layers.entries.length ≤ 4096 := by
  unfold report
  cases (value.index "error").asStr with
  | some error => exact h
  | none =>
    show (if measures value then (t.status value).measure value
      else (.ok (), t.status value)).2.layers.entries.length ≤ 4096
    by_cases hm : measures value = true
    · rw [if_pos hm]
      exact measure_room (t.status value) value h
    · rw [if_neg hm]
      exact h

/-- The tally after a document that is accepted. -/
def after (t : Tally) (value : Json) : Tally :=
  if measures value then (t.status value).write value else t.status value

/-- What `report` accepts, and what it leaves. -/
theorem report_ok {t t' : Tally} {value : Json} :
    t.report value = (.ok (), t') ↔ (value.index "error").asStr = none ∧
      (measures value = true →
        ¬(256 < (digest value).utf8ByteSize
          ∨ (t.layers.get? (digest value) = none ∧ 4096 ≤ t.layers.entries.length))) ∧
      t.after value = t' := by
  unfold report after
  cases (value.index "error").asStr with
  | some error => exact ⟨nofun, fun h => nomatch h.1⟩
  | none =>
    by_cases hm : measures value = true
    · show (if measures value then (t.status value).measure value else _) = _ ↔ _
      rw [if_pos hm, if_pos hm]
      show (if 256 < (digest value).utf8ByteSize
          ∨ (t.layers.get? (digest value) = none ∧ 4096 ≤ t.layers.entries.length)
        then _ else _) = _ ↔ _
      split
      · rename_i hc
        exact ⟨nofun, fun h => absurd hc (h.2.1 hm)⟩
      · rename_i hc
        exact ⟨fun h => ⟨rfl, fun _ => hc, (Prod.mk.inj h).2⟩, fun h => Prod.ext rfl h.2.2⟩
    · show (if measures value then _ else ((.ok (), t.status value) : Result Unit × Tally)) = _ ↔ _
      rw [if_neg hm, if_neg hm]
      exact ⟨fun h => ⟨rfl, fun hm' => absurd hm' hm, (Prod.mk.inj h).2⟩,
        fun h => Prod.ext rfl h.2.2⟩

end Tally

namespace PullProgress

variable [FromSlice]

theorem Bounded.line {p : PullProgress} (h : Bounded p) : Bounded p.line.2 := by
  unfold PullProgress.line
  by_cases hb : p.buffer.all isAsciiWhitespace = true
  · rw [if_pos hb]
    exact ⟨Nat.zero_le _, h.layers⟩
  · rw [if_neg hb]
    cases FromSlice.fromSlice p.buffer with
    | error e => exact h
    | ok value => exact ⟨Nat.zero_le _, Tally.report_room p.toTally value h.layers⟩

/-- Neither limit is passed, whatever the bytes and whatever has failed. -/
theorem Reached.bounded {p : PullProgress} (h : Reached p) : Bounded p := by
  induction h with
  | start => exact ⟨Nat.zero_le _, Nat.zero_le _⟩
  | @extend p part h hfit ih =>
    refine ⟨?_, ih.layers⟩
    show (p.buffer ++ part).length ≤ maxProgressLine
    have hle := ih.buffer
    rw [List.length_append]
    omega
  | line h ih => exact ih.line

theorem Reached.feedPart {p : PullProgress} (h : Reached p) (part : List UInt8) :
    Reached (p.feedPart part).2 := by
  unfold PullProgress.feedPart
  by_cases hfit : maxProgressLine - p.buffer.length < part.length
  · rw [if_pos hfit]
    exact h
  · rw [if_neg hfit]
    by_cases hend : part.getLast? = some newline
    · rw [if_pos hend]
      exact (h.extend hfit).line
    · rw [if_neg hend]
      exact h.extend hfit

theorem Reached.andThen {r : Result Unit × PullProgress} (h : Reached r.2)
    {k : PullProgress → Result Unit × PullProgress} (hk : ∀ q, Reached q → Reached (k q).2) :
    Reached (andThen r k).2 := by
  obtain ⟨r, q⟩ := r
  cases r with
  | error e => exact h
  | ok u => exact hk q h

theorem Reached.feedParts {p : PullProgress} (h : Reached p) (parts : List (List UInt8)) :
    Reached (p.feedParts parts).2 := by
  induction parts generalizing p with
  | nil => exact h
  | cons part parts ih => exact (h.feedPart part).andThen fun q hq => ih hq

theorem Reached.feed {p : PullProgress} (h : Reached p) (chunk : List UInt8) :
    Reached (p.feed chunk).2 := h.feedParts _

theorem Reached.finish {p : PullProgress} (h : Reached p) : Reached p.finish.2 := by
  refine Reached.andThen ?_ fun q hq => ?_
  · by_cases hb : p.buffer = []
    · rw [if_pos hb]
      exact h
    · rw [if_neg hb]
      exact h.line
  · by_cases hs : q.success = true
    · rw [if_pos hs]
      exact hq
    · rw [if_neg hs]
      exact hq

end PullProgress

end Eef.Node
