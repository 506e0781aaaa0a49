import Eef.Node.PullProgress

/-!
# A pull does not depend on how its stream is cut

The calls of `PullProgress` that succeed are those of the line reader (`feed_settled`,
`follow_settled`), so what a stream leads to is a function of its lines. `Legible` and `Confirmed`
say which lines these must be, in terms of the bytes and documents alone: `Tracks` relates the
tally to the lines read so far, and with it the test on the table of layers, which the code makes
against its own state, becomes one against the earlier lines.
-/

namespace Eef.Node

open Eef.Lib LineReader

/-! ## What a successful call leaves -/

/-- The buffer and the tally after a call that succeeded. -/
def settled (r : Result Unit × PullProgress) : Option (List UInt8 × Tally) :=
  match r with
  | (.error _, _) => none
  | (.ok (), q) => some (q.buffer, q.toTally)

/-- The state with this buffer and this tally. -/
def PullProgress.of (st : List UInt8 × Tally) : PullProgress := ⟨st.2, st.1⟩

/-- The last line has to say `success`. -/
def confirm (t : Tally) : Option (List UInt8 × Tally) :=
  if t.success then some ([], t) else none

theorem settled_of (st : List UInt8 × Tally) : settled (.ok (), .of st) = some st := rfl

theorem settled_some {r : Result Unit × PullProgress} {st : List UInt8 × Tally} :
    settled r = some st ↔ r = (.ok (), .of st) := by
  obtain ⟨r, q⟩ := r
  cases r with
  | error e => exact ⟨nofun, nofun⟩
  | ok u =>
    constructor
    · intro h
      rw [← Option.some.inj h]
      rfl
    · intro h
      rw [(Prod.mk.inj h).2]
      rfl

theorem settled_ok {r : Result Unit × PullProgress} :
    (∃ st, settled r = some st) ↔ r.1 = .ok () := by
  obtain ⟨r, q⟩ := r
  cases r with
  | error e => exact ⟨nofun, nofun⟩
  | ok u => exact ⟨fun _ => rfl, fun _ => ⟨_, rfl⟩⟩

/-- A call after a call. -/
theorem settled_andThen (r : Result Unit × PullProgress)
    (k : PullProgress → Result Unit × PullProgress) :
    settled (PullProgress.andThen r k) = settled r >>= fun st => settled (k (.of st)) := by
  obtain ⟨r, q⟩ := r
  cases r with
  | error e => rfl
  | ok u => rfl

section
variable [FromSlice]

/-- What a line makes of the tally, if it is accepted. -/
def heard (t : Tally) (line : List UInt8) : Option Tally :=
  if line.all isAsciiWhitespace then some t
  else
    match FromSlice.fromSlice line with
    | .error _ => none
    | .ok value =>
      match t.report value with
      | (.error _, _) => none
      | (.ok (), t') => some t'

theorem line_settled (p : PullProgress) :
    settled p.line = (heard p.toTally p.buffer).map ([], ·) := by
  unfold PullProgress.line heard
  by_cases hb : p.buffer.all isAsciiWhitespace = true
  · rw [if_pos hb, if_pos hb]
    rfl
  · rw [if_neg hb, if_neg hb]
    cases FromSlice.fromSlice p.buffer with
    | error e => rfl
    | ok value =>
      show settled ((p.toTally.report value).1, ⟨(p.toTally.report value).2, []⟩)
        = Option.map _ (match p.toTally.report value with
          | (.error _, _) => none
          | (.ok (), t') => some t')
      obtain ⟨r, t'⟩ := p.toTally.report value
      cases r with
      | error e => rfl
      | ok u => rfl

theorem feedPart_settled (p : PullProgress) (part : List UInt8) :
    settled (p.feedPart part)
      = readPart maxProgressLine (· = newline) heard (p.buffer, p.toTally) part := by
  unfold PullProgress.feedPart readPart
  by_cases hfit : maxProgressLine - p.buffer.length < part.length
  · rw [if_pos hfit, if_pos hfit]
    rfl
  · rw [if_neg hfit, if_neg hfit]
    by_cases hend : part.getLast? = some newline
    · rw [if_pos hend, hend, line_settled]
      rfl
    · have hlast : part.getLast?.any (fun b => decide (b = newline)) = false := by
        cases hg : part.getLast? with
        | none => rfl
        | some b =>
          show decide (b = newline) = false
          exact decide_eq_false fun h => hend (h ▸ hg)
      rw [if_neg hend, hlast]
      rfl

theorem feedParts_settled (p : PullProgress) (parts : List (List UInt8)) :
    settled (p.feedParts parts)
      = parts.foldlM (readPart maxProgressLine (· = newline) heard) (p.buffer, p.toTally) := by
  induction parts generalizing p with
  | nil => rfl
  | cons part parts ih =>
    unfold PullProgress.feedParts
    rw [settled_andThen, feedPart_settled, List.foldlM_cons]
    exact bind_congr fun st => ih (.of st)

/-- `feed` is the reader on a chunk. -/
theorem feed_settled (p : PullProgress) (chunk : List UInt8) :
    settled (p.feed chunk)
      = readChunk maxProgressLine (· = newline) heard (p.buffer, p.toTally) chunk :=
  feedParts_settled p _

theorem finish_settled (p : PullProgress) :
    settled p.finish = close heard (p.buffer, p.toTally) >>= confirm := by
  have hconfirm : ∀ st : List UInt8 × Tally, st.1 = [] →
      settled (if (PullProgress.of st).success then (.ok (), .of st)
        else (.error
          "The model service did not confirm installation. Check the connection and try again.",
          .of st)) = confirm st.2 := by
    intro st hst
    obtain ⟨buffer, t⟩ := st
    obtain rfl : buffer = [] := hst
    unfold confirm
    by_cases hs : t.success = true
    · rw [if_pos hs, if_pos (show (PullProgress.of ([], t)).success = true from hs)]
      rfl
    · rw [if_neg hs, if_neg (show ¬(PullProgress.of ([], t)).success = true from hs)]
      rfl
  unfold PullProgress.finish
  rw [settled_andThen]
  unfold close
  by_cases hb : p.buffer = []
  · rw [if_pos hb, if_pos hb]
    exact hconfirm (p.buffer, p.toTally) hb
  · rw [if_neg hb, if_neg hb, line_settled]
    cases heard p.toTally p.buffer with
    | none => rfl
    | some t => exact hconfirm ([], t) rfl

theorem follow_settled (p : PullProgress) (chunks : List (List UInt8)) :
    settled (p.follow chunks)
      = (chunks.foldlM (readChunk maxProgressLine (· = newline) heard) (p.buffer, p.toTally)
          >>= close heard) >>= confirm := by
  induction chunks generalizing p with
  | nil => exact finish_settled p
  | cons chunk chunks ih =>
    unfold PullProgress.follow
    rw [settled_andThen, feed_settled, List.foldlM_cons, bind_assoc, bind_assoc]
    refine bind_congr fun st => ?_
    rw [ih (.of st), bind_assoc]
    rfl

/-- **What a stream leads to is a function of its lines.** -/
theorem follow_lines (chunks : List (List UInt8)) :
    settled (PullProgress.default.follow chunks)
      = readLines maxProgressLine heard Tally.default
          (splitInclusive (· = newline) chunks.flatten) >>= confirm := by
  rw [follow_settled]
  show ((_ : Option Tally) >>= confirm) = _
  exact congrArg (· >>= confirm) (readChunks_close Tally.default chunks)

/-! ## Which lines a stream must have -/

/-- The document of a line; a blank line has none. -/
def document (line : List UInt8) : Option Json :=
  if line.all isAsciiWhitespace then none else (FromSlice.fromSlice line).toOption

/-- The layers that lines speak of. -/
def digests (lines : List (List UInt8)) : List String :=
  ((lines.filterMap document).filter Tally.measures).map Tally.digest

/-- The layer limits for a document after other lines: a digest of at most 256 bytes that is known
already or is not past the 4096th. -/
structure Within (before : List (List UInt8)) (value : Json) : Prop where
  short : (Tally.digest value).utf8ByteSize ≤ 256
  room : Tally.digest value ∈ digests before ∨ (digests before).toFinset.card < 4096

/-- What a line has to be after other lines: blank, or JSON without an error and within the layer
limits. -/
def Readable (before : List (List UInt8)) (line : List UInt8) : Prop :=
  line.all isAsciiWhitespace = false → ∃ value, FromSlice.fromSlice line = .ok value ∧
    (value.index "error").asStr = none ∧ (Tally.measures value = true → Within before value)

/-- Every line is short enough and readable. -/
structure Legible (lines : List (List UInt8)) : Prop where
  fits : ∀ line ∈ lines, line.length ≤ maxProgressLine
  readable : ∀ before line, before ++ [line] <+: lines → Readable before line

/-- The last line that is not blank has status `success`. -/
def Confirmed (lines : List (List UInt8)) : Prop :=
  ∃ line value, (lines.filter fun line => !line.all isAsciiWhitespace).getLast? = some line ∧
    FromSlice.fromSlice line = .ok value ∧ (value.index "status").asStr = some "success"

/-! ## The tally follows the lines -/

/-- The tally after these lines. -/
structure Tracks (lines : List (List UInt8)) (t : Tally) : Prop where
  keys : ∀ d, d ∈ t.layers.keys ↔ d ∈ digests lines
  success : t.success = true ↔ Confirmed lines

theorem Tracks.default : Tracks [] Tally.default :=
  ⟨fun _ => Iff.rfl, ⟨nofun, fun ⟨_, _, h, _⟩ => nomatch h⟩⟩

/-- The test of the code on its table is the one on the earlier lines. -/
theorem Tracks.within {before : List (List UInt8)} {t : Tally} (h : Tracks before t)
    (value : Json) :
    ¬(256 < (Tally.digest value).utf8ByteSize
      ∨ (t.layers.get? (Tally.digest value) = none ∧ 4096 ≤ t.layers.entries.length))
      ↔ Within before value := by
  have hcard : t.layers.entries.length = (digests before).toFinset.card := by
    rw [SortedMap.length_eq_card]
    congr 1
    ext d
    rw [List.mem_toFinset, List.mem_toFinset, h.keys]
  rw [SortedMap.get?_none_iff, h.keys, hcard]
  constructor
  · intro hn
    refine ⟨by omega, ?_⟩
    by_cases hd : Tally.digest value ∈ digests before
    · exact Or.inl hd
    · refine Or.inr ?_
      by_contra hc
      exact hn (Or.inr ⟨hd, by omega⟩)
  · rintro ⟨hshort, hroom⟩ (hlong | ⟨hd, hfull⟩)
    · omega
    · rcases hroom with hk | hlt
      · exact hd hk
      · omega

theorem heard_blank {t : Tally} {line : List UInt8} (hb : line.all isAsciiWhitespace = true) :
    heard t line = some t := by
  unfold heard
  rw [if_pos hb]

theorem heard_document {t t' : Tally} {line : List UInt8}
    (hb : line.all isAsciiWhitespace = false) :
    heard t line = some t' ↔
      ∃ value, FromSlice.fromSlice line = .ok value ∧ t.report value = (.ok (), t') := by
  unfold heard
  rw [if_neg (by rw [hb]; exact Bool.false_ne_true)]
  cases FromSlice.fromSlice line with
  | error e => exact ⟨nofun, fun ⟨_, h, _⟩ => nomatch h⟩
  | ok value =>
    constructor
    · intro h
      refine ⟨value, rfl, ?_⟩
      cases hr : t.report value with
      | mk r t'' =>
        simp only [hr] at h
        cases r with
        | error e => exact nomatch h
        | ok u => rw [Option.some.inj h]
    · rintro ⟨_, ⟨⟩, h⟩
      simp only [h]

theorem document_blank {line : List UInt8} (hb : line.all isAsciiWhitespace = true) :
    document line = none := by
  unfold document
  rw [if_pos hb]

theorem document_ok {line : List UInt8} {value : Json} (hb : line.all isAsciiWhitespace = false)
    (hv : FromSlice.fromSlice line = .ok value) : document line = some value := by
  unfold document
  rw [if_neg (by rw [hb]; exact Bool.false_ne_true), hv]
  rfl

theorem digests_concat (before : List (List UInt8)) (line : List UInt8) :
    digests (before ++ [line])
      = digests before ++ ((document line).toList.filter Tally.measures).map Tally.digest := by
  unfold digests
  rw [List.filterMap_append, List.filter_append, List.map_append]
  congr 3

theorem confirmed_blank {before : List (List UInt8)} {line : List UInt8}
    (hb : line.all isAsciiWhitespace = true) : Confirmed (before ++ [line]) ↔ Confirmed before := by
  unfold Confirmed
  rw [List.filter_append, List.filter_cons_of_neg (by rw [hb]; exact Bool.false_ne_true),
    List.filter_nil, List.append_nil]

theorem confirmed_document {before : List (List UInt8)} {line : List UInt8} {value : Json}
    (hb : line.all isAsciiWhitespace = false) (hv : FromSlice.fromSlice line = .ok value) :
    Confirmed (before ++ [line]) ↔ (value.index "status").asStr = some "success" := by
  unfold Confirmed
  rw [List.filter_append, List.filter_cons_of_pos (by rw [hb]; rfl), List.filter_nil,
    List.getLast?_concat]
  constructor
  · rintro ⟨_, value', ⟨⟩, hv', hs⟩
    obtain rfl : value = value' := Except.ok.inj (hv.symm.trans hv')
    exact hs
  · intro hs
    exact ⟨line, value, rfl, hv, hs⟩

/-- A line that is accepted was readable, and the tally has followed it. -/
theorem Tracks.heard {before : List (List UInt8)} {t t' : Tally} {line : List UInt8}
    (h : Tracks before t) (hh : heard t line = some t') :
    Readable before line ∧ Tracks (before ++ [line]) t' := by
  by_cases hb : line.all isAsciiWhitespace = true
  · rw [heard_blank hb] at hh
    obtain rfl : t = t' := Option.some.inj hh
    refine ⟨fun hn => absurd (hb.symm.trans hn) nofun, ?_, ?_⟩
    · intro d
      rw [digests_concat, document_blank hb, h.keys]
      show _ ↔ d ∈ digests before ++ []
      rw [List.append_nil]
    · rw [confirmed_blank hb]
      exact h.success
  · have hb : line.all isAsciiWhitespace = false := Bool.not_eq_true _ ▸ hb
    obtain ⟨value, hv, hr⟩ := (heard_document hb).mp hh
    obtain ⟨herror, hfit, rfl⟩ := Tally.report_ok.mp hr
    have hwithin : Tally.measures value = true → Within before value :=
      fun hm => (h.within value).mp (hfit hm)
    have hdigests : digests (before ++ [line])
        = digests before ++ ([value].filter Tally.measures).map Tally.digest := by
      rw [digests_concat, document_ok hb hv]
      rfl
    refine ⟨fun _ => ⟨value, hv, herror, hwithin⟩, ?_, ?_⟩
    · intro d
      rw [hdigests]
      unfold Tally.after
      by_cases hm : Tally.measures value = true
      · rw [if_pos hm, List.filter_cons_of_pos hm]
        show d ∈ (t.layers.insert (Tally.digest value) _).keys ↔ d ∈ digests before ++ [_]
        rw [SortedMap.mem_keys_insert, List.mem_append, List.mem_singleton, h.keys]
        exact Or.comm
      · rw [if_neg hm, List.filter_cons_of_neg hm]
        show d ∈ t.layers.keys ↔ d ∈ digests before ++ []
        rw [List.append_nil, h.keys]
    · rw [confirmed_document hb hv]
      have hs : (t.after value).success
          = decide ((value.index "status").asStr = some "success") := by
        unfold Tally.after
        split
        · rfl
        · rfl
      rw [hs]
      exact decide_eq_true_iff

/-- A readable line is accepted. -/
theorem Tracks.accepts {before : List (List UInt8)} {t : Tally} {line : List UInt8}
    (h : Tracks before t) (hr : Readable before line) : ∃ t', Node.heard t line = some t' := by
  by_cases hb : line.all isAsciiWhitespace = true
  · exact ⟨t, heard_blank hb⟩
  · have hb : line.all isAsciiWhitespace = false := Bool.not_eq_true _ ▸ hb
    obtain ⟨value, hv, herror, hwithin⟩ := hr hb
    have hreport : t.report value = (.ok (), t.after value) :=
      Tally.report_ok.mpr ⟨herror, fun hm => (h.within value).mpr (hwithin hm), rfl⟩
    exact ⟨t.after value, (heard_document hb).mpr ⟨value, hv, hreport⟩⟩

/-- The lines are accepted exactly when they are legible, and the tally follows them. -/
theorem readLines_legible (lines : List (List UInt8)) :
    (∀ t, readLines maxProgressLine heard Tally.default lines = some t → Tracks lines t) ∧
      ((∃ t, readLines maxProgressLine heard Tally.default lines = some t) ↔ Legible lines) := by
  obtain ⟨htracks, hiff⟩ := @readLines_iff _ _ maxProgressLine heard Tracks Readable
    (fun _ _ _ _ h hh => h.heard hh) (fun _ _ _ h hr => h.accepts hr) _ Tracks.default lines
  refine ⟨htracks, hiff.trans ⟨fun h => ⟨h.1, h.2⟩, fun h => ⟨h.fits, h.readable⟩⟩⟩

/-! ## Pull progress does not depend on chunking -/

/-- A stream is followed to success exactly when its lines are legible and the last one that is
not blank confirms the installation. -/
theorem follow_ok {chunks lines : List (List UInt8)}
    (hl : Lines (· = newline) chunks.flatten lines) :
    (PullProgress.default.follow chunks).1 = .ok () ↔ Legible lines ∧ Confirmed lines := by
  obtain ⟨htracks, hlegible⟩ := readLines_legible lines
  rw [← settled_ok, follow_lines, ← hl.eq]
  cases ht : readLines maxProgressLine heard Tally.default lines with
  | none =>
    constructor
    · exact fun ⟨_, h⟩ => nomatch h
    · rintro ⟨h, -⟩
      obtain ⟨t, hsome⟩ := hlegible.mpr h
      exact nomatch ht.symm.trans hsome
  | some t =>
    show (∃ st, confirm t = some st) ↔ _
    rw [← (htracks t ht).success]
    unfold confirm
    by_cases hs : t.success = true
    · rw [if_pos hs]
      exact ⟨fun _ => ⟨hlegible.mp ⟨t, ht⟩, hs⟩, fun _ => ⟨_, rfl⟩⟩
    · rw [if_neg hs]
      constructor
      · rintro ⟨_, h⟩
        exact nomatch h
      · exact fun h => absurd h.2 hs

/-- **Chunking does not matter.** Two ways of cutting a stream both fail or both succeed, with the
same layers, phase and counts; the buffer and the table of layers keep their bounds at all times;
and a stream succeeds exactly when its lines are legible and confirm the installation. -/
theorem pull_progress_chunks :
    (∀ a b : List (List UInt8), a.flatten = b.flatten →
      ((PullProgress.default.follow a).1 = .ok () ↔ (PullProgress.default.follow b).1 = .ok ()) ∧
      ((PullProgress.default.follow a).1 = .ok () →
        (PullProgress.default.follow a).2.layers = (PullProgress.default.follow b).2.layers ∧
        (PullProgress.default.follow a).2.phase = (PullProgress.default.follow b).2.phase ∧
        (PullProgress.default.follow a).2.counts = (PullProgress.default.follow b).2.counts)) ∧
    (∀ p : PullProgress, p.Reached →
      p.buffer.length ≤ maxProgressLine ∧ p.layers.entries.length ≤ 4096 ∧
      p.finish.2.Reached ∧ ∀ chunk, (p.feed chunk).2.Reached) ∧
    (∀ chunks lines : List (List UInt8), Lines (· = newline) chunks.flatten lines →
      ((PullProgress.default.follow chunks).1 = .ok () ↔ Legible lines ∧ Confirmed lines)) := by
  refine ⟨?_, ?_, fun chunks lines hl => follow_ok hl⟩
  · intro a b hab
    have hsame : settled (PullProgress.default.follow a)
        = settled (PullProgress.default.follow b) := by
      rw [follow_lines, follow_lines, hab]
    refine ⟨?_, ?_⟩
    · rw [← settled_ok, ← settled_ok, hsame]
    · intro ha
      obtain ⟨st, hst⟩ := settled_ok.mpr ha
      rw [settled_some.mp hst, settled_some.mp (hsame.symm.trans hst)]
      exact ⟨rfl, rfl, rfl⟩
  · intro p hp
    exact ⟨hp.bounded.buffer, hp.bounded.layers, hp.finish, hp.feed⟩

end

/-- A line with status `success`, as the service sends it. -/
def successLine : List UInt8 :=
  [123, 34, 115, 116, 97, 116, 117, 115, 34, 58, 34, 115, 117, 99, 99, 101, 115, 115, 34, 125, 10]

/-- The reading of that line. -/
@[reducible]
def successReader : FromSlice where
  fromSlice bytes :=
    if bytes = successLine then .ok (.obj [("status", .str "success")])
    else .error "expected value"

/-- The line as one chunk, and cut inside a word and after the brace. -/
theorem pull_progress_chunks_sample :
    let _ := successReader
    (PullProgress.default.follow [successLine]).1 = .ok () ∧
      (PullProgress.default.follow
        [successLine.take 5, [], (successLine.drop 5).take 15, [10]]).1 = .ok () ∧
      (PullProgress.default.follow
        [successLine.take 5, [], (successLine.drop 5).take 15, [10]]).2.phase = "success" ∧
      PullProgress.default.buffer.length ≤ maxProgressLine ∧
      Legible [successLine] ∧ Confirmed [successLine] := by
  intro _
  have hwhole : (PullProgress.default.follow [successLine]).1 = .ok () := rfl
  have hlines : Lines (· = newline) [successLine].flatten [successLine] :=
    lines_splitInclusive (· = newline) successLine
  obtain ⟨hagree, hbounds, hlegible⟩ := @pull_progress_chunks successReader
  have hcut := hagree [successLine] [successLine.take 5, [], (successLine.drop 5).take 15, [10]] rfl
  refine ⟨hwhole, hcut.1.mp hwhole, ?_, (hbounds _ .start).1,
    (hlegible [successLine] [successLine] hlines).mp hwhole⟩
  rw [← (hcut.2 hwhole).2.1]
  rfl

end Eef.Node
