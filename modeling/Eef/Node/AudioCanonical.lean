import Eef.Node.AudioChunks

/-!
# The canonical form of a WAV file

`canonicalize` and `validate_transport_wav` of `peer/audio.rs`. The transport form of a file is the
header of 44 bytes that the audio contract fixes, and the samples (`validateTransportWav_ok`); what
`canonicalize` makes of an accepted file is the transport form of its own samples.
-/

namespace Eef.Node

open Eef.Lib hiding bind_ok pure_ok bailIf bailIf_ok context context_ok

namespace Audio

open Checked

variable {a : Audio} {bytes : List UInt8}

/-! ## No panic -/

theorem Safe.number {i j : Nat} (hij : i ≤ j) (hj : j ≤ bytes.length) : Safe (number bytes i j) :=
  (Safe.slice hij hj).bind fun _ _ => .ok _

theorem checkFormat_safe (h : a.Valid) {format : Bool} {n : Nat} {chunk : List UInt8}
    (hlen : chunk.length = 16) : Safe (a.checkFormat format n chunk) := by
  have hrate := h.rate_le
  have hchannels := h.channels
  have hsamples : a.sampleRate * a.channels ≤ 48000 * 2 := Nat.mul_le_mul hrate.2 hchannels.2
  have hread : ∀ i j, i ≤ j → j ≤ 16 → Safe (number chunk i j) :=
    fun i j hij hj => Safe.number hij (hlen ▸ hj)
  unfold checkFormat
  refine (Safe.bailIf _ _).bind fun _ _ => ?_
  refine (hread 0 2 (by decide) (by decide)).bind fun _ _ => (Safe.bailIf _ _).bind fun _ _ => ?_
  refine (hread 2 4 (by decide) (by decide)).bind fun _ _ => (Safe.bailIf _ _).bind fun _ _ => ?_
  refine (hread 4 8 (by decide) (by decide)).bind fun _ _ => (Safe.bailIf _ _).bind fun _ _ => ?_
  refine (hread 8 12 (by decide) (by decide)).bind fun _ _ => ?_
  refine (Safe.mul (by omega)).bind fun samples hmul => ?_
  obtain ⟨-, rfl⟩ := mul_ok.mp hmul
  refine (Safe.mul (by omega)).bind fun _ _ => (Safe.bailIf _ _).bind fun _ _ => ?_
  refine (hread 12 14 (by decide) (by decide)).bind fun _ _ => ?_
  refine (Safe.mul (by omega)).bind fun _ _ => (Safe.bailIf _ _).bind fun _ _ => ?_
  exact (hread 14 16 (by decide) (by decide)).bind fun _ _ => Safe.bailIf _ _

theorem chunkKind_safe (h : a.Valid) {w : Walk} {tag : List UInt8} {start n : Nat} :
    Safe (a.chunkKind bytes w tag start n) := by
  unfold chunkKind
  split_ifs
  · refine (Safe.context _ _).bind fun limit hlimit => (Safe.context _ _).bind fun chunk hchunk => ?_
    obtain ⟨-, rfl⟩ := checkedAdd_some.mp (context_ok.mp hlimit)
    obtain ⟨-, hle, rfl⟩ := get_some.mp (context_ok.mp hchunk)
    refine (checkFormat_safe h ?_).bind fun _ _ => .ok _
    rw [List.length_take, List.length_drop]
    omega
  · exact (Safe.bailIf _ _).bind fun _ _ => .ok _
  · exact .ok _

theorem chunkStep_safe (h : a.Valid) {w : Walk} (hlen : bytes.length < 2 ^ 62) :
    Safe (a.chunkStep bytes w) := by
  unfold chunkStep
  refine (Safe.context _ _).bind fun limit hlimit => (Safe.context _ _).bind fun header hheader => ?_
  obtain ⟨-, rfl⟩ := checkedAdd_some.mp (context_ok.mp hlimit)
  obtain ⟨-, hle, rfl⟩ := get_some.mp (context_ok.mp hheader)
  have hsize : ((bytes.drop w.offset).take (w.offset + 8 - w.offset)).length = 8 := by
    rw [List.length_take, List.length_drop]
    omega
  refine (Safe.number (by decide) (Nat.le_of_eq hsize.symm)).bind fun n _ => ?_
  refine (Safe.add (by omega)).bind fun start _ => (Safe.context _ _).bind fun finish _ => ?_
  refine (Safe.slice (by decide) (by omega)).bind fun tag _ => ?_
  refine (chunkKind_safe h).bind fun _ _ => (Safe.context _ _).bind fun _ _ => ?_
  exact (Safe.bailIf _ _).bind fun _ _ => .ok _

theorem walk_safe (h : a.Valid) (hlen : bytes.length < 2 ^ 62) (w : Walk) :
    Safe (a.walk bytes w) := by
  induction w using walk.induct a bytes with
  | case1 w hlt e he =>
    have hsafe := chunkStep_safe h (w := w) hlen
    rw [walk, if_pos hlt]
    split
    · rename_i e' he'
      rw [he'] at hsafe
      exact fun heq => hsafe (congrArg Except.error (Except.error.inj heq))
    · rename_i w₁ hw₁
      rw [he] at hw₁
      cases hw₁
  | case2 w hlt w₁ hw₁ ih =>
    rw [walk, if_pos hlt]
    split
    · rename_i e he
      rw [hw₁] at he
      cases he
    · rename_i w₂ hw₂
      rw [hw₁] at hw₂
      cases hw₂
      exact ih
  | case3 w hge =>
    rw [walk, if_neg hge]
    exact .ok _

/-! ## What is accepted -/

/-- What `validate_wav` accepts: the file, its chunks, where the walk ends, and the length of the
data. -/
structure Accepted (a : Audio) (bytes : List UInt8) (cs : List Chunk) (w : Walk) (n : Nat) : Prop where
  size : 44 ≤ bytes.length ∧ bytes.length ≤ (a.frames + 1) * a.channels * 2 + 1024
  riff : bytes.take 4 = ascii "RIFF"
  wave : (bytes.drop 8).take 4 = ascii "WAVE"
  total : ofLe ((bytes.drop 4).take 4) + 8 = bytes.length
  chunks : Consists (bytes.drop 12) cs
  walk : a.walkChunks ⟨12, false, none⟩ cs = some w
  format : w.format = true
  data : w.data = some n
  whole : n % a.frame = 0
  near : absDiff (n / a.frame) a.frames ≤ 1
  slack : n ≤ bytes.length ∧ bytes.length - n ≤ 1024

/-- A file that is not too long is far from any overflow. -/
theorem length_lt (h : a.Valid) (hle : bytes.length ≤ (a.frames + 1) * a.channels * 2 + 1024) :
    bytes.length < 2 ^ 62 := by
  have hframes := frames_le h
  have hmul := mul_channels_le h (n := a.frames + 1) (by omega)
  omega

theorem frame_ok (h : a.Valid) : mul 64 a.channels 2 = .ok a.frame := by
  have hchannels := h.channels
  exact mul_ok.mpr ⟨by omega, rfl⟩

theorem validateWav_ok (h : a.Valid) {u : Unit} :
    a.validateWav bytes = .ok u ↔ ∃ cs w n, Accepted a bytes cs w n := by
  have hframe := frame_bounds h
  simp only [validateWav, bind_ok, validate_ok, bailIf_ok, maximumBytes_ok h, expected_ok h,
    frame_ok h, slice_ok, number_ok, add_ok, context_ok, rem_ok, div_ok, sub_ok, Except.ok.injEq,
    exists_const, exists_eq_left', ne_eq, not_not, Nat.not_lt, Bool.not_eq_false]
  constructor
  · rintro ⟨-, hmin, hmax, _, ⟨-, -, rfl⟩, hriff, _, ⟨-, -, rfl⟩, hwave, _, ⟨-, -, rfl⟩, _, ⟨-, rfl⟩,
      htotal, w, hwalk, n, hdata, hformat, _, ⟨-, rfl⟩, hwhole, _, ⟨-, rfl⟩, hnear, _, ⟨hle, rfl⟩, hslack⟩
    have hoffset : 12 ≤ bytes.length := by omega
    obtain ⟨cs, hcs, hchunks⟩ := (walk_ok h (length_lt h hmax) _ w hoffset).mp hwalk
    exact ⟨cs, w, n, ⟨hmin, hmax⟩, hriff, hwave, htotal, hcs, hchunks, hformat, hdata, hwhole, hnear,
      ⟨hle, hslack⟩⟩
  · rintro ⟨cs, w, n, hok⟩
    obtain ⟨hmin, hmax⟩ := hok.size
    have hbound := length_lt h hmax
    have htotal : ofLe ((bytes.drop 4).take (8 - 4)) + 8 = bytes.length := hok.total
    have hoffset : 12 ≤ bytes.length := by omega
    have hne : ¬a.frame = 0 := by omega
    exact ⟨h, hmin, hmax, _, ⟨by omega, by omega, rfl⟩, hok.riff, _, ⟨by omega, by omega, rfl⟩,
      hok.wave, _, ⟨by omega, by omega, rfl⟩, _, ⟨by omega, rfl⟩, htotal, w,
      (walk_ok h hbound _ w hoffset).mpr ⟨cs, hok.chunks, hok.walk⟩, n, hok.data, hok.format, _,
      ⟨hne, rfl⟩, hok.whole, _, ⟨hne, rfl⟩, hok.near, _, ⟨hok.slack.1, rfl⟩, hok.slack.2⟩

/-- The data of an accepted file is the payload of its only data chunk. -/
theorem Accepted.pcm {cs : List Chunk} {w : Walk} {n : Nat} (h : Accepted a bytes cs w n) :
    ∃ pcm, dataOf cs = [pcm] ∧ pcm.length = n := by
  rcases walkChunks_data h.walk with ⟨-, -, hnone⟩ | ⟨-, pcm, hpcm, hlen⟩ | ⟨hsome, -⟩
  · rw [h.data] at hnone
    cases hnone
  · rw [h.data, Option.some.injEq] at hlen
    exact ⟨pcm, hpcm, hlen.symm⟩
  · exact absurd rfl hsome

theorem length_dataOf_le {cs : List Chunk} {pcm : List UInt8} (hwf : ∀ c ∈ cs, c.WF)
    (h : pcm ∈ dataOf cs) : pcm.length ≤ (Chunk.encodeAll cs).length := by
  obtain ⟨c, hc, rfl⟩ := List.mem_map.mp h
  have hmem : c ∈ cs := (List.mem_filter.mp hc).1
  obtain ⟨s, t, rfl⟩ := List.append_of_mem hmem
  have hlen := Chunk.length_encode (hwf c hmem)
  simp only [Chunk.encodeAll, List.map_append, List.map_cons, List.flatten_append,
    List.flatten_cons, List.length_append]
  omega

theorem validateWav_safe (a : Audio) (bytes : List UInt8) : Safe (a.validateWav bytes) := by
  unfold validateWav
  refine Safe.bind ?_ fun _ hvalid => ?_
  · exact Safe.bailIf _ _
  have h := validate_ok.mp hvalid
  refine (Safe.bailIf _ _).bind fun _ hmin => (Safe.of_ok (maximumBytes_ok h)).bind fun m hm => ?_
  have hlen : 44 ≤ bytes.length := Nat.not_lt.mp (bailIf_ok.mp hmin)
  refine (Safe.bailIf _ _).bind fun _ hmax => ?_
  rw [maximumBytes_ok h] at hm
  cases hm
  have hbound := length_lt h (Nat.not_lt.mp (bailIf_ok.mp hmax))
  refine (Safe.slice (by decide) (by omega)).bind fun _ _ => (Safe.bailIf _ _).bind fun _ _ => ?_
  refine (Safe.slice (by decide) (by omega)).bind fun _ _ => (Safe.bailIf _ _).bind fun _ _ => ?_
  refine (Safe.number (by decide) (by omega)).bind fun size hsize => ?_
  obtain ⟨-, -, hnumber⟩ := number_ok.mp hsize
  have hlt : size < 2 ^ 32 := by
    have hsize4 : ((bytes.drop 4).take (8 - 4)).length = 4 := by
      rw [List.length_take, List.length_drop]
      omega
    have hlt := ofLe_lt ((bytes.drop 4).take (8 - 4))
    rw [hsize4] at hlt
    omega
  refine (Safe.add (by omega)).bind fun _ _ => (Safe.bailIf _ _).bind fun _ _ => ?_
  refine (walk_safe h hbound _).bind fun w hwalk => (Safe.context _ _).bind fun n hn => ?_
  -- the data lies within the file
  have hle : n ≤ bytes.length := by
    have hoffset : 12 ≤ bytes.length := by omega
    obtain ⟨cs, hcs, hchunks⟩ := (walk_ok h hbound _ w hoffset).mp hwalk
    rcases walkChunks_data hchunks with ⟨-, -, hnone⟩ | ⟨-, pcm, hpcm, hdata⟩ | ⟨hsome, -⟩
    · rw [context_ok.mp hn] at hnone
      cases hnone
    · rw [context_ok.mp hn, Option.some.injEq] at hdata
      have hpayload := length_dataOf_le hcs.wf (hpcm ▸ List.mem_singleton_self pcm)
      rw [← hcs.eq, List.length_drop] at hpayload
      omega
    · exact absurd rfl hsome
  have hframe := frame_bounds h
  refine (Safe.of_ok (frame_ok h)).bind fun f hf => (Safe.of_ok (expected_ok h)).bind fun _ _ => ?_
  rw [frame_ok h] at hf
  cases hf
  have hne : a.frame ≠ 0 := by omega
  refine (Safe.bailIf _ _).bind fun _ _ => (Safe.rem hne).bind fun _ _ => ?_
  refine (Safe.bailIf _ _).bind fun _ _ => (Safe.div hne).bind fun _ _ => ?_
  exact (Safe.bailIf _ _).bind fun _ _ => (Safe.sub hle).bind fun _ _ => Safe.bailIf _ _

/-! ## The transport form -/

/-- The header of 44 bytes in front of `n` bytes of samples. -/
def header (a : Audio) (n : Nat) : List UInt8 :=
  ascii "RIFF" ++ toLe 4 (n + 36) ++ ascii "WAVEfmt " ++ toLe 4 16 ++ toLe 2 1 ++ toLe 2 a.channels
    ++ toLe 4 a.sampleRate ++ toLe 4 (a.sampleRate * a.channels * 2) ++ toLe 2 (a.channels * 2)
    ++ toLe 2 16 ++ ascii "data" ++ toLe 4 n

@[simp] theorem length_header (a : Audio) (n : Nat) : (a.header n).length = 44 := by
  simp only [header, List.length_append, length_toLe]
  rfl

/-- The samples are a whole number of frames, within one of the duration. -/
structure Fits (a : Audio) (pcm : List UInt8) : Prop where
  whole : pcm.length % a.frame = 0
  near : absDiff (pcm.length / a.frame) a.frames ≤ 1

def fmtChunk (a : Audio) : Chunk := ⟨ascii "fmt ", a.formatFields, []⟩

def dataChunk (pcm : List UInt8) : Chunk := ⟨ascii "data", pcm, []⟩

/-- The header and the samples, as chunks. -/
theorem header_append (a : Audio) (pcm : List UInt8) :
    a.header pcm.length ++ pcm = ascii "RIFF" ++ (toLe 4 (pcm.length + 36) ++ (ascii "WAVE"
      ++ Chunk.encodeAll [a.fmtChunk, dataChunk pcm])) := by
  have hsplit : ascii "WAVEfmt " = ascii "WAVE" ++ ascii "fmt " := by decide
  simp only [header, hsplit, fmtChunk, dataChunk, Chunk.encodeAll_cons, Chunk.encodeAll_nil,
    Chunk.encode, length_formatFields, List.append_assoc, List.append_nil]
  simp only [formatFields, List.append_assoc]

/-- The lengths of samples that fit. -/
theorem Fits.bounds (h : a.Valid) {pcm : List UInt8} (hfits : a.Fits pcm) :
    pcm.length % 2 = 0 ∧ pcm.length ≤ (a.frames + 1) * a.channels * 2
      ∧ (a.frames - 1) * a.channels * 2 ≤ pcm.length := by
  have hframe := frame_bounds h
  have hnear := hfits.near
  have hquotient : pcm.length / a.frame ≤ a.frames + 1 ∧ a.frames - 1 ≤ pcm.length / a.frame := by
    generalize pcm.length / a.frame = q at hnear ⊢
    unfold absDiff at hnear
    omega
  have hup : a.frame * (pcm.length / a.frame) ≤ a.frame * (a.frames + 1) :=
    Nat.mul_le_mul_left _ hquotient.1
  have hlow : a.frame * (a.frames - 1) ≤ a.frame * (pcm.length / a.frame) :=
    Nat.mul_le_mul_left _ hquotient.2
  have hassoc : ∀ k, k * a.channels * 2 = a.frame * k := fun k => by
    rw [Nat.mul_assoc, Nat.mul_comm]
    rfl
  have heven : a.frame * (pcm.length / a.frame) % 2 = 0 := by
    rcases hframe with hframe | hframe
    · rw [hframe]
      omega
    · rw [hframe]
      omega
  have hdiv : a.frame * (pcm.length / a.frame) = pcm.length :=
    Nat.mul_div_cancel' (Nat.dvd_of_mod_eq_zero hfits.whole)
  rw [hdiv] at hup hlow heven
  rw [hassoc, hassoc]
  exact ⟨heven, hup, hlow⟩

theorem length_riff : (ascii "RIFF").length = 4 := rfl

theorem length_wave : (ascii "WAVE").length = 4 := rfl

/-- The header in front of samples that fit is accepted. -/
theorem accepted_header (h : a.Valid) {pcm : List UInt8} (hfits : a.Fits pcm) :
    Accepted a (a.header pcm.length ++ pcm) [a.fmtChunk, dataChunk pcm]
      ⟨44 + pcm.length, true, some pcm.length⟩ pcm.length := by
  obtain ⟨heven, hmax, -⟩ := hfits.bounds h
  have hframes := frames_le h
  have hmul := mul_channels_le h (n := a.frames + 1) (by omega)
  have hlen : (a.header pcm.length ++ pcm).length = 44 + pcm.length := by
    rw [List.length_append, length_header]
  have hfmt : a.fmtChunk.WF := ⟨rfl, by rw [fmtChunk, length_formatFields]; decide,
    by rw [fmtChunk, length_formatFields]; rfl⟩
  have hdata : (dataChunk pcm).WF := ⟨rfl, by show pcm.length < 2 ^ 32; omega, heven.symm⟩
  have hfmtlen : a.fmtChunk.encode.length = 24 := by
    rw [Chunk.length_encode hfmt, fmtChunk, length_formatFields]
  have hdatalen : (dataChunk pcm).encode.length = 8 + pcm.length := by
    rw [Chunk.length_encode hdata]
    show 8 + pcm.length + pcm.length % 2 = 8 + pcm.length
    omega
  have heq := header_append a pcm
  have hdrop4 : (a.header pcm.length ++ pcm).drop 4 = toLe 4 (pcm.length + 36) ++ (ascii "WAVE"
      ++ Chunk.encodeAll [a.fmtChunk, dataChunk pcm]) := by
    rw [heq, List.drop_left' length_riff]
  have hdrop8 : (a.header pcm.length ++ pcm).drop 8 = ascii "WAVE"
      ++ Chunk.encodeAll [a.fmtChunk, dataChunk pcm] := by
    have hstep : ((a.header pcm.length ++ pcm).drop 4).drop 4 = (a.header pcm.length ++ pcm).drop 8 :=
      List.drop_drop
    rw [← hstep, hdrop4, List.drop_left' (length_toLe 4 _)]
  have hdrop12 : (a.header pcm.length ++ pcm).drop 12
      = Chunk.encodeAll [a.fmtChunk, dataChunk pcm] := by
    have hstep : ((a.header pcm.length ++ pcm).drop 8).drop 4 = (a.header pcm.length ++ pcm).drop 12 :=
      List.drop_drop
    rw [← hstep, hdrop8, List.drop_left' length_wave]
  constructor
  · omega
  · rw [heq, List.take_left' length_riff]
  · rw [hdrop8, List.take_left' length_wave]
  · rw [hdrop4, List.take_left' (length_toLe 4 _), hlen, ofLe_toLe (by omega)]
    omega
  · refine ⟨fun c hc => ?_, hdrop12⟩
    rcases List.mem_cons.mp hc with rfl | hc
    · exact hfmt
    · rw [List.mem_singleton.mp hc]
      exact hdata
  · have hfirst : a.next ⟨12, false, none⟩ a.fmtChunk = some ⟨36, true, none⟩ := by
      refine next_some.mpr ⟨?_, ?_, ?_⟩
      · have htake : a.formatFields.take 16 = a.formatFields :=
          List.take_of_length_le (Nat.le_of_eq (length_formatFields a))
        have hpass : a.pass ⟨12, false, none⟩ a.fmtChunk = if false = false
            ∧ 16 ≤ a.formatFields.length ∧ a.formatFields.take 16 = a.formatFields then
            some (true, none) else none := if_pos rfl
        rw [hpass, if_pos ⟨rfl, Nat.le_of_eq (length_formatFields a).symm, htake⟩]
      · rw [hfmtlen]
      · decide
    have hsecond : a.next ⟨36, true, none⟩ (dataChunk pcm)
        = some ⟨44 + pcm.length, true, some pcm.length⟩ := by
      refine next_some.mpr ⟨?_, ?_, ?_⟩
      · have htag : ¬ascii "data" = ascii "fmt " := by decide
        have hpass : a.pass ⟨36, true, none⟩ (dataChunk pcm) = if ascii "data" = ascii "data" then
            some (true, some pcm.length) else some (true, none) := if_neg htag
        rw [hpass, if_pos rfl]
      · rw [hdatalen]
        show 44 + pcm.length = 36 + (8 + pcm.length)
        omega
      · show 44 + pcm.length - pcm.length ≤ 1024
        omega
    rw [walkChunks, hfirst, Option.bind_some, walkChunks, hsecond, Option.bind_some, walkChunks]
  · rfl
  · rfl
  · exact hfits.whole
  · exact hfits.near
  · omega

/-- The parts of a file before its chunks. -/
theorem split_file (bytes : List UInt8) : bytes = bytes.take 4 ++ ((bytes.drop 4).take 4
    ++ ((bytes.drop 8).take 4 ++ bytes.drop 12)) := by
  have h1 := List.take_append_drop 4 (bytes.drop 8)
  have h2 := List.take_append_drop 4 (bytes.drop 4)
  rw [List.drop_drop] at h1 h2
  rw [h1, h2, List.take_append_drop]

/-- The first chunk of an accepted file, where it is a format chunk of 16 bytes, is the one of the
header. -/
theorem Accepted.fmtChunk {c : Chunk} {cs : List Chunk} {w : Walk} {n : Nat}
    (hok : Accepted a bytes (c :: cs) w n) (htag : c.tag = ascii "fmt ")
    (hlen : c.payload.length = 16) : c = a.fmtChunk := by
  obtain ⟨w₁, hnext, -⟩ := Option.bind_eq_some_iff.mp hok.walk
  obtain ⟨hpass, -, -⟩ := next_some.mp hnext
  rw [pass, if_pos htag] at hpass
  split_ifs at hpass with hformat
  obtain ⟨-, -, hfields⟩ := hformat
  rw [List.take_of_length_le (Nat.le_of_eq hlen)] at hfields
  have hpad := (hok.chunks.wf c List.mem_cons_self).pad
  rw [hlen] at hpad
  cases c
  rw [Audio.fmtChunk, Chunk.mk.injEq]
  exact ⟨htag, hfields, List.length_eq_zero_iff.mp hpad⟩

/-- A file in transport form is the header and samples that fit, and no other file is. -/
theorem validateTransportWav_ok (h : a.Valid) {u : Unit} :
    a.validateTransportWav bytes = .ok u ↔
      ∃ pcm, bytes = a.header pcm.length ++ pcm ∧ a.Fits pcm := by
  simp only [validateTransportWav, bind_ok, validateWav_ok h, bailIf_ok, slice_ok, number_ok, sub_ok,
    ne_eq, not_not, exists_const]
  constructor
  · rintro ⟨⟨cs, w, n, hok⟩, fmt, ⟨-, -, rfl⟩, hfmt, sixteen, ⟨-, -, rfl⟩, hsixteen, data, ⟨-, -, rfl⟩,
      hdata, m, ⟨-, -, rfl⟩, _, ⟨-, rfl⟩, hm⟩
    have hmin := hok.size.1
    cases cs with
    | nil =>
      have hnil := congrArg List.length hok.chunks.eq
      rw [List.length_drop, Chunk.encodeAll_nil, List.length_nil] at hnil
      omega
    | cons c cs =>
    obtain ⟨hbegins, hrest⟩ := hok.chunks.begins
    obtain ⟨htag, hsize, -, hdrop, -⟩ := hbegins.fields
    rw [List.drop_drop] at hsize hdrop
    have htag' : c.tag = ascii "fmt " := htag.symm.trans hfmt
    have hlen : c.payload.length = 16 := by
      have hc : ofLe (toLe 4 c.payload.length) = c.payload.length := ofLe_toLe hbegins.wf.payload
      rw [← hc, ← hsize]
      exact hsixteen
    have hfirst := hok.fmtChunk htag' hlen
    rw [hlen] at hdrop
    have hdrop36 : bytes.drop 36 = Chunk.encodeAll cs := hdrop
    cases cs with
    | nil =>
      have hnil := congrArg List.length hdrop36
      rw [List.length_drop, Chunk.encodeAll_nil, List.length_nil] at hnil
      omega
    | cons d cs =>
    obtain ⟨hbegins', hrest'⟩ := hrest.begins
    obtain ⟨hdtag, hdsize, -, -, htotal⟩ := hbegins'.fields
    rw [← hdrop36, List.length_drop] at htotal
    rw [← hdrop36] at hdtag hdsize
    rw [List.drop_drop] at hdsize
    have hdtag' : d.tag = ascii "data" := hdtag.symm.trans hdata
    have hdlen : d.payload.length = bytes.length - 44 := by
      have hd : ofLe (toLe 4 d.payload.length) = d.payload.length := ofLe_toLe hbegins'.wf.payload
      rw [← hd, ← hdsize]
      exact hm
    -- nothing is left after the data, and nothing pads it
    have hend : cs = [] := by
      have hzero : (Chunk.encodeAll cs).length = 0 := by omega
      have hempty := List.length_eq_zero_iff.mp hzero
      rw [hempty] at hrest'
      exact hrest'.eq_nil
    have hpad : d.pad = [] := by
      have hpad := hbegins'.wf.pad
      have heven : d.payload.length % 2 = 0 := by omega
      rw [heven] at hpad
      exact List.length_eq_zero_iff.mp hpad
    have hsecond : d = dataChunk d.payload := by
      rw [dataChunk]
      cases d
      rw [Chunk.mk.injEq]
      exact ⟨hdtag', rfl, hpad⟩
    obtain ⟨pcm, hpcm, hn⟩ := hok.pcm
    have hfmtdata : ¬c.tag = ascii "data" := by
      rw [htag']
      decide
    rw [dataOf_cons_of_ne hfmtdata, dataOf_cons hdtag'] at hpcm
    have hpayload : d.payload = pcm := (List.cons.inj hpcm).1
    rw [hpayload] at hdlen hsecond
    refine ⟨pcm, ?_, hn ▸ hok.whole, hn ▸ hok.near⟩
    have hsize4 : ((bytes.drop 4).take 4).length = 4 := by
      rw [List.length_take, List.length_drop]
      omega
    have htotal4 : (bytes.drop 4).take 4 = toLe 4 (pcm.length + 36) := by
      have hlt := ofLe_lt ((bytes.drop 4).take 4)
      rw [hsize4] at hlt
      have htotal := hok.total
      exact (ofLe_eq_iff hsize4 (by omega)).mp (by omega)
    have hparts := split_file bytes
    rw [hok.riff, htotal4, hok.wave, hok.chunks.eq, hfirst, hsecond, hend] at hparts
    rw [header_append]
    exact hparts
  · rintro ⟨pcm, rfl, hfits⟩
    have hok := accepted_header h hfits
    have hlen : (a.header pcm.length ++ pcm).length = 44 + pcm.length := by
      rw [List.length_append, length_header]
    generalize a.header pcm.length ++ pcm = file at hok hlen ⊢
    obtain ⟨hbegins, hrest⟩ := hok.chunks.begins
    obtain ⟨htag, hsize, -, hdrop, -⟩ := hbegins.fields
    obtain ⟨hbegins', -⟩ := hrest.begins
    obtain ⟨htag', hsize', -⟩ := hbegins'.fields
    have hfmtlen : a.fmtChunk.payload.length = 16 := length_formatFields a
    rw [hfmtlen, List.drop_drop] at hdrop
    rw [List.drop_drop, hfmtlen] at hsize
    rw [← hdrop] at htag' hsize'
    rw [List.drop_drop] at hsize'
    have hpcm : ofLe (toLe 4 pcm.length) = pcm.length := ofLe_toLe hbegins'.wf.payload
    refine ⟨⟨_, _, _, hok⟩, _, ⟨by decide, by omega, rfl⟩, htag, _, ⟨by decide, by omega, rfl⟩, ?_, _,
      ⟨by decide, by omega, rfl⟩, htag', _, ⟨by decide, by omega, rfl⟩, _, ⟨by omega, rfl⟩, ?_⟩
    · show ofLe ((file.drop 16).take 4) = 16
      rw [hsize]
      rfl
    · show ofLe ((file.drop 40).take 4) = file.length - 44
      rw [hlen, Nat.add_sub_cancel_left, ← hpcm]
      exact congrArg ofLe hsize'

theorem validateTransportWav_safe (a : Audio) (bytes : List UInt8) :
    Safe (a.validateTransportWav bytes) := by
  unfold validateTransportWav
  refine (validateWav_safe a bytes).bind fun u hok => ?_
  have h : a.Valid := by
    simp only [validateWav, bind_ok, validate_ok] at hok
    obtain ⟨-, hvalid, -⟩ := hok
    exact hvalid
  obtain ⟨_, _, _, haccepted⟩ := (validateWav_ok h).mp hok
  have hlen := haccepted.size.1
  refine (Safe.slice (by decide) (by omega)).bind fun _ _ => (Safe.bailIf _ _).bind fun _ _ => ?_
  refine (Safe.number (by decide) (by omega)).bind fun _ _ => (Safe.bailIf _ _).bind fun _ _ => ?_
  refine (Safe.slice (by decide) (by omega)).bind fun _ _ => (Safe.bailIf _ _).bind fun _ _ => ?_
  refine (Safe.number (by decide) (by omega)).bind fun _ _ => ?_
  exact (Safe.sub (by omega)).bind fun _ _ => Safe.bailIf _ _

/-! ## What canonicalize writes -/

theorem rewrite_ok (h : a.Valid) {pcm : List UInt8} (hfits : a.Fits pcm) :
    a.rewrite pcm = .ok (a.header pcm.length ++ pcm) := by
  obtain ⟨-, hmax, -⟩ := hfits.bounds h
  have hframes := frames_le h
  have hmul := mul_channels_le h (n := a.frames + 1) (by omega)
  have hrate := h.rate_le
  have hchannels := h.channels
  have hsamples : a.sampleRate * a.channels ≤ 48000 * 2 := Nat.mul_le_mul hrate.2 hchannels.2
  have hsmall : pcm.length % 2 ^ 32 = pcm.length := Nat.mod_eq_of_lt (by omega)
  simp only [rewrite, hsmall, bind_ok, add_ok, mul_ok, pure_ok]
  exact ⟨_, ⟨by omega, rfl⟩, _, ⟨by omega, rfl⟩, _, ⟨by omega, rfl⟩, _, ⟨by omega, rfl⟩, rfl⟩

/-- The samples of an accepted file fit. -/
theorem Accepted.fits {cs : List Chunk} {w : Walk} {n : Nat} {pcm : List UInt8}
    (hok : Accepted a bytes cs w n) (hlen : pcm.length = n) : a.Fits pcm :=
  ⟨hlen ▸ hok.whole, hlen ▸ hok.near⟩

/-- The data chunks of the header and its samples. -/
theorem dataOf_header (a : Audio) (pcm : List UInt8) : dataOf [a.fmtChunk, dataChunk pcm] = [pcm] := by
  have htag : a.fmtChunk.tag ≠ ascii "data" := by
    show ascii "fmt " ≠ ascii "data"
    decide
  rw [dataOf_cons_of_ne htag, dataOf_cons rfl]
  rfl

/-- The bytes decide the chunks that they consist of. -/
theorem Consists.unique {bs : List UInt8} {cs ds : List Chunk} (h : Consists bs cs)
    (h' : Consists bs ds) : cs = ds := by
  induction cs generalizing bs ds with
  | nil =>
    rw [h.eq, Chunk.encodeAll_nil] at h'
    exact h'.eq_nil.symm
  | cons c cs ih =>
    cases ds with
    | nil =>
      rw [h'.eq, Chunk.encodeAll_nil] at h
      exact absurd h.eq_nil nofun
    | cons d ds =>
      obtain ⟨hbegins, hrest⟩ := h.begins
      obtain ⟨hbegins', hrest'⟩ := h'.begins
      obtain ⟨rfl, heq⟩ := hbegins.unique hbegins'
      rw [← heq] at hrest'
      rw [ih hrest hrest']

/-- What `canonicalize` makes of an accepted file is the header and the samples of the file. -/
theorem canonicalize_ok (h : a.Valid) {cs : List Chunk} {w : Walk} {n : Nat} {pcm : List UInt8}
    (hok : Accepted a bytes cs w n) (hpcm : dataOf cs = [pcm]) (hlen : pcm.length = n) :
    a.canonicalize bytes = .ok (a.header pcm.length ++ pcm) := by
  have hwav : a.validateWav bytes = .ok () := (validateWav_ok h).mpr ⟨cs, w, n, hok⟩
  have hbound := length_lt h hok.size.2
  refine bind_ok.mpr ⟨(), hwav, ?_⟩
  cases htransport : a.validateTransportWav bytes with
  | ok u =>
    -- the file is in transport form, with the same samples
    obtain ⟨pcm', heq, hfits⟩ := (validateTransportWav_ok h).mp htransport
    have hok' := accepted_header h hfits
    rw [← heq] at hok'
    have hcs := hok.chunks.unique hok'.chunks
    rw [hcs, dataOf_header] at hpcm
    have hsame : pcm' = pcm := (List.cons.inj hpcm).1
    rw [hsame] at heq
    exact congrArg Except.ok heq
  | error e =>
    cases e with
    | panic => exact absurd htransport (validateTransportWav_safe a bytes)
    | error msg =>
      refine bind_ok.mpr ⟨pcm, findData_ok hbound hok.chunks hpcm, ?_⟩
      exact rewrite_ok h (hok.fits hlen)

/-- The file, and what `canonicalize` makes of it. -/
structure Canonical (a : Audio) (bytes out : List UInt8) (cs : List Chunk) (pcm : List UInt8) :
    Prop where
  chunks : Consists (bytes.drop 12) cs
  data : dataOf cs = [pcm]
  ok : a.canonicalize bytes = .ok out
  form : out = a.header pcm.length ++ pcm
  transport : a.validateTransportWav out = .ok ()
  least : ∃ m, a.minimumBytes = .ok m ∧ m ≤ out.length
  most : ∃ m, a.maximumBytes = .ok m ∧ out.length ≤ m
  again : a.canonicalize out = .ok out

theorem canonical_of_ok (h : a.Valid) (hwav : a.validateWav bytes = .ok ()) :
    ∃ out cs pcm, Canonical a bytes out cs pcm := by
  obtain ⟨cs, w, n, hok⟩ := (validateWav_ok h).mp hwav
  obtain ⟨pcm, hpcm, hlen⟩ := hok.pcm
  have hfits := hok.fits hlen
  obtain ⟨-, hmax, hmin⟩ := hfits.bounds h
  have hsize : (a.header pcm.length ++ pcm).length = 44 + pcm.length := by
    rw [List.length_append, length_header]
  refine ⟨_, cs, pcm, hok.chunks, hpcm, canonicalize_ok h hok hpcm hlen, rfl, ?_, ?_, ?_, ?_⟩
  · exact (validateTransportWav_ok h).mpr ⟨pcm, rfl, hfits⟩
  · refine ⟨_, minimumBytes_ok h, ?_⟩
    rw [hsize]
    omega
  · refine ⟨_, maximumBytes_ok h, ?_⟩
    rw [hsize]
    omega
  · exact canonicalize_ok h (accepted_header h hfits) (dataOf_header a pcm) rfl

/-- **Canonical audio.** For a valid audio contract, `validate_wav` returns on every byte string
without a panic; what `canonicalize` makes of an accepted file is its samples behind the one header
of 44 bytes, in transport form and within both bounds, and it makes the same of that again; and the
files in transport form are exactly the header followed by samples that fit, so that two with the
same samples are the same. -/
theorem canonical_audio (a : Audio) (h : a.validate = .ok ()) :
    (∀ bytes, Safe (a.validateWav bytes))
      ∧ (∀ bytes, a.validateWav bytes = .ok () → ∃ out cs pcm, Canonical a bytes out cs pcm)
      ∧ (∀ bytes, a.validateTransportWav bytes = .ok () ↔
          ∃ pcm, bytes = a.header pcm.length ++ pcm ∧ a.Fits pcm)
      ∧ ∀ bytes bytes', a.validateTransportWav bytes = .ok () →
          a.validateTransportWav bytes' = .ok () → bytes.drop 44 = bytes'.drop 44 →
          bytes = bytes' := by
  have hvalid := validate_ok.mp h
  refine ⟨validateWav_safe a, fun bytes => canonical_of_ok hvalid,
    fun bytes => validateTransportWav_ok hvalid, ?_⟩
  intro bytes bytes' hok hok' hsame
  obtain ⟨pcm, rfl, -⟩ := (validateTransportWav_ok hvalid).mp hok
  obtain ⟨pcm', rfl, -⟩ := (validateTransportWav_ok hvalid).mp hok'
  rw [List.drop_left' (length_header a _), List.drop_left' (length_header a _)] at hsame
  rw [hsame]

/-- A tenth of a second of silence. -/
theorem canonical_audio_silence :
    ∃ (a : Audio) (pcm : List UInt8), a.validateTransportWav (a.header 1600 ++ pcm) = .ok ()
      ∧ pcm.length = 1600 := by
  have h : (⟨100, 8000, 1, "microphone", "speaker"⟩ : Audio).validate = .ok () := by decide
  have hlen : (List.replicate 1600 (0 : UInt8)).length = 1600 := List.length_replicate
  refine ⟨⟨100, 8000, 1, "microphone", "speaker"⟩, List.replicate 1600 0, ?_, hlen⟩
  refine ((canonical_audio _ h).2.2.1 _).mpr ⟨List.replicate 1600 0, ?_, ?_, ?_⟩
  · rw [hlen]
  · rw [hlen]
    decide
  · rw [hlen]
    decide

end Audio

end Eef.Node
