import Eef.Node.PeerAudio

/-!
# The chunks of an accepted WAV file

What the walk of `validate_wav` and the search of `canonicalize` do, in terms of the chunks that
the file consists of. `walkChunks` is the walk over chunks; `walk_ok` says that the walk over bytes
returns exactly what this one returns for the chunks of the bytes.
-/

namespace Eef.Node

open Eef.Lib hiding bind_ok pure_ok bailIf bailIf_ok context context_ok

namespace Audio

open Checked

variable {a : Audio} {bytes : List UInt8}

/-! ## Bounds -/

/-- The frames of the duration. -/
def frames (a : Audio) : Nat := a.durationMs * a.sampleRate / 1000

/-- The bytes of one frame. -/
def frame (a : Audio) : Nat := a.channels * 2

theorem Valid.rate_le (h : a.Valid) : 8000 ≤ a.sampleRate ∧ a.sampleRate ≤ 48000 := by
  have hrate := h.rate
  simp only [List.mem_cons, List.not_mem_nil, or_false] at hrate
  omega

/-- The number of samples is far from any overflow. -/
theorem Valid.samples_le (h : a.Valid) : a.durationMs * a.sampleRate ≤ 480000000 :=
  Nat.mul_le_mul h.duration.2 h.rate_le.2

theorem validate_ok {u : Unit} : a.validate = .ok u ↔ a.Valid := by
  simp only [validate, bailIf_ok, not_or, not_not]
  exact ⟨fun h => ⟨h.1, h.2.1, h.2.2⟩, fun h => ⟨h.duration, h.rate, h.channels⟩⟩

theorem expected_ok (h : a.Valid) : a.expected = .ok a.frames := by
  have hsamples := h.samples_le
  simp only [expected, bind_ok, mul_ok, pure_ok]
  exact ⟨_, ⟨by omega, rfl⟩, rfl⟩

theorem frames_le (h : a.Valid) : a.frames ≤ 480000 := by
  have hsamples := h.samples_le
  unfold frames
  omega

theorem frame_bounds (h : a.Valid) : a.frame = 2 ∨ a.frame = 4 := by
  have hchannels := h.channels
  unfold frame
  omega

/-- A number of frames times the channels, for the bounds of the two sums. -/
theorem mul_channels_le {n : Nat} (h : a.Valid) (hn : n ≤ 480001) : n * a.channels ≤ 960002 :=
  Nat.mul_le_mul hn h.channels.2

theorem maximumBytes_ok (h : a.Valid) :
    a.maximumBytes = .ok ((a.frames + 1) * a.channels * 2 + 1024) := by
  have hframes := frames_le h
  have hle := mul_channels_le h (n := a.frames + 1) (by omega)
  simp only [maximumBytes, bind_ok, expected_ok h, add_ok, mul_ok]
  exact ⟨_, rfl, _, ⟨by omega, rfl⟩, _, ⟨by omega, rfl⟩, _, ⟨by omega, rfl⟩, by omega, rfl⟩

theorem minimumBytes_ok (h : a.Valid) :
    a.minimumBytes = .ok ((a.frames - 1) * a.channels * 2 + 44) := by
  have hframes := frames_le h
  have hle := mul_channels_le h (n := a.frames - 1) (by omega)
  simp only [minimumBytes, bind_ok, expected_ok h, add_ok, mul_ok]
  exact ⟨_, rfl, _, ⟨by omega, rfl⟩, _, ⟨by omega, rfl⟩, by omega, rfl⟩

/-! ## One chunk -/

/-- The format that the file has to have. -/
def formatFields (a : Audio) : List UInt8 :=
  toLe 2 1 ++ (toLe 2 a.channels ++ (toLe 4 a.sampleRate ++ (toLe 4 (a.sampleRate * a.channels * 2)
    ++ (toLe 2 (a.channels * 2) ++ toLe 2 16))))

@[simp] theorem length_formatFields (a : Audio) : a.formatFields.length = 16 := by
  simp only [formatFields, List.length_append, length_toLe]

/-- What a chunk makes of the format and of the length of the data. -/
def pass (a : Audio) (w : Walk) (c : Chunk) : Option (Bool × Option Nat) :=
  if c.tag = ascii "fmt " then
    if w.format = false ∧ 16 ≤ c.payload.length ∧ c.payload.take 16 = a.formatFields then
      some (true, w.data)
    else none
  else if c.tag = ascii "data" then
    if w.data = none then some (w.format, some c.payload.length) else none
  else some (w.format, w.data)

/-- One round of the walk, over a chunk. -/
def next (a : Audio) (w : Walk) (c : Chunk) : Option Walk :=
  (a.pass w c).bind fun (format, data) =>
    if w.offset + c.encode.length - data.getD 0 ≤ 1024 then
      some ⟨w.offset + c.encode.length, format, data⟩
    else none

theorem number_ok {n i j : Nat} :
    number bytes i j = .ok n ↔ i ≤ j ∧ j ≤ bytes.length ∧ n = ofLe ((bytes.drop i).take (j - i)) := by
  simp only [number, bind_ok, slice_ok, pure_ok]
  constructor
  · rintro ⟨_, ⟨hij, hj, rfl⟩, rfl⟩
    exact ⟨hij, hj, rfl⟩
  · rintro ⟨hij, hj, rfl⟩
    exact ⟨_, ⟨hij, hj, rfl⟩, rfl⟩

theorem append_iff {α : Type} {xs ys s t : List α} (h : xs.length = ys.length) :
    xs ++ s = ys ++ t ↔ xs = ys ∧ s = t :=
  ⟨fun he => List.append_inj he h, fun he => by rw [he.1, he.2]⟩

/-- The fields of the 16 bytes of a format. -/
theorem split_fields : ∀ {chunk : List UInt8}, chunk.length = 16 →
    chunk = (chunk.drop 0).take 2 ++ ((chunk.drop 2).take 2 ++ ((chunk.drop 4).take 4
      ++ ((chunk.drop 8).take 4 ++ ((chunk.drop 12).take 2 ++ (chunk.drop 14).take 2))))
  | [_, _, _, _, _, _, _, _, _, _, _, _, _, _, _, _], _ => rfl

/-- The bytes are the format exactly when each of its numbers is. -/
theorem eq_formatFields (h : a.Valid) {chunk : List UInt8} (hlen : chunk.length = 16) :
    chunk = a.formatFields ↔ ofLe ((chunk.drop 0).take 2) = 1
      ∧ ofLe ((chunk.drop 2).take 2) = a.channels ∧ ofLe ((chunk.drop 4).take 4) = a.sampleRate
      ∧ ofLe ((chunk.drop 8).take 4) = a.sampleRate * a.channels * 2
      ∧ ofLe ((chunk.drop 12).take 2) = a.channels * 2 ∧ ofLe ((chunk.drop 14).take 2) = 16 := by
  have hrate := h.rate_le
  have hchannels := h.channels
  have hsamples : a.sampleRate * a.channels ≤ 48000 * 2 := Nat.mul_le_mul hrate.2 hchannels.2
  have hpart : ∀ i k, i + k ≤ 16 → ((chunk.drop i).take k).length = k := by
    intro i k hik
    rw [List.length_take, List.length_drop, hlen]
    omega
  have h0 := hpart 0 2 (by decide)
  have h2 := hpart 2 2 (by decide)
  have h4 := hpart 4 4 (by decide)
  have h8 := hpart 8 4 (by decide)
  have h12 := hpart 12 2 (by decide)
  have h14 := hpart 14 2 (by decide)
  conv_lhs => rw [split_fields hlen]
  rw [formatFields, append_iff (h0.trans (length_toLe 2 _).symm),
    append_iff (h2.trans (length_toLe 2 _).symm), append_iff (h4.trans (length_toLe 4 _).symm),
    append_iff (h8.trans (length_toLe 4 _).symm), append_iff (h12.trans (length_toLe 2 _).symm),
    ofLe_eq_iff h0 (by decide), ofLe_eq_iff h2 (by omega), ofLe_eq_iff h4 (by omega),
    ofLe_eq_iff h8 (by omega), ofLe_eq_iff h12 (by omega), ofLe_eq_iff h14 (by decide)]

/-- The tests of the format chunk compare its first 16 bytes. -/
theorem checkFormat_ok (h : a.Valid) {format : Bool} {n : Nat} {u : Unit} {chunk : List UInt8}
    (hlen : chunk.length = 16) :
    a.checkFormat format n chunk = .ok u ↔
      format = false ∧ 16 ≤ n ∧ chunk = a.formatFields := by
  have hrate := h.rate_le
  have hchannels := h.channels
  have hsamples : a.sampleRate * a.channels ≤ 48000 * 2 := Nat.mul_le_mul hrate.2 hchannels.2
  have hread : ∀ i j, i ≤ j → j ≤ 16 →
      number chunk i j = .ok (ofLe ((chunk.drop i).take (j - i))) :=
    fun i j hij hj => number_ok.mpr ⟨hij, hlen ▸ hj, rfl⟩
  rw [eq_formatFields h hlen]
  simp only [checkFormat, bind_ok, bailIf_ok, mul_ok, hread 0 2 (by decide) (by decide),
    hread 2 4 (by decide) (by decide), hread 4 8 (by decide) (by decide),
    hread 8 12 (by decide) (by decide), hread 12 14 (by decide) (by decide),
    hread 14 16 (by decide) (by decide), Except.ok.injEq, exists_eq_left', exists_const, not_or,
    ne_eq, not_not, Bool.not_eq_true, Nat.not_lt]
  constructor
  · rintro ⟨⟨hformat, hn⟩, htag, hchannel, hsample, _, ⟨-, rfl⟩, _, ⟨-, rfl⟩, hbyte, _, ⟨-, rfl⟩,
      halign, hbits⟩
    exact ⟨hformat, hn, htag, hchannel, hsample, hbyte, halign, hbits⟩
  · rintro ⟨hformat, hn, htag, hchannel, hsample, hbyte, halign, hbits⟩
    exact ⟨⟨hformat, hn⟩, htag, hchannel, hsample, _, ⟨by omega, rfl⟩, _, ⟨by omega, rfl⟩, hbyte, _,
      ⟨by omega, rfl⟩, halign, hbits⟩

/-- The bytes begin with a chunk. -/
structure Begins (bytes : List UInt8) (c : Chunk) (rest : List UInt8) : Prop where
  wf : c.WF
  eq : bytes = c.encode ++ rest

/-- Where a header and what it announces lie within the bytes, a chunk begins. -/
theorem begins_of_length {n : Nat} (hn : n = ofLe ((bytes.drop 4).take 4))
    (hlen : 8 + n + n % 2 ≤ bytes.length) :
    Begins bytes ⟨bytes.take 4, (bytes.drop 8).take n, (bytes.drop (8 + n)).take (n % 2)⟩
      (bytes.drop (8 + n + n % 2)) := by
  have hsize : ((bytes.drop 4).take 4).length = 4 := by
    rw [List.length_take, List.length_drop]
    omega
  have hpayload : ((bytes.drop 8).take n).length = n := by
    rw [List.length_take, List.length_drop]
    omega
  have hlt : n < 2 ^ 32 := by
    have hlt := ofLe_lt ((bytes.drop 4).take 4)
    rw [hsize] at hlt
    omega
  refine ⟨⟨?_, ?_, ?_⟩, ?_⟩
  · show (bytes.take 4).length = 4
    rw [List.length_take]
    omega
  · show ((bytes.drop 8).take n).length < 2 ^ 32
    omega
  · show ((bytes.drop (8 + n)).take (n % 2)).length = ((bytes.drop 8).take n).length % 2
    rw [hpayload, List.length_take, List.length_drop]
    omega
  · have hle : toLe 4 n = (bytes.drop 4).take 4 := ((ofLe_eq_iff hsize (by omega)).mp hn.symm).symm
    show bytes = bytes.take 4 ++ toLe 4 ((bytes.drop 8).take n).length ++ (bytes.drop 8).take n
      ++ (bytes.drop (8 + n)).take (n % 2) ++ bytes.drop (8 + n + n % 2)
    rw [hpayload, hle]
    have h3 := List.take_append_drop (n % 2) (bytes.drop (8 + n))
    have h2 := List.take_append_drop n (bytes.drop 8)
    have h1 := List.take_append_drop 4 (bytes.drop 4)
    rw [List.drop_drop] at h1 h2 h3
    rw [List.append_assoc, h3, List.append_assoc, h2, List.append_assoc, h1,
      List.take_append_drop]

/-- The fields of the chunk that the bytes begin with. -/
theorem Begins.fields {c : Chunk} {rest : List UInt8} (h : Begins bytes c rest) :
    bytes.take 4 = c.tag ∧ (bytes.drop 4).take 4 = toLe 4 c.payload.length
      ∧ (bytes.drop 8).take c.payload.length = c.payload
      ∧ bytes.drop (8 + c.payload.length + c.payload.length % 2) = rest
      ∧ bytes.length = 8 + c.payload.length + c.payload.length % 2 + rest.length := by
  have hlen := Chunk.length_encode h.wf
  have htag := h.wf.tag
  have hpad := h.wf.pad
  have heq : bytes = c.tag ++ (toLe 4 c.payload.length ++ (c.payload ++ (c.pad ++ rest))) := by
    rw [h.eq]
    simp only [Chunk.encode, List.append_assoc]
  have hdrop4 : bytes.drop 4 = toLe 4 c.payload.length ++ (c.payload ++ (c.pad ++ rest)) := by
    rw [heq, List.drop_left' htag]
  have hdrop8 : bytes.drop 8 = c.payload ++ (c.pad ++ rest) := by
    have hstep : (bytes.drop 4).drop 4 = bytes.drop 8 := List.drop_drop
    rw [← hstep, hdrop4, List.drop_left' (length_toLe 4 _)]
  refine ⟨?_, ?_, ?_, ?_, ?_⟩
  · rw [heq, List.take_left' htag]
  · rw [hdrop4, List.take_left' (length_toLe 4 _)]
  · rw [hdrop8, List.take_left' rfl]
  · rw [h.eq, List.drop_left' hlen]
  · rw [h.eq, List.length_append, hlen]

/-! ## One round -/

/-- A round over the bytes of a chunk does what it does with the chunk. -/
theorem chunkKind_ok (h : a.Valid) {w : Walk} {c : Chunk} {rest : List UInt8}
    {r : Bool × Option Nat} (hbegins : Begins (bytes.drop w.offset) c rest)
    (hlen : bytes.length < 2 ^ 62) :
    a.chunkKind bytes w c.tag (w.offset + 8) c.payload.length = .ok r ↔ a.pass w c = some r := by
  obtain ⟨-, -, hpayload, -, htotal⟩ := hbegins.fields
  rw [List.length_drop] at htotal
  rw [List.drop_drop] at hpayload
  -- the first 16 bytes after the header, where the payload is that long
  have hfirst : 16 ≤ c.payload.length →
      c.payload.take 16 = (bytes.drop (w.offset + 8)).take 16 := by
    intro hn
    rw [← hpayload, List.take_take, Nat.min_eq_left hn]
  unfold chunkKind pass
  by_cases hfmt : c.tag = ascii "fmt "
  · rw [if_pos hfmt, if_pos hfmt]
    simp only [bind_ok, context_ok, checkedAdd_some, get_some, pure_ok]
    constructor
    · rintro ⟨_, ⟨-, rfl⟩, _, ⟨-, hle, rfl⟩, _, hcheck, rfl⟩
      have hsize : ((bytes.drop (w.offset + 8)).take (w.offset + 8 + 16 - (w.offset + 8))).length
          = 16 := by
        rw [List.length_take, List.length_drop]
        omega
      obtain ⟨hformat, hn, hfields⟩ := (checkFormat_ok h hsize).mp hcheck
      rw [Nat.add_sub_cancel_left, ← hfirst hn] at hfields
      exact if_pos ⟨hformat, hn, hfields⟩
    · intro hpass
      split_ifs at hpass with hall
      obtain ⟨hformat, hn, hfields⟩ := hall
      have hsize : ((bytes.drop (w.offset + 8)).take (w.offset + 8 + 16 - (w.offset + 8))).length
          = 16 := by
        rw [List.length_take, List.length_drop]
        omega
      refine ⟨_, ⟨by omega, rfl⟩, _, ⟨by omega, by omega, rfl⟩, (), ?_, Option.some.inj hpass⟩
      refine (checkFormat_ok h hsize).mpr ⟨hformat, hn, ?_⟩
      rw [Nat.add_sub_cancel_left, ← hfirst hn]
      exact hfields
  rw [if_neg hfmt, if_neg hfmt]
  by_cases hdata : c.tag = ascii "data"
  · rw [if_pos hdata, if_pos hdata]
    simp only [bind_ok, bailIf_ok, pure_ok, exists_const, Option.not_isSome_iff_eq_none]
    constructor
    · rintro ⟨hnone, rfl⟩
      exact if_pos hnone
    · intro hpass
      split_ifs at hpass with hnone
      exact ⟨hnone, Option.some.inj hpass⟩
  · rw [if_neg hdata, if_neg hdata, pure_ok, Option.some.injEq]

theorem next_some {w w' : Walk} {c : Chunk} :
    a.next w c = some w' ↔ a.pass w c = some (w'.format, w'.data)
      ∧ w'.offset = w.offset + c.encode.length ∧ w'.offset - w'.data.getD 0 ≤ 1024 := by
  unfold next
  rw [Option.bind_eq_some_iff]
  constructor
  · rintro ⟨⟨format, data⟩, hpass, hbound⟩
    simp only [Option.ite_none_right_eq_some, Option.some.injEq] at hbound
    obtain ⟨hle, rfl⟩ := hbound
    exact ⟨hpass, rfl, hle⟩
  · rintro ⟨hpass, hoffset, hle⟩
    refine ⟨_, hpass, ?_⟩
    rw [hoffset] at hle
    show (if _ then _ else _) = _
    rw [if_pos hle, ← hoffset]

/-- A round of the walk is a round over the chunk that begins there. -/
theorem chunkStep_ok (h : a.Valid) {w w' : Walk} (hlen : bytes.length < 2 ^ 62) :
    a.chunkStep bytes w = .ok w' ↔
      ∃ c rest, Begins (bytes.drop w.offset) c rest ∧ a.next w c = some w' := by
  constructor
  · intro hstep
    simp only [chunkStep, bind_ok, context_ok, add_ok, Option.filter_eq_some_iff, checkedAdd_some,
      get_some, number_ok, slice_ok, bailIf_ok, pure_ok, decide_eq_true_eq] at hstep
    obtain ⟨_, ⟨-, rfl⟩, _, ⟨-, hheader, rfl⟩, n, ⟨-, -, hn⟩, _, ⟨-, rfl⟩, _, ⟨⟨-, rfl⟩, hfinish⟩, tag,
      ⟨-, -, htag⟩, ⟨format, data⟩, hkind, _, ⟨⟨-, rfl⟩, hpad⟩, _, hbound, rfl⟩ := hstep
    rw [Nat.add_sub_cancel_left, List.drop_take, List.take_take] at hn
    rw [Nat.add_sub_cancel_left, List.drop_zero, List.take_take] at htag
    have hbegins := begins_of_length hn (by rw [List.length_drop]; omega)
    have hpayload : (((bytes.drop w.offset).drop 8).take n).length = n := by
      rw [List.length_take, List.length_drop, List.length_drop]
      omega
    refine ⟨_, _, hbegins, next_some.mpr ⟨(chunkKind_ok h hbegins hlen).mp ?_, ?_, ?_⟩⟩
    · show a.chunkKind bytes w ((bytes.drop w.offset).take 4) (w.offset + 8)
        (((bytes.drop w.offset).drop 8).take n).length = _
      rw [hpayload]
      exact htag ▸ hkind
    · rw [Chunk.length_encode hbegins.wf]
      show w.offset + 8 + n + n % 2 = w.offset + (8 + (((bytes.drop w.offset).drop 8).take n).length
        + (((bytes.drop w.offset).drop 8).take n).length % 2)
      rw [hpayload]
      omega
    · exact Nat.not_lt.mp hbound
  · rintro ⟨c, rest, hbegins, hnext⟩
    obtain ⟨hpass, hoffset, hbound⟩ := next_some.mp hnext
    obtain ⟨htag, hsize, -, -, htotal⟩ := hbegins.fields
    have hkind := (chunkKind_ok h hbegins hlen).mpr hpass
    have hn : ofLe (toLe 4 c.payload.length) = c.payload.length := ofLe_toLe hbegins.wf.payload
    rw [Chunk.length_encode hbegins.wf] at hoffset
    rw [List.length_drop] at htotal
    simp only [chunkStep, bind_ok, context_ok, add_ok, Option.filter_eq_some_iff, checkedAdd_some,
      get_some, number_ok, slice_ok, bailIf_ok, pure_ok, decide_eq_true_eq]
    refine ⟨_, ⟨by omega, rfl⟩, _, ⟨by omega, by omega, rfl⟩, c.payload.length, ⟨by decide, ?_, ?_⟩, _,
      ⟨by omega, rfl⟩, _, ⟨⟨by omega, rfl⟩, by omega⟩, c.tag, ⟨by decide, ?_, ?_⟩, _, hkind, _,
      ⟨⟨by omega, rfl⟩, by omega⟩, (), ?_, ?_⟩
    · rw [Nat.add_sub_cancel_left, List.length_take, List.length_drop]
      omega
    · rw [Nat.add_sub_cancel_left, List.drop_take, List.take_take]
      show _ = ofLe (((bytes.drop w.offset).drop 4).take 4)
      rw [hsize, hn]
    · rw [Nat.add_sub_cancel_left, List.length_take, List.length_drop]
      omega
    · rw [Nat.add_sub_cancel_left, List.drop_zero, List.take_take]
      exact htag.symm
    · rw [← Nat.add_assoc, ← Nat.add_assoc] at hoffset
      rw [← hoffset]
      exact Nat.not_lt.mpr hbound
    · rw [← Nat.add_assoc, ← Nat.add_assoc] at hoffset
      rw [← hoffset]

/-! ## The whole walk -/

/-- The walk over chunks in a row. -/
def walkChunks (a : Audio) : Walk → List Chunk → Option Walk
  | w, [] => some w
  | w, c :: cs => (a.next w c).bind fun w' => a.walkChunks w' cs

/-- The bytes are chunks in a row. -/
structure Consists (bytes : List UInt8) (cs : List Chunk) : Prop where
  wf : ∀ c ∈ cs, c.WF
  eq : bytes = Chunk.encodeAll cs

theorem Consists.nil : Consists [] [] := ⟨fun _ h => absurd h List.not_mem_nil, rfl⟩

theorem Consists.eq_nil {cs : List Chunk} (h : Consists [] cs) : cs = [] := by
  cases cs with
  | nil => rfl
  | cons c cs =>
    have hlen := Chunk.length_encode (h.wf c List.mem_cons_self)
    have heq := congrArg List.length h.eq
    rw [Chunk.encodeAll_cons, List.length_append, List.length_nil] at heq
    omega

theorem Begins.cons {c : Chunk} {rest : List UInt8} {cs : List Chunk} (h : Begins bytes c rest)
    (hrest : Consists rest cs) : Consists bytes (c :: cs) := by
  refine ⟨fun d hd => ?_, ?_⟩
  · rcases List.mem_cons.mp hd with rfl | hd
    · exact h.wf
    · exact hrest.wf d hd
  · rw [h.eq, hrest.eq, Chunk.encodeAll_cons]

theorem Consists.begins {c : Chunk} {cs : List Chunk} (h : Consists bytes (c :: cs)) :
    Begins bytes c (Chunk.encodeAll cs) ∧ Consists (Chunk.encodeAll cs) cs :=
  ⟨⟨h.wf c List.mem_cons_self, h.eq⟩, fun d hd => h.wf d (List.mem_cons_of_mem _ hd), rfl⟩

/-- The bytes decide the chunk that they begin with, and the rest. -/
theorem Begins.unique {c d : Chunk} {rest rest' : List UInt8} (h : Begins bytes c rest)
    (h' : Begins bytes d rest') : c = d ∧ rest = rest' := by
  obtain ⟨htag, hsize, hpayload, hrest, -⟩ := h.fields
  obtain ⟨htag', hsize', hpayload', hrest', -⟩ := h'.fields
  have hc : ofLe (toLe 4 c.payload.length) = c.payload.length := ofLe_toLe h.wf.payload
  have hd : ofLe (toLe 4 d.payload.length) = d.payload.length := ofLe_toLe h'.wf.payload
  have hlen : c.payload.length = d.payload.length := by rw [← hc, ← hsize, hsize', hd]
  have hpayloads : c.payload = d.payload := by rw [← hpayload, hlen, hpayload']
  have htags : c.tag = d.tag := htag.symm.trans htag'
  have hrests : rest = rest' := by rw [← hrest, hlen, hrest']
  have hpads : c.pad = d.pad := by
    have heq := h.eq.symm.trans h'.eq
    rw [hrests] at heq
    have hencode := List.append_cancel_right heq
    rw [Chunk.encode, Chunk.encode, htags, hpayloads] at hencode
    exact List.append_cancel_left hencode
  refine ⟨?_, hrests⟩
  cases c
  cases d
  rw [Chunk.mk.injEq]
  exact ⟨htags, hpayloads, hpads⟩

/-- After a round the rest of the bytes begins at the new offset. -/
theorem drop_next {w w' : Walk} {c : Chunk} {rest : List UInt8}
    (h : Begins (bytes.drop w.offset) c rest) (hnext : a.next w c = some w') :
    bytes.drop w'.offset = rest ∧ w'.offset ≤ bytes.length := by
  obtain ⟨-, hoffset, -⟩ := next_some.mp hnext
  obtain ⟨-, -, -, hrest, htotal⟩ := h.fields
  rw [Chunk.length_encode h.wf] at hoffset
  rw [List.drop_drop, ← hoffset] at hrest
  rw [List.length_drop] at htotal
  exact ⟨hrest, by omega⟩

/-- The walk over the bytes returns what the walk over their chunks does. -/
theorem walk_ok (h : a.Valid) (hlen : bytes.length < 2 ^ 62) (w w' : Walk)
    (hle : w.offset ≤ bytes.length) :
    a.walk bytes w = .ok w' ↔
      ∃ cs, Consists (bytes.drop w.offset) cs ∧ a.walkChunks w cs = some w' := by
  induction w using walk.induct a bytes with
  | case1 w hlt e he =>
    rw [walk, if_pos hlt]
    split
    · refine iff_of_false nofun ?_
      rintro ⟨cs, hcs, hwalk⟩
      cases cs with
      | nil =>
        have hnil := congrArg List.length hcs.eq
        rw [List.length_drop, Chunk.encodeAll_nil, List.length_nil] at hnil
        omega
      | cons c cs =>
        obtain ⟨w₁, hnext, -⟩ := Option.bind_eq_some_iff.mp hwalk
        have hok := (chunkStep_ok h hlen).mpr ⟨c, _, hcs.begins.1, hnext⟩
        rw [he] at hok
        cases hok
    · rename_i w₁ hw₁
      rw [he] at hw₁
      cases hw₁
  | case2 w hlt w₁ hw₁ ih =>
    obtain ⟨c, rest, hbegins, hnext⟩ := (chunkStep_ok h hlen).mp hw₁
    obtain ⟨hdrop, hle₁⟩ := drop_next hbegins hnext
    rw [walk, if_pos hlt]
    split
    · rename_i e he
      rw [hw₁] at he
      cases he
    rename_i w₂ hw₂
    rw [hw₁] at hw₂
    cases hw₂
    rw [ih hle₁, hdrop]
    constructor
    · rintro ⟨cs, hcs, hwalk⟩
      exact ⟨c :: cs, hbegins.cons hcs, Option.bind_eq_some_iff.mpr ⟨_, hnext, hwalk⟩⟩
    · rintro ⟨cs, hcs, hwalk⟩
      cases cs with
      | nil =>
        have hnil := congrArg List.length hcs.eq
        rw [List.length_drop, Chunk.encodeAll_nil, List.length_nil] at hnil
        omega
      | cons d cs =>
        obtain ⟨hbegins', hcs'⟩ := hcs.begins
        obtain ⟨rfl, rfl⟩ := hbegins.unique hbegins'
        obtain ⟨w₂, hnext', hwalk'⟩ := Option.bind_eq_some_iff.mp hwalk
        rw [hnext] at hnext'
        cases hnext'
        exact ⟨cs, hcs', hwalk'⟩
  | case3 w hge =>
    have hend : bytes.drop w.offset = [] := List.drop_eq_nil_of_le (Nat.not_lt.mp hge)
    rw [walk, if_neg hge, hend, Except.ok.injEq]
    constructor
    · rintro rfl
      exact ⟨[], .nil, rfl⟩
    · rintro ⟨cs, hcs, hwalk⟩
      rw [hcs.eq_nil] at hwalk
      exact Option.some.inj hwalk

/-! ## The data -/

/-- The payloads of the data chunks. -/
def dataOf (cs : List Chunk) : List (List UInt8) :=
  (cs.filter fun c => c.tag = ascii "data").map Chunk.payload

theorem dataOf_cons {c : Chunk} (h : c.tag = ascii "data") (cs : List Chunk) :
    dataOf (c :: cs) = c.payload :: dataOf cs := by
  simp [dataOf, h]

theorem dataOf_cons_of_ne {c : Chunk} (h : c.tag ≠ ascii "data") (cs : List Chunk) :
    dataOf (c :: cs) = dataOf cs := by
  simp [dataOf, h]

/-- A chunk sets the length of the data when it is a data chunk, and there is none before it. -/
theorem pass_data {w : Walk} {c : Chunk} {r : Bool × Option Nat} (h : a.pass w c = some r) :
    (c.tag = ascii "data" ∧ w.data = none ∧ r.2 = some c.payload.length)
      ∨ (c.tag ≠ ascii "data" ∧ r.2 = w.data) := by
  unfold pass at h
  split_ifs at h with hfmt hformat hdata hnone
  · cases h
    refine .inr ⟨?_, rfl⟩
    rw [hfmt]
    decide
  · cases h
    exact .inl ⟨hdata, hnone, rfl⟩
  · cases h
    exact .inr ⟨hdata, rfl⟩

/-- An accepted file has the data that the walk counted, in one chunk. -/
theorem walkChunks_data {w w' : Walk} {cs : List Chunk} (h : a.walkChunks w cs = some w') :
    (w.data = none ∧ dataOf cs = [] ∧ w'.data = none)
      ∨ (w.data = none ∧ ∃ pcm, dataOf cs = [pcm] ∧ w'.data = some pcm.length)
      ∨ (w.data ≠ none ∧ dataOf cs = [] ∧ w'.data = w.data) := by
  induction cs generalizing w with
  | nil =>
    have hw : w' = w := (Option.some.inj h).symm
    rw [hw]
    by_cases hnone : w.data = none
    · exact .inl ⟨hnone, rfl, hnone⟩
    · exact .inr (.inr ⟨hnone, rfl, rfl⟩)
  | cons c cs ih =>
    obtain ⟨w₁, hnext, hwalk⟩ := Option.bind_eq_some_iff.mp h
    obtain ⟨hpass, -, -⟩ := next_some.mp hnext
    rcases pass_data hpass with ⟨htag, hnone, hdata⟩ | ⟨htag, hdata⟩
    · have hcons := dataOf_cons htag cs
      have hsome : w₁.data = some c.payload.length := hdata
      rcases ih hwalk with ⟨hnone₁, -⟩ | ⟨hnone₁, -⟩ | ⟨-, hrest, hlast⟩
      · rw [hsome] at hnone₁
        cases hnone₁
      · rw [hsome] at hnone₁
        cases hnone₁
      · exact .inr (.inl ⟨hnone, c.payload, by rw [hcons, hrest], hlast.trans hsome⟩)
    · have hsame : w₁.data = w.data := hdata
      rw [dataOf_cons_of_ne htag, ← hsame]
      exact ih hwalk

/-- A round of the search over the bytes of a chunk. -/
theorem dataStep_ok {offset : Nat} {c : Chunk} {rest : List UInt8}
    (hbegins : Begins (bytes.drop offset) c rest) (hlen : bytes.length < 2 ^ 62) :
    dataStep bytes offset = .ok (if c.tag = ascii "data" then .inl c.payload
      else .inr (offset + c.encode.length)) := by
  obtain ⟨htag, hsize, hpayload, -, htotal⟩ := hbegins.fields
  have hn : ofLe (toLe 4 c.payload.length) = c.payload.length := ofLe_toLe hbegins.wf.payload
  rw [List.length_drop] at htotal
  rw [List.drop_drop] at hsize hpayload
  simp only [dataStep, bind_ok, add_ok, number_ok, slice_ok]
  refine ⟨_, ⟨by omega, rfl⟩, _, ⟨by omega, rfl⟩, c.payload.length, ⟨by omega, by omega, ?_⟩, _,
    ⟨by omega, rfl⟩, c.tag, ⟨by omega, by omega, ?_⟩, ?_⟩
  · rw [show offset + 8 - (offset + 4) = 4 by omega, hsize, hn]
  · rw [Nat.add_sub_cancel_left, htag]
  · split_ifs with hdata
    · simp only [bind_ok, add_ok, slice_ok, pure_ok]
      refine ⟨_, ⟨by omega, rfl⟩, _, ⟨by omega, rfl⟩, _, ⟨by omega, by omega, rfl⟩, ?_⟩
      rw [Nat.add_sub_cancel_left, hpayload]
    · simp only [bind_ok, add_ok, pure_ok]
      refine ⟨_, ⟨by omega, rfl⟩, _, ⟨by omega, rfl⟩, _, ⟨by omega, rfl⟩, ?_⟩
      rw [Chunk.length_encode hbegins.wf]

/-- The search finds the payload of the first data chunk. -/
theorem findData_ok {cs : List Chunk} {offset : Nat} {pcm : List UInt8}
    {others : List (List UInt8)} (hlen : bytes.length < 2 ^ 62)
    (hcs : Consists (bytes.drop offset) cs) (hdata : dataOf cs = pcm :: others) :
    findData bytes offset = .ok pcm := by
  induction cs generalizing offset with
  | nil => cases hdata
  | cons c cs ih =>
    obtain ⟨hbegins, hrest⟩ := hcs.begins
    have hstep := dataStep_ok hbegins hlen
    obtain ⟨-, -, -, hdrop, htotal⟩ := hbegins.fields
    rw [List.length_drop] at htotal
    have hlt : offset < bytes.length := by omega
    rw [findData, if_pos hlt]
    by_cases htag : c.tag = ascii "data"
    · rw [if_pos htag] at hstep
      rw [dataOf_cons htag] at hdata
      cases hdata
      split
      · rename_i e he
        rw [hstep] at he
        cases he
      · rename_i found he
        rw [hstep] at he
        cases he
        rfl
      · rename_i next he
        rw [hstep] at he
        cases he
    · rw [if_neg htag, Chunk.length_encode hbegins.wf] at hstep
      rw [dataOf_cons_of_ne htag] at hdata
      rw [List.drop_drop] at hdrop
      split
      · rename_i e he
        rw [hstep] at he
        cases he
      · rename_i found he
        rw [hstep] at he
        cases he
      · rename_i next he
        rw [hstep] at he
        cases he
        refine ih ?_ hdata
        rw [hdrop]
        exact hrest

end Audio

end Eef.Node
