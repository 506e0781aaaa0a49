import Eef.Node.InstallerPayload

/-!
# Installers are read back

The bundle script of a release appends the archive, its length and `EEFINST1` to the stub of the
installer; a signature pads that to eight bytes, appends the certificate table and points the
directory of the image at it. `update_payload` gets the archive back from either form
(`updatePayload_roundTrip`): appending to an image leaves its header alone, and so does setting the
directory, which lies behind everything `content_end` reads before it.
-/

namespace Eef.Node.Installer

open Eef.Lib hiding bind_ok pure_ok bailIf bailIf_ok context context_ok
open Checked Bytes Certificate

/-! ## Round trips -/

/-- `update_payload`: the archive of an update, which may come as one. -/
def updatePayload (bytes : List UInt8) : Checked (List UInt8) :=
  if zipSignature.isPrefixOf bytes then .ok bytes else do
    let (start, footer) ← payloadRange bytes
    slice bytes start footer

/-- `New-SelfExtractingInstaller` of `tools/bundle-windows.ps1`: the stub, the archive, its length
and the magic. -/
def newSelfExtractingInstaller (stub payload : List UInt8) : List UInt8 :=
  stub ++ payload ++ (toLe 8 payload.length ++ magic)

/-- The certificate directory of an image is set. -/
def setDirectory (h : Header) (start size : Nat) (image : List UInt8) : List UInt8 :=
  image.take (h.base + 32) ++ (toLe 4 start ++ toLe 4 size) ++ image.drop (h.base + 40)

/-- The zero bytes up to the next multiple of eight. -/
def zeros (n : Nat) : List UInt8 := List.replicate (align8 n - n) 0

/-- An installer with a certificate table: aligned, closed by the table, its directory set. -/
def authenticode (h : Header) (cs : List Certificate) (stub payload : List UInt8) : List UInt8 :=
  let length := (newSelfExtractingInstaller stub payload).length
  let image := setDirectory h (align8 length) (encodeAll cs).length stub
  newSelfExtractingInstaller image payload ++ zeros length ++ encodeAll cs

/-- The header is in front of the data directories. -/
theorem HasHeader.congr {xs ys : List UInt8} {h : Header} (hh : HasHeader xs h)
    (htake : xs.take h.base = ys.take h.base) (hle : xs.length ≤ ys.length) : HasHeader ys h := by
  have hd := directoriesAt_some hh.kind
  have hlow := hh.low
  have hroom := hh.room
  have hwhole := hh.whole
  have hb : h.base = h.optional + h.directories := rfl
  have hwindow : ∀ n offset, offset + n ≤ h.base → window ys n offset = window xs n offset :=
    fun n offset hfit => (window_congr htake hfit).symm
  have hfield : ∀ n offset, offset + n ≤ h.base → field ys n offset = field xs n offset := by
    intro n offset hfit
    rw [field, hwindow n offset hfit, field]
  constructor
  · omega
  · rw [hwindow 2 0 (by omega)]
    exact hh.image
  · rw [hfield 4 0x3c (by omega)]
    exact hh.offset
  · exact hlow
  · rw [hwindow 4 _ (by omega)]
    exact hh.signature
  · rw [hfield 2 _ (by omega)]
    exact hh.size
  · omega
  · rw [hfield 2 _ (by omega)]
    exact hh.kind
  · exact hh.directories

theorem take_base {image rest : List UInt8} {h : Header} (hh : HasHeader image h) :
    image.take h.base = (image ++ rest).take h.base := by
  have hwhole := hh.whole
  have hdir := hh.directories
  have hb : h.base = h.optional + h.directories := rfl
  rw [List.take_append_of_le_length (by omega)]

/-- What follows an image gives it no certificate table. -/
theorem Unsigned.append {image : List UInt8} (hu : Unsigned image) (hroom : 64 ≤ image.length)
    (rest : List UInt8) : Unsigned (image ++ rest) := by
  have hlength : image.length ≤ (image ++ rest).length := by
    rw [List.length_append]
    omega
  cases hu with
  | short hlen => omega
  | other himage =>
    refine .other ?_
    rw [window_left (by omega)]
    exact himage
  | few h hh hcount =>
    have hwhole := hh.whole
    have hdir := hh.directories
    have hd := directoriesAt_some hh.kind
    have hb : h.base = h.optional + h.directories := rfl
    refine .few h (hh.congr (take_base hh) hlength) ?_
    rw [field, window_left (by omega)]
    exact hcount
  | empty h hh hcount hsize hstart htotal =>
    have hwhole := hh.whole
    have hdir := hh.directories
    have hd := directoriesAt_some hh.kind
    have hb : h.base = h.optional + h.directories := rfl
    refine .empty h (hh.congr (take_base hh) hlength) ?_ hsize ?_ ?_
    · rw [field, window_left (by omega)]
      exact hcount
    · rw [field, window_left (by omega)]
      exact hstart
    · rw [field, window_left (by omega)]
      exact htotal

theorem length_installer (stub payload : List UInt8) :
    (newSelfExtractingInstaller stub payload).length = stub.length + payload.length + 16 := by
  simp only [newSelfExtractingInstaller, List.length_append, length_toLe]
  rfl

theorem four_le {payload : List UInt8} (hzip : window payload 4 0 = zipSignature) :
    4 ≤ payload.length := by
  have hlen := congrArg List.length hzip
  rw [window, List.drop_zero, List.length_take] at hlen
  have hfour : zipSignature.length = 4 := rfl
  omega

/-- An installer holds its archive, also in front of zero bytes. -/
theorem installer_framed (stub rest : List UInt8) (padding : Nat) {payload : List UInt8}
    (hzip : window payload 4 0 = zipSignature) :
    Framed (newSelfExtractingInstaller stub payload ++ (List.replicate padding 0 ++ rest))
      ((newSelfExtractingInstaller stub payload).length + padding) padding stub.length
      (stub.length + payload.length) := by
  have hfour := four_le hzip
  have hlen := length_installer stub payload
  constructor
  · omega
  · rw [Nat.add_sub_cancel]
    have hpart := window_part (newSelfExtractingInstaller stub payload)
      (List.replicate padding 0) rest
    rw [List.length_replicate] at hpart
    exact hpart
  · have hpart := window_part (stub ++ payload) (toLe 8 payload.length ++ magic)
      (List.replicate padding 0 ++ rest)
    rw [Nat.add_sub_cancel_left, newSelfExtractingInstaller, List.append_assoc (stub ++ payload)]
    rw [List.length_append, List.length_append, length_toLe] at hpart
    exact hpart
  · omega
  · rw [window_left (by omega), newSelfExtractingInstaller, window_left (by rw [List.length_append]; omega),
      ← Nat.add_zero stub.length, window_right]
    exact hzip

/-- The archive between its bounds. -/
theorem slice_installer (stub payload rest : List UInt8) :
    slice (newSelfExtractingInstaller stub payload ++ rest) stub.length (stub.length + payload.length)
      = .ok payload := by
  refine slice_ok.mpr ⟨Nat.le_add_right _ _, ?_, ?_⟩
  · rw [List.length_append, length_installer]
    omega
  · rw [Nat.add_sub_cancel_left, newSelfExtractingInstaller, List.append_assoc, List.append_assoc,
      List.drop_left, List.take_left]

/-- An image is no archive. -/
theorem not_zip {image : List UInt8} (rest : List UInt8) (hroom : 64 ≤ image.length)
    (himage : window image 2 0 = ascii "MZ") : zipSignature.isPrefixOf (image ++ rest) = false := by
  have hfront : window (image ++ rest) 2 0 = ascii "MZ" := by
    rw [window_left (by omega)]
    exact himage
  rw [Bool.eq_false_iff]
  intro hpre
  obtain ⟨tail, htail⟩ := List.isPrefixOf_iff_prefix.mp hpre
  rw [← htail] at hfront
  revert hfront
  rw [window_left (by decide)]
  decide

/-- The archive of an unsigned installer is found. -/
theorem payloadRange_installer {stub payload : List UInt8} (hroom : 64 ≤ stub.length)
    (hunsigned : Unsigned stub) (hzip : window payload 4 0 = zipSignature)
    (hlen : (newSelfExtractingInstaller stub payload).length < 2 ^ 64) :
    payloadRange (newSelfExtractingInstaller stub payload)
      = .ok (stub.length, stub.length + payload.length) ∧
    slice (newSelfExtractingInstaller stub payload) stub.length (stub.length + payload.length)
      = .ok payload := by
  have hframed := installer_framed stub [] 0 hzip
  have hslice := slice_installer stub payload []
  rw [List.append_nil] at hslice
  simp only [List.replicate_zero, List.append_nil, Nat.add_zero] at hframed
  have hcontent : Unsigned (newSelfExtractingInstaller stub payload) := by
    rw [newSelfExtractingInstaller, List.append_assoc]
    exact hunsigned.append hroom _
  exact ⟨(payloadRange_ok hlen).mpr ⟨_, _, 0, .unsigned hcontent, Nat.zero_le _, hframed⟩, hslice⟩

/-- An update in the form of an unsigned installer is its archive. -/
theorem updatePayload_installer {stub payload : List UInt8} (hroom : 64 ≤ stub.length)
    (himage : window stub 2 0 = ascii "MZ") (hunsigned : Unsigned stub)
    (hzip : window payload 4 0 = zipSignature)
    (hlen : (newSelfExtractingInstaller stub payload).length < 2 ^ 64) :
    updatePayload (newSelfExtractingInstaller stub payload) = .ok payload := by
  obtain ⟨hrange, hslice⟩ := payloadRange_installer hroom hunsigned hzip hlen
  have hfalse : zipSignature.isPrefixOf (newSelfExtractingInstaller stub payload) = false := by
    rw [newSelfExtractingInstaller, List.append_assoc]
    exact not_zip _ hroom himage
  rw [updatePayload, hfalse, if_neg Bool.false_ne_true, hrange, ok_then]
  exact hslice

/-! ## Signed installers -/

/-- An image with a certificate directory. -/
structure HasDirectory (image : List UInt8) (h : Header) : Prop where
  header : HasHeader image h
  count : 4 < field image 4 (h.base - 4)
  room : h.directories + 40 ≤ h.size

section Directory

variable {image : List UInt8} {h : Header}

theorem HasDirectory.fits (hd : HasDirectory image h) :
    92 ≤ h.base ∧ h.base + 40 ≤ image.length ∧ h.base = h.optional + h.directories := by
  have hwhole := hd.header.whole
  have hlow := hd.header.low
  have hroom := hd.room
  have hb : h.base = h.optional + h.directories := rfl
  have hdir := directoriesAt_some hd.header.kind
  omega

theorem length_setDirectory (start size : Nat) (hd : HasDirectory image h) :
    (setDirectory h start size image).length = image.length := by
  have hfits := hd.fits
  simp only [setDirectory, List.length_append, List.length_take, List.length_drop, length_toLe]
  omega

theorem take_setDirectory (start size : Nat) (hd : HasDirectory image h) :
    image.take (h.base + 32) = (setDirectory h start size image).take (h.base + 32) := by
  have hfits := hd.fits
  have hlen : (image.take (h.base + 32)).length = h.base + 32 := by
    rw [List.length_take]
    omega
  rw [setDirectory, List.append_assoc, List.take_append_of_le_length (by omega), List.take_take,
    Nat.min_self]

/-- Only the directory is changed, and it is what was set. -/
theorem HasDirectory.set {start size : Nat} (hd : HasDirectory image h) (hstart : start < 256 ^ 4)
    (hsize : size < 256 ^ 4) : HasDirectory (setDirectory h start size image) h ∧
      field (setDirectory h start size image) 4 (h.base + 32) = start ∧
      field (setDirectory h start size image) 4 (h.base + 36) = size := by
  have hfits := hd.fits
  have htake := take_setDirectory start size hd
  have hlen : (image.take (h.base + 32)).length = h.base + 32 := by
    rw [List.length_take]
    omega
  have hbase : image.take h.base = (setDirectory h start size image).take h.base := by
    have hcut := congrArg (List.take h.base) htake
    rw [List.take_take, List.take_take, Nat.min_eq_left (by omega)] at hcut
    exact hcut
  refine ⟨⟨hd.header.congr hbase (length_setDirectory start size hd).ge, ?_, hd.room⟩, ?_, ?_⟩
  · rw [field, ← window_congr hbase (by omega)]
    exact hd.count
  · have hpart := window_part (image.take (h.base + 32)) (toLe 4 start)
      (toLe 4 size ++ image.drop (h.base + 40))
    rw [length_toLe, hlen] at hpart
    rw [field, setDirectory, List.append_assoc, List.append_assoc, hpart]
    exact ofLe_toLe hstart
  · have hpart := window_part (image.take (h.base + 32) ++ toLe 4 start) (toLe 4 size)
      (image.drop (h.base + 40))
    rw [length_toLe, List.length_append, hlen, length_toLe] at hpart
    rw [field, setDirectory, List.append_assoc, List.append_assoc, ← List.append_assoc, hpart]
    exact ofLe_toLe hsize

end Directory

theorem le_length_encodeAll {cs : List Certificate} (hne : cs ≠ []) (hwf : ∀ c ∈ cs, c.WF) :
    8 ≤ (encodeAll cs).length := by
  cases cs with
  | nil => exact absurd rfl hne
  | cons c cs =>
    have hc := hwf c (List.mem_cons_self ..)
    have hmin := hc.size_ge
    have halign := le_align8 c.size
    rw [encodeAll_cons, List.length_append, length_encode hc]
    omega

/-- The table that a signature appends is the table that `content_end` finds. -/
theorem authenticode_table {stub payload : List UInt8} {h : Header} {cs : List Certificate}
    (hd : HasDirectory stub h) (hne : cs ≠ []) (hwf : ∀ c ∈ cs, c.WF)
    (hlen : (authenticode h cs stub payload).length < 2 ^ 32) :
    Table (authenticode h cs stub payload) h
      (align8 (newSelfExtractingInstaller stub payload).length) := by
  generalize hn : (newSelfExtractingInstaller stub payload).length = n
  have halign := le_align8 n
  have hfits := hd.fits
  have hcerts := le_length_encodeAll hne hwf
  have hinst := length_installer stub payload
  -- the front of the file is the image with its directory set
  have hfile : authenticode h cs stub payload
      = setDirectory h (align8 n) (encodeAll cs).length stub
        ++ (payload ++ (toLe 8 payload.length ++ magic) ++ zeros n ++ encodeAll cs) := by
    simp only [authenticode, hn]
    simp only [newSelfExtractingInstaller, List.append_assoc]
  have himage := length_setDirectory (align8 n) (encodeAll cs).length hd
  have hcontent : (setDirectory h (align8 n) (encodeAll cs).length stub
      ++ (payload ++ (toLe 8 payload.length ++ magic) ++ zeros n)).length = align8 n := by
    have hmagic : magic.length = 8 := rfl
    simp only [List.length_append, himage, length_toLe, zeros, List.length_replicate, hmagic]
    omega
  have hwhole : (authenticode h cs stub payload).length = align8 n + (encodeAll cs).length := by
    rw [hfile, ← List.append_assoc, List.length_append, hcontent]
  have hstart_lt : align8 n < 256 ^ 4 := by omega
  have hsize_lt : (encodeAll cs).length < 256 ^ 4 := by omega
  obtain ⟨hset, hstart, hsize⟩ := hd.set hstart_lt hsize_lt
  have hlonger : (setDirectory h (align8 n) (encodeAll cs).length stub).length
      ≤ (authenticode h cs stub payload).length := by
    rw [hfile, List.length_append]
    omega
  have hfield : ∀ offset, offset + 4 ≤ h.base + 40 → field (authenticode h cs stub payload) 4 offset
      = field (setDirectory h (align8 n) (encodeAll cs).length stub) 4 offset := by
    intro offset hle
    rw [hfile, field, window_left (by omega), field]
  constructor
  · refine hset.header.congr ?_ hlonger
    rw [hfile]
    exact take_base hset.header
  · rw [hfield _ (by omega)]
    exact hset.count
  · exact hd.room
  · rw [hfield _ (by omega)]
    exact hstart
  · rw [hfield _ (by omega), hsize, hwhole]
  · omega
  · unfold align8
    omega
  · omega
  · refine ⟨cs, hwf, ?_⟩
    rw [hfile, ← List.append_assoc, List.drop_left' hcontent]

/-- The archive of a signed installer is found. -/
theorem payloadRange_authenticode {stub payload : List UInt8} {h : Header} {cs : List Certificate}
    (hd : HasDirectory stub h) (hzip : window payload 4 0 = zipSignature) (hne : cs ≠ [])
    (hwf : ∀ c ∈ cs, c.WF) (hlen : (authenticode h cs stub payload).length < 2 ^ 32) :
    payloadRange (authenticode h cs stub payload)
      = .ok (stub.length, stub.length + payload.length) ∧
    slice (authenticode h cs stub payload) stub.length (stub.length + payload.length)
      = .ok payload := by
  have htable := authenticode_table hd hne hwf hlen
  generalize hn : (newSelfExtractingInstaller stub payload).length = n at htable
  have halign := le_align8 n
  have hinst := length_installer stub payload
  have himage := length_setDirectory (align8 n) (encodeAll cs).length hd
  have hfile : authenticode h cs stub payload = newSelfExtractingInstaller
      (setDirectory h (align8 n) (encodeAll cs).length stub) payload
        ++ (zeros n ++ encodeAll cs) := by
    simp only [authenticode, hn, List.append_assoc]
  have hframed := installer_framed
    (setDirectory h (align8 n) (encodeAll cs).length stub) (encodeAll cs) (align8 n - n) hzip
  have hstop : (newSelfExtractingInstaller
      (setDirectory h (align8 n) (encodeAll cs).length stub) payload).length + (align8 n - n)
        = align8 n := by
    rw [length_installer, himage]
    omega
  rw [hstop, himage] at hframed
  have hframed : Framed (authenticode h cs stub payload) (align8 n) (align8 n - n) stub.length
      (stub.length + payload.length) := by
    rw [hfile]
    exact hframed
  have hslice := slice_installer (setDirectory h (align8 n) (encodeAll cs).length stub)
    payload (zeros n ++ encodeAll cs)
  rw [himage, ← hfile] at hslice
  refine ⟨(payloadRange_ok (by omega)).mpr ⟨_, _, _, .signed h _ htable, ?_, hframed⟩, hslice⟩
  show align8 n - n ≤ 7
  omega

/-- An update in the form of a signed installer is its archive. -/
theorem updatePayload_authenticode {stub payload : List UInt8} {h : Header} {cs : List Certificate}
    (hd : HasDirectory stub h) (hzip : window payload 4 0 = zipSignature) (hne : cs ≠ [])
    (hwf : ∀ c ∈ cs, c.WF) (hlen : (authenticode h cs stub payload).length < 2 ^ 32) :
    updatePayload (authenticode h cs stub payload) = .ok payload := by
  have htable := authenticode_table hd hne hwf hlen
  obtain ⟨hrange, hslice⟩ := payloadRange_authenticode hd hzip hne hwf hlen
  have hfalse : zipSignature.isPrefixOf (authenticode h cs stub payload) = false := by
    have hnot := not_zip [] htable.header.room htable.header.image
    rw [List.append_nil] at hnot
    exact hnot
  rw [updatePayload, hfalse, if_neg Bool.false_ne_true, hrange, ok_then]
  exact hslice

/-- What the bundle makes of a stub without a certificate table and an archive is read back as that
archive, before it is signed and after. -/
theorem updatePayload_roundTrip {stub : List UInt8} (payload : List UInt8) (hroom : 64 ≤ stub.length)
    (himage : window stub 2 0 = ascii "MZ") (hzip : window payload 4 0 = zipSignature) :
    (Unsigned stub → (newSelfExtractingInstaller stub payload).length < 2 ^ 64 →
      updatePayload (newSelfExtractingInstaller stub payload) = .ok payload) ∧
    (∀ (h : Header) (cs : List Certificate), HasDirectory stub h → cs ≠ [] → (∀ c ∈ cs, c.WF) →
      (authenticode h cs stub payload).length < 2 ^ 32 →
      updatePayload (authenticode h cs stub payload) = .ok payload) := by
  constructor
  · intro hunsigned hlen
    exact updatePayload_installer hroom himage hunsigned hzip hlen
  · intro h cs hd hne hwf hlen
    exact updatePayload_authenticode hd hzip hne hwf hlen

/-- The stub of the framing tests, cut to its headers. -/
def sampleStub : List UInt8 :=
  ascii "MZ" ++ List.replicate 58 0 ++ toLe 4 64 ++ peSignature ++ List.replicate 16 0 ++ toLe 2 136
    ++ [0, 0] ++ toLe 2 0x10b ++ List.replicate 90 0 ++ toLe 4 16 ++ List.replicate 40 0

/-- Its header. -/
def sampleHeader : Header := ⟨88, 136, 96⟩

/-- An archive of nothing. -/
def sampleZip : List UInt8 := zipSignature ++ [1]

/-- The certificate of the framing tests. -/
def sampleCertificate : Certificate := ⟨toLe 2 0x200 ++ toLe 2 2 ++ List.replicate 8 0, []⟩

theorem sampleStub_directory : HasDirectory sampleStub sampleHeader := by
  refine ⟨⟨?_, ?_, ?_, ?_, ?_, ?_, ?_, ?_, ?_⟩, ?_, ?_⟩ <;> decide +kernel

theorem sampleCertificate_wf : sampleCertificate.WF := by
  refine ⟨?_, ?_, ?_⟩ <;> decide

theorem updatePayload_roundTrip_sample :
    updatePayload (newSelfExtractingInstaller sampleStub sampleZip) = .ok sampleZip ∧
    updatePayload (authenticode sampleHeader [sampleCertificate] sampleStub sampleZip)
      = .ok sampleZip := by
  have hd := sampleStub_directory
  obtain ⟨hplain, hsigned⟩ := updatePayload_roundTrip sampleZip hd.header.room hd.header.image (by decide)
  constructor
  · refine hplain (.empty sampleHeader hd.header hd.count hd.room ?_ ?_) ?_ <;> decide +kernel
  · refine hsigned sampleHeader [sampleCertificate] hd (by decide) ?_ (by decide +kernel)
    intro c hc
    rw [List.mem_singleton.mp hc]
    exact sampleCertificate_wf

/-! ## The framing -/

/-- **The framing of an installer is exact.** No file makes the parser panic or read over its end; it
finds an archive exactly where one is framed, and a file frames one at most. What is appended to an
image without a certificate table is found again, before the file is signed and after. -/
theorem installer_framing :
    (∀ bytes : List UInt8, bytes.length < 2 ^ 64 →
      Inside (contentEnd bytes) ∧ Inside (payloadRange bytes) ∧
      (∀ start footer, payloadRange bytes = .ok (start, footer) ↔ Holds bytes start footer) ∧
      ∀ start footer start' footer', Holds bytes start footer → Holds bytes start' footer' →
        start = start' ∧ footer = footer') ∧
    ∀ stub payload : List UInt8, 64 ≤ stub.length → window payload 4 0 = zipSignature →
      (Unsigned stub → (newSelfExtractingInstaller stub payload).length < 2 ^ 64 →
        payloadRange (newSelfExtractingInstaller stub payload)
          = .ok (stub.length, stub.length + payload.length) ∧
        slice (newSelfExtractingInstaller stub payload) stub.length
          (stub.length + payload.length) = .ok payload) ∧
      ∀ (h : Header) (cs : List Certificate), HasDirectory stub h → cs ≠ [] → (∀ c ∈ cs, c.WF) →
        (authenticode h cs stub payload).length < 2 ^ 32 →
        payloadRange (authenticode h cs stub payload)
          = .ok (stub.length, stub.length + payload.length) ∧
        slice (authenticode h cs stub payload) stub.length (stub.length + payload.length)
          = .ok payload := by
  refine ⟨fun bytes hlen => ⟨contentEnd_inside, payloadRange_inside hlen,
    fun start footer => payloadRange_ok hlen, ?_⟩, fun stub payload hroom hzip => ⟨?_, ?_⟩⟩
  · intro start footer start' footer' h h'
    have hrun := (payloadRange_ok hlen).mpr h
    rw [(payloadRange_ok hlen).mpr h'] at hrun
    cases hrun
    exact ⟨rfl, rfl⟩
  · exact fun hunsigned hlen => payloadRange_installer hroom hunsigned hzip hlen
  · exact fun h cs hd hne hwf hlen => payloadRange_authenticode hd hzip hne hwf hlen

theorem installer_framing_sample :
    Holds (newSelfExtractingInstaller sampleStub sampleZip) sampleStub.length
      (sampleStub.length + sampleZip.length) ∧
    slice (authenticode sampleHeader [sampleCertificate] sampleStub sampleZip) sampleStub.length
      (sampleStub.length + sampleZip.length) = .ok sampleZip := by
  have hd := sampleStub_directory
  obtain ⟨hexact, hfound⟩ := installer_framing
  obtain ⟨hplain, hsigned⟩ := hfound sampleStub sampleZip hd.header.room (by decide)
  constructor
  · refine ((hexact _ ?_).2.2.1 _ _).mp (hplain (.empty sampleHeader hd.header hd.count hd.room ?_ ?_)
      ?_).1 <;> decide +kernel
  · refine (hsigned sampleHeader [sampleCertificate] hd (by decide) ?_ (by decide +kernel)).2
    intro c hc
    rw [List.mem_singleton.mp hc]
    exact sampleCertificate_wf

/-- A file that begins as an image, but has no header of one. -/
def malformedStub : List UInt8 := ascii "MZ" ++ List.replicate 62 0

/-- A file with the header of an image that cannot be read is refused, although it has no certificate
table and a footer closes it; and so is a file that was aligned for a table of no entries. -/
theorem framing_refused :
    (Framed (newSelfExtractingInstaller malformedStub sampleZip)
        (newSelfExtractingInstaller malformedStub sampleZip).length 0 64 (64 + sampleZip.length) ∧
      payloadRange (newSelfExtractingInstaller malformedStub sampleZip)
        ≠ .ok (64, 64 + sampleZip.length)) ∧
    Unsigned sampleStub ∧ HasDirectory sampleStub sampleHeader ∧
    payloadRange (authenticode sampleHeader [] sampleStub sampleZip)
      ≠ .ok (sampleStub.length, sampleStub.length + sampleZip.length) := by
  have hframed := @installer_framed malformedStub [] 0 sampleZip (by decide)
  simp only [List.replicate_zero, List.append_nil, Nat.add_zero] at hframed
  have hd := sampleStub_directory
  refine ⟨⟨hframed, by decide +kernel⟩, .empty sampleHeader hd.header hd.count hd.room ?_ ?_, hd, ?_⟩
    <;> decide +kernel

end Eef.Node.Installer
