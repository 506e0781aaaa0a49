import Mathlib.Data.List.Basic
import Mathlib.Tactic.Ring

/-!
# Little-endian numbers and RIFF chunks

A number of `k` bytes is written with its lowest byte first (`toLe`) and read back by `ofLe`. A
chunk of a RIFF file is a tag of four bytes, the length of its payload, the payload, and a byte of
padding after a payload of odd length; `encodeAll` is the bytes of chunks in a row.
-/

namespace Eef.Lib

/-! ## Numbers -/

/-- The number that the bytes are. -/
def ofLe : List UInt8 → Nat
  | [] => 0
  | b :: bs => b.toNat + 256 * ofLe bs

/-- A number in `k` bytes. -/
def toLe : Nat → Nat → List UInt8
  | 0, _ => []
  | k + 1, n => UInt8.ofNat n :: toLe k (n / 256)

@[simp] theorem length_toLe (k n : Nat) : (toLe k n).length = k := by
  induction k generalizing n with
  | zero => rfl
  | succ k ih => rw [toLe, List.length_cons, ih]

theorem ofLe_toLe {k n : Nat} (h : n < 256 ^ k) : ofLe (toLe k n) = n := by
  induction k generalizing n with
  | zero =>
    rw [Nat.pow_zero, Nat.lt_one_iff] at h
    rw [h]
    rfl
  | succ k ih =>
    have hrest : n / 256 < 256 ^ k := Nat.div_lt_of_lt_mul (by rwa [Nat.pow_succ, Nat.mul_comm] at h)
    rw [toLe, ofLe, ih hrest, UInt8.toNat_ofNat']
    omega

theorem toLe_ofLe (bs : List UInt8) : toLe bs.length (ofLe bs) = bs := by
  induction bs with
  | nil => rfl
  | cons b bs ih =>
    have hb := b.toNat_lt
    have hdiv : (b.toNat + 256 * ofLe bs) / 256 = ofLe bs := by omega
    have hlow : UInt8.ofNat (b.toNat + 256 * ofLe bs) = b := by
      apply UInt8.toNat_inj.mp
      rw [UInt8.toNat_ofNat']
      omega
    rw [List.length_cons, ofLe, toLe, hdiv, ih, hlow]

theorem ofLe_lt (bs : List UInt8) : ofLe bs < 256 ^ bs.length := by
  induction bs with
  | nil => exact Nat.one_pos
  | cons b bs ih =>
    have hb := b.toNat_lt
    rw [List.length_cons, Nat.pow_succ, ofLe]
    omega

/-- Bytes are a given number exactly when they are its bytes. -/
theorem ofLe_eq_iff {bs : List UInt8} {k n : Nat} (hlen : bs.length = k) (hn : n < 256 ^ k) :
    ofLe bs = n ↔ bs = toLe k n := by
  constructor
  · rintro rfl
    rw [← hlen, toLe_ofLe]
  · rintro rfl
    exact ofLe_toLe hn

/-! ## Chunks -/

/-- A chunk. -/
structure Chunk where
  tag : List UInt8
  payload : List UInt8
  pad : List UInt8
  deriving DecidableEq, Repr

namespace Chunk

/-- The chunk can be written. -/
structure WF (c : Chunk) : Prop where
  tag : c.tag.length = 4
  payload : c.payload.length < 2 ^ 32
  pad : c.pad.length = c.payload.length % 2

/-- The bytes of a chunk. -/
def encode (c : Chunk) : List UInt8 := c.tag ++ toLe 4 c.payload.length ++ c.payload ++ c.pad

/-- The bytes of chunks in a row. -/
def encodeAll (cs : List Chunk) : List UInt8 := (cs.map encode).flatten

theorem length_encode {c : Chunk} (h : c.WF) :
    c.encode.length = 8 + c.payload.length + c.payload.length % 2 := by
  have htag := h.tag
  have hpad := h.pad
  simp only [encode, List.length_append, length_toLe]
  omega

@[simp] theorem encodeAll_nil : encodeAll [] = [] := rfl

@[simp] theorem encodeAll_cons (c : Chunk) (cs : List Chunk) :
    encodeAll (c :: cs) = c.encode ++ encodeAll cs := rfl

end Chunk

end Eef.Lib
