import Eef.Lib.Riff

/-!
# Windows of a file

A parser of a binary format looks at a file through windows: so many bytes from an offset. `window`
is what it sees, `field` the little-endian number there. The lemmas say how windows of a file and of
its parts go together, so that a round trip is argued part by part.
-/

namespace Eef.Lib.Bytes

/-- The bytes of a file at an offset. -/
def window (bytes : List UInt8) (n offset : Nat) : List UInt8 := (bytes.drop offset).take n

/-- The number of a file at an offset. -/
def field (bytes : List UInt8) (n offset : Nat) : Nat := ofLe (window bytes n offset)

variable {bytes xs ys : List UInt8} {n m offset : Nat}

theorem field_lt : field bytes n offset < 256 ^ n := by
  refine (ofLe_lt _).trans_le (Nat.pow_le_pow_right (by decide) ?_)
  rw [window, List.length_take]
  exact Nat.min_le_left _ _

theorem length_window (h : offset + n ≤ bytes.length) :
    (window bytes n offset).length = n := by
  rw [window, List.length_take, List.length_drop]
  omega

/-- The bytes of a number that was read. -/
theorem window_eq_toLe {v : Nat} (h : offset + n ≤ bytes.length)
    (hv : field bytes n offset = v) : window bytes n offset = toLe n v := by
  have hback := toLe_ofLe (window bytes n offset)
  rw [length_window h] at hback
  rw [← hv]
  exact hback.symm

/-- A window at the front of some bytes. -/
theorem window_append (xs ys : List UInt8) : window (xs ++ ys) xs.length 0 = xs := by
  rw [window, List.drop_zero, List.take_left]

theorem window_drop {position : Nat} :
    window (bytes.drop position) n offset = window bytes n (position + offset) := by
  rw [window, List.drop_drop, window]

theorem drop_window (n offset : Nat) :
    bytes.drop offset = window bytes n offset ++ bytes.drop (offset + n) := by
  rw [window, ← List.drop_drop, List.take_append_drop]

theorem window_split :
    window bytes (n + m) offset = window bytes n offset ++ window bytes m (offset + n) := by
  rw [window, window, window, ← List.drop_drop, List.take_add]

/-- A byte of a window is the window of that byte. -/
theorem window_one {i : Nat} (hi : i < n) (hlen : i < (window bytes n offset).length) :
    window bytes 1 (offset + i) = [(window bytes n offset)[i]] := by
  have hpart : window bytes 1 (offset + i) = ((window bytes n offset).drop i).take 1 := by
    rw [window, window, ← List.drop_drop, List.drop_take, List.take_take, Nat.min_eq_left (by omega)]
  rw [hpart, List.drop_eq_getElem_cons hlen, List.take_succ_cons, List.take_zero]

/-- A window of the front. -/
theorem window_left (h : offset + n ≤ xs.length) :
    window (xs ++ ys) n offset = window xs n offset := by
  rw [window, window, List.drop_append_of_le_length (by omega),
    List.take_append_of_le_length (by rw [List.length_drop]; omega)]

/-- A window of the rest. -/
theorem window_right :
    window (xs ++ ys) n (xs.length + offset) = window ys n offset := by
  rw [window, window, List.drop_length_add_append]

/-- Files with a common front have its windows. -/
theorem window_congr {k : Nat} (h : xs.take k = ys.take k)
    (hle : offset + n ≤ k) : window xs n offset = window ys n offset := by
  have hcut : ∀ zs : List UInt8, window zs n offset = ((zs.take k).drop offset).take n := by
    intro zs
    rw [window, List.drop_take, List.take_take, Nat.min_eq_left (by omega)]
  rw [hcut xs, hcut ys, h]

/-- A window over a whole part. -/
theorem window_part (xs ys zs : List UInt8) :
    window (xs ++ (ys ++ zs)) ys.length xs.length = ys := by
  rw [← Nat.add_zero xs.length, window_right]
  exact window_append ys zs

end Eef.Lib.Bytes
