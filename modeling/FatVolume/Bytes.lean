/-!
# Bytes of fixed-width fields

A field of an on-disk structure has a fixed width.  `Bytes.padded n` fits bytes into `n`
places and `Bytes.trimZeros` takes the padding off again.  `Bytes.littleEndian` and
`Bytes.value` are the two directions of the encoding of numbers, least significant byte
first.
-/

namespace FatVolume

/-- A sequence of bytes. -/
abbrev Bytes : Type := List UInt8

namespace Bytes

/-- The first `n` of the given bytes, with zeros in the places they leave empty. -/
def padded (n : Nat) (bytes : Bytes) : Vector UInt8 n :=
  ⟨(bytes.take n ++ List.replicate (n - bytes.length) 0).toArray, by simp; omega⟩

theorem toList_padded (n : Nat) (bytes : Bytes) :
  (padded n bytes).toList = bytes.take n ++ List.replicate (n - bytes.length) 0
  := rfl

/-- Bytes that fill the field exactly are kept as they are. -/
theorem toList_padded_of_length {n : Nat} {bytes : Bytes} (h : bytes.length = n) :
  (padded n bytes).toList = bytes
  := by
  rw [toList_padded, List.take_of_length_le (by omega)]
  simp [h]

@[simp]
theorem padded_toList {n : Nat} (bytes : Vector UInt8 n) :
  padded n bytes.toList = bytes
  := by
  apply Vector.toList_inj.mp
  apply toList_padded_of_length
  simp

/-- The bytes without the zeros at their end. -/
def trimZeros (bytes : Bytes) : Bytes :=
  (bytes.reverse.dropWhile (· == 0)).reverse

/-- Zeros at the end are all that is taken away. -/
theorem trimZeros_append_replicate (bytes : Bytes) :
  ∃ n, bytes = trimZeros bytes ++ List.replicate n 0
  := by
  refine ⟨(bytes.reverse.takeWhile (· == 0)).length, ?_⟩
  have zeros : bytes.reverse.takeWhile (· == 0)
      = List.replicate (bytes.reverse.takeWhile (· == 0)).length 0 := by
    apply List.eq_replicate_iff.mpr
    refine ⟨rfl, fun b hb => ?_⟩
    simpa using List.all_eq_true.mp List.all_takeWhile b hb
  have parts := congrArg List.reverse (List.takeWhile_append_dropWhile (p := (· == 0))
    (l := bytes.reverse))
  rw [List.reverse_append, List.reverse_reverse, zeros, List.reverse_replicate] at parts
  exact parts.symm

/-- The first `count` stretches of `size` bytes, one after the other. -/
def chunks (size : Nat) : (count : Nat) → Bytes → List Bytes
  | 0, _ => []
  | count + 1, bytes => bytes.take size :: chunks size count (bytes.drop size)

@[simp]
theorem length_chunks (size count : Nat) (bytes : Bytes) :
  (chunks size count bytes).length = count
  := by
  induction count generalizing bytes with
  | zero => rfl
  | succ count ih => simp [chunks, ih]

/-- A chunk is the stretch at a multiple of the size. -/
theorem getElem_chunks {size count i : Nat} {bytes : Bytes}
    (h : i < (chunks size count bytes).length) :
  (chunks size count bytes)[i] = (bytes.drop (i * size)).take size
  := by
  induction count generalizing i bytes with
  | zero => simp [chunks] at h
  | succ count ih =>
      cases i with
      | zero => simp [chunks]
      | succ i =>
          simp only [chunks, List.getElem_cons_succ]
          rw [ih, List.drop_drop, Nat.succ_mul, Nat.add_comm]

/-- The number written in the given bytes, least significant byte first. -/
def value : Bytes → Nat
  | [] => 0
  | b :: bytes => b.toNat + 256 * value bytes

/-- The `width` bytes of a number, least significant byte first. -/
def littleEndian : Nat → Nat → Bytes
  | 0, _ => []
  | width + 1, n => UInt8.ofNat (n % 256) :: littleEndian width (n / 256)

@[simp]
theorem length_littleEndian (width n : Nat) :
  (littleEndian width n).length = width
  := by
  induction width generalizing n with
  | zero => rfl
  | succ width ih => simp [littleEndian, ih]

theorem toNat_ofNat_mod (n : Nat) :
  (UInt8.ofNat (n % 256)).toNat = n % 256
  := UInt8.toNat_ofNat_of_lt (Nat.mod_lt n (by decide))

theorem value_littleEndian (width n : Nat) :
  value (littleEndian width n) = n % Nat.pow 256 width
  := by
  induction width generalizing n with
  | zero => exact (Nat.mod_one n).symm
  | succ width ih =>
      rw [littleEndian, value, ih, toNat_ofNat_mod]
      exact (Nat.mod_mul.symm.trans (congrArg (n % ·) (Nat.mul_comm _ _)))

/-- A number that fits into the width is read back. -/
theorem value_littleEndian_of_lt {width n : Nat} (h : n < Nat.pow 256 width) :
  value (littleEndian width n) = n
  := by
  rw [value_littleEndian, Nat.mod_eq_of_lt h]

/-- A word is read back from its two bytes. -/
@[simp]
theorem ofNat_value_littleEndian_word (word : UInt16) :
  UInt16.ofNat (value (littleEndian 2 word.toNat)) = word
  := by
  rw [value_littleEndian_of_lt word.toNat_lt, UInt16.ofNat_toNat]

/-- A double word is read back from its four bytes. -/
@[simp]
theorem ofNat_value_littleEndian_double (double : UInt32) :
  UInt32.ofNat (value (littleEndian 4 double.toNat)) = double
  := by
  rw [value_littleEndian_of_lt double.toNat_lt, UInt32.ofNat_toNat]

theorem littleEndian_value (bytes : Bytes) :
  littleEndian bytes.length (value bytes) = bytes
  := by
  induction bytes with
  | nil => rfl
  | cons b bytes ih =>
      have small : b.toNat < 256 := b.toNat_lt
      rw [List.length_cons, littleEndian, value]
      congr 1
      · rw [Nat.add_mul_mod_self_left, Nat.mod_eq_of_lt small, UInt8.ofNat_toNat]
      · rw [Nat.add_mul_div_left _ _ (by omega), Nat.div_eq_of_lt small, Nat.zero_add, ih]

end Bytes

end FatVolume
