import FatVolume.Bytes
import FatVolume.Layout

/-!
# Blocks

A block is what a device reads and writes as a whole.  Its content is reached through
`Block.slice`, the bytes of a stretch, and changed through `Block.splice`, which puts bytes
over a stretch and keeps the others.
-/

namespace FatVolume

/-- The content of a block. -/
abbrev Block : Type := Vector UInt8 blockSize

namespace Block

/-- The block that starts with the given bytes and is zero after them. -/
def ofBytes (bytes : Bytes) : Block :=
  Bytes.padded blockSize bytes

/-- The block of zeros. -/
def zero : Block :=
  Vector.replicate blockSize 0

/-- The `count` bytes from `start` on, as far as the block reaches. -/
def slice (b : Block) (start count : Nat) : Bytes :=
  (b.toList.drop start).take count

/-- The block with the given bytes in the places from `start` on. -/
def splice (b : Block) (start : Nat) (bytes : Bytes) : Block :=
  ofBytes (b.toList.take start ++ bytes ++ b.toList.drop (start + bytes.length))

instance : Inhabited Block := ⟨zero⟩

theorem toList_splice {b : Block} {start : Nat} {bytes : Bytes}
    (h : start + bytes.length ≤ blockSize) :
  (b.splice start bytes).toList
    = b.toList.take start ++ bytes ++ b.toList.drop (start + bytes.length)
  := by
  apply Bytes.toList_padded_of_length
  simp
  omega

/-- What was put over a stretch is read from it. -/
theorem slice_splice_self {b : Block} {start : Nat} {bytes : Bytes}
    (h : start + bytes.length ≤ blockSize) :
  (b.splice start bytes).slice start bytes.length = bytes
  := by
  rw [slice, toList_splice h, List.append_assoc, List.drop_append_of_le_length (by simp; omega)]
  rw [List.drop_take, Nat.sub_self, List.take_zero, List.nil_append]
  exact List.take_left

end Block

end FatVolume
