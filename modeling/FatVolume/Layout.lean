/-!
# The layout of a volume

A volume is `numBlocks` blocks of `blockSize` bytes.  Block `superblockAt` describes the
volume, the two copies of the allocation table start at `tableStart` and `mirrorStart`,
the root directory occupies `rootSpan` blocks from `rootStart` on, and the blocks from
`dataStart` on belong to files and directories.  A directory block is divided into
`slotsPerBlock` slots of `recordSize` bytes.
-/

namespace FatVolume

/-- The number of bytes in a block. -/
abbrev blockSize : Nat := 1024

/-- The number of blocks of a volume. -/
abbrev numBlocks : Nat := 1024

/-- The number of bytes of a volume. -/
abbrev volumeSize : Nat := blockSize * numBlocks

/-- The block that describes the volume. -/
abbrev superblockAt : Nat := 0

/-- The first block of the consulted copy of the allocation table. -/
abbrev tableStart : Nat := 1

/-- The first block of the mirror of the allocation table. -/
abbrev mirrorStart : Nat := 3

/-- The number of blocks of one copy of the allocation table. -/
abbrev tableSpan : Nat := 2

/-- The number of bytes of one entry of the allocation table. -/
abbrev entrySize : Nat := 2

/-- The first block of the root directory. -/
abbrev rootStart : Nat := 5

/-- The number of blocks of the root directory. -/
abbrev rootSpan : Nat := 2

/-- The first block that files and directories may own. -/
abbrev dataStart : Nat := rootStart + rootSpan

/-- The number of blocks before the root directory; they belong to the volume itself. -/
abbrev reservedSpan : Nat := rootStart

/-- The number of bytes of a directory slot. -/
abbrev recordSize : Nat := 32

/-- The number of slots of a directory block. -/
abbrev slotsPerBlock : Nat := blockSize / recordSize

/-- The number of files and directories that can be open at once. -/
abbrev maxOpen : Nat := 10

/-- The number of blocks that hold `length` bytes; an empty file holds one block too. -/
def blocksFor (length : Nat) : Nat :=
  max 1 ((length + (blockSize - 1)) / blockSize)

theorem blocksFor_pos (length : Nat) :
  0 < blocksFor length
  := by
  unfold blocksFor
  omega

theorem blocksFor_mono {length longer : Nat} (h : length ≤ longer) :
  blocksFor length ≤ blocksFor longer
  := by
  unfold blocksFor blockSize
  omega

/-- The bytes fit into the blocks counted for them. -/
theorem le_blocksFor_mul (length : Nat) :
  length ≤ blocksFor length * blockSize
  := by
  unfold blocksFor blockSize
  omega

end FatVolume
