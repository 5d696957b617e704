import FatVolume.Allocation.Table
import FatVolume.Program.Basic

/-!
# The table on disk

The table is kept in two copies.  The first is the one consulted; the mirror is written
together with it and read only to compare the two.
-/

namespace FatVolume.Allocation

/-- Refuses the number of a block past the end of the disk. -/
def checkBlock (block : Nat) : DiskM Unit :=
  if block < numBlocks then pure () else throw (.invalidBlock block)

/-- The block of a copy of the table in which the entry of `block` stands. -/
def entryBlock (start block : Nat) : Nat :=
  start + block * entrySize / blockSize

/-- The place in that block at which the entry of `block` starts. -/
def entryOffset (block : Nat) : Nat :=
  block * entrySize % blockSize

/-- The entry of a block. -/
def getEntry (block : Nat) : DiskM FatEntry := do
  checkBlock block
  let content ← DiskM.readBlock (entryBlock tableStart block)
  return FatEntry.ofWord
    (UInt16.ofNat (Bytes.value (content.slice (entryOffset block) entrySize)))

/-- Puts the entry of a block into the copy of the table that begins at `start`. -/
def setEntryIn (start block : Nat) (entry : FatEntry) : DiskM Unit := do
  let content ← DiskM.readBlock (entryBlock start block)
  DiskM.writeBlock (entryBlock start block)
    (content.splice (entryOffset block) (Bytes.littleEndian entrySize entry.toWord.toNat))

/-- Puts the entry of a block into both copies. -/
def setEntry (block : Nat) (entry : FatEntry) : DiskM Unit := do
  checkBlock block
  setEntryIn tableStart block entry
  setEntryIn mirrorStart block entry
  Program.log .trace .table s!"fat[{block}] = {entry.describe}"

/-- The copy of the table that begins at `start`. -/
def readTable (start : Nat) : DiskM Table := do
  let low ← DiskM.readBlock start
  let high ← DiskM.readBlock (start + 1)
  return Table.ofBytes (low.toList ++ high.toList)

/-- Whether the two copies are the same. -/
def mirrorsMatch : DiskM Bool := do
  let consulted ← readTable tableStart
  let mirror ← readTable mirrorStart
  return consulted == mirror

/-- Marks every block as free, in both copies. -/
def format : DiskM Unit :=
  (List.range tableSpan).forM fun i => do
    DiskM.writeBlock (tableStart + i) .zero
    DiskM.writeBlock (mirrorStart + i) .zero

/-- The number of free blocks. -/
def countFree : DiskM Nat := do
  return (← readTable tableStart).countFree

/-- The first of the first `count` free blocks in a row. -/
def findRun (count : Nat) : DiskM (Option Nat) := do
  return (← readTable tableStart).firstFit count

end FatVolume.Allocation
