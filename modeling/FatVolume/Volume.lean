import FatVolume.Disk.Superblock
import FatVolume.Tree.Directory

/-!
# Volumes

A disk becomes a volume by formatting: superblock, both copies of the allocation table with
the blocks of the volume itself taken, and a root directory that holds itself twice, as
itself and as its parent.
-/

namespace FatVolume.Volume

/-- The superblock of a disk, if the disk holds a volume. -/
def readSuperblock : DiskM Superblock := do
  let superblock := Superblock.ofBlock (← DiskM.readBlock superblockAt)
  if superblock.isValid then return superblock else throw .invalidSuperblock

/-- Puts a superblock on a disk. -/
def writeSuperblock (superblock : Superblock) : DiskM Unit :=
  DiskM.writeBlock superblockAt superblock.toBlock

/-- The length of the root directory in bytes. -/
abbrev rootLength : Nat := rootSpan * blockSize

/-- Makes a fresh volume of a disk. -/
def format (now : Timestamp) : DiskM Unit := do
  writeSuperblock .standard
  Allocation.format
  (List.range reservedSpan).forM fun block => Allocation.allocate (UInt16.ofNat block) 1
  let some root ← Allocation.findRun rootSpan | throw .outOfSpace
  if root ≠ rootStart then throw (.corrupted (.rootMisplaced root))
  Allocation.allocate (UInt16.ofNat root) (UInt64.ofNat rootSpan)
  (List.range' root rootSpan).forM (DiskM.writeBlock · .zero)
  let record ← DiskM.ofExcept
    (Record.new Name.dot .directory (UInt16.ofNat root) (UInt32.ofNat rootLength) now)
  Directory.begin now record record
  Program.log .info .session s!"formatted disk: {numBlocks} blocks of {blockSize} bytes"

end FatVolume.Volume
