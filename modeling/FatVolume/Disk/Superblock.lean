import FatVolume.Disk.Block
import FatVolume.Text.Utf8

/-!
# The superblock

The superblock describes a volume: a text for people, where the root directory and the
data start, a magic number, and the size and number of blocks.  A volume is accepted when
the numbers are those of the layout; the text is free.
-/

namespace FatVolume

/-- The content of the block that describes a volume. -/
structure Superblock where
  information : String
  root : UInt16
  dataStart : UInt16
  magic : UInt32
  blockSize : UInt32
  numBlocks : UInt32
  deriving DecidableEq, Repr

namespace Superblock

/-- The number by which a volume is recognised. -/
def magicNumber : UInt32 := 0x474C554F

/-- The width of the field of the text. -/
abbrev informationSize : Nat := 200

/-- The text of a fresh volume. -/
def standardInformation : String :=
  s!"Disk Size = {volumeSize / 1024}KB, Block Size = {FatVolume.blockSize}B, Block0 in 0, "
    ++ s!"FAT0/1 in {tableStart}/{mirrorStart}, Root Directory in {rootStart}"

/-- The superblock of a fresh volume. -/
def standard : Superblock where
  information := standardInformation
  root := UInt16.ofNat rootStart
  dataStart := UInt16.ofNat FatVolume.dataStart
  magic := magicNumber
  blockSize := UInt32.ofNat FatVolume.blockSize
  numBlocks := UInt32.ofNat FatVolume.numBlocks

instance : Inhabited Superblock := ⟨standard⟩

/-- Whether the numbers are those of the layout. -/
def isValid (s : Superblock) : Bool :=
  s.magic == standard.magic && s.blockSize == standard.blockSize
    && s.numBlocks == standard.numBlocks && s.root == standard.root
    && s.dataStart == standard.dataStart

/-- The bytes of a superblock.  The text is cut so that a zero follows it. -/
def toBytes (s : Superblock) : Bytes :=
  (Bytes.padded informationSize ((Utf8.encode s.information).take (informationSize - 1))).toList
    ++ Bytes.littleEndian 2 s.root.toNat ++ Bytes.littleEndian 2 s.dataStart.toNat
    ++ Bytes.littleEndian 4 s.magic.toNat ++ Bytes.littleEndian 4 s.blockSize.toNat
    ++ Bytes.littleEndian 4 s.numBlocks.toNat

/-- The superblock in the given bytes. -/
def ofBytes (bytes : Bytes) : Superblock where
  information := Utf8.decodeLossy (Bytes.trimZeros (bytes.take informationSize))
  root := UInt16.ofNat (Bytes.value ((bytes.drop 200).take 2))
  dataStart := UInt16.ofNat (Bytes.value ((bytes.drop 202).take 2))
  magic := UInt32.ofNat (Bytes.value ((bytes.drop 204).take 4))
  blockSize := UInt32.ofNat (Bytes.value ((bytes.drop 208).take 4))
  numBlocks := UInt32.ofNat (Bytes.value ((bytes.drop 212).take 4))

/-- The block that holds a superblock. -/
def toBlock (s : Superblock) : Block :=
  Block.ofBytes s.toBytes

/-- The superblock that a block holds. -/
def ofBlock (b : Block) : Superblock :=
  ofBytes b.toList

theorem length_toBytes (s : Superblock) :
  s.toBytes.length = informationSize + 16
  := by
  simp [toBytes]

end Superblock

end FatVolume
