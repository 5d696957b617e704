import FatVolume.Disk.Block
import FatVolume.Error

/-!
# Images

An image is the content of a whole disk, block by block.  `Image.read` and `Image.write`
are the calls of a device that holds the image and does not fail: they refuse a block
number past the end first and a buffer of another size than a block next.
-/

namespace FatVolume

/-- The content of a disk. -/
abbrev Image : Type := Vector Block numBlocks

namespace Image

/-- The image of a disk never written to. -/
def zero : Image :=
  Vector.replicate numBlocks Block.zero

instance : Inhabited Image := ⟨zero⟩

/-- The content of a block, for a buffer of the given size. -/
def read (image : Image) (block size : Nat) : Except Error Block :=
  if h : block < numBlocks then
    if size = blockSize then .ok image[block] else .error .badBufferSize
  else .error (.invalidBlock block)

/-- The image with the content of the buffer in a block. -/
def write (image : Image) (block : Nat) (buffer : Array UInt8) : Except Error Image :=
  if h : block < numBlocks then
    if size : buffer.size = blockSize then .ok (image.set block ⟨buffer, size⟩)
    else .error .badBufferSize
  else .error (.invalidBlock block)

/-- The bytes of an image in order. -/
def toBytes (image : Image) : Array UInt8 :=
  image.toArray.flatMap Vector.toArray

/-- The image that starts with the given bytes and is zero after them. -/
def ofBytes (bytes : Array UInt8) : Image :=
  Vector.ofFn fun i =>
    Block.ofBytes (bytes.extract (i * blockSize) (i * blockSize + blockSize)).toList

theorem read_of_lt (image : Image) {block : Nat} (h : block < numBlocks) :
  image.read block blockSize = .ok image[block]
  := by
  simp [read, h]

theorem write_of_lt (image : Image) {block : Nat} (h : block < numBlocks) (data : Block) :
  image.write block data.toArray = .ok (image.set block data)
  := by
  simp [write, h]

/-- Reading gives what was last written to the block, and to other blocks nothing happens. -/
theorem read_set (image : Image) {block other : Nat} (h : block < numBlocks)
    (ho : other < numBlocks) (data : Block) :
  Image.read (image.set block data) other blockSize
    = .ok (if block = other then data else image[other])
  := by
  simp [read, ho, Vector.getElem_set]

end Image

end FatVolume
