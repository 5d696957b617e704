import FatVolume.Allocation.Chain
import FatVolume.Session.OpenTable
import FatVolume.Session.WriteMode

/-!
# Reading and writing open files

The content of a file is the beginning of the concatenated blocks of its chain, as long as
its record says.  Reading takes a stretch of it from the cursor on.  Writing reads the whole
content, changes it, grows the chain where it is too short, puts the content back over it
and cuts what is left.
-/

namespace FatVolume.OpenFile

/-- The bytes from `offset` on of the content of length `length` in the chain that starts at
`first`, at most `count` of them. -/
def readRange (first length offset count : Nat) : DiskM Bytes := do
  let available := min count (length - offset)
  if available = 0 then return []
  let start := offset % blockSize
  let span := (start + available + (blockSize - 1)) / blockSize
  let blocks := ((← Allocation.chain first).drop (offset / blockSize)).take span
  let parts ← blocks.mapM DiskM.readBlock
  if blocks.length < span then throw (.corrupted (.chainTooShort first))
  return ((parts.flatMap Vector.toList).drop start).take available

/-- Reads at most `count` bytes from the cursor on and moves the cursor past them. -/
def read (file : OpenFile) (count : Nat) : DiskM (Bytes × OpenFile) := do
  if file.record.isDirectory then throw .notFile
  let bytes ←
    readRange file.record.first.toNat file.record.length.toNat file.cursor count
  return (bytes, { file with cursor := file.cursor + bytes.length })

/-- Lets `count` free blocks follow `final`, the last of the given blocks of a chain, and
returns all blocks. -/
def grow (blocks : List Nat) (final : Nat) : (count : Nat) → DiskM (List Nat)
  | 0 => return blocks
  | count + 1 => do
      let fresh ← Allocation.append final
      grow (blocks ++ [fresh]) fresh count

/-- The first `span` blocks of a content, zeros after its end. -/
def toBlocks (span : Nat) (content : Bytes) : List Block :=
  (Bytes.chunks blockSize span content).map Block.ofBytes

/-- Puts a content over the chain that starts at `first`, which becomes as long as the
content needs.  Fails before anything is written if too few blocks are free. -/
def store (first : Nat) (content : Bytes) : DiskM Unit := do
  let blocks ← Allocation.chain first
  let needed := blocksFor content.length
  let missing := needed - blocks.length
  if 0 < missing then
    if (← Allocation.countFree) < missing then throw .outOfSpace
  let all ← grow blocks (blocks.getLastD first) missing
  ((all.take needed).zip (toBlocks needed content)).forM fun (block, data) =>
    DiskM.writeBlock block data
  if needed < all.length then Allocation.truncate first needed

/-- Writes `new` as `mode` says and moves the cursor past the bytes written. -/
def write (file : OpenFile) (new : Bytes) (mode : WriteMode) : DiskM OpenFile := do
  if file.record.isDirectory then throw .notFile
  let first := file.record.first.toNat
  let length := file.record.length.toNat
  let old ← readRange first length 0 length
  let (content, position) := mode.apply old new file.cursor
  store first content
  Program.log .debug .content
    (s!"wrote {new.length} bytes to {file.path} ({mode.describe}), "
      ++ s!"length {length} -> {content.length}")
  return { file with
    record := { file.record with length := UInt32.ofNat content.length }
    cursor := position
    dirty := true }

@[simp]
theorem length_toBlocks (span : Nat) (content : Bytes) :
  (toBlocks span content).length = span
  := by
  simp [toBlocks]

end FatVolume.OpenFile
