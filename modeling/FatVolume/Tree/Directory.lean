import FatVolume.Allocation.Chain
import FatVolume.Text.Quoted
import FatVolume.Tree.Record

/-!
# Directories

The content of a directory is a chain of blocks divided into slots.  The first two slots
hold the directory itself and its parent; every further occupied slot holds an entry of the
directory.  An entry is created in the first slot that is not occupied.
-/

namespace FatVolume.Directory

/-- Refuses a location whose slot no block has. -/
def checkLocation (location : Location) : DiskM Unit :=
  if location.slot < slotsPerBlock then pure ()
  else throw (.corrupted (.slotOutOfBlock location.slot))

/-- The record that a block holds in a slot. -/
def recordIn (content : Block) (slot : Nat) : Record :=
  Record.ofBytes (content.slice (slot * recordSize) recordSize)

/-- The record at a location. -/
def readRecord (location : Location) : DiskM Record := do
  checkLocation location
  return recordIn (← DiskM.readBlock location.block) location.slot

/-- Puts a record at a location. -/
def writeRecord (location : Location) (record : Record) : DiskM Unit := do
  checkLocation location
  let content ← DiskM.readBlock location.block
  DiskM.writeBlock location.block (content.splice (location.slot * recordSize) record.toBytes)

/-- The slots of a block with the given content. -/
def slotsIn (block : Nat) (content : Block) : List Entry :=
  (Bytes.chunks recordSize slotsPerBlock content.toList).mapIdx fun slot bytes =>
    ⟨⟨block, slot⟩, Record.ofBytes bytes⟩

/-- The slots of a block hold the records read from them one by one. -/
theorem slotsIn_eq (block : Nat) (content : Block) :
  slotsIn block content
    = (List.range slotsPerBlock).map fun slot => ⟨⟨block, slot⟩, recordIn content slot⟩
  := by
  apply List.ext_getElem
  · simp [slotsIn]
  · intro slot h h'
    simp [slotsIn, Bytes.getElem_chunks, recordIn, Block.slice]

/-- All slots of the directory that starts at block `first`. -/
def slots (first : Nat) : DiskM (List Entry) := do
  let blocks ← Allocation.chain first
  let parts ← blocks.mapM fun block => return slotsIn block (← DiskM.readBlock block)
  return parts.flatten

/-- The occupied slots of a directory, those of itself and its parent included. -/
def entries (first : Nat) : DiskM (List Entry) := do
  return (← slots first).filter (·.record.occupied)

/-- The entry of the given name in a directory. -/
def lookup (first : Nat) (name : String) : DiskM Entry := do
  Program.log .trace .directory
    s!"looking up {Text.quoted name} in directory at block {first}"
  match (← entries first).find? (·.record.isNamed name) with
  | some entry => return entry
  | none => throw .notFound

/-- Whether a directory holds nothing but itself and its parent. -/
def isEmpty (first : Nat) : DiskM Bool := do
  return (← entries first).all (·.record.isDot)

/-- Puts the entries of a directory for itself and its parent into its first two slots. -/
def begin (now : Timestamp) (directory parent : Record) : DiskM Unit := do
  let self ← DiskM.ofExcept (Record.new Name.dot .directory directory.first directory.length now)
  let up ← DiskM.ofExcept (Record.new Name.dotdot .directory parent.first parent.length now)
  writeRecord ⟨directory.first.toNat, 0⟩ self
  writeRecord ⟨directory.first.toNat, 1⟩ up

/-- The length of a new entry: a directory fills its block, a file is empty. -/
def initialLength : Kind → UInt32
  | .directory => UInt32.ofNat blockSize
  | .file => 0

/-- Creates an entry in the directory `parent`.  The slot and the block of the entry are
found before anything is written. -/
def create (now : Timestamp) (parent : Record) (name : String) (kind : Kind) :
    DiskM Entry := do
  if !parent.isDirectory then throw .notDirectory
  let _ ← DiskM.ofExcept (Name.split name kind)
  let all ← slots parent.first.toNat
  if all.any (·.record.isNamed name) then throw .alreadyExists
  let some place := all.find? (!·.record.occupied) | throw .directoryFull
  let location := place.location
  let some first ← Allocation.findRun 1 | throw .outOfSpace
  Allocation.allocate (UInt16.ofNat first) 1
  DiskM.writeBlock first .zero
  let record ←
    DiskM.ofExcept (Record.new name kind (UInt16.ofNat first) (initialLength kind) now)
  if kind = .directory then begin now record parent
  writeRecord location record
  Program.log .debug .directory
    (s!"created {Text.quoted name} at block {location.block} slot {location.slot}, "
      ++ s!"data at block {first}")
  return ⟨location, record⟩

/-- Gives up the slot of an entry and frees its chain. -/
def remove (entry : Entry) : DiskM Unit := do
  writeRecord entry.location .blank
  Allocation.free entry.record.first.toNat
  Program.log .debug .directory
    (s!"removed {Text.quoted entry.record.fullName} from block {entry.location.block} "
      ++ s!"slot {entry.location.slot}")

end FatVolume.Directory
