import FatVolume.Proofs.Formatting
import FatVolume.Proofs.GuardedAllocation
import FatVolume.Proofs.GuardedRecords
import FatVolume.Tree.Lookup
import FatVolume.Volume

/-!
# Guarded directories

Directories, paths and the formatting of volumes with guards.  The places of entries come from
chains, and so they are on the disk, whatever the table says.
-/

namespace FatVolume

/-! ### Directories with guards -/

namespace Guarded

namespace Directory

/-- The slots of a block with the given content. -/
def slotsIn (block : Nat) (content : Block) : Except Fault (List Entry) :=
  (List.range slotsPerBlock).mapM fun slot => do
    return ⟨⟨block, slot⟩, ← recordIn content slot⟩

/-- All slots of the directory that starts at block `first`. -/
def slots (first : Nat) : GuardedDisk (List Entry) := do
  let blocks ← Allocation.chain first
  let parts ← blocks.mapM fun block => do slotsIn block (← readBlock block)
  return parts.flatten

/-- The occupied slots of a directory. -/
def entries (first : Nat) : GuardedDisk (List Entry) := do
  return (← slots first).filter (·.record.occupied)

/-- The entry of the given name in a directory. -/
def lookup (first : Nat) (name : String) : GuardedDisk Entry := do
  Program.log .trace .directory
    s!"looking up {Text.quoted name} in directory at block {first}"
  match (← entries first).find? (·.record.isNamed name) with
  | some entry => return entry
  | none => throwThe Error .notFound

/-- Whether a directory holds nothing but itself and its parent. -/
def isEmpty (first : Nat) : GuardedDisk Bool := do
  return (← entries first).all (·.record.isDot)

/-- Puts the entries of a directory for itself and its parent into its first two slots. -/
def begin (now : Timestamp) (directory parent : Record) : GuardedDisk Unit := do
  let self ← Record.new Name.dot .directory directory.first directory.length now
  let up ← Record.new Name.dotdot .directory parent.first parent.length now
  writeRecord ⟨directory.first.toNat, 0⟩ self
  writeRecord ⟨directory.first.toNat, 1⟩ up

/-- Creates an entry in the directory `parent`. -/
def create (now : Timestamp) (parent : Record) (name : String) (kind : Kind) :
    GuardedDisk Entry := do
  if !parent.isDirectory then throwThe Error .notDirectory
  let _ ← (DiskM.ofExcept (Name.split name kind) : DiskM _)
  let all ← slots parent.first.toNat
  if all.any (·.record.isNamed name) then throwThe Error .alreadyExists
  let some place := all.find? (!·.record.occupied) | throwThe Error .directoryFull
  let location := place.location
  let some first ← Allocation.findRun 1 | throwThe Error .outOfSpace
  Allocation.allocate (UInt16.ofNat first) 1
  writeBlock first (List.replicate blockSize 0)
  let record ← Record.new name kind (UInt16.ofNat first) (Directory.initialLength kind) now
  if kind = .directory then begin now record parent
  writeRecord location record
  Program.log .debug .directory
    (s!"created {Text.quoted name} at block {location.block} slot {location.slot}, "
      ++ s!"data at block {first}")
  return ⟨location, record⟩

/-- Gives up the slot of an entry and frees its chain. -/
def remove (entry : Entry) : GuardedDisk Unit := do
  writeRecord entry.location .blank
  Allocation.free entry.record.first.toNat
  Program.log .debug .directory
    (s!"removed {Text.quoted entry.record.fullName} from block {entry.location.block} "
      ++ s!"slot {entry.location.slot}")

end Directory

namespace Path

/-- The entry of a segment in the directory `reached`. -/
def descend (reached : Entry) (segment : String) : GuardedDisk Entry :=
  if reached.record.isDirectory then Directory.lookup reached.record.first.toNat segment
  else throwThe Error .notFound

/-- The entry of an absolute path in the tree whose root directory starts at block `root`. -/
def lookup (root : Nat) (path : String) : GuardedDisk Entry := do
  let place : Location := ⟨root, 0⟩
  let record ← Directory.readRecord place
  (Path.segments path).foldlM descend ⟨place, record⟩

end Path

namespace Volume

/-- The superblock of a disk, if the disk holds a volume. -/
def readSuperblock : GuardedDisk Superblock := do
  let content ← readBlock superblockAt
  let superblock ← Superblock.ofBytes content.toList
  if superblock.isValid then return superblock else throwThe Error .invalidSuperblock

/-- Puts a superblock on a disk. -/
def writeSuperblock (superblock : Superblock) : GuardedDisk Unit := do
  writeBlock superblockAt (← Superblock.toBytes superblock (List.replicate blockSize 0))

/-- Makes a fresh volume of a disk. -/
def format (now : Timestamp) : GuardedDisk Unit := do
  writeSuperblock .standard
  Allocation.format
  (List.range reservedSpan).forM fun block => Allocation.allocate (UInt16.ofNat block) 1
  let some root ← Allocation.findRun rootSpan | throwThe Error .outOfSpace
  if root ≠ rootStart then throwThe Error (.corrupted (.rootMisplaced root))
  Allocation.allocate (UInt16.ofNat root) (UInt64.ofNat rootSpan)
  let stop ← add 16 root rootSpan
  (List.range' root (stop - root)).forM fun block => writeBlock block (List.replicate blockSize 0)
  let record ←
    Record.new Name.dot .directory (UInt16.ofNat root) (UInt32.ofNat Volume.rootLength) now
  Directory.begin now record record
  Program.log .info .session s!"formatted disk: {numBlocks} blocks of {blockSize} bytes"

end Volume

end Guarded

/-! ### The guards hold -/

namespace Directory

open DiskM

theorem slotsIn_guarded (block : Nat) (content : Block) :
  Guarded.Directory.slotsIn block content = .ok (slotsIn block content)
  := by
  rw [slotsIn_eq]
  apply Guarded.mapM_eq_ok
  intro slot hslot
  rw [recordIn_guarded (List.mem_range.mp hslot)]
  rfl

/-- The entries all have their places on the disk. -/
def OnDisk (entries : List Entry) : Prop :=
  ∀ e ∈ entries, e.location.block < numBlocks

theorem faultless_slots (first : Nat) :
  Faultless (Guarded.Directory.slots first) (slots first) OnDisk
  := by
  apply (Allocation.faultless_chain first).bind
  intro blocks listed
  apply (faultless_mapM (R := OnDisk) _).bind
  · intro parts onDisk
    apply faultless_pure
    intro e he
    obtain ⟨part, hpart, he⟩ := List.mem_flatten.mp he
    exact onDisk part hpart e he
  · intro block hblock
    apply (faultless_readBlock (listed.lt block hblock)).bind
    intro content _
    rw [slotsIn_guarded]
    apply faultless_pure
    intro e he
    rw [slotsIn_eq] at he
    obtain ⟨slot, -, rfl⟩ := List.mem_map.mp he
    exact listed.lt block hblock

theorem faultless_entries (first : Nat) :
  Faultless (Guarded.Directory.entries first) (entries first) OnDisk
  := by
  apply (faultless_slots first).bind
  intro all onDisk
  apply faultless_pure
  exact fun e he => onDisk e (List.mem_filter.mp he).1

theorem faultless_lookup (first : Nat) (name : String) :
  Faultless (Guarded.Directory.lookup first name) (lookup first name) fun e =>
    e.location.block < numBlocks
  := by
  apply (faultless_lift (returns_true _)).bind
  intro _ _
  apply (faultless_entries first).bind
  intro entries onDisk
  cases hfind : entries.find? (·.record.isNamed name) with
  | none => exact faultless_throw _
  | some e => exact faultless_pure (onDisk e (List.mem_of_find?_eq_some hfind))

theorem faultless_isEmpty (first : Nat) :
  Faultless (Guarded.Directory.isEmpty first) (isEmpty first) fun _ => True
  := by
  apply (faultless_entries first).bind
  exact fun _ _ => faultless_pure trivial

theorem faultless_begin (now : Timestamp) {directory : Record} (parent : Record)
    (h : directory.first.toNat < numBlocks) :
  Faultless (Guarded.Directory.begin now directory parent) (begin now directory parent)
    fun _ => True
  := by
  apply (Record.faultless_new _ _ _ _ now).bind
  intro self _
  apply (Record.faultless_new _ _ _ _ now).bind
  intro up _
  apply (faultless_writeRecord h self).bind
  exact fun _ _ => faultless_writeRecord h up

theorem faultless_create (now : Timestamp) (parent : Record) (name : String) (kind : Kind) :
  Faultless (Guarded.Directory.create now parent name kind) (create now parent name kind)
    fun _ => True
  := by
  apply faultless_unless
  intro _
  apply (faultless_lift (returns_true _)).bind
  intro _ _
  apply (faultless_slots _).bind
  intro all onDisk
  apply faultless_unless
  intro _
  cases hplace : all.find? (!·.record.occupied) with
  | none => exact faultless_throw _
  | some place =>
      apply (Allocation.faultless_findRun Nat.one_pos).bind
      intro found inside
      cases found with
      | none => exact faultless_throw _
      | some first =>
          have inside := inside first rfl
          have small := Nat.add_lt_add_right (UInt16.ofNat first).toNat_lt (1 : UInt64).toNat
          apply (Allocation.faultless_allocate (small.trans (by decide))).bind
          intro _ _
          apply (faultless_writeBlock_zero inside).bind
          intro _ _
          apply (Record.faultless_new _ _ _ _ now).bind
          intro record hfirst
          have begins : record.first.toNat < numBlocks := by
            rw [hfirst, UInt16.toNat_ofNat']
            exact (Nat.mod_le _ _).trans_lt inside
          apply faultless_when fun _ => faultless_begin now parent begins
          apply (faultless_writeRecord
            (onDisk place (List.mem_of_find?_eq_some hplace)) record).bind
          intro _ _
          apply (faultless_lift (returns_true _)).bind
          exact fun _ _ => faultless_pure trivial

theorem faultless_remove {e : Entry} (h : e.location.block < numBlocks) :
  Faultless (Guarded.Directory.remove e) (remove e) fun _ => True
  := by
  apply (faultless_writeRecord h .blank).bind
  intro _ _
  apply (Allocation.faultless_free _).bind
  exact fun _ _ => faultless_lift (returns_true _)

end Directory

namespace Path

open DiskM

theorem faultless_lookup {root : Nat} (h : root < numBlocks) (path : String) :
  Faultless (Guarded.Path.lookup root path) (lookup root path) fun e =>
    e.location.block < numBlocks
  := by
  have place : (⟨root, 0⟩ : Location).block < numBlocks := h
  apply (Directory.faultless_readRecord place).bind
  intro record _
  refine faultless_foldlM (R := fun e : Entry => e.location.block < numBlocks) ?_ place
  intro reached segment _
  apply faultless_ite
  · exact fun _ => Directory.faultless_lookup _ segment
  · exact fun _ => faultless_throw _

end Path

namespace Volume

open DiskM Guarded

theorem faultless_readSuperblock :
  Faultless Guarded.Volume.readSuperblock readSuperblock fun superblock =>
    superblock.root.toNat < numBlocks
  := by
  apply (faultless_readBlock (by decide)).bind
  intro content _
  apply Faultless.guard (Superblock.ofBytes_guarded Vector.length_toList)
  apply faultless_ite
  · intro valid
    exact faultless_pure (Superblock.toNat_root_lt valid)
  · exact fun _ => faultless_throw _

theorem faultless_writeSuperblock (superblock : Superblock) :
  Faultless (Guarded.Volume.writeSuperblock superblock) (writeSuperblock superblock)
    fun _ => True
  := by
  apply Faultless.guard (Superblock.toBytes_guarded superblock List.length_replicate)
  exact faultless_writeBlock_toList (by decide) superblock.toBlock

theorem faultless_format (now : Timestamp) :
  Faultless (Guarded.Volume.format now) (format now) fun _ => True
  := by
  apply (faultless_writeSuperblock .standard).bind
  intro _ _
  apply Allocation.faultless_format.bind
  intro _ _
  have small (first : UInt16) {count : UInt64} (hcount : count.toNat ≤ 2) :
      first.toNat + count.toNat < 2 ^ wordSize :=
    (Nat.add_lt_add_of_lt_of_le first.toNat_lt hcount).trans (by decide)
  apply (faultless_forM fun _ _ => Allocation.faultless_allocate (small _ (by decide))).bind
  intro _ _
  apply (Allocation.faultless_findRun (by decide)).bind
  intro found inside
  cases found with
  | none => exact faultless_throw _
  | some root =>
      have inside : root + rootSpan ≤ 1024 := inside root rfl
      have erased (block : Nat) (hblock : block ∈ List.range' root rootSpan) :=
        faultless_writeBlock_zero
          ((List.mem_range'_1.mp hblock).2.trans_le inside : block < numBlocks)
      have begins : (UInt16.ofNat root).toNat < numBlocks := by
        rw [UInt16.toNat_ofNat']
        exact (Nat.mod_le _ _).trans_lt (by unfold rootSpan numBlocks at *; omega)
      apply faultless_unless
      intro _
      apply (Allocation.faultless_allocate (small _ (by decide))).bind
      intro _ _
      apply Faultless.guard (add_eq (by omega))
      rw [Nat.add_sub_cancel_left]
      apply (faultless_forM erased).bind
      intro _ _
      apply (Record.faultless_new _ _ _ _ now).bind
      intro record hfirst
      apply (Directory.faultless_begin now record (by rw [hfirst]; exact begins)).bind
      exact fun _ _ => faultless_lift (returns_true _)

end Volume

end FatVolume
