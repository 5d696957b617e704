import FatVolume.Proofs.Borrowing
import FatVolume.Proofs.GuardedDirectories
import FatVolume.Proofs.GuardedTransfer
import FatVolume.Proofs.SessionFaults
import FatVolume.Session.Operation

/-!
# Guarded sessions

The operations of a session with guards.  In a bounded session the guards hold: the root directory
is on the disk, so what is looked up has its place there, and reading and writing move cursors only
as far as lengths go.
-/

namespace FatVolume

/-! ### Operations with guards -/

namespace Guarded

namespace OpenTable

/-- The table with a file in a slot. -/
def put (table : OpenTable) (handle : Handle) (file : OpenFile) : Except Fault OpenTable :=
  if handle < maxOpen then return table.set handle (some file) else throw .outOfRange

/-- The table with nothing but the root directory open. -/
def ofRoot (root : OpenFile) : Except Fault OpenTable :=
  put ⟨Vector.replicate maxOpen none, OpenTable.rootHandle⟩ OpenTable.rootHandle root

/-- Puts a file into the first slot that is not occupied. -/
def insert (table : OpenTable) (file : OpenFile) :
    Except Fault (Except Error (Handle × OpenTable)) :=
  match table.slots.toList.findIdx? Option.isNone with
  | some handle => return .ok (handle, ← put table handle file)
  | none => return .error .openTableFull

end OpenTable

namespace Session

/-- The open file of the root directory of a volume. -/
def openRoot (superblock : Superblock) : GuardedDisk OpenFile := do
  let root ← Path.lookup superblock.root.toNat Path.root
  return { record := root.record, path := Path.root }

/-- Begins a session on the volume of the disk. -/
def mount (clock : Timestamp) : GuardedDisk Session := do
  let superblock ← Volume.readSuperblock
  let root ← openRoot superblock
  Program.log .info .session s!"mounted: {superblock.information}"
  return { superblock, openFiles := ← OpenTable.ofRoot root, clock }

/-- Makes a fresh volume of the disk in a session. -/
def reformat (full : Bool) : GuardedSession Unit := do
  if full then
    (List.range numBlocks).forM fun block =>
      (writeBlock block (List.replicate blockSize 0) : GuardedDisk Unit)
  Volume.format (← get).clock
  let superblock ← Volume.readSuperblock
  modify fun session => { session with superblock }
  let root ← openRoot superblock
  let openFiles ← OpenTable.ofRoot root
  modify fun session => { session with openFiles, borrowed := none }
  if full then DiskM.flush

/-- The entry of an absolute path. -/
def entryAt (path : String) : GuardedSession Entry := do
  Path.lookup (← get).superblock.root.toNat path

/-- The entry of a path. -/
def lookup (path : String) : GuardedSession Entry := do
  entryAt ((← get).absolute path)

/-- Creates an entry at a path. -/
def createAt (path : String) (kind : Kind) : GuardedSession Entry := do
  let session ← get
  match Path.splitParent (session.absolute path) with
  | .error _ => throwThe Error .alreadyExists
  | .ok (parentPath, name) =>
      let parent ← entryAt parentPath
      if !parent.record.isDirectory then throwThe Error .notDirectory
      Directory.create session.clock parent.record name kind

/-- Removes an empty directory that is not open. -/
def removeDirectory (path : String) : GuardedSession Unit := do
  let session ← get
  let place := session.absolute path
  if place == Path.root || Path.endsInDot path then throwThe Error .notPermitted
  let entry ← entryAt place
  if !entry.record.isDirectory then throwThe Error .notDirectory
  if session.openFiles.isBusy place then throwThe Error .busy
  if !(← Directory.isEmpty entry.record.first.toNat) then throwThe Error .notEmpty
  Directory.remove entry

/-- Removes a file that is not open. -/
def removeFile (path : String) : GuardedSession Unit := do
  let session ← get
  if Path.endsInDot path then throwThe Error .notPermitted
  let place := session.absolute path
  let entry ← entryAt place
  if entry.record.isDirectory then throwThe Error .notFile
  if session.openFiles.isBusy place then throwThe Error .busy
  Directory.remove entry

/-- The entries of a directory, or the entry itself of a file. -/
def list (path : Option String) : GuardedSession (List Entry) := do
  let session ← get
  let place := session.absolute (path.getD Name.dot)
  let target ← entryAt place
  if !target.record.isDirectory then return [session.withWorkingCopy place target]
  let entries ← Directory.entries target.record.first.toNat
  return entries.map fun entry =>
    if entry.record.isDot then entry
    else session.withWorkingCopy (Path.resolve place entry.record.fullName) entry

/-- Opens a file or directory. -/
def openPath (path : String) : GuardedSession Handle := do
  let session ← get
  let place := session.absolute path
  if (session.openFiles.find? place).isSome then throwThe Error .alreadyOpen
  let entry ← entryAt place
  let inserted ← OpenTable.insert session.openFiles { record := entry.record, path := place }
  let (handle, openFiles) ← (SessionM.ofExcept inserted : SessionM _)
  set { session with openFiles }
  Program.log .debug .session s!"opened {place} as handle {handle}"
  return handle

/-- Brings the record on disk of an open file up to date. -/
def writeBack (file : OpenFile) : GuardedSession Unit := do
  let entry ← entryAt file.path
  Directory.writeRecord entry.location file.record
  Program.log .debug .session
    s!"wrote back entry of {file.path} (length {file.record.length.toNat})"

/-- Releases a handle and brings the record on disk up to date. -/
def close (handle : Handle) : GuardedSession Unit := do
  let session ← get
  let (file, openFiles) ← (SessionM.ofExcept (session.openFiles.remove handle) : SessionM _)
  set { session with openFiles }
  if file.dirty then writeBack file
  Program.log .debug .session s!"closed handle {handle} ({file.path})"

/-- Closes every handle other than those of the root and of the current directory. -/
def closeAll : GuardedSession Unit := do
  let table := (← get).openFiles
  let handles := (table.occupied.map (·.1)).filter fun handle =>
    handle != OpenTable.rootHandle && handle != table.current
  handles.forM close

/-- Closes the borrowed handle unless it is the given one. -/
def returnBorrowed (kept : Handle) : GuardedSession Unit := do
  let session ← get
  match session.borrowed with
  | some handle =>
      if handle ≠ kept then
        set { session with borrowed := none }
        close handle
  | none => pure ()

/-- Goes into a directory whose handle is known. -/
def enter (handle : Handle) (opened : Bool) : GuardedSession Unit := do
  let session ← get
  let openFiles ← (SessionM.ofExcept (session.openFiles.setDirectory handle) : SessionM _)
  set { session with openFiles }
  returnBorrowed handle
  if opened then modify fun session => { session with borrowed := some handle }

/-- Changes the current directory. -/
def changeDirectory (path : String) : GuardedSession Unit := do
  let place := (← get).absolute path
  let entry ← entryAt place
  if !entry.record.isDirectory then throwThe Error .notDirectory
  match (← get).openFiles.find? place with
  | some handle => enter handle false
  | none => enter (← openPath place) true

/-- Reads at most `count` bytes from the cursor on. -/
def read (handle : Handle) (count : Nat) : GuardedSession Bytes := do
  let file ← (Session.openFile handle : SessionM _)
  let (bytes, file) ← (OpenFile.read file count : GuardedDisk _)
  (Session.putBack handle file : SessionM Unit)
  return bytes

/-- Reads the whole content. -/
def readAll (handle : Handle) : GuardedSession Bytes := do
  let file := { ← (Session.openFile handle : SessionM _) with cursor := 0 }
  (Session.putBack handle file : SessionM Unit)
  read handle file.record.length.toNat

/-- Writes to an open file and returns the number of bytes written. -/
def write (handle : Handle) (content : Bytes) (mode : WriteMode) : GuardedSession Nat := do
  let file ← (Session.openFile handle : SessionM _)
  let file ← (OpenFile.write file content mode : GuardedDisk _)
  (Session.putBack handle file : SessionM Unit)
  return content.length

/-- Counts the blocks in use. -/
def usage : GuardedSession Usage := do
  let free ← Allocation.countFree
  return { total := numBlocks, used := ← sub numBlocks free, free }

/-- Brings every record on disk up to date, releases all handles but that of the root, and saves
the disk. -/
def shutdown : GuardedSession Unit := do
  let session ← get
  let dirty := (session.openFiles.occupied.map (·.2)).filter (·.dirty)
  dirty.forM writeBack
  let root ← (Session.openFile OpenTable.rootHandle : SessionM _)
  set { session with openFiles := ← OpenTable.ofRoot root, borrowed := none }
  DiskM.flush
  Program.log .info .session "file system shut down"

end Session

end Guarded

/-! ### The guards hold -/

namespace OpenTable

open Guarded

theorem put_guarded {table : OpenTable} {handle : Handle} (h : handle < maxOpen)
    (file : OpenFile) :
  Guarded.OpenTable.put table handle file = .ok (table.set handle (some file))
  := if_pos h

theorem ofRoot_guarded (root : OpenFile) :
  Guarded.OpenTable.ofRoot root = .ok (ofRoot root)
  := rfl

/-- A slot that is not occupied is one of the table. -/
theorem insert_guarded (table : OpenTable) (file : OpenFile) :
  Guarded.OpenTable.insert table file = .ok (table.insert file)
  := by
  rw [Guarded.OpenTable.insert, insert]
  cases hfound : table.slots.toList.findIdx? Option.isNone with
  | none => rfl
  | some handle =>
      obtain ⟨hlt, -⟩ := List.findIdx?_eq_some_iff_getElem.mp hfound
      rw [Vector.length_toList] at hlt
      dsimp only
      rw [put_guarded hlt]
      rfl

end OpenTable

namespace Session

open SessionM

/-! ### Beginning a session -/

theorem faultless_openRoot {superblock : Superblock} (h : superblock.root.toNat < numBlocks) :
  DiskM.Faultless (Guarded.Session.openRoot superblock) (openRoot superblock) fun root =>
    root.cursor < 2 ^ Guarded.wordSize
  := by
  apply (Path.faultless_lookup h Path.root).bind
  exact fun _ _ => DiskM.faultless_pure (Nat.two_pow_pos _)

/-- Whatever a disk holds, a session that begins on it is bounded. -/
theorem faultless_mount (clock : Timestamp) :
  DiskM.Faultless (Guarded.Session.mount clock) (mount clock) Bounded
  := by
  apply Volume.faultless_readSuperblock.bind
  intro superblock hsuper
  apply (faultless_openRoot hsuper).bind
  intro root hroot
  apply (DiskM.faultless_lift (DiskM.returns_true _)).bind
  intro _ _
  apply DiskM.Faultless.guard (OpenTable.ofRoot_guarded root)
  exact DiskM.faultless_pure ⟨hsuper, OpenTable.bounded_ofRoot hroot⟩

theorem faultless_reformat (full : Bool) :
  Faultless (Guarded.Session.reformat full) (reformat full) fun _ => True
  := by
  apply faultless_when
  · intro _
    apply faultless_forM
    intro block hblock
    exact faultless_disk (DiskM.faultless_writeBlock_zero (List.mem_range.mp hblock))
  apply faultless_get.bind
  intro session bounded
  apply (faultless_disk (Volume.faultless_format _)).bind
  intro _ _
  apply (faultless_disk Volume.faultless_readSuperblock).bind
  intro superblock hsuper
  have renewed (session : Session) (bounded : session.Bounded) :
      Bounded { session with superblock } := ⟨hsuper, bounded.openFiles⟩
  apply (faultless_modify renewed).bind
  intro _ _
  apply (faultless_disk (faultless_openRoot hsuper)).bind
  intro root hroot
  apply Faultless.guard (OpenTable.ofRoot_guarded root)
  have closed (session : Session) (bounded : session.Bounded) :
      Bounded { session with openFiles := .ofRoot root, borrowed := none } :=
    ⟨bounded.root, OpenTable.bounded_ofRoot hroot⟩
  apply (faultless_modify closed).bind
  intro _ _
  apply faultless_ite
  · exact fun _ => faultless_disk (DiskM.faultless_lift (DiskM.returns_true _))
  · exact fun _ => faultless_pure trivial

/-! ### Paths and entries -/

theorem faultless_entryAt (path : String) :
  Faultless (Guarded.Session.entryAt path) (entryAt path) fun e => e.location.block < numBlocks
  := by
  apply faultless_get.bind
  intro session bounded
  exact faultless_disk (Path.faultless_lookup bounded.root path)

theorem faultless_lookup (path : String) :
  Faultless (Guarded.Session.lookup path) (lookup path) fun _ => True
  := by
  apply faultless_get.bind
  intro session _
  exact (faultless_entryAt _).mono fun _ _ => trivial

theorem faultless_createAt (path : String) (kind : Kind) :
  Faultless (Guarded.Session.createAt path kind) (createAt path kind) fun _ => True
  := by
  apply faultless_get.bind
  intro session _
  cases Path.splitParent (session.absolute path) with
  | error e => exact faultless_throw _
  | ok parts =>
      obtain ⟨parentPath, name⟩ := parts
      apply (faultless_entryAt parentPath).bind
      intro parent _
      apply faultless_unless
      intro _
      exact faultless_disk (Directory.faultless_create _ _ _ _)

theorem faultless_removeDirectory (path : String) :
  Faultless (Guarded.Session.removeDirectory path) (removeDirectory path) fun _ => True
  := by
  apply faultless_get.bind
  intro session _
  apply faultless_unless
  intro _
  apply (faultless_entryAt _).bind
  intro e he
  apply faultless_unless
  intro _
  apply faultless_unless
  intro _
  apply (faultless_disk (Directory.faultless_isEmpty _)).bind
  intro empty _
  apply faultless_unless
  intro _
  exact faultless_disk (Directory.faultless_remove he)

theorem faultless_removeFile (path : String) :
  Faultless (Guarded.Session.removeFile path) (removeFile path) fun _ => True
  := by
  apply faultless_get.bind
  intro session _
  apply faultless_unless
  intro _
  apply (faultless_entryAt _).bind
  intro e he
  apply faultless_unless
  intro _
  apply faultless_unless
  intro _
  exact faultless_disk (Directory.faultless_remove he)

theorem faultless_list (path : Option String) :
  Faultless (Guarded.Session.list path) (list path) fun _ => True
  := by
  apply faultless_get.bind
  intro session _
  apply (faultless_entryAt _).bind
  intro target _
  apply faultless_ite
  · exact fun _ => faultless_pure trivial
  · intro _
    apply (faultless_disk (Directory.faultless_entries _)).bind
    exact fun _ _ => faultless_pure trivial

/-! ### Open files -/

/-- A log of a session. -/
theorem faultless_log (level : Level) (source : Component) (message : String) :
  Faultless (liftM (Program.log level source message)) (liftM (Program.log level source message))
    fun _ => True
  := faultless_disk (DiskM.faultless_lift (DiskM.returns_true _))

theorem faultless_openPath (path : String) :
  Faultless (Guarded.Session.openPath path) (openPath path) fun _ => True
  := by
  apply faultless_get.bind
  intro session bounded
  apply faultless_unless
  intro _
  apply (faultless_entryAt _).bind
  intro e _
  apply Faultless.guard (OpenTable.insert_guarded _ _)
  apply (faultless_lift (keeps_ofExcept fun inserted hinsert => hinsert)).bind
  rintro ⟨handle, openFiles⟩ hinsert
  have bounded' : openFiles.Bounded := by
    obtain ⟨-, -, rfl⟩ := OpenTable.insert_eq_ok hinsert
    apply bounded.openFiles.set
    rintro _ ⟨rfl⟩
    exact Nat.two_pow_pos _
  apply (faultless_set (bounded.withTable bounded')).bind
  intro _ _
  apply (faultless_log _ _ _).bind
  exact fun _ _ => faultless_pure trivial

theorem keeps_handleOf (path : String) :
  (handleOf path).Keeps fun _ => True
  := by
  apply keeps_get.bind
  intro session _
  cases session.openFiles.find? (session.absolute path) with
  | none => exact keeps_throw _
  | some handle => exact keeps_pure trivial

theorem keeps_setDirectory (handle : Handle) :
  (setDirectory handle).Keeps fun _ => True
  := by
  apply keeps_get.bind
  intro session bounded
  apply (keeps_ofExcept fun openFiles hset => bounded.openFiles.setDirectory hset).bind
  exact fun openFiles bounded' => keeps_set ⟨bounded.root, bounded'⟩

theorem keeps_openFile (handle : Handle) :
  (openFile handle).Keeps fun file => file.cursor < 2 ^ Guarded.wordSize
  := by
  apply keeps_get.bind
  intro session bounded
  apply keeps_ofExcept
  exact fun file hfile => bounded.openFiles handle file (OpenTable.get_eq_ok.mp hfile)

theorem keeps_putBack (handle : Handle) {file : OpenFile}
    (h : file.cursor < 2 ^ Guarded.wordSize) :
  (putBack handle file).Keeps fun _ => True
  := by
  apply keeps_modify
  intro session bounded
  apply bounded.withTable
  apply bounded.openFiles.set
  rintro _ ⟨rfl⟩
  exact h

/-- A cursor that is moved stays within the length of its file. -/
theorem keeps_seek (handle : Handle) (position : Nat) :
  (seek handle position).Keeps fun _ => True
  := by
  apply (keeps_openFile handle).bind
  intro file _
  have small : min position file.record.length.toNat < 2 ^ Guarded.wordSize :=
    (Nat.min_le_right _ _).trans_lt (file.record.length.toNat_lt.trans (by decide))
  apply (keeps_putBack handle small).bind
  exact fun _ _ => keeps_pure trivial

theorem faultless_writeBack (file : OpenFile) :
  Faultless (Guarded.Session.writeBack file) (writeBack file) fun _ => True
  := by
  apply (faultless_entryAt file.path).bind
  intro e he
  apply (faultless_disk (Directory.faultless_writeRecord he file.record)).bind
  exact fun _ _ => faultless_log _ _ _

theorem faultless_close (handle : Handle) :
  Faultless (Guarded.Session.close handle) (close handle) fun _ => True
  := by
  apply faultless_get.bind
  intro session bounded
  apply (faultless_lift (keeps_ofExcept fun removed hremove => hremove)).bind
  rintro ⟨file, openFiles⟩ hremove
  apply (faultless_set (bounded.withTable (bounded.openFiles.remove hremove))).bind
  intro _ _
  apply faultless_when
  · exact fun _ => faultless_writeBack file
  · exact faultless_log _ _ _

theorem faultless_closeAll :
  Faultless Guarded.Session.closeAll closeAll fun _ => True
  := by
  apply faultless_get.bind
  intro session _
  exact faultless_forM fun handle _ => faultless_close handle

theorem faultless_returnBorrowed (kept : Handle) :
  Faultless (Guarded.Session.returnBorrowed kept) (returnBorrowed kept) fun _ => True
  := by
  apply faultless_get.bind
  intro session bounded
  cases session.borrowed with
  | none => exact faultless_pure trivial
  | some handle =>
      apply faultless_ite
      · intro _
        have forgotten : Bounded { session with borrowed := none } :=
          ⟨bounded.root, bounded.openFiles⟩
        apply (faultless_set forgotten).bind
        exact fun _ _ => faultless_close handle
      · exact fun _ => faultless_pure trivial

theorem faultless_enter (handle : Handle) (opened : Bool) :
  Faultless (Guarded.Session.enter handle opened) (enter handle opened) fun _ => True
  := by
  apply faultless_get.bind
  intro session bounded
  apply (faultless_lift (keeps_ofExcept fun openFiles hset =>
    bounded.openFiles.setDirectory hset)).bind
  intro openFiles bounded'
  apply (faultless_set (bounded.withTable bounded')).bind
  intro _ _
  apply (faultless_returnBorrowed handle).bind
  intro _ _
  have borrowing (session : Session) (bounded : session.Bounded) :
      Bounded { session with borrowed := some handle } := ⟨bounded.root, bounded.openFiles⟩
  apply faultless_ite
  · exact fun _ => faultless_modify borrowing
  · exact fun _ => faultless_pure trivial

theorem faultless_changeDirectory (path : String) :
  Faultless (Guarded.Session.changeDirectory path) (changeDirectory path) fun _ => True
  := by
  rw [changeDirectory_eq]
  apply faultless_get.bind
  intro session _
  apply (faultless_entryAt _).bind
  intro e _
  apply faultless_unless
  intro _
  apply faultless_get.bind
  intro session' _
  cases session'.openFiles.find? (session.absolute path) with
  | some handle => exact faultless_enter handle false
  | none =>
      apply (faultless_openPath _).bind
      exact fun handle _ => faultless_enter handle true

theorem faultless_read (handle : Handle) (count : Nat) :
  Faultless (Guarded.Session.read handle count) (read handle count) fun _ => True
  := by
  apply (faultless_lift (keeps_openFile handle)).bind
  intro file small
  apply (faultless_disk (OpenFile.faultless_read small count)).bind
  rintro ⟨bytes, file'⟩ small'
  apply (faultless_lift (keeps_putBack handle small')).bind
  exact fun _ _ => faultless_pure trivial

theorem faultless_readAll (handle : Handle) :
  Faultless (Guarded.Session.readAll handle) (readAll handle) fun _ => True
  := by
  apply (faultless_lift (keeps_openFile handle)).bind
  intro file _
  apply (faultless_lift (keeps_putBack handle (Nat.two_pow_pos _))).bind
  exact fun _ _ => faultless_read handle _

theorem faultless_write (handle : Handle) {content : Bytes} (h : content.length < 2 ^ 63)
    (mode : WriteMode) :
  Faultless (Guarded.Session.write handle content mode) (write handle content mode)
    fun _ => True
  := by
  apply (faultless_lift (keeps_openFile handle)).bind
  intro file _
  apply (faultless_disk (OpenFile.faultless_write file h mode)).bind
  intro file' small
  apply (faultless_lift (keeps_putBack handle small)).bind
  exact fun _ _ => faultless_pure trivial

/-! ### The volume as a whole -/

theorem faultless_usage :
  Faultless Guarded.Session.usage usage fun _ => True
  := by
  apply (faultless_disk Allocation.faultless_countFree).bind
  intro free hfree
  apply Faultless.guard (Guarded.sub_eq hfree)
  exact faultless_pure trivial

theorem faultless_shutdown :
  Faultless Guarded.Session.shutdown shutdown fun _ => True
  := by
  apply faultless_get.bind
  intro session bounded
  apply (faultless_forM fun file _ => faultless_writeBack file).bind
  intro _ _
  apply (faultless_lift (keeps_openFile _)).bind
  intro root small
  apply Faultless.guard (OpenTable.ofRoot_guarded root)
  have closed : Bounded { session with openFiles := .ofRoot root, borrowed := none } :=
    ⟨bounded.root, OpenTable.bounded_ofRoot small⟩
  apply (faultless_set closed).bind
  intro _ _
  apply (faultless_disk (DiskM.faultless_lift (DiskM.returns_true _))).bind
  exact fun _ _ => faultless_log _ _ _

end Session

end FatVolume
