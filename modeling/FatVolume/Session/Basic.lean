import FatVolume.Check
import FatVolume.Session.Transfer
import FatVolume.Tree.Lookup
import FatVolume.Volume

/-!
# Sessions

A session is work on the volume of the disk in the device: its superblock, the table of
open files with the current directory, and the clock that dates new entries.  The
operations of a session change it and the disk; a failing operation keeps what it changed
before it failed.
-/

namespace FatVolume

/-- The state of the work on a volume. -/
structure Session where
  superblock : Superblock
  openFiles : OpenTable
  clock : Timestamp
  /-- The handle that changing the current directory opened by itself and will close. -/
  borrowed : Option Handle := none
  deriving DecidableEq

/-- A program that works on a session and may fail. -/
abbrev SessionM : Type → Type := ExceptT Error (StateT Session Program)

instance : MonadLift DiskM SessionM where
  monadLift action := ExceptT.mk (StateT.lift action.run)

namespace SessionM

/-- The action that does nothing but give a result. -/
def ofExcept {α : Type} (result : Except Error α) : SessionM α :=
  ExceptT.mk (pure result)

end SessionM

namespace Session

/-! ### Beginning a session -/

/-- The open file of the root directory of a volume. -/
def openRoot (superblock : Superblock) : DiskM OpenFile := do
  let root ← Path.lookup superblock.root.toNat Path.root
  return { record := root.record, path := Path.root }

/-- Begins a session on the volume of the disk. -/
def mount (clock : Timestamp) : DiskM Session := do
  let superblock ← Volume.readSuperblock
  let root ← openRoot superblock
  Program.log .info .session s!"mounted: {superblock.information}"
  return { superblock, openFiles := .ofRoot root, clock }

/-- Makes a fresh volume of the disk and begins a session on it. -/
def format (clock : Timestamp) : DiskM Session := do
  Volume.format clock
  mount clock

/-- Makes a fresh volume of the disk in a session.  What was open is dropped without being
saved.  A full format erases every block first and saves the disk. -/
def reformat (full : Bool) : SessionM Unit := do
  if full then
    (List.range numBlocks).forM fun block => (DiskM.writeBlock block .zero : SessionM Unit)
  Volume.format (← get).clock
  let superblock ← Volume.readSuperblock
  modify fun session => { session with superblock }
  let root ← openRoot superblock
  modify fun session => { session with openFiles := .ofRoot root, borrowed := none }
  if full then DiskM.flush

/-! ### Paths and entries -/

/-- The absolute path of the current directory. -/
def currentPath (session : Session) : String :=
  match session.openFiles.get? session.openFiles.current with
  | some directory => directory.path
  | none => Path.root

/-- The absolute path that a path given by the user means. -/
def absolute (session : Session) (path : String) : String :=
  Path.resolve session.currentPath path

/-- The entry of an absolute path. -/
def entryAt (path : String) : SessionM Entry := do
  Path.lookup (← get).superblock.root.toNat path

/-- The entry of a path. -/
def lookup (path : String) : SessionM Entry := do
  entryAt ((← get).absolute path)

/-- Creates an entry at a path. -/
def createAt (path : String) (kind : Kind) : SessionM Entry := do
  let session ← get
  match Path.splitParent (session.absolute path) with
  | .error _ => throw .alreadyExists
  | .ok (parentPath, name) =>
      let parent ← entryAt parentPath
      if !parent.record.isDirectory then throw .notDirectory
      Directory.create session.clock parent.record name kind

/-- Creates a directory. -/
def makeDirectory (path : String) : SessionM Entry :=
  createAt path .directory

/-- Creates an empty file. -/
def createFile (path : String) : SessionM Entry :=
  createAt path .file

/-- Removes an empty directory that is not open. -/
def removeDirectory (path : String) : SessionM Unit := do
  let session ← get
  let place := session.absolute path
  if place == Path.root || Path.endsInDot path then throw .notPermitted
  let entry ← entryAt place
  if !entry.record.isDirectory then throw .notDirectory
  if session.openFiles.isBusy place then throw .busy
  if !(← Directory.isEmpty entry.record.first.toNat) then throw .notEmpty
  Directory.remove entry

/-- Removes a file that is not open. -/
def removeFile (path : String) : SessionM Unit := do
  let session ← get
  if Path.endsInDot path then throw .notPermitted
  let place := session.absolute path
  let entry ← entryAt place
  if entry.record.isDirectory then throw .notFile
  if session.openFiles.isBusy place then throw .busy
  Directory.remove entry

/-- The entry with the working copy of its record if it is open. -/
def withWorkingCopy (session : Session) (path : String) (entry : Entry) : Entry :=
  match (session.openFiles.find? path).bind session.openFiles.get? with
  | some file => { entry with record := file.record }
  | none => entry

/-- The entries of a directory, or the entry itself of a file. -/
def list (path : Option String) : SessionM (List Entry) := do
  let session ← get
  let place := session.absolute (path.getD Name.dot)
  let target ← entryAt place
  if !target.record.isDirectory then return [session.withWorkingCopy place target]
  let entries ← Directory.entries target.record.first.toNat
  return entries.map fun entry =>
    if entry.record.isDot then entry
    else session.withWorkingCopy (Path.resolve place entry.record.fullName) entry

/-! ### Open files -/

/-- Opens a file or directory.  A path can be open only once. -/
def openPath (path : String) : SessionM Handle := do
  let session ← get
  let place := session.absolute path
  if (session.openFiles.find? place).isSome then throw .alreadyOpen
  let entry ← entryAt place
  let (handle, openFiles) ←
    SessionM.ofExcept (session.openFiles.insert { record := entry.record, path := place })
  set { session with openFiles }
  Program.log .debug .session s!"opened {place} as handle {handle}"
  return handle

/-- The handle of an open path. -/
def handleOf (path : String) : SessionM Handle := do
  let session ← get
  match session.openFiles.find? (session.absolute path) with
  | some handle => return handle
  | none => throw .notOpen

/-- Brings the record on disk of an open file up to date. -/
def writeBack (file : OpenFile) : SessionM Unit := do
  let entry ← entryAt file.path
  Directory.writeRecord entry.location file.record
  Program.log .debug .session
    s!"wrote back entry of {file.path} (length {file.record.length.toNat})"

/-- Releases a handle and brings the record on disk up to date. -/
def close (handle : Handle) : SessionM Unit := do
  let session ← get
  let (file, openFiles) ← SessionM.ofExcept (session.openFiles.remove handle)
  set { session with openFiles }
  if file.dirty then writeBack file
  Program.log .debug .session s!"closed handle {handle} ({file.path})"

/-- Closes every handle other than those of the root and of the current directory. -/
def closeAll : SessionM Unit := do
  let table := (← get).openFiles
  let handles := (table.occupied.map (·.1)).filter fun handle =>
    handle != OpenTable.rootHandle && handle != table.current
  handles.forM close

/-- Makes an open directory the current one.  Its handle belongs to the caller from then
on. -/
def setDirectory (handle : Handle) : SessionM Unit := do
  let session ← get
  let openFiles ← SessionM.ofExcept (session.openFiles.setDirectory handle)
  set { session with openFiles, borrowed := none }

/-- Closes the borrowed handle unless it is the given one. -/
def returnBorrowed (kept : Handle) : SessionM Unit := do
  let session ← get
  match session.borrowed with
  | some handle =>
      if handle ≠ kept then
        set { session with borrowed := none }
        close handle
  | none => pure ()

/-- Changes the current directory.  A directory that was not open is opened and closed again
when the current directory changes next. -/
def changeDirectory (path : String) : SessionM Unit := do
  let place := (← get).absolute path
  let entry ← entryAt place
  if !entry.record.isDirectory then throw .notDirectory
  let (handle, opened) ← match (← get).openFiles.find? place with
    | some handle => pure (handle, false)
    | none => do pure (← openPath place, true)
  let session ← get
  let openFiles ← SessionM.ofExcept (session.openFiles.setDirectory handle)
  set { session with openFiles }
  returnBorrowed handle
  if opened then modify fun session => { session with borrowed := some handle }

/-- What a handle stands for. -/
def openFile (handle : Handle) : SessionM OpenFile := do
  SessionM.ofExcept ((← get).openFiles.get handle)

/-- Puts an open file back into its slot. -/
def putBack (handle : Handle) (file : OpenFile) : SessionM Unit :=
  modify fun session =>
    { session with openFiles := session.openFiles.set handle (some file) }

/-- Reads at most `count` bytes from the cursor on. -/
def read (handle : Handle) (count : Nat) : SessionM Bytes := do
  let file ← openFile handle
  let (bytes, file) ← (file.read count : DiskM _)
  putBack handle file
  return bytes

/-- Reads the whole content. -/
def readAll (handle : Handle) : SessionM Bytes := do
  let file := { ← openFile handle with cursor := 0 }
  putBack handle file
  read handle file.record.length.toNat

/-- Moves the cursor, at most to the end, and returns where it is. -/
def seek (handle : Handle) (position : Nat) : SessionM Nat := do
  let file ← openFile handle
  let cursor := min position file.record.length.toNat
  putBack handle { file with cursor }
  return cursor

/-- Writes to an open file and returns the number of bytes written. -/
def write (handle : Handle) (content : Bytes) (mode : WriteMode) : SessionM Nat := do
  let file ← openFile handle
  putBack handle (← (file.write content mode : DiskM _))
  return content.length

/-! ### The volume as a whole -/

/-- Checks the volume as it is on disk. -/
def check : SessionM Usage := do
  Check.run (← get).superblock.root

/-- Counts the blocks in use. -/
def usage : SessionM Usage := do
  let free ← Allocation.countFree
  return { total := numBlocks, used := numBlocks - free, free }

/-- Brings every record on disk up to date, releases all handles but that of the root, and
saves the disk. -/
def shutdown : SessionM Unit := do
  let session ← get
  let dirty := (session.openFiles.occupied.map (·.2)).filter (·.dirty)
  dirty.forM writeBack
  let root ← openFile OpenTable.rootHandle
  set { session with openFiles := .ofRoot root, borrowed := none }
  DiskM.flush
  Program.log .info .session "file system shut down"

end Session

end FatVolume
