import FatVolume.Session.Basic

/-!
# Parts of actions

The long actions are a few named parts one after the other.  What is said of such an action is said
of its parts first, and a part that comes at two places of an action is looked at once.
-/

namespace FatVolume

/-! ### Checks -/

namespace Check

/-- One step of the loop over the records of a directory. -/
def step (depth : Nat) (path : String) (first : UInt16) (state : Owned × List String)
    (record : Record) : DiskM (Owned × List String) := do
  let owned ← checkEntry state.1 state.2 path record
  let names := record.fullName :: state.2
  if record.isDirectory then
    let child := childPath path record.fullName
    return (← checkDirectory depth owned child record.first first, names)
  else
    return (owned, names)

theorem checkDirectory_succ (depth : Nat) (owned : Owned) (path : String)
    (first parent : UInt16) :
  checkDirectory (depth + 1) owned path first parent = do
      let slots ← Directory.slots first.toNat
      checkDots slots path first parent
      let listed := ((slots.drop 2).map Entry.record).filter Record.occupied
      return (← listed.foldlM (step depth path first) (owned, [])).1
  := rfl

/-- What is left of a check when the table has been read and the reserved blocks are allocated: the
root directory and all below it claim their blocks, and then these are counted. -/
def counting (table : Table) (root : UInt16) : DiskM Usage := do
  let (owned, span) ← claim (List.range reservedSpan) root.toNat Path.root
  if span ≠ rootSpan then fail .rootSpanWrong
  let owned ← checkDirectory (numBlocks + 1) owned Path.root root root
  let free := table.countFree
  let used := table.length - free
  if used ≠ owned.length then fail (.unreachable (used - owned.length))
  Program.log .debug .check s!"check passed: {used} of {numBlocks} blocks used"
  return { total := numBlocks, used, free := numBlocks - used }

theorem run_eq (root : UInt16) :
  run root = (do
      if !(← Allocation.mirrorsMatch) then fail .tableCopiesDiffer
      let table ← Allocation.readTable tableStart
      if let some block := (List.range reservedSpan).find? (table[·]? ≠ some .last) then
        fail (.reservedNotAllocated block)
      counting table root : DiskM Usage)
  := rfl

end Check

/-! ### Sessions -/

namespace Session

/-- Goes into a directory whose handle is known. -/
def enter (handle : Handle) (opened : Bool) : SessionM Unit := do
  let session ← get
  let openFiles ← SessionM.ofExcept (session.openFiles.setDirectory handle)
  set { session with openFiles }
  returnBorrowed handle
  if opened then modify fun session => { session with borrowed := some handle }

/-- A directory that is not open is opened before it is entered. -/
theorem changeDirectory_eq (path : String) :
  changeDirectory path = (do
      let place := (← get).absolute path
      let entry ← entryAt place
      if !entry.record.isDirectory then throw .notDirectory
      match (← get).openFiles.find? place with
      | some handle => enter handle false
      | none => do enter (← openPath place) true : SessionM Unit)
  := rfl

/-- Formats the disk and begins again on the fresh volume, then finishes. -/
def beginAgain (finish : SessionM Unit) : SessionM Unit := do
  Volume.format (← get).clock
  let superblock ← Volume.readSuperblock
  modify fun session => { session with superblock }
  let root ← openRoot superblock
  modify fun session => { session with openFiles := .ofRoot root, borrowed := none }
  finish

theorem reformat_false :
  reformat false = beginAgain (pure ())
  := rfl

/-- A full format erases the disk before it begins again, and saves it afterwards. -/
theorem reformat_true :
  reformat true = (do
      (List.range numBlocks).forM fun block => (DiskM.writeBlock block .zero : SessionM Unit)
      beginAgain DiskM.flush : SessionM Unit)
  := rfl

end Session

end FatVolume
