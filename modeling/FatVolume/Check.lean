import FatVolume.Tree.Directory
import FatVolume.Tree.Path

/-!
# Checking a volume

`Check.run` verifies that a volume is consistent: the copies of the allocation table are
the same, every chain is well formed and fits the length of its owner, no block has two
owners, every allocated block has one, directories begin with the entries of themselves
and their parent, and names are unique.  It walks the tree from the root and collects the
blocks that are owned.
-/

namespace FatVolume

/-- How many blocks of a volume are in use. -/
structure Usage where
  total : Nat
  used : Nat
  free : Nat
  deriving DecidableEq, Repr

namespace Check

/-- The blocks found to have an owner. -/
abbrev Owned : Type := List Nat

/-- Fails with a corruption and logs it. -/
def fail {α : Type} (cause : Corruption) : DiskM α := do
  Program.log .warn .check s!"check failed: {cause.message}"
  throw (.corrupted cause)

/-- Gives the chain that starts at `first` to an owner; no block of it may have one yet.
Returns the owned blocks and the number of blocks of the chain. -/
def claim (owned : Owned) (first : Nat) (owner : String) : DiskM (Owned × Nat) := do
  let blocks ← Allocation.chain first
  match blocks.find? owned.contains with
  | some block => fail (.blockShared block owner)
  | none => return (blocks ++ owned, blocks.length)

/-- Whether an entry is the one a directory has for itself or its parent. -/
def isDotEntry (entry : Entry) (name : String) (target : UInt16) : Bool :=
  entry.record.occupied && entry.record.isDirectory && entry.record.baseName == name
    && entry.record.first == target

/-- Checks the first two slots of the directory that starts at `first`. -/
def checkDots (slots : List Entry) (path : String) (first parent : UInt16) : DiskM Unit :=
  match slots with
  | self :: up :: _ =>
      if !isDotEntry self Name.dot first then fail (.dotWrong path Name.dot)
      else if !isDotEntry up Name.dotdot parent then fail (.dotWrong path Name.dotdot)
      else pure ()
  | _ => fail (.dotsMissing path)

/-- The path of an entry in the directory at `path`. -/
def childPath (path name : String) : String :=
  if path == Path.root then s!"/{name}" else s!"{path}/{name}"

/-- Checks an entry of the directory at `path` apart from what lies below it.  Returns the
owned blocks. -/
def checkEntry (owned : Owned) (names : List String) (path : String) (record : Record) :
    DiskM Owned := do
  let name := record.fullName
  let child := childPath path name
  if record.isDot then fail (.dotStray child)
  if names.contains name then fail (.nameDuplicate child)
  let (owned, blocks) ← claim owned record.first.toNat child
  let length := record.length.toNat
  if blocks ≠ blocksFor length then fail (.spanWrong child blocks length)
  return owned

/-- Checks the directory at `path` and all below it.  Directories may be nested `depth`
levels deep.  Returns the owned blocks. -/
def checkDirectory :
    (depth : Nat) → Owned → (path : String) → (first parent : UInt16) → DiskM Owned
  | 0, _, path, _, _ => fail (.nestedTooDeep path)
  | depth + 1, owned, path, first, parent => do
      let slots ← Directory.slots first.toNat
      checkDots slots path first parent
      let listed := ((slots.drop 2).map Entry.record).filter Record.occupied
      let step (state : Owned × List String) (record : Record) :
          DiskM (Owned × List String) := do
        let owned ← checkEntry state.1 state.2 path record
        let names := record.fullName :: state.2
        if record.isDirectory then
          let child := childPath path record.fullName
          return (← checkDirectory depth owned child record.first first, names)
        else
          return (owned, names)
      return (← listed.foldlM step (owned, [])).1

/-- Checks a volume whose root directory starts at block `root` and counts its blocks. -/
def run (root : UInt16) : DiskM Usage := do
  if !(← Allocation.mirrorsMatch) then fail .tableCopiesDiffer
  let table ← Allocation.readTable tableStart
  let reserved := List.range reservedSpan
  if let some block := reserved.find? (table[·]? ≠ some .last) then
    fail (.reservedNotAllocated block)
  let (owned, span) ← claim reserved root.toNat Path.root
  if span ≠ rootSpan then fail .rootSpanWrong
  let owned ← checkDirectory (numBlocks + 1) owned Path.root root root
  let free := table.countFree
  let used := table.length - free
  if used ≠ owned.length then fail (.unreachable (used - owned.length))
  Program.log .debug .check s!"check passed: {used} of {numBlocks} blocks used"
  return { total := numBlocks, used, free := numBlocks - used }

end Check

end FatVolume
