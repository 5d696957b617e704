import FatVolume.Layout
import FatVolume.Tree.Path
import FatVolume.Tree.Record

/-!
# Open files

A session holds the files and directories it works on in a table of `maxOpen` slots; the
index of a slot is the handle of what it holds.  An open file has a working copy of its
record, which reaches the disk only when the file is closed.  Slot `rootHandle` always
holds the root directory, and one slot is the current directory.
-/

namespace FatVolume

/-- An open file or directory. -/
structure OpenFile where
  /-- The working copy of the record. -/
  record : Record
  /-- The absolute path by which it was opened. -/
  path : String
  cursor : Nat := 0
  /-- Whether the record on disk is out of date. -/
  dirty : Bool := false
  deriving DecidableEq, Inhabited

/-- The index of a slot of the table of open files. -/
abbrev Handle : Type := Nat

/-- The table of open files. -/
structure OpenTable where
  slots : Vector (Option OpenFile) maxOpen
  /-- The slot of the current directory. -/
  current : Handle
  deriving DecidableEq

namespace OpenTable

/-- The slot of the root directory. -/
abbrev rootHandle : Handle := 0

/-- The table with nothing but the root directory open. -/
def ofRoot (root : OpenFile) : OpenTable where
  slots := (Vector.replicate maxOpen none).set rootHandle (some root)
  current := rootHandle

/-- What a slot holds. -/
def get? (table : OpenTable) (handle : Handle) : Option OpenFile :=
  table.slots[handle]?.join

/-- What an occupied slot holds. -/
def get (table : OpenTable) (handle : Handle) : Except Error OpenFile :=
  match table.get? handle with
  | some file => .ok file
  | none => .error (.invalidHandle handle)

/-- The table with the given content in a slot. -/
def set (table : OpenTable) (handle : Handle) (file : Option OpenFile) : OpenTable :=
  { table with slots := table.slots.setIfInBounds handle file }

/-- The occupied slots in the order of their handles. -/
def occupied (table : OpenTable) : List (Handle × OpenFile) :=
  table.slots.toList.zipIdx.filterMap fun (slot, handle) => slot.map fun file => (handle, file)

/-- Puts a file into the first slot that is not occupied. -/
def insert (table : OpenTable) (file : OpenFile) : Except Error (Handle × OpenTable) :=
  match table.slots.toList.findIdx? Option.isNone with
  | some handle => .ok (handle, table.set handle (some file))
  | none => .error .openTableFull

/-- Frees a slot and returns what it held.  The slots of the root and of the current
directory are not freed. -/
def remove (table : OpenTable) (handle : Handle) : Except Error (OpenFile × OpenTable) := do
  if handle == rootHandle || handle == table.current then throw .notPermitted
  let file ← table.get handle
  return (file, table.set handle none)

/-- The handle of an open path. -/
def find? (table : OpenTable) (path : String) : Option Handle :=
  (table.occupied.find? (·.2.path == path)).map (·.1)

/-- Whether `path` starts with the path of the directory `directory` and a slash. -/
def isBelow (directory path : String) : Bool :=
  let stem := (directory.toList.reverse.dropWhile (· == '/')).reverse ++ ['/']
  stem.isPrefixOf path.toList

/-- Whether a path or anything below it is open. -/
def isBusy (table : OpenTable) (path : String) : Bool :=
  table.occupied.any fun (_, file) => file.path == path || isBelow path file.path

/-- Makes an open directory the current one. -/
def setDirectory (table : OpenTable) (handle : Handle) : Except Error OpenTable := do
  let file ← table.get handle
  if !file.record.isDirectory then throw .notDirectory
  return { table with current := handle }

/-- The number of occupied slots. -/
def count (table : OpenTable) : Nat :=
  table.occupied.length

/-- The occupied slots are those that hold something. -/
theorem mem_occupied {table : OpenTable} {handle : Handle} {file : OpenFile} :
  (handle, file) ∈ table.occupied ↔ table.get? handle = some file
  := by
  simp only [occupied, get?, List.mem_filterMap, Prod.exists, List.mem_zipIdx_iff_getElem?,
    Option.map_eq_some_iff, Prod.mk.injEq]
  constructor
  · rintro ⟨slot, index, held, file', rfl, rfl, rfl⟩
    simpa using congrArg Option.join held
  · intro held
    refine ⟨some file, handle, ?_, file, rfl, rfl, rfl⟩
    simpa [Option.join_eq_some_iff] using held

@[simp]
theorem get?_set_self (table : OpenTable) {handle : Handle} (h : handle < maxOpen)
    (file : Option OpenFile) :
  (table.set handle file).get? handle = file
  := by
  simp [get?, set, h]

theorem get?_set_of_ne (table : OpenTable) {handle other : Handle} (h : handle ≠ other)
    (file : Option OpenFile) :
  (table.set handle file).get? other = table.get? other
  := by
  simp [get?, set, Vector.getElem?_setIfInBounds_ne h]

/-- A file is put into a slot that was not occupied. -/
theorem insert_eq_ok {table table' : OpenTable} {file : OpenFile} {handle : Handle}
    (h : table.insert file = .ok (handle, table')) :
  handle < maxOpen ∧ table.get? handle = none ∧ table' = table.set handle (some file)
  := by
  unfold insert at h
  split at h
  · next found =>
      obtain ⟨rfl, rfl⟩ := Prod.mk.inj (Except.ok.inj h)
      obtain ⟨bound, free, -⟩ := List.findIdx?_eq_some_iff_getElem.mp found
      rw [Vector.length_toList] at bound
      refine ⟨bound, ?_, rfl⟩
      simpa [get?, bound] using free
  · exact absurd h (by simp)

@[simp]
theorem current_set (table : OpenTable) (handle : Handle) (file : Option OpenFile) :
  (table.set handle file).current = table.current
  := rfl

@[simp]
theorem get?_ofRoot (root : OpenFile) :
  (ofRoot root).get? rootHandle = some root
  := by
  simp [get?, ofRoot]

end OpenTable

end FatVolume
