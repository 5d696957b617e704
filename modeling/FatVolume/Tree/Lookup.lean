import FatVolume.Tree.Directory
import FatVolume.Tree.Path

/-!
# Looking up paths

The entry of a path is found by following its segments from the root directory down.
-/

namespace FatVolume.Path

/-- The entry of a segment in the directory `reached`. -/
def descend (reached : Entry) (segment : String) : DiskM Entry :=
  if reached.record.isDirectory then Directory.lookup reached.record.first.toNat segment
  else throw .notFound

/-- The entry of an absolute path in the tree whose root directory starts at block `root`.
The root itself is found as its own first entry. -/
def lookup (root : Nat) (path : String) : DiskM Entry := do
  let place : Location := ⟨root, 0⟩
  let record ← Directory.readRecord place
  (segments path).foldlM descend ⟨place, record⟩

end FatVolume.Path
