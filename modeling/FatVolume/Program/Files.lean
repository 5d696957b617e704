import FatVolume.Tree.Path

/-!
# Host files

`Files` is a tree of files and directories that belong to the host of a program.  Relative
paths start at the root of the tree.  Every directory on the way to a file must exist, and
a path that ends in a slash can only name a directory.  Names have at most `maxName` bytes
and paths at most `maxPath`.
-/

namespace FatVolume

/-- What a place in a tree of host files holds. -/
inductive HostNode where
  | file (bytes : Array UInt8)
  | directory

/-- A tree of host files: what each place below the root holds, a place being the sequence
of names that leads to it. -/
structure Files where
  nodes : List (List String × HostNode) := []
  deriving Inhabited

namespace Files

/-- The greatest number of bytes of a name. -/
abbrev maxName : Nat := 255

/-- The greatest number of bytes of a path. -/
abbrev maxPath : Nat := 4095

/-- What a place holds; the root is a directory. -/
def node? (files : Files) (place : List String) : Option HostNode :=
  if place.isEmpty then some .directory else files.nodes.lookup place

/-- The place reached from a directory along the given segments. -/
def walk (files : Files) (place : List String) : List String → Except IoError (List String)
  | [] => .ok place
  | segment :: rest =>
      match files.node? place with
      | none => .error .notFound
      | some (.file _) => .error .notDirectory
      | some .directory =>
          if maxName < segment.utf8ByteSize then .error .nameTooLong
          else files.walk (Path.follow place segment) rest

/-- The place that a path names. -/
def locate (files : Files) (path : String) : Except IoError (List String) :=
  if path.toList.contains '\x00' then .error .nullInName
  else if maxPath < path.utf8ByteSize then .error .nameTooLong
  else if path.isEmpty then .error .notFound
  else files.walk [] (Path.segments path)

/-- Whether a path ends in a slash. -/
def namesDirectory (path : String) : Bool :=
  path.toList.getLast? == some '/'

/-- The tree with the given content at a place. -/
def insert (files : Files) (place : List String) (node : HostNode) : Files :=
  ⟨(place, node) :: files.nodes.filter (·.1 != place)⟩

/-- The content of the file at a path. -/
def read (files : Files) (path : String) : Except IoError (Array UInt8) := do
  match files.node? (← files.locate path) with
  | none => .error .notFound
  | some .directory => .error .isDirectory
  | some (.file bytes) => if namesDirectory path then .error .notDirectory else .ok bytes

/-- The tree with the given content in the file at a path, which need not exist. -/
def write (files : Files) (path : String) (bytes : Array UInt8) : Except IoError Files := do
  let place ← files.locate path
  match files.node? place with
  | some .directory => .error .isDirectory
  | _ =>
      if namesDirectory path then .error .isDirectory else .ok (files.insert place (.file bytes))

/-- A file that was written is read back. -/
theorem node?_insert_self (files : Files) {place : List String} (node : HostNode)
    (h : place ≠ []) :
  (files.insert place node).node? place = some node
  := by
  simp [insert, node?, h]

end Files

end FatVolume
