import FatVolume.Bytes
import FatVolume.Layout
import FatVolume.Text.Utf8
import FatVolume.Timestamp
import FatVolume.Tree.Name

/-!
# Directory records

A record is what a directory slot holds: the name of an entry, its kind, whether the slot
is occupied at all, when the entry was created, its first block and its length in bytes.
`Record.toBytes` and `Record.ofBytes` are the encoding in the 32 bytes of a slot.
-/

namespace FatVolume

/-- The content of a directory slot. -/
structure Record where
  name : Vector UInt8 8
  extension : Vector UInt8 3
  kind : Kind
  occupied : Bool
  time : UInt16
  date : UInt16
  first : UInt16
  length : UInt32
  deriving DecidableEq

namespace Record

/-- The content of a slot that was never used or was given up. -/
def blank : Record where
  name := Vector.replicate 8 0
  extension := Vector.replicate 3 0
  kind := .directory
  occupied := false
  time := 0
  date := 0
  first := 0
  length := 0

instance : Inhabited Record := ⟨blank⟩

/-- The record of an entry created at the given instant.  The names of a directory for
itself and its parent are admitted beside those that `Name.split` accepts. -/
def new (name : String) (kind : Kind) (first : UInt16) (length : UInt32)
    (created : Timestamp) : Except Error Record := do
  let (base, extension) ←
    if name == Name.dot || name == Name.dotdot then pure (name.toList, [])
    else Name.split name kind
  return {
    name := Bytes.padded 8 (Utf8.encode (String.ofList base))
    extension := Bytes.padded 3 (Utf8.encode (String.ofList extension))
    kind
    occupied := true
    time := created.time.pack
    date := created.date.pack
    first
    length }

/-- Whether the record is one of a directory. -/
def isDirectory (r : Record) : Bool :=
  r.kind == .directory

/-- The base of the name. -/
def baseName (r : Record) : String :=
  Utf8.decodeLossy (Bytes.trimZeros r.name.toList)

/-- The extension of the name. -/
def extensionName (r : Record) : String :=
  Utf8.decodeLossy (Bytes.trimZeros r.extension.toList)

/-- The name; a file with an extension has a dot before it. -/
def fullName (r : Record) : String :=
  if r.isDirectory || (Bytes.trimZeros r.extension.toList).isEmpty then r.baseName
  else s!"{r.baseName}.{r.extensionName}"

/-- Whether the record is that of an entry of the given name. -/
def isNamed (r : Record) (name : String) : Bool :=
  r.occupied && r.fullName == name

/-- Whether the record has the name of a directory's entry for itself or its parent. -/
def isDot (r : Record) : Bool :=
  let base := Bytes.trimZeros r.name.toList
  base == Utf8.encode Name.dot || base == Utf8.encode Name.dotdot

/-- The instant at which the entry was created. -/
def created (r : Record) : Timestamp :=
  ⟨Date.unpack r.date, Time.unpack r.time⟩

/-- The byte that stands for a kind. -/
def kindByte : Kind → UInt8
  | .directory => 0
  | .file => 1

/-- The bytes of a record. -/
def toBytes (r : Record) : Bytes :=
  r.name.toList ++ r.extension.toList ++ [kindByte r.kind, if r.occupied then 1 else 0]
    ++ List.replicate 9 0
    ++ Bytes.littleEndian 2 r.time.toNat ++ Bytes.littleEndian 2 r.date.toNat
    ++ Bytes.littleEndian 2 r.first.toNat ++ Bytes.littleEndian 4 r.length.toNat

/-- The record in the given bytes; bytes that are missing count as zero. -/
def ofBytes (bytes : Bytes) : Record where
  name := Bytes.padded 8 bytes
  extension := Bytes.padded 3 (bytes.drop 8)
  kind := if bytes.getD 11 0 == 0 then .directory else .file
  occupied := bytes.getD 12 0 != 0
  time := UInt16.ofNat (Bytes.value ((bytes.drop 22).take 2))
  date := UInt16.ofNat (Bytes.value ((bytes.drop 24).take 2))
  first := UInt16.ofNat (Bytes.value ((bytes.drop 26).take 2))
  length := UInt32.ofNat (Bytes.value ((bytes.drop 28).take 4))

@[simp]
theorem length_toBytes (r : Record) :
  r.toBytes.length = recordSize
  := by
  simp [toBytes]

end Record

/-- The place of a record: a slot of a directory block. -/
structure Location where
  block : Nat
  slot : Nat
  deriving DecidableEq, Repr, Inhabited

/-- A record together with the place it was read from. -/
structure Entry where
  location : Location
  record : Record
  deriving DecidableEq, Inhabited

end FatVolume
