/-!
# Errors

`Error` lists the reasons for which an operation on a volume fails, and `Error.message`
writes each of them as a sentence for the user.  The reasons with a cause of their own,
an I/O failure, a corrupted volume or a bad operand, carry it as a value.
-/

namespace FatVolume

/-- The calls a block device answers. -/
inductive DeviceCall where
  | read
  | write
  | flush
  deriving DecidableEq, Repr

/-- The name of a device call. -/
def DeviceCall.name : DeviceCall → String
  | read => "read"
  | write => "write"
  | flush => "flush"

/-- Why a stream, a host file or a device refused a call. -/
inductive IoError where
  /-- The reader of an output channel is gone. -/
  | brokenPipe
  /-- A line of input is not well-formed UTF-8. -/
  | invalidUtf8
  /-- A host path names a directory. -/
  | isDirectory
  /-- A host path names nothing. -/
  | notFound
  /-- A host path leads through a file. -/
  | notDirectory
  /-- A host path, or a name on it, has too many bytes. -/
  | nameTooLong
  /-- A host path holds the null character. -/
  | nullInName
  /-- The device failed. -/
  | deviceFailure (call : DeviceCall)
  /-- The host refused for another reason, which it describes. -/
  | other (description : String)
  deriving DecidableEq, Repr

def IoError.message : IoError → String
  | brokenPipe => "broken pipe"
  | invalidUtf8 => "stream did not contain valid UTF-8"
  | isDirectory => "Is a directory (os error 21)"
  | notFound => "No such file or directory (os error 2)"
  | notDirectory => "Not a directory (os error 20)"
  | nameTooLong => "File name too long (os error 36)"
  | nullInName => "file name contained an unexpected NUL byte"
  | deviceFailure call => s!"injected {call.name} failure"
  | other description => description

/-- What is wrong with a volume. -/
inductive Corruption where
  /-- The chain returns to a block it already holds. -/
  | chainLoops (first : Nat)
  /-- The chain points past the end of the allocation table. -/
  | chainLeavesDisk (first : Nat)
  /-- The chain points to a block that is free. -/
  | chainReachesFree (first block : Nat)
  /-- The chain has too few blocks for the length of its file. -/
  | chainTooShort (first : Nat)
  /-- A directory block has no such slot. -/
  | slotOutOfBlock (slot : Nat)
  /-- A fresh volume has its root directory at the wrong block. -/
  | rootMisplaced (block : Nat)
  /-- The two copies of the allocation table are not the same. -/
  | tableCopiesDiffer
  /-- A block of the volume itself is not marked as the end of a chain. -/
  | reservedNotAllocated (block : Nat)
  /-- The root directory has a wrong number of blocks. -/
  | rootSpanWrong
  /-- A directory has no room for the entries of itself and its parent. -/
  | dotsMissing (path : String)
  /-- The entry of the directory itself or of its parent is wrong. -/
  | dotWrong (path name : String)
  /-- An entry of the directory itself or of its parent stands in a further slot. -/
  | dotStray (path : String)
  /-- Two entries of a directory have one name. -/
  | nameDuplicate (path : String)
  /-- A block belongs to two owners. -/
  | blockShared (block : Nat) (owner : String)
  /-- The number of blocks does not fit the length. -/
  | spanWrong (path : String) (blocks length : Nat)
  /-- Allocated blocks belong to nothing that can be reached. -/
  | unreachable (blocks : Nat)
  /-- Directories are nested more deeply than there are blocks. -/
  | nestedTooDeep (path : String)
  deriving DecidableEq, Repr

def Corruption.message : Corruption → String
  | chainLoops first => s!"chain from block {first} loops"
  | chainLeavesDisk first => s!"chain from block {first} leaves the disk"
  | chainReachesFree first block => s!"chain from block {first} reaches free block {block}"
  | chainTooShort first => s!"chain from block {first} shorter than its length"
  | slotOutOfBlock slot => s!"slot {slot} out of directory block"
  | rootMisplaced block => s!"root directory landed at block {block}"
  | tableCopiesDiffer => "FAT copies differ"
  | reservedNotAllocated block => s!"reserved block {block} is not allocated"
  | rootSpanWrong => "root directory has the wrong span"
  | dotsMissing path => s!"{path}: missing dot entries"
  | dotWrong path name => s!"{path}: bad \"{name}\" entry"
  | dotStray path => s!"{path}: stray dot entry"
  | nameDuplicate path => s!"{path}: duplicate name"
  | blockShared block owner => s!"block {block} of {owner} is shared"
  | spanWrong path blocks length => s!"{path}: {blocks} blocks for a length of {length}"
  | unreachable blocks => s!"{blocks} blocks allocated but not reachable"
  | nestedTooDeep path => s!"{path}: nested too deeply"

/-- What is wrong with the operands of a command. -/
inductive OperandError where
  /-- The operands do not have the form that the synopsis gives. -/
  | usage (synopsis : String)
  | missingPath
  | notANumber (token : String)
  | unknownCommand (name : String)
  deriving DecidableEq, Repr

def OperandError.message : OperandError → String
  | usage synopsis => synopsis
  | missingPath => "missing path"
  | notANumber token => s!"not a number: {token}"
  | unknownCommand name => s!"unknown command {name}"

/-- Why an operation on a volume fails. -/
inductive Error where
  | io (cause : IoError)
  | invalidSuperblock
  | invalidBlock (block : Nat)
  | badBufferSize
  | corrupted (cause : Corruption)
  | notFound
  | alreadyExists
  | outOfSpace
  | openTableFull
  | directoryFull
  | invalidName
  | invalidPath
  | invalidHandle (handle : Nat)
  | invalidOperand (cause : OperandError)
  | notDirectory
  | notFile
  | notEmpty
  | busy
  | alreadyOpen
  | notOpen
  | notPermitted
  deriving DecidableEq, Repr

def Error.message : Error → String
  | io cause => s!"I/O error on backing file: {cause.message}"
  | invalidSuperblock => "invalid superblock"
  | invalidBlock block => s!"invalid block id {block}"
  | badBufferSize => "buffer size does not match block size"
  | corrupted cause => s!"file system is corrupted: {cause.message}"
  | notFound => "no such file or directory"
  | alreadyExists => "file or directory already exists"
  | outOfSpace => "no space left on disk"
  | openTableFull => "open file table is full"
  | directoryFull => "directory is full"
  | invalidName => "invalid file name"
  | invalidPath => "invalid path"
  | invalidHandle handle => s!"invalid handle {handle}"
  | invalidOperand cause => s!"invalid argument: {cause.message}"
  | notDirectory => "not a directory"
  | notFile => "not a regular file"
  | notEmpty => "directory not empty"
  | busy => "file is open"
  | alreadyOpen => "file is already open"
  | notOpen => "file is not open"
  | notPermitted => "operation not permitted on this entry"

end FatVolume
