import FatVolume.Error
import FatVolume.Session.WriteMode
import FatVolume.Text.Numeral

/-!
# Commands

A command is written as a name followed by its operands.  `Command.parse` reads it and
refuses operands that the command does not take.
-/

namespace FatVolume.Shell

/-- A command with its operands. -/
inductive Command where
  | format (full : Bool)
  | changeDirectory (path : String)
  | currentDirectory
  | makeDirectories (paths : List String)
  | removeDirectories (paths : List String)
  | list (long : Bool) (path : Option String)
  | createFiles (paths : List String)
  | removeFiles (paths : List String)
  | openPaths (paths : List String)
  | listOpen
  | closePaths (paths : List String)
  | closeAll
  /-- Writes the content after the command, from a position on if one is given. -/
  | write (mode : WriteMode) (path : String) (position : Option Nat)
  | readAll (path : String)
  /-- Reads from the cursor on, to the end if no count is given. -/
  | read (path : String) (count : Option Nat)
  | check
  | usage
  | help
  | exit
  deriving DecidableEq, Repr

namespace Command

/-- What `help` prints. -/
def helpText : String :=
  "format [-x]                     format the disk (-x: erase every block and save)\n"
    ++ "cd <path>                       change the current directory\n"
    ++ "pwd                             print the current directory\n"
    ++ "mkdir <path>...                 create directories\n"
    ++ "rmdir <path>...                 remove empty directories\n"
    ++ "ls [-l] [path]                  list a directory (-l: long format)\n"
    ++ "create <path>...                create empty files\n"
    ++ "rm <path>...                    remove files\n"
    ++ "open <path>... | -l             open files or list open files\n"
    ++ "close <path>... | -a            close files or close all\n"
    ++ "write [-w|-c|-a] <path> [pos]   write typed lines (-w: overwrite, -c: at cursor, -a: append);\n"
    ++ "                                finish with a line holding a single '.'\n"
    ++ "read [-s|-a] <path> [len]       read from the cursor (-s) or the whole file (-a)\n"
    ++ "fsck                            check the disk for consistency\n"
    ++ "df                              show block usage\n"
    ++ "exit                            save the disk and quit\n"

/-- Refuses operands that do not have the form of the synopsis. -/
def refuse {α : Type} (synopsis : String) : Except Error α :=
  .error (.invalidOperand (.usage synopsis))

/-- The number that an operand stands for. -/
def parseNumber (token : String) : Except Error Nat :=
  match Text.parseNat? token with
  | some n => .ok n
  | none => .error (.invalidOperand (.notANumber token))

/-- The paths of a command that takes at least one. -/
def parsePaths (operands : List String) : Except Error (List String) :=
  if operands.isEmpty then .error (.invalidOperand .missingPath) else .ok operands

/-- The operands of `ls`. -/
def parseList : List String → Except Error Command
  | [] => .ok (.list false none)
  | ["-l"] => .ok (.list true none)
  | ["-l", path] => .ok (.list true (some path))
  | [path] => .ok (.list false (some path))
  | _ => refuse "ls [-l] [path]"

/-- The mode that the operands of `write` begin with, and the other operands. -/
def parseMode : List String → WriteMode × List String
  | "-w" :: rest => (.overwrite, rest)
  | "-c" :: rest => (.cover, rest)
  | "-a" :: rest => (.append, rest)
  | rest => (.overwrite, rest)

/-- The operands of `write`. -/
def parseWrite (operands : List String) : Except Error Command :=
  let (mode, rest) := parseMode operands
  match rest with
  | [path] => .ok (.write mode path none)
  | [path, position] =>
      if mode = .cover then return .write mode path (some (← parseNumber position))
      else refuse "write [-w|-c|-a] <path> [pos]"
  | _ => refuse "write [-w|-c|-a] <path> [pos]"

/-- The operands of `read`. -/
def parseRead (operands : List String) : Except Error Command :=
  let (whole, rest) := match operands with
    | "-s" :: rest => (false, rest)
    | "-a" :: rest => (true, rest)
    | rest => (true, rest)
  match whole, rest with
  | true, [path] => .ok (.readAll path)
  | false, [path] => .ok (.read path none)
  | false, [path, count] => return .read path (some (← parseNumber count))
  | _, _ => refuse "read [-s|-a] <path> [len]"

/-- The command of the given name with the given operands. -/
def parse (name : String) (operands : List String) : Except Error Command :=
  match name with
  | "format" => match operands with
    | [] => .ok (.format false)
    | ["-x"] => .ok (.format true)
    | _ => refuse "format [-x]"
  | "cd" => match operands with
    | [path] => .ok (.changeDirectory path)
    | _ => refuse "cd <path>"
  | "pwd" => .ok .currentDirectory
  | "mkdir" => return .makeDirectories (← parsePaths operands)
  | "rmdir" => return .removeDirectories (← parsePaths operands)
  | "ls" => parseList operands
  | "create" => return .createFiles (← parsePaths operands)
  | "rm" => return .removeFiles (← parsePaths operands)
  | "open" => match operands with
    | [] => refuse "open <path>... | -l"
    | ["-l"] => .ok .listOpen
    | paths => .ok (.openPaths paths)
  | "close" => match operands with
    | [] => refuse "close <path>... | -a"
    | ["-a"] => .ok .closeAll
    | paths => .ok (.closePaths paths)
  | "write" => parseWrite operands
  | "read" => parseRead operands
  | "fsck" => .ok .check
  | "df" => .ok .usage
  | "help" => .ok .help
  | "exit" => .ok .exit
  | _ => .error (.invalidOperand (.unknownCommand name))

end Command

end FatVolume.Shell
