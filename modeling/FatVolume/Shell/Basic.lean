import FatVolume.Session.Basic
import FatVolume.Shell.Command
import FatVolume.Shell.Listing
import FatVolume.Shell.Script
import FatVolume.Text.Utf8

/-!
# The shell

A shell runs a script in a session.  A command that fails is reported on the error channel
and the script goes on; the script ends with `exit`, with the input, or when the input
cannot be read or the output cannot be written.  However it ends, the session is shut down.
-/

namespace FatVolume.Shell

/-- Prints a text. -/
def print (text : String) : DiskM Unit :=
  DiskM.print (Utf8.encode text)

/-- Prints a line. -/
def printLine (text : String) : DiskM Unit :=
  print (text ++ "\n")

/-- Reports the failure of what `subject` names.  Where the error channel is broken the
failure is logged. -/
def report (subject : String) (failure : Error) : Program Unit := do
  let line := s!"{subject}: {failure.message}"
  match ← Program.request (.report (Utf8.encode (line ++ "\n"))) with
  | .ok () => pure ()
  | .error _ => Program.log .warn .shell line

/-- Does something for every path and reports each failure. -/
def forEach (name : String) (paths : List String) (action : String → SessionM Unit) :
    SessionM Unit :=
  paths.forM fun path =>
    tryCatch (action path) fun failure => report s!"{name} {path}" failure

/-- Opens a path and prints its handle. -/
def openOne (path : String) : SessionM Unit := do
  let opened ← tryCatch (return some (← Session.openPath path)) fun failure => do
    report s!"open {path}" failure
    return none
  match opened with
  | some handle => printLine s!"{path}: fd {handle}"
  | none => pure ()

/-- Prints the content read from a file, and a line end if it has none. -/
def printContent (content : Bytes) : DiskM Unit := do
  DiskM.print content
  if content.getLast? ≠ some lineFeed then DiskM.print [lineFeed]

/-- Performs a command, which the given content follows. -/
def perform (content : Bytes) : Command → SessionM Unit
  | .format full => do
      Session.reformat full
      printLine "disk formatted"
  | .changeDirectory path => Session.changeDirectory path
  | .currentDirectory => do printLine (← get).currentPath
  | .makeDirectories paths => forEach "mkdir" paths fun path => discard (Session.makeDirectory path)
  | .removeDirectories paths => forEach "rmdir" paths Session.removeDirectory
  | .list long path => do
      let entries ← Session.list path
      if long then entries.forM fun entry => (printLine (longLine entry.record) : SessionM Unit)
      else printLine (shortLine entries)
  | .createFiles paths => forEach "create" paths fun path => discard (Session.createFile path)
  | .removeFiles paths => forEach "rm" paths Session.removeFile
  | .openPaths paths => paths.forM openOne
  | .listOpen => do
      printLine openHeading
      (← get).openFiles.occupied.forM fun (handle, file) =>
        (printLine (openLine handle file) : SessionM Unit)
  | .closePaths paths => forEach "close" paths fun path => do
      Session.close (← Session.handleOf path)
  | .closeAll => Session.closeAll
  | .write mode path position => do
      let handle ← Session.handleOf path
      if (← Session.openFile handle).record.isDirectory then throw .notFile
      if let some position := position then discard (Session.seek handle position)
      let written ← Session.write handle content mode
      printLine s!"{written} bytes written"
  | .readAll path => do
      printContent (← Session.readAll (← Session.handleOf path))
  | .read path count => do
      printContent (← Session.read (← Session.handleOf path) (count.getD Text.maxNat64))
  | .check => do
      let usage ← Session.check
      printLine s!"clean: {usage.used} of {usage.total} blocks used"
  | .usage => do
      let usage ← Session.usage
      printLine s!"{usage.total} blocks total, {usage.used} used, {usage.free} free"
  | .help => print Command.helpText
  | .exit => pure ()

/-- What happens after a command. -/
inductive Flow where
  | next
  | stop
  deriving DecidableEq, Repr

/-- Executes the command of a turn.  Only `exit` stops the script. -/
def execute (turn : Turn) : StateT Session Program Flow :=
  match turn.tokens with
  | [] => return .next
  | name :: operands => do
      let parsed : Except Error (Command × Bytes) := do
        let content ← turn.content
        return (← Command.parse name operands, content)
      match parsed with
      | .error failure => report name failure
      | .ok (.exit, _) => return .stop
      | .ok (command, content) =>
          match ← (perform content command).run with
          | .ok () => pure ()
          | .error failure => report name failure
      return .next

/-- Shows the current directory and waits for a command. -/
def prompt : SessionM Unit := do
  print s!"{(← get).currentPath}> "

/-- Runs a script up to its end, without shutting the session down. -/
def follow : Script → SessionM Unit
  | .endOfInput => do
      prompt
      printLine ""
  | .unreadable => do
      prompt
      throw (.io .invalidUtf8)
  | .turn turn rest => do
      prompt
      match ← execute turn with
      | .next => follow rest
      | .stop => pure ()

/-- Runs a script and shuts the session down.  An error of the script goes before one of the
shutdown. -/
def run (script : Script) : StateT Session Program (Except Error Unit) := do
  let followed ← (follow script).run
  let closed ← Session.shutdown.run
  return followed >>= fun _ => closed

end FatVolume.Shell
