import FatVolume.Program.Host
import FatVolume.Session.Start
import FatVolume.Shell.Basic
import FatVolume.Text.Quoted

/-!
# The command line

The program runs a shell on the disk in a host file.  The last argument that is not an
option names the file, and the last option how much of the log is shown.  Where the
arguments leave one of the two open the environment decides, and a default where the
environment is silent too; `configure` says what comes out.
-/

namespace FatVolume.Cli

/-- What the command line asks for. -/
structure Configuration where
  image : String
  verbosity : Verbosity
  deriving DecidableEq, Repr

/-- Why a command line is refused. -/
inductive UsageError where
  | badVerbosity (value : String)
  | unknownOption (option : String)
  deriving DecidableEq, Repr

def UsageError.message : UsageError → String
  | badVerbosity value => s!"bad GLUON_LOG value {Text.quoted value}"
  | unknownOption option => s!"unknown option {option}"

/-- The host file of a disk that nothing names. -/
def defaultImage : String := "./fsfile"

/-- The variables of the environment that matter. -/
structure Environment where
  image : Option String := none
  verbosity : Option String := none

/-- The configuration without arguments. -/
def Environment.configuration (environment : Environment) :
    Except UsageError Configuration := do
  let verbosity ← match environment.verbosity with
    | none => pure (some .warn)
    | some name => match Verbosity.ofName? name with
      | some verbosity => pure verbosity
      | none => throw (.badVerbosity name)
  return { image := environment.image.getD defaultImage, verbosity }

/-- The configuration changed by one argument. -/
def Configuration.withArgument (configuration : Configuration) (argument : String) :
    Except UsageError Configuration :=
  if argument == "-v" then .ok { configuration with verbosity := some .debug }
  else if argument == "-q" then .ok { configuration with verbosity := some .error }
  else if argument.toList.head? == some '-' then .error (.unknownOption argument)
  else .ok { configuration with image := argument }

/-- The configuration that the environment and the arguments ask for. -/
def configure (environment : Environment) (arguments : List String) :
    Except UsageError Configuration := do
  arguments.foldlM Configuration.withArgument (← environment.configuration)

/-- What is said about a command line that is refused. -/
def usageText (refusal : UsageError) : String :=
  s!"gluon: {refusal.message}\nusage: gluon [IMAGE] [-v|-q]\n"

/-- Says that the disk cannot be used. -/
def reportStart (image : String) (failure : Error) : Program Unit :=
  Program.log .error .program s!"cannot start file system on {image}: {failure.message}"

/-- Says that a session did not end well. -/
def reportEnd (image : String) (failure : Error) : Program Unit :=
  Program.log .error .program s!"cannot save disk image {image}: {failure.message}"

/-- Runs a script on the disk in a host file.  Returns whether all went well. -/
def runOn (image : String) (clock : Timestamp) (script : Shell.Script) : Program Bool := do
  match ← (Session.start image clock).run with
  | .error failure =>
      reportStart image failure
      return false
  | .ok session =>
      let (result, _) ← (Shell.run script).run session
      match result with
      | .ok () => return true
      | .error failure =>
          reportEnd image failure
          return false

/-- The whole program on a host, with the given input.  Returns whether all went well. -/
def run (environment : Environment) (arguments : List String) (clock : Timestamp)
    (input : Bytes) (host : Host) : Bool × Host :=
  match configure environment arguments with
  | .error refusal =>
      (false, { host with err := (host.err.write (Utf8.encode (usageText refusal))).2 })
  | .ok configuration =>
      (runOn configuration.image clock (.ofInput input)).run Host.serve
        { host with verbosity := configuration.verbosity }

end FatVolume.Cli
