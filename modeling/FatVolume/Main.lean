import FatVolume.Cli
import Std.Time.Zoned

/-!
# The program

The shell on a terminal: requests are served by the files, the streams and the clock of the
system, and lines are read as they are typed.
-/

namespace FatVolume.Main

/-- The error number of the system, which may come negated. -/
def errorNumber (code : UInt32) : UInt32 :=
  min code (0 - code)

/-- The cause of a failure of the system. -/
def causeOf (failure : IO.Error) : IoError :=
  match failure with
  | .noFileOrDirectory _ _ _ => .notFound
  | .inappropriateType _ code _ =>
      if errorNumber code == 20 then .notDirectory else .isDirectory
  | .resourceVanished _ _ => .brokenPipe
  | .invalidArgument _ code _ =>
      if errorNumber code == 36 then .nameTooLong else .other failure.toString
  | _ => .other failure.toString

/-- Performs an action of the system and returns its failure as a value. -/
def attempt {α : Type} (action : IO α) : IO (Except IoError α) := do
  match ← action.toBaseIO with
  | .ok result => return .ok result
  | .error failure => return .error (causeOf failure)

/-- Writes to a stream. -/
def writeTo (stream : IO.FS.Stream) (bytes : Bytes) : IO (Except Error Unit) := do
  let written ← attempt do
    stream.write ⟨bytes.toArray⟩
    stream.flush
  return written.mapError .io

/-- Writes a file. -/
def writeFile (path : String) (bytes : Array UInt8) : IO (Except IoError Unit) :=
  attempt (IO.FS.writeBinFile path ⟨bytes⟩)

/-- Serves a request; the disk in the device is kept in memory. -/
def serve (verbosity : Verbosity) (device : IO.Ref Disk) : (request : Request) → IO request.Answer
  | .readBlock block => return (← device.get).image.read block blockSize
  | .writeBlock block data => do
      match (← device.get).image.write block data.toArray with
      | .error failure => return .error failure
      | .ok image =>
          device.modify fun disk => { disk with image }
          return .ok ()
  | .flush => do
      let disk ← device.get
      match disk.backing with
      | none => return .ok none
      | some path =>
          match ← writeFile path disk.image.toBytes with
          | .error failure => return .error (.io failure)
          | .ok () => return .ok (some path)
  | .insert disk => device.set disk
  | .readFile path => do
      return (← attempt (IO.FS.readBinFile path)).map ByteArray.data
  | .writeFile path bytes => writeFile path bytes
  | .log event => do
      if verbosity.shows event.level then
        let _ ← writeTo (← IO.getStderr) (Utf8.encode event.render)
  | .print bytes => do writeTo (← IO.getStdout) bytes
  | .report bytes => do writeTo (← IO.getStderr) bytes

/-- Carries a program out, each request as it is made. -/
def perform {α : Type} (serve : (request : Request) → IO request.Answer) : Program α → IO α
  | .done result => return result
  | .ask request next => do perform serve (next (← serve request))

/-- The instant that the clock of the system shows. -/
def now : IO Timestamp := do
  let t ← Std.Time.PlainDateTime.now
  let date := Date.new t.year.toInt.toNat t.month.toInt.toNat t.day.toInt.toNat
  let time := Time.new t.hour.toInt.toNat t.minute.toInt.toNat (min t.second.toInt.toNat 59)
  return ⟨date.toOption.getD default, time.toOption.getD default⟩

/-- Reads a line, whose first bytes have been read already, last first. -/
partial def readLine (stream : IO.FS.Stream) (taken : Bytes) : IO Shell.Line := do
  match (← stream.read 1).data.toList with
  | b :: _ =>
      if b == Shell.lineFeed then return (b :: taken).reverse else readLine stream (b :: taken)
  | [] => return taken.reverse

/-- Reads the lines of a content up to the one that ends it. -/
partial def readContent (stream : IO.FS.Stream) (taken : List Shell.Line) :
    IO (List Shell.Line) := do
  let line ← readLine stream []
  if line.isEmpty then return taken.reverse
  match Utf8.decode? line with
  | none => return (line :: taken).reverse
  | some text =>
      if Shell.endsContent text then return (line :: taken).reverse
      else readContent stream (line :: taken)

/-- Runs the shell on what is typed. -/
partial def converse (serve : (request : Request) → IO request.Answer) (session : Session) :
    IO (Except Error Unit × Session) := do
  let session := { session with clock := ← now }
  match ← perform serve (Shell.prompt.run session) with
  | (.error failure, session) => return (.error failure, session)
  | (.ok (), session) =>
      let input ← IO.getStdin
      let line ← readLine input []
      if line.isEmpty then
        return (← perform serve (Shell.printLine "").run, session)
      match Utf8.decode? line with
      | none => return (.error (.io .invalidUtf8), session)
      | some text =>
          let tokens := Text.words text
          let content ←
            if Shell.Turn.takesContent tokens then readContent input [] else pure []
          let turn := (Shell.Turn.ofTokens tokens content).1
          match ← perform serve ((Shell.execute turn).run session) with
          | (.next, session) => converse serve session
          | (.stop, session) => return (.ok (), session)

/-- Runs the shell on the disk in a host file and returns the exit code. -/
def runOn (configuration : Cli.Configuration) : IO UInt32 := do
  let serve := serve configuration.verbosity (← IO.mkRef {})
  match ← perform serve (Session.start configuration.image (← now)).run with
  | .error failure =>
      perform serve (Cli.reportStart configuration.image failure)
      return 1
  | .ok session =>
      let (conversed, session) ← converse serve session
      let (closed, _) ← perform serve (Session.shutdown.run session)
      match conversed >>= fun _ => closed with
      | .ok () => return 0
      | .error failure =>
          perform serve (Cli.reportEnd configuration.image failure)
          return 1

/-- Runs the program with the given arguments and returns the exit code. -/
def run (arguments : List String) : IO UInt32 := do
  let environment : Cli.Environment :=
    { image := ← IO.getEnv "GLUON_IMAGE", verbosity := ← IO.getEnv "GLUON_LOG" }
  match Cli.configure environment arguments with
  | .error refusal =>
      IO.eprint (Cli.usageText refusal)
      return 1
  | .ok configuration => runOn configuration

end FatVolume.Main

/-- Runs the shell on the disk that the arguments name. -/
def main (arguments : List String) : IO UInt32 :=
  FatVolume.Main.run arguments
