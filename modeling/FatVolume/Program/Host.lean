import FatVolume.Program.Basic
import FatVolume.Program.Files
import FatVolume.Text.Utf8

/-!
# Hosts

A host is the surroundings of a program with everything a program may ask for: a device
that may fail at any call, host files, an output channel and an error channel that may
break, and a log that goes to the error channel.  `Host.serve` serves requests.
-/

namespace FatVolume

/-- An output channel: how many bytes it still takes, unless it takes everything, and the
bytes it took. -/
structure Channel where
  room : Option Nat := none
  text : Array UInt8 := #[]
  deriving Inhabited

namespace Channel

/-- Writes to a channel.  A channel takes as much as there is room for and is broken if
that is not all. -/
def write (c : Channel) (bytes : Bytes) : Except Error Unit × Channel :=
  match c.room with
  | none => (.ok (), { c with text := c.text ++ bytes })
  | some room =>
      if bytes.length ≤ room then
        (.ok (), ⟨some (room - bytes.length), c.text ++ bytes⟩)
      else
        (.error (.io .brokenPipe), ⟨some 0, c.text ++ bytes.take room⟩)

end Channel

/-- Which device calls fail, by the number of calls made before and the kind of the call. -/
abbrev Faults : Type := Nat → DeviceCall → Bool

namespace Faults

/-- The faults of a device that works. -/
def none : Faults := fun _ _ => false

/-- The faults of a device that fails at every call of one kind. -/
def always (call : DeviceCall) : Faults := fun _ made => made == call

end Faults

/-- The state of a host. -/
structure Host where
  disk : Disk := {}
  files : Files := {}
  faults : Faults := .none
  /-- The number of device calls made. -/
  calls : Nat := 0
  /-- The number of device calls made to flush. -/
  flushes : Nat := 0
  verbosity : Verbosity := none
  out : Channel := {}
  err : Channel := {}
  deriving Inhabited

namespace Host

/-- Counts a device call; the call fails if it is one of the faults. -/
def call (host : Host) (kind : DeviceCall) : Except Error Unit × Host :=
  let refused := host.faults host.calls kind
  let flushes := if kind = .flush then host.flushes + 1 else host.flushes
  (if refused then .error (.io (.deviceFailure kind)) else .ok (),
    { host with calls := host.calls + 1, flushes })

/-- The device call that reads a block into a buffer of the given size. -/
def readBlock (host : Host) (block size : Nat) : Except Error Block × Host :=
  match host.call .read with
  | (.error e, host) => (.error e, host)
  | (.ok (), host) => (host.disk.image.read block size, host)

/-- The device call that writes a buffer to a block. -/
def writeBlock (host : Host) (block : Nat) (buffer : Array UInt8) :
    Except Error Unit × Host :=
  match host.call .write with
  | (.error e, host) => (.error e, host)
  | (.ok (), host) =>
      match host.disk.image.write block buffer with
      | .error e => (.error e, host)
      | .ok image => (.ok (), { host with disk := { host.disk with image } })

/-- Saves the disk to its host file. -/
def persist (host : Host) : Except Error (Option String) × Host :=
  match host.disk.backing with
  | none => (.ok none, host)
  | some path =>
      match host.files.write path host.disk.image.toBytes with
      | .error e => (.error (.io e), host)
      | .ok files => (.ok (some path), { host with files })

/-- The device call that flushes. -/
def flush (host : Host) : Except Error (Option String) × Host :=
  match host.call .flush with
  | (.error e, host) => (.error e, host)
  | (.ok (), host) => host.persist

/-- Shows an event on the error channel.  There is nowhere left to say that the channel is
broken. -/
def log (host : Host) (event : Event) : Host :=
  if host.verbosity.shows event.level then
    { host with err := (host.err.write (Utf8.encode event.render)).2 }
  else host

/-- Serves the requests of a program. -/
def serve : Surroundings Host
  | .readBlock block, host => host.readBlock block blockSize
  | .writeBlock block data, host => host.writeBlock block data.toArray
  | .flush, host => host.flush
  | .insert disk, host => ((), { host with disk })
  | .readFile path, host => (host.files.read path, host)
  | .writeFile path bytes, host =>
      match host.files.write path bytes with
      | .error e => (.error e, host)
      | .ok files => (.ok (), { host with files })
  | .log event, host => ((), host.log event)
  | .print bytes, host =>
      let (answer, out) := host.out.write bytes
      (answer, { host with out })
  | .report bytes, host =>
      let (answer, err) := host.err.write bytes
      (answer, { host with err })

end Host

end FatVolume
