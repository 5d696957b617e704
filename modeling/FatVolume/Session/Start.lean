import FatVolume.Session.Basic

/-!
# Disks in host files

A disk can be kept in a host file, which is read as a whole when a session starts and
written as a whole when the disk is saved.  A file that does not exist becomes a fresh
volume.
-/

namespace FatVolume

namespace Disk

/-- Puts the disk of a host file into the device and returns whether the file is fresh, that
is did not exist before.  A fresh file is written right away, so that a session does not
start on a file that cannot be saved. -/
def load (path : String) : DiskM Bool := do
  match ← (Program.request (.readFile path) : Program _) with
  | .ok bytes =>
      if bytes.size ≠ volumeSize then
        Program.log .warn .device
          (s!"backing file {path} holds {bytes.size} bytes, "
            ++ s!"expected {volumeSize}; resizing")
      Program.log .info .device s!"loaded disk image from {path}"
      (Program.request (.insert ⟨Image.ofBytes bytes, some path⟩) : Program Unit)
      return false
  | .error .notFound =>
      Program.log .info .device s!"no disk image at {path}, starting from a blank disk"
      match ← (Program.request (.writeFile path (Array.replicate volumeSize 0)) : Program _) with
      | .ok () =>
          (Program.request (.insert ⟨.zero, some path⟩) : Program Unit)
          return true
      | .error failure => throw (.io failure)
  | .error failure => throw (.io failure)

end Disk

namespace Session

/-- Begins a session on the disk of a host file.  A fresh disk is formatted and saved. -/
def start (path : String) (clock : Timestamp) : DiskM Session := do
  if ← Disk.load path then
    Volume.format clock
    DiskM.flush
  mount clock

end Session

end FatVolume
