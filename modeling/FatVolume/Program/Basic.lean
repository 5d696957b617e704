import FatVolume.Disk.Image
import FatVolume.Program.Event

/-!
# Programs

A program works on a disk by asking its surroundings: for blocks, for files of the host,
and for its log and its two output channels.  `Program α` is the tree of all requests it
may make, branching over the answers, with results of type `α` at its leaves.  The
surroundings are a function that serves requests; `Program.run` is a program in
surroundings, and `run_bind` says that running is compatible with sequencing.
-/

namespace FatVolume

/-- A disk: the image a device holds, and the host file it is saved to. -/
structure Disk where
  image : Image := .zero
  backing : Option String := none
  deriving Inhabited

/-- What a program may ask of its surroundings. -/
inductive Request where
  /-- The content of a block. -/
  | readBlock (block : Nat)
  /-- To put content into a block. -/
  | writeBlock (block : Nat) (data : Block)
  /-- To save the disk to its host file. -/
  | flush
  /-- To put a disk into the device. -/
  | insert (disk : Disk)
  /-- The content of a host file. -/
  | readFile (path : String)
  /-- To put content into a host file. -/
  | writeFile (path : String) (bytes : Array UInt8)
  /-- To log an event. -/
  | log (event : Event)
  /-- To write to the output channel. -/
  | print (bytes : Bytes)
  /-- To write to the error channel. -/
  | report (bytes : Bytes)

/-- The type of the answer to a request; a flush answers with the path saved to. -/
abbrev Request.Answer : Request → Type
  | readBlock _ => Except Error Block
  | writeBlock _ _ => Except Error Unit
  | flush => Except Error (Option String)
  | insert _ => Unit
  | readFile _ => Except IoError (Array UInt8)
  | writeFile _ _ => Except IoError Unit
  | log _ => Unit
  | print _ => Except Error Unit
  | report _ => Except Error Unit

/-- A program with results of type `α`. -/
inductive Program (α : Type) : Type where
  | done (result : α)
  | ask (request : Request) (next : request.Answer → Program α)

/-- Surroundings with states of type `σ`. -/
abbrev Surroundings (σ : Type) : Type :=
  (request : Request) → σ → request.Answer × σ

namespace Program

variable {α β γ σ : Type}

/-- Goes on with another program where this one is done. -/
protected def bind (p : Program α) (f : α → Program β) : Program β :=
  match p with
  | done result => f result
  | ask request next => ask request fun answer => (next answer).bind f

instance : Monad Program where
  pure := done
  bind := Program.bind

/-- The program of a single request. -/
def request (r : Request) : Program r.Answer :=
  ask r done

/-- Logs an event. -/
def log (level : Level) (source : Component) (message : String) : Program Unit :=
  request (.log ⟨level, source, message⟩)

/-- The result of a program in the given surroundings, and the state it leaves them in. -/
def run (serve : Surroundings σ) : Program α → σ → α × σ
  | done result, s => (result, s)
  | ask r next, s => run serve (next (serve r s).1) (serve r s).2

@[simp]
theorem bind_done (result : α) (f : α → Program β) :
  (done result).bind f = f result
  := rfl

@[simp]
theorem bind_ask (r : Request) (next : r.Answer → Program α) (f : α → Program β) :
  (ask r next).bind f = ask r fun answer => (next answer).bind f
  := rfl

theorem bind_eq (p : Program α) (f : α → Program β) :
  p >>= f = p.bind f
  := rfl

theorem bind_pure (p : Program α) :
  p.bind done = p
  := by
  induction p with
  | done result => rfl
  | ask r next ih => simp [ih]

theorem bind_assoc (p : Program α) (f : α → Program β) (g : β → Program γ) :
  (p.bind f).bind g = p.bind fun a => (f a).bind g
  := by
  induction p with
  | done result => rfl
  | ask r next ih => simp [ih]

instance : LawfulMonad Program :=
  LawfulMonad.mk' Program bind_pure (fun _ _ => rfl) bind_assoc

@[simp]
theorem run_pure (serve : Surroundings σ) (result : α) (s : σ) :
  (pure result : Program α).run serve s = (result, s)
  := rfl

@[simp]
theorem run_request (serve : Surroundings σ) (r : Request) (s : σ) :
  (request r).run serve s = serve r s
  := rfl

/-- A sequence is run by running its second part in the state its first part leaves. -/
@[simp]
theorem run_bind (serve : Surroundings σ) (p : Program α) (f : α → Program β) (s : σ) :
  (p >>= f).run serve s = (f (p.run serve s).1).run serve (p.run serve s).2
  := by
  rw [bind_eq]
  induction p generalizing s with
  | done result => rfl
  | ask r next ih => simp [run, ih]

end Program

/-- A program that works on a disk and may fail. -/
abbrev DiskM : Type → Type := ExceptT Error Program

namespace DiskM

/-- The program that makes no request and has the given result. -/
def ofExcept {α : Type} (result : Except Error α) : DiskM α :=
  ExceptT.mk (pure result)

/-- The content of a block. -/
def readBlock (block : Nat) : DiskM Block :=
  ExceptT.mk (Program.request (.readBlock block))

/-- Puts content into a block. -/
def writeBlock (block : Nat) (data : Block) : DiskM Unit :=
  ExceptT.mk (Program.request (.writeBlock block data))

/-- Saves the disk to its host file, if it has one. -/
def flush : DiskM Unit := do
  let saved ← ExceptT.mk (Program.request .flush)
  match saved with
  | some path => Program.log .info .device s!"persisted disk image to {path}"
  | none => pure ()

/-- Writes to the output channel. -/
def print (bytes : Bytes) : DiskM Unit :=
  ExceptT.mk (Program.request (.print bytes))

end DiskM

namespace Image

/-- The surroundings of a program that only works on a disk: a device that holds the image,
without a host file, and does not fail, channels that take everything, and no files. -/
def serve : Surroundings Image
  | .readBlock block, image => (image.read block blockSize, image)
  | .writeBlock block data, image =>
      match image.write block data.toArray with
      | .ok image' => (.ok (), image')
      | .error e => (.error e, image)
  | .flush, image => (.ok none, image)
  | .insert disk, _ => ((), disk.image)
  | .readFile _, image => (.error .notFound, image)
  | .writeFile _ _, image => (.error .notFound, image)
  | .log _, image => ((), image)
  | .print _, image => (.ok (), image)
  | .report _, image => (.ok (), image)

end Image

end FatVolume
