import FatVolume.Proofs.Beginning
import FatVolume.Proofs.GuardedSessions
import FatVolume.Proofs.StaleData

/-!
# Disks without order

Nothing needs to be known of a disk for working on it.  Mounting it fails, or begins a session in
which no history of operations ever faults: with guards at every partial operation each step does
what it does without.  Only checking is left out.
-/

namespace FatVolume

/-! ### Steps with guards -/

namespace Guarded

/-- Performs an operation.  Checking has no guards. -/
def Operation.perform : Operation → GuardedSession Answer
  | .makeDirectory path => return .entry (← Session.createAt path .directory)
  | .createFile path => return .entry (← Session.createAt path .file)
  | .removeDirectory path => do Session.removeDirectory path; return .done
  | .removeFile path => do Session.removeFile path; return .done
  | .list path => return .entries (← Session.list path)
  | .lookup path => return .entry (← Session.lookup path)
  | .openPath path => return .handle (← Session.openPath path)
  | .handleOf path => return .handle (← (Session.handleOf path : SessionM _))
  | .close handle => do Session.close handle; return .done
  | .closeAll => do Session.closeAll; return .done
  | .setDirectory handle => do (Session.setDirectory handle : SessionM _); return .done
  | .changeDirectory path => do Session.changeDirectory path; return .done
  | .read handle count => return .bytes (← Session.read handle count)
  | .readAll handle => return .bytes (← Session.readAll handle)
  | .seek handle position => return .position (← (Session.seek handle position : SessionM _))
  | .write handle content mode => return .written (← Session.write handle content mode)
  | .openFile handle => return .openFile (← (Session.openFile handle : SessionM _))
  | .check => return .usage (← (Session.check : SessionM _))
  | .usage => return .usage (← Session.usage)
  | .reformat full => do Session.reformat full; return .done
  | .shutdown => do Session.shutdown; return .done

/-- Performs the operation of a step in a state. -/
def Step.exec (step : Step) (state : State) :
    Except Fault (Except Error Answer × Session × Image) :=
  (Operation.perform step.operation).runIn Image.serve (state.session.atTime step.now) state.image

/-- The results of the steps of a history, and the state after it. -/
def State.run (state : State) : List Step → Except Fault (List (Except Error Answer) × State)
  | [] => return ([], state)
  | step :: rest => do
      let (result, session, image) ← Step.exec step state
      let (results, final) ← run ⟨session, image⟩ rest
      return (result :: results, final)

end Guarded

/-! ### The guards hold -/

/-- A content to be written is a sequence in memory, where none takes more than half of all
addresses. -/
def Operation.InMemory : Operation → Prop
  | write _ content _ => content.length < 2 ^ 63
  | _ => True

namespace SessionM.Faultless

variable {α : Type} {guarded : GuardedSession α} {action : SessionM α} {P : α → Prop}

/-- An operation faults no more than the action with whose result it answers. -/
theorem answer (h : Faultless guarded action P) (answer : α → Answer) :
  Faultless (guarded >>= fun a => pure (answer a)) (action >>= fun a => pure (answer a))
    fun _ => True
  := h.bind fun _ _ => faultless_pure trivial

end SessionM.Faultless

open Session SessionM in
theorem Operation.faultless_perform {operation : Operation} (h : operation ≠ .check)
    (h' : operation.InMemory) :
  Faultless (Guarded.Operation.perform operation) operation.perform fun _ => True
  := by
  cases operation with
  | makeDirectory path => exact (faultless_createAt path .directory).answer _
  | createFile path => exact (faultless_createAt path .file).answer _
  | removeDirectory path => exact (faultless_removeDirectory path).answer fun _ => .done
  | removeFile path => exact (faultless_removeFile path).answer fun _ => .done
  | list path => exact (faultless_list path).answer _
  | lookup path => exact (faultless_lookup path).answer _
  | openPath path => exact (faultless_openPath path).answer _
  | handleOf path => exact (faultless_lift (keeps_handleOf path)).answer _
  | close handle => exact (faultless_close handle).answer fun _ => .done
  | closeAll => exact faultless_closeAll.answer fun _ => .done
  | setDirectory handle => exact (faultless_lift (keeps_setDirectory handle)).answer fun _ => .done
  | changeDirectory path => exact (faultless_changeDirectory path).answer fun _ => .done
  | read handle count => exact (faultless_read handle count).answer _
  | readAll handle => exact (faultless_readAll handle).answer _
  | seek handle position => exact (faultless_lift (keeps_seek handle position)).answer _
  | write handle content mode => exact (faultless_write handle h' mode).answer _
  | openFile handle => exact (faultless_lift (keeps_openFile handle)).answer _
  | check => exact absurd rfl h
  | usage => exact faultless_usage.answer _
  | reformat full => exact (faultless_reformat full).answer fun _ => .done
  | shutdown => exact faultless_shutdown.answer fun _ => .done

/-! ### Histories -/

namespace State

variable {state : State} (h : state.session.Bounded)
include h

/-- A step does not fault, and leaves the session bounded. -/
theorem guarded_step {step : Step} (unchecked : step.operation ≠ .check)
    (inMemory : step.operation.InMemory) :
  Guarded.Step.exec step state = .ok (step.exec state) ∧ (step.next state).session.Bounded
  := by
  have faultless := Operation.faultless_perform unchecked inMemory
  have bounded : (state.session.atTime step.now).Bounded := ⟨h.root, h.openFiles⟩
  exact ⟨faultless.eq Image.serve _ _ bounded, (faultless.keeps Image.serve _ _ bounded).1⟩

/-- No step of a history faults. -/
theorem guarded_run {history : List Step}
    (admissible : ∀ step ∈ history, step.operation ≠ .check ∧ step.operation.InMemory) :
  Guarded.State.run state history = .ok (state.results history, state.run history)
  := by
  induction history generalizing state with
  | nil => rfl
  | cons step rest ih =>
      obtain ⟨⟨unchecked, inMemory⟩, further⟩ := List.forall_mem_cons.mp admissible
      obtain ⟨hstep, bounded⟩ := guarded_step h unchecked inMemory
      rw [Guarded.State.run, hstep, Guarded.ok_bind]
      show Guarded.State.run (step.next state) rest >>= (fun run =>
        pure (step.result state :: run.1, run.2)) = _
      rw [ih bounded further]
      rfl

end State

/-- Mounting succeeds or fails, but it does not fault, whatever the disk holds.  Nor does any history
of operations other than checking in the session that begins: with guards at every partial operation
it has the results and leads to the state that it does without. -/
theorem faultless_throughout (clock : Timestamp) (image : Image) :
  (Guarded.Session.mount clock).runIn Image.serve image = .ok ((Session.mount clock).exec image)
    ∧ ∀ start : State, (Session.mount clock).exec image = (.ok start.session, start.image) →
        ∀ history : List Step,
          (∀ step ∈ history, step.operation ≠ .check ∧ step.operation.InMemory) →
          Guarded.State.run start history = .ok (start.results history, start.run history)
  := by
  have faultless := Session.faultless_mount clock
  refine ⟨faultless.runIn_eq Image.serve image, ?_⟩
  intro start hmount history admissible
  exact State.guarded_run (faultless.returns.runIn Image.serve image hmount) admissible

/-- A disk with a superblock, behind which every bit is set: its chains all end at once, and its root
directory is a file that claims to be as long as a record can say. -/
def Image.allSet : Image :=
  (Vector.replicate numBlocks (Vector.replicate blockSize 0xFF)).setIfInBounds superblockAt
    Superblock.standard.toBlock

/-- Nothing faults when the root directory is covered with a byte and read. -/
theorem faultless_throughout_allSet :
  ∃ (start : State) (history : List Step),
    (Session.mount default).exec .allSet = (.ok start.session, start.image)
    ∧ history = [⟨.write 0 [7] .cover, default⟩, ⟨.read 0 10, default⟩]
    ∧ (∀ step ∈ history, step.operation ≠ .check ∧ step.operation.InMemory)
    ∧ Guarded.State.run start history = .ok (start.results history, start.run history)
  := by
  have valid : (Superblock.ofBlock (Image.allSet.block superblockAt)).isValid = true := by
    rw [Image.allSet, Image.block_setIfInBounds_self _ (by decide)]
    exact Superblock.isValid_ofBlock_toBlock_standard
  have hmount := Session.exec_mount_begun default valid
  have admissible : ∀ step ∈
      ([⟨.write 0 [7] .cover, default⟩, ⟨.read 0 10, default⟩] : List Step),
      step.operation ≠ .check ∧ step.operation.InMemory := by
    simp [Operation.InMemory]
  exact ⟨⟨_, _⟩, _, hmount, rfl, admissible,
    (faultless_throughout default .allSet).2 ⟨_, _⟩ hmount _ admissible⟩

end FatVolume
