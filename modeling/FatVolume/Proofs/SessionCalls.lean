import FatVolume.Proofs.Reading
import FatVolume.Proofs.TreeOperations
import FatVolume.Session.Operation

/-!
# The device calls of operations

Each operation of a session makes device calls and logs, and asks for nothing else.  What creates,
removes, writes or formats calls the device to read and to write; only shutting down and
reformatting in full call it to flush.
-/

namespace FatVolume

section Actions

open DiskM

variable {calls : Set DeviceCall}

/-! ### Changes of the disk -/

section Writing

variable (reads : .read ∈ calls) (writes : .write ∈ calls)
include reads writes

namespace Allocation

theorem uses_setEntry (b : Nat) (entry : FatEntry) :
  (setEntry b entry).Uses calls
  := by
  have copy (start : Nat) : (setEntryIn start b entry).Uses calls :=
    (Uses.read reads _).bind fun _ => .write writes _ _
  apply Uses.bind (uses_ite (.pure _) (.throw _))
  intro _
  exact (copy _).bind fun _ => (copy _).bind fun _ => .log _ _ _

theorem uses_allocate (first : UInt16) (count : UInt64) :
  (allocate first count).Uses calls
  := by
  refine Uses.unless ?_ (.throw _)
  apply (uses_forM (fun _ => uses_setEntry reads writes _ _) _).bind
  intro _
  exact (uses_setEntry reads writes _ _).bind fun _ => .log _ _ _

theorem uses_append (final : Nat) :
  (append final).Uses calls
  := by
  apply (uses_findRun reads 1).bind
  intro run
  split
  · apply (uses_setEntry reads writes _ _).bind
    intro _
    apply (uses_setEntry reads writes _ _).bind
    exact fun _ => (Uses.log _ _ _).bind fun _ => .pure _
  · apply Uses.throw

theorem uses_free (first : Nat) :
  (free first).Uses calls
  := by
  apply (uses_chain reads first).bind
  intro blocks
  apply (uses_forM (fun _ => uses_setEntry reads writes _ _) _).bind
  exact fun _ => .log _ _ _

theorem uses_truncate (first keep : Nat) :
  (truncate first keep).Uses calls
  := by
  apply (uses_chain reads first).bind
  intro blocks
  split
  · apply (uses_setEntry reads writes _ _).bind
    intro _
    apply (uses_forM (fun _ => uses_setEntry reads writes _ _) _).bind
    exact fun _ => .log _ _ _
  · apply Uses.pure

omit reads in
theorem uses_format :
  format.Uses calls
  := by
  apply uses_forM
  exact fun _ => (Uses.write writes _ _).bind fun _ => .write writes _ _

end Allocation

namespace Directory

theorem uses_writeRecord (place : Location) (record : Record) :
  (writeRecord place record).Uses calls
  := by
  apply Uses.bind (uses_ite (.pure _) (.throw _))
  exact fun _ => (Uses.read reads _).bind fun _ => .write writes _ _

theorem uses_begin (now : Timestamp) (directory parent : Record) :
  (begin now directory parent).Uses calls
  := by
  apply (uses_ofExcept _).bind
  intro self
  apply (uses_ofExcept _).bind
  intro up
  exact (uses_writeRecord reads writes _ _).bind fun _ => uses_writeRecord reads writes _ _

theorem uses_create (now : Timestamp) (parent : Record) (name : String) (kind : Kind) :
  (create now parent name kind).Uses calls
  := by
  refine Uses.unless ?_ (.throw _)
  apply (uses_ofExcept _).bind
  intro _
  apply (uses_slots reads _).bind
  intro all
  refine Uses.unless ?_ (.throw _)
  split
  · apply (Allocation.uses_findRun reads 1).bind
    intro run
    split
    · apply (Allocation.uses_allocate reads writes _ _).bind
      intro _
      apply (Uses.write writes _ _).bind
      intro _
      apply (uses_ofExcept _).bind
      intro record
      have put (place : Location) (block : Nat) : (do
          writeRecord place record
          Program.log .debug .directory
            (s!"created {Text.quoted name} at block {place.block} slot {place.slot}, "
              ++ s!"data at block {block}")
          return (⟨place, record⟩ : Entry) : DiskM Entry).Uses calls := by
        apply (uses_writeRecord reads writes _ _).bind
        exact fun _ => (Uses.log _ _ _).bind fun _ => .pure _
      apply uses_ite
      · exact (uses_begin reads writes _ _ _).bind fun _ => put _ _
      · apply put
    · apply Uses.throw
  · apply Uses.throw

theorem uses_remove (e : Entry) :
  (remove e).Uses calls
  := by
  apply (uses_writeRecord reads writes _ _).bind
  intro _
  exact (Allocation.uses_free reads writes _).bind fun _ => .log _ _ _

end Directory

namespace OpenFile

theorem uses_grow (blocks : List Nat) (final count : Nat) :
  (grow blocks final count).Uses calls
  := by
  induction count generalizing blocks final with
  | zero => apply Uses.pure
  | succ count ih =>
      apply (Allocation.uses_append reads writes _).bind
      intro fresh
      apply ih

/-- A content is put over the blocks of a chain by writing blocks and cutting the chain. -/
theorem uses_put (first : Nat) (content : Bytes) (all : List Nat) :
  (do
    ((all.take (blocksFor content.length)).zip (toBlocks (blocksFor content.length) content)).forM
      fun (block, data) => DiskM.writeBlock block data
    if blocksFor content.length < all.length then
      Allocation.truncate first (blocksFor content.length) : DiskM Unit).Uses calls
  := by
  apply (uses_forM (fun _ => Uses.write writes _ _) _).bind
  intro _
  exact uses_ite (Allocation.uses_truncate reads writes _ _) (.pure _)

theorem uses_store (first : Nat) (content : Bytes) :
  (store first content).Uses calls
  := by
  apply (Allocation.uses_chain reads first).bind
  intro blocks
  have put := (uses_grow reads writes blocks (blocks.getLastD first)
    (blocksFor content.length - blocks.length)).bind (uses_put reads writes first content)
  apply uses_ite
  · exact (Allocation.uses_countFree reads).bind fun _ => put.unless (.throw _)
  · exact put

theorem uses_write (file : OpenFile) (content : Bytes) (mode : WriteMode) :
  (file.write content mode).Uses calls
  := by
  refine Uses.unless ?_ (.throw _)
  apply (uses_readRange reads _ _ _ _).bind
  intro old
  apply (uses_store reads writes _ _).bind
  exact fun _ => (Uses.log _ _ _).bind fun _ => .pure _

end OpenFile

theorem Volume.uses_format (now : Timestamp) :
  (Volume.format now).Uses calls
  := by
  apply (Uses.write writes _ _).bind
  intro _
  apply (Allocation.uses_format writes).bind
  intro _
  apply (uses_forM (fun _ => Allocation.uses_allocate reads writes _ _) _).bind
  intro _
  apply (Allocation.uses_findRun reads _).bind
  intro run
  split
  · refine Uses.unless ?_ (.throw _)
    apply (Allocation.uses_allocate reads writes _ _).bind
    intro _
    apply (uses_forM (fun _ => Uses.write writes _ _) _).bind
    intro _
    apply (uses_ofExcept _).bind
    intro record
    exact (Directory.uses_begin reads writes _ _ _).bind fun _ => .log _ _ _
  · apply Uses.throw

end Writing

/-! ### Operations of a session -/

namespace Session

open SessionM

theorem uses_handleOf (path : String) :
  (handleOf path).Uses calls
  := by
  apply SessionM.Uses.get.bind
  intro session
  split
  · apply SessionM.Uses.pure
  · apply SessionM.Uses.throw

theorem uses_setDirectory (handle : Handle) :
  (setDirectory handle).Uses calls
  := SessionM.Uses.get.bind fun _ => (SessionM.uses_ofExcept _).bind fun _ => SessionM.uses_set _

theorem uses_openFile (handle : Handle) :
  (openFile handle).Uses calls
  := SessionM.Uses.get.bind fun _ => SessionM.uses_ofExcept _

theorem uses_putBack (handle : Handle) (file : OpenFile) :
  (putBack handle file).Uses calls
  := SessionM.Uses.modify _

theorem uses_seek (handle : Handle) (position : Nat) :
  (seek handle position).Uses calls
  := (uses_openFile handle).bind fun _ => (uses_putBack _ _).bind fun _ => .pure _

section Reading

variable (reads : .read ∈ calls)
include reads

theorem uses_readSuperblock :
  Volume.readSuperblock.Uses calls
  := (DiskM.Uses.read reads _).bind fun _ => DiskM.uses_ite (.pure _) (.throw _)

theorem uses_openRoot (superblock : Superblock) :
  (openRoot superblock).Uses calls
  := (Path.uses_lookup reads _ _).bind fun _ => .pure _

theorem uses_mount (clock : Timestamp) :
  (mount clock).Uses calls
  := by
  apply (uses_readSuperblock reads).bind
  intro superblock
  apply (uses_openRoot reads superblock).bind
  exact fun _ => (DiskM.Uses.log _ _ _).bind fun _ => .pure _

theorem uses_entryAt (path : String) :
  (entryAt path).Uses calls
  := SessionM.Uses.get.bind fun _ => .lift (Path.uses_lookup reads _ _)

theorem uses_lookup (path : String) :
  (lookup path).Uses calls
  := SessionM.Uses.get.bind fun _ => uses_entryAt reads _

theorem uses_list (path : Option String) :
  (list path).Uses calls
  := by
  apply SessionM.Uses.get.bind
  intro session
  apply (uses_entryAt reads _).bind
  intro target
  apply SessionM.uses_ite
  · apply SessionM.Uses.pure
  · exact (SessionM.Uses.lift (Directory.uses_entries reads _)).bind fun _ => .pure _

theorem uses_openPath (path : String) :
  (openPath path).Uses calls
  := by
  apply SessionM.Uses.get.bind
  intro session
  refine SessionM.Uses.unless ?_ (.throw _)
  apply (uses_entryAt reads _).bind
  intro e
  apply (SessionM.uses_ofExcept _).bind
  intro opened
  apply (SessionM.uses_set _).bind
  exact fun _ => (SessionM.Uses.log _ _ _).bind fun _ => .pure _

theorem uses_check :
  check.Uses calls
  := SessionM.Uses.get.bind fun _ => .lift (Check.uses_run reads _)

theorem uses_usage :
  usage.Uses calls
  := (SessionM.Uses.lift (Allocation.uses_countFree reads)).bind fun _ => .pure _

theorem uses_read (handle : Handle) (count : Nat) :
  (read handle count).Uses calls
  := by
  apply (uses_openFile handle).bind
  intro file
  apply (SessionM.Uses.lift (OpenFile.uses_read reads _ _)).bind
  exact fun _ => (uses_putBack _ _).bind fun _ => .pure _

theorem uses_readAll (handle : Handle) :
  (readAll handle).Uses calls
  := by
  apply (uses_openFile handle).bind
  intro file
  exact (uses_putBack _ _).bind fun _ => uses_read reads _ _

end Reading

section Writing

variable (reads : .read ∈ calls) (writes : .write ∈ calls)
include reads writes

theorem uses_createAt (path : String) (kind : Kind) :
  (createAt path kind).Uses calls
  := by
  apply SessionM.Uses.get.bind
  intro session
  split
  · apply SessionM.Uses.throw
  · apply (uses_entryAt reads _).bind
    intro parent
    refine SessionM.Uses.unless ?_ (.throw _)
    exact .lift (Directory.uses_create reads writes _ _ _ _)

theorem uses_removeDirectory (path : String) :
  (removeDirectory path).Uses calls
  := by
  apply SessionM.Uses.get.bind
  intro session
  refine SessionM.Uses.unless ?_ (.throw _)
  apply (uses_entryAt reads _).bind
  intro e
  refine SessionM.Uses.unless ?_ (.throw _)
  refine SessionM.Uses.unless ?_ (.throw _)
  apply (SessionM.Uses.lift (Directory.uses_isEmpty reads _)).bind
  intro empty
  refine SessionM.Uses.unless ?_ (.throw _)
  exact .lift (Directory.uses_remove reads writes _)

theorem uses_removeFile (path : String) :
  (removeFile path).Uses calls
  := by
  apply SessionM.Uses.get.bind
  intro session
  refine SessionM.Uses.unless ?_ (.throw _)
  apply (uses_entryAt reads _).bind
  intro e
  refine SessionM.Uses.unless ?_ (.throw _)
  refine SessionM.Uses.unless ?_ (.throw _)
  exact .lift (Directory.uses_remove reads writes _)

theorem uses_removeAt (path : String) (kind : Kind) :
  (removeAt path kind).Uses calls
  := by
  cases kind with
  | directory => exact uses_removeDirectory reads writes path
  | file => exact uses_removeFile reads writes path

theorem uses_writeBack (file : OpenFile) :
  (writeBack file).Uses calls
  := by
  apply (uses_entryAt reads _).bind
  intro e
  apply (SessionM.Uses.lift (Directory.uses_writeRecord reads writes _ _)).bind
  exact fun _ => .log _ _ _

theorem uses_close (handle : Handle) :
  (close handle).Uses calls
  := by
  apply SessionM.Uses.get.bind
  intro session
  apply (SessionM.uses_ofExcept _).bind
  intro removed
  apply (SessionM.uses_set _).bind
  intro _
  apply SessionM.uses_ite
  · exact (uses_writeBack reads writes _).bind fun _ => .log _ _ _
  · apply SessionM.Uses.log

theorem uses_closeAll :
  closeAll.Uses calls
  := SessionM.Uses.get.bind fun _ => SessionM.uses_forM (uses_close reads writes) _

theorem uses_returnBorrowed (kept : Handle) :
  (returnBorrowed kept).Uses calls
  := by
  apply SessionM.Uses.get.bind
  intro session
  split
  · apply SessionM.uses_ite
    · exact (SessionM.uses_set _).bind fun _ => uses_close reads writes _
    · apply SessionM.Uses.pure
  · apply SessionM.Uses.pure

theorem uses_enter (handle : Handle) (opened : Bool) :
  (enter handle opened).Uses calls
  := by
  apply SessionM.Uses.get.bind
  intro session
  apply (SessionM.uses_ofExcept _).bind
  intro openFiles
  apply (SessionM.uses_set _).bind
  intro _
  apply (uses_returnBorrowed reads writes _).bind
  exact fun _ => SessionM.uses_ite (.modify _) (.pure _)

theorem uses_changeDirectory (path : String) :
  (changeDirectory path).Uses calls
  := by
  rw [changeDirectory_eq]
  apply SessionM.Uses.get.bind
  intro session
  apply (uses_entryAt reads _).bind
  intro e
  refine SessionM.Uses.unless ?_ (.throw _)
  apply SessionM.Uses.get.bind
  intro session
  split
  · exact uses_enter reads writes _ _
  · apply (uses_openPath reads _).bind
    exact fun handle => uses_enter reads writes handle true

theorem uses_write (handle : Handle) (content : Bytes) (mode : WriteMode) :
  (write handle content mode).Uses calls
  := by
  apply (uses_openFile handle).bind
  intro file
  apply (SessionM.Uses.lift (OpenFile.uses_write reads writes _ _ _)).bind
  exact fun _ => (uses_putBack _ _).bind fun _ => .pure _

variable (flushes : .flush ∈ calls)
include flushes

omit flushes in
theorem uses_beginAgain {finish : SessionM Unit} (h : finish.Uses calls) :
  (beginAgain finish).Uses calls
  := by
  apply SessionM.Uses.get.bind
  intro session
  apply (SessionM.Uses.lift (Volume.uses_format reads writes _)).bind
  intro _
  apply (SessionM.Uses.lift (uses_readSuperblock reads)).bind
  intro superblock
  apply (SessionM.Uses.modify _).bind
  intro _
  apply (SessionM.Uses.lift (uses_openRoot reads _)).bind
  exact fun _ => (SessionM.Uses.modify _).bind fun _ => h

theorem uses_reformat (full : Bool) :
  (reformat full).Uses calls
  := by
  cases full with
  | false =>
      rw [reformat_false]
      exact uses_beginAgain reads writes (.pure _)
  | true =>
      have erasing (b : Nat) : SessionM.Uses calls (liftM (DiskM.writeBlock b .zero)) :=
        .lift (.write writes _ _)
      rw [reformat_true]
      apply (SessionM.uses_forM erasing _).bind
      exact fun _ => uses_beginAgain reads writes (.lift (.flush flushes))

theorem uses_shutdown :
  shutdown.Uses calls
  := by
  apply SessionM.Uses.get.bind
  intro session
  apply (SessionM.uses_forM (uses_writeBack reads writes) _).bind
  intro _
  apply (uses_openFile _).bind
  intro root
  apply (SessionM.uses_set _).bind
  intro _
  exact (SessionM.Uses.lift (.flush flushes)).bind fun _ => .log _ _ _

end Writing

end Session

end Actions

namespace Operation

/-- The kinds of device calls that an operation may make. -/
def calls : Operation → Set DeviceCall
  | handleOf _ | setDirectory _ | seek _ _ | openFile _ => ∅
  | list _ | lookup _ | openPath _ | read _ _ | readAll _ | check | usage => {.read}
  | reformat _ | shutdown => Set.univ
  | _ => {.read, .write}

open Session in
/-- An operation makes no other device calls than those of its kinds. -/
theorem uses_perform (operation : Operation) :
  operation.perform.Uses operation.calls
  := by
  have answer {α : Type} {calls : Set DeviceCall} {action : SessionM α} (h : action.Uses calls)
      (answer : α → Answer) : (do return answer (← action) : SessionM Answer).Uses calls :=
    h.bind fun _ => .pure _
  have read : DeviceCall.read ∈ ({.read, .write} : Set DeviceCall) := .inl rfl
  have write : DeviceCall.write ∈ ({.read, .write} : Set DeviceCall) := .inr rfl
  have only : DeviceCall.read ∈ ({.read} : Set DeviceCall) := rfl
  have any (call : DeviceCall) : call ∈ (Set.univ : Set DeviceCall) := trivial
  cases operation with
  | makeDirectory path => exact answer (uses_createAt read write path .directory) _
  | createFile path => exact answer (uses_createAt read write path .file) _
  | removeDirectory path => exact answer (uses_removeDirectory read write path) fun _ => .done
  | removeFile path => exact answer (uses_removeFile read write path) fun _ => .done
  | list path => exact answer (uses_list only path) _
  | lookup path => exact answer (uses_lookup only path) _
  | openPath path => exact answer (uses_openPath only path) _
  | handleOf path => exact answer (uses_handleOf path) _
  | close handle => exact answer (uses_close read write handle) fun _ => .done
  | closeAll => exact answer (uses_closeAll read write) fun _ => .done
  | setDirectory handle => exact answer (uses_setDirectory handle) fun _ => .done
  | changeDirectory path => exact answer (uses_changeDirectory read write path) fun _ => .done
  | read handle count => exact answer (uses_read only handle count) _
  | readAll handle => exact answer (uses_readAll only handle) _
  | seek handle position => exact answer (uses_seek handle position) _
  | write handle content mode => exact answer (uses_write read write handle content mode) _
  | openFile handle => exact answer (uses_openFile handle) _
  | check => exact answer (uses_check only) _
  | usage => exact answer (uses_usage only) _
  | reformat full => exact answer (uses_reformat (any _) (any _) (any _) full) fun _ => .done
  | shutdown => exact answer (uses_shutdown (any _) (any _) (any _)) fun _ => .done

end Operation

end FatVolume
