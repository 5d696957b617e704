import FatVolume.Proofs.AgreeingChanges
import FatVolume.Proofs.QuietOperations
import FatVolume.Proofs.TreeOperations

/-!
# Sessions on disks that agree

A coherent session performs an action in the same way on two disks that agree: with the same
result, and it leaves the same session and disks that agree.
-/

namespace FatVolume

/-! ### Actions in the same session -/

namespace SessionM

variable {α β : Type} {action other : SessionM α} {next : α → SessionM β}
  {session session' : Session} {image image' after after' : Image}

/-- On both images the action has the same result and leaves the same session, and the images that
it leaves agree. -/
structure AgreesOn (action : SessionM α) (session : Session) (image image' : Image) : Prop where
  same_result : (action.exec session image').1 = (action.exec session image).1
  same_session : (action.exec session image').2.1 = (action.exec session image).2.1
  agrees : (action.exec session image).2.2.Agrees (action.exec session image').2.2

/-- The action agrees on all images that agree, in a session that is coherent on them. -/
def AlwaysAgrees (action : SessionM α) : Prop :=
  ∀ session image image', session.Coherent image → image.Agrees image' →
    action.AgreesOn session image image'

theorem agreesOn_of_exec {result : Except Error α}
    (h : action.exec session image = (result, session', after))
    (h' : action.exec session image' = (result, session', after')) (agrees : after.Agrees after') :
  action.AgreesOn session image image'
  := by
  constructor
  · rw [h, h']
  · rw [h, h']
  · rw [h, h']
    exact agrees

/-- What goes on in the same way where an action leads does so in sequence. -/
theorem AgreesOn.bind (h : action.AgreesOn session image image')
    (h' : ∀ a session' after after', action.exec session image = (.ok a, session', after) →
      after.Agrees after' → (next a).AgreesOn session' after after') :
  (action >>= next).AgreesOn session image image'
  := by
  obtain ⟨same, same_session, agrees⟩ := h
  rcases hexec : action.exec session image with ⟨result, middle, after⟩
  rcases hexec' : action.exec session image' with ⟨result', middle', after'⟩
  rw [hexec, hexec'] at same same_session agrees
  obtain rfl : result' = result := same
  obtain rfl : middle' = middle := same_session
  cases result' with
  | error e => exact agreesOn_of_exec (exec_bind_of_error hexec) (exec_bind_of_error hexec') agrees
  | ok a =>
      have rest := h' a middle' after after' hexec agrees
      constructor
      · rw [exec_bind_of_ok hexec, exec_bind_of_ok hexec', rest.same_result]
      · rw [exec_bind_of_ok hexec, exec_bind_of_ok hexec', rest.same_session]
      · rw [exec_bind_of_ok hexec, exec_bind_of_ok hexec']
        exact rest.agrees

theorem agreesOn_get_bind {next : Session → SessionM β}
    (h : (next session).AgreesOn session image image') :
  (get >>= next).AgreesOn session image image'
  := ⟨h.same_result, h.same_session, h.agrees⟩

theorem agreesOn_set_bind {next : PUnit → SessionM β}
    (h : (next ⟨⟩).AgreesOn session' image image') :
  (set session' >>= next).AgreesOn session image image'
  := ⟨h.same_result, h.same_session, h.agrees⟩

section Agrees

variable (agrees : image.Agrees image')
include agrees

theorem agreesOn_pure (a : α) :
  (pure a : SessionM α).AgreesOn session image image'
  := ⟨rfl, rfl, agrees⟩

theorem agreesOn_throw (e : Error) :
  (throw e : SessionM α).AgreesOn session image image'
  := ⟨rfl, rfl, agrees⟩

theorem agreesOn_log (level : Level) (source : Component) (message : String) :
  (liftM (Program.log level source message) : SessionM Unit).AgreesOn session image image'
  := ⟨rfl, rfl, agrees⟩

theorem agreesOn_flush :
  (liftM DiskM.flush : SessionM Unit).AgreesOn session image image'
  := ⟨rfl, rfl, agrees⟩

theorem agreesOn_set (session' : Session) :
  (set session' : SessionM Unit).AgreesOn session image image'
  := ⟨rfl, rfl, agrees⟩

theorem agreesOn_modify (f : Session → Session) :
  (modify f : SessionM Unit).AgreesOn session image image'
  := ⟨rfl, rfl, agrees⟩

theorem agreesOn_ofExcept_bind {result : Except Error α}
    (h : ∀ a, result = .ok a → (next a).AgreesOn session image image') :
  (ofExcept result >>= next).AgreesOn session image image'
  := by
  cases result with
  | ok a => exact ⟨(h a rfl).same_result, (h a rfl).same_session, (h a rfl).agrees⟩
  | error e => exact ⟨rfl, rfl, agrees⟩

theorem agreesOn_unless {p : Prop} [Decidable p] {e : Error} {rest : SessionM α}
    (h : rest.AgreesOn session image image') :
  (if p then (throw e : SessionM PUnit) >>= fun _ => rest else rest).AgreesOn session image image'
  := by
  split
  · exact ⟨rfl, rfl, agrees⟩
  · exact h

/-- A loop goes on in the same way if its steps are quiet. -/
theorem agreesOn_forM {action : α → SessionM Unit} {list : List α} (h : session.Coherent image)
    (each : ∀ a ∈ list, (action a).AlwaysAgrees) (quiet : ∀ a ∈ list, (action a).AlwaysQuiet) :
  (list.forM action).AgreesOn session image image'
  := by
  induction list generalizing session image image' with
  | nil => exact ⟨rfl, rfl, agrees⟩
  | cons a rest ih =>
      rw [List.forM_eq_forM, List.forM_cons]
      apply (each a List.mem_cons_self session image image' h agrees).bind
      intro _ session' after after' hexec agrees'
      have coherent := (quiet a List.mem_cons_self session image h).coherent
      rw [hexec] at coherent
      apply ih agrees' coherent
      · exact fun b hb => each b (List.mem_cons_of_mem _ hb)
      · exact fun b hb => quiet b (List.mem_cons_of_mem _ hb)

end Agrees

theorem agreesOn_lift {action : DiskM α}
    (h : (action.exec image').1 = (action.exec image).1
      ∧ (action.exec image).2.Agrees (action.exec image').2) :
  (liftM action : SessionM α).AgreesOn session image image'
  := by
  apply agreesOn_of_exec (exec_lift action) _ h.2
  rw [exec_lift, h.1]

end SessionM

/-! ### Operations -/

namespace Session

open SessionM

variable {session : Session} {image image' : Image}

section Entries

variable (h : session.Coherent image) (agrees : image.Agrees image')
include h agrees

theorem agreesOn_entryAt (path : String) :
  (entryAt (session.absolute path)).AgreesOn session image image'
  := by
  apply agreesOn_of_exec (h.exec_entryAt_absolute path) _ agrees
  rw [(h.of_agrees agrees).exec_entryAt_absolute path, agrees.find? h.sound]

theorem creating_of_agrees (path : String) (kind : Kind) :
  session.creating image' path kind = session.creating image path kind
  := by
  unfold creating
  split
  · rfl
  · rw [agrees.find? h.sound]
    simp only [Directory.creation_of_agrees agrees]

theorem removing_of_agrees (path : String) (kind : Kind) :
  session.removing image' path kind = session.removing image path kind
  := by
  unfold removing
  rw [agrees.find? h.sound]
  simp only [agrees.listed]

/-- The record of an open file can be written back to both images. -/
theorem agreesOn_writeBack {handle : Handle} {file : OpenFile}
    (hfile : session.openFiles.get? handle = some file) (dirty : file.dirty = true)
    {session' : Session} (superblock : session'.superblock = session.superblock) :
  (writeBack file).AgreesOn session' image image'
  := by
  obtain ⟨names, name, e, hnames, hpath, he, -⟩ := h.exists_path_of_dirty hfile dirty
  have root : session'.superblock.root = session.superblock.root := by
    rw [superblock]
  apply agreesOn_of_exec (exec_writeBack_of_find? h.sound root hnames hpath he) _
    (agrees.withRecord_of_find? h.sound he file.record)
  apply exec_writeBack_of_find? (agrees.sound_after h.sound) root hnames hpath
  rw [agrees.find? h.sound, he]

/-- All records that are out of date can be written back to both images. -/
theorem agreesOn_forM_writeBack {files : List OpenFile}
    (opened : ∀ file ∈ files, file.dirty = true ∧ ∃ handle,
      session.openFiles.get? handle = some file) :
  (files.forM writeBack).AgreesOn session image image'
  := by
  induction files generalizing image image' with
  | nil => exact ⟨rfl, rfl, agrees⟩
  | cons file rest ih =>
      obtain ⟨⟨dirty, handle, hfile⟩, opened⟩ := List.forall_mem_cons.mp opened
      obtain ⟨middle, hback, quiet, -⟩ := h.exec_writeBack hfile dirty
      rw [List.forM_eq_forM, List.forM_cons]
      apply (agreesOn_writeBack h agrees hfile dirty rfl).bind
      intro _ session' after after' hexec agrees'
      rw [hback session rfl] at hexec
      obtain ⟨rfl, rfl⟩ : session = session' ∧ middle = after := by simpa using hexec
      exact ih quiet.coherent agrees' opened

end Entries

theorem alwaysAgrees_createAt (path : String) (kind : Kind) :
  (createAt path kind).AlwaysAgrees
  := by
  intro session image image' h agrees
  have hexec := h.exec_createAt path kind
  have hexec' := (h.of_agrees agrees).exec_createAt path kind
  rw [creating_of_agrees h agrees] at hexec'
  cases hcreating : session.creating image path kind with
  | error error =>
      rw [hcreating] at hexec hexec'
      exact agreesOn_of_exec hexec hexec' agrees
  | ok created =>
      obtain ⟨d, e⟩ := created
      rw [hcreating] at hexec hexec'
      apply agreesOn_of_exec hexec hexec'
      obtain ⟨names, name, -, hd, -, hcreation⟩ := (creating_eq_ok_iff h.toTracking).mp hcreating
      have free := Directory.free_of_creation hcreation
      obtain ⟨_, _, place, _, _, _, hplace, _, rfl⟩ := Directory.creation_eq_ok_iff.mp hcreation
      obtain ⟨hblock, -⟩ := Directory.mem_places.mp (Image.freeSlot_eq_some hplace).1
      apply agrees.created session.clock d.record
        (h.sound.partitioned.reservedSpan_le_of_free free) _ (h.sound.above hd _ hblock)
        (Image.allocated_of_mem_blocksOf hblock)
      rw [← image.length_table]
      exact (List.getElem?_eq_some_iff.mp free).1

theorem alwaysAgrees_removeAt (path : String) (kind : Kind) :
  (removeAt path kind).AlwaysAgrees
  := by
  intro session image image' h agrees
  have hexec := h.exec_removeAt path kind
  have hexec' := (h.of_agrees agrees).exec_removeAt path kind
  rw [removing_of_agrees h agrees] at hexec'
  cases hremoving : session.removing image path kind with
  | error error =>
      rw [hremoving] at hexec hexec'
      exact agreesOn_of_exec hexec hexec' agrees
  | ok e =>
      rw [hremoving] at hexec hexec'
      obtain ⟨-, nonempty, he, -⟩ := (removing_eq_ok_iff h).mp hremoving
      obtain ⟨names, name, hpath⟩ := (List.eq_nil_or_concat' _).resolve_left nonempty
      rw [hpath] at he
      have removed : (liftM (Directory.remove e) : SessionM Unit).AgreesOn session image image' :=
        agreesOn_lift (Directory.agrees_remove agrees h.sound he)
      constructor
      · rw [hexec, hexec', removed.same_result]
      · rw [hexec, hexec', removed.same_session]
      · rw [hexec, hexec']
        exact removed.agrees

theorem alwaysAgrees_lookup (path : String) :
  (lookup path).AlwaysAgrees
  := by
  intro session image image' h agrees
  apply agreesOn_get_bind
  exact agreesOn_entryAt h agrees path

theorem alwaysAgrees_list (path : Option String) :
  (list path).AlwaysAgrees
  := by
  intro session image image' h agrees
  apply agreesOn_get_bind
  apply (agreesOn_entryAt h agrees _).bind
  intro target session' after after' _ agrees'
  split
  · exact agreesOn_pure agrees' _
  · apply (agreesOn_lift (Directory.respects_entries _ after after' agrees')).bind
    intro entries _ _ _ _ agrees''
    exact agreesOn_pure agrees'' _

/-! ### Open files -/

theorem alwaysAgrees_openPath (path : String) :
  (openPath path).AlwaysAgrees
  := by
  intro session image image' h agrees
  apply agreesOn_get_bind
  apply agreesOn_unless agrees
  apply (agreesOn_entryAt h agrees path).bind
  intro entry session' after after' _ agrees'
  apply agreesOn_ofExcept_bind agrees'
  rintro ⟨handle, openFiles⟩ -
  apply agreesOn_set_bind
  apply (agreesOn_log agrees' _ _ _).bind
  intro _ _ _ _ _ agrees''
  exact agreesOn_pure agrees'' _

theorem alwaysAgrees_handleOf (path : String) :
  (handleOf path).AlwaysAgrees
  := by
  intro session image image' h agrees
  apply agreesOn_get_bind
  split
  · exact agreesOn_pure agrees _
  · exact agreesOn_throw agrees _

/-- The record of a file that is closed is written back as it was while the file was open. -/
theorem alwaysAgrees_close (handle : Handle) :
  (close handle).AlwaysAgrees
  := by
  intro session image image' h agrees
  apply agreesOn_get_bind
  apply agreesOn_ofExcept_bind agrees
  rintro ⟨file, openFiles⟩ hremove
  obtain ⟨-, -, hfile, -⟩ := OpenTable.remove_eq_ok hremove
  apply agreesOn_set_bind
  dsimp only
  split_ifs with dirty
  · apply (agreesOn_writeBack h agrees hfile dirty (by rfl)).bind
    intro _ _ _ _ _ agrees'
    exact agreesOn_log agrees' _ _ _
  · exact agreesOn_log agrees _ _ _

theorem alwaysAgrees_closeAll :
  closeAll.AlwaysAgrees
  := by
  intro session image image' h agrees
  apply agreesOn_get_bind
  apply agreesOn_forM agrees h
  · exact fun handle _ => alwaysAgrees_close handle
  · exact fun handle _ => alwaysQuiet_close handle

theorem alwaysAgrees_setDirectory (handle : Handle) :
  (setDirectory handle).AlwaysAgrees
  := by
  intro session image image' h agrees
  apply agreesOn_get_bind
  apply agreesOn_ofExcept_bind agrees
  intro openFiles _
  exact agreesOn_set agrees _

theorem alwaysAgrees_returnBorrowed (kept : Handle) :
  (returnBorrowed kept).AlwaysAgrees
  := by
  intro session image image' h agrees
  apply agreesOn_get_bind
  split
  · split_ifs
    · apply agreesOn_set_bind
      have quiet : session.Quiet image { session with borrowed := none } image :=
        h.quiet_of_eq rfl rfl
      apply alwaysAgrees_close _ _ _ _ quiet.coherent agrees
    · exact agreesOn_pure agrees _
  · exact agreesOn_pure agrees _

/-- Going into a directory whose handle is known goes on in the same way. -/
theorem alwaysAgrees_enter (handle : Handle) (opened : Bool) :
  (enter handle opened).AlwaysAgrees
  := by
  intro session image image' h agrees
  apply agreesOn_get_bind
  apply agreesOn_ofExcept_bind agrees
  intro openFiles hset
  have entered : session.Quiet image { session with openFiles } image :=
    h.quiet_setDirectory rfl hset
  apply agreesOn_set_bind
  apply (alwaysAgrees_returnBorrowed handle _ _ _ entered.coherent agrees).bind
  intro _ _ _ _ _ agrees'
  split_ifs
  · exact agreesOn_modify agrees' _
  · exact agreesOn_pure agrees' _

theorem alwaysAgrees_changeDirectory (path : String) :
  (changeDirectory path).AlwaysAgrees
  := by
  rw [changeDirectory_eq]
  intro session image image' h agrees
  apply agreesOn_get_bind
  apply (agreesOn_entryAt h agrees path).bind
  intro entry session' after after' hexec agrees'
  have coherent := (alwaysQuiet_entryAt (session.absolute path) session image h).coherent
  rw [hexec] at coherent
  apply agreesOn_unless agrees'
  apply agreesOn_get_bind
  split
  · exact alwaysAgrees_enter _ false _ _ _ coherent agrees'
  · apply (alwaysAgrees_openPath _ _ _ _ coherent agrees').bind
    intro handle session'' after'' after''' hexec' agrees''
    have coherent' := (alwaysQuiet_openPath (session.absolute path) _ _ coherent).coherent
    rw [hexec'] at coherent'
    exact alwaysAgrees_enter handle true _ _ _ coherent' agrees''

/-! ### Contents -/

section Contents

variable (agrees : image.Agrees image')
include agrees

theorem agreesOn_openFile (handle : Handle) :
  (openFile handle).AgreesOn session image image'
  := ⟨rfl, rfl, agrees⟩

theorem agreesOn_read (handle : Handle) (count : Nat) :
  (read handle count).AgreesOn session image image'
  := by
  apply (agreesOn_openFile agrees handle).bind
  intro file session' after after' _ agrees
  apply (agreesOn_lift (file.respects_read count after after' agrees)).bind
  rintro ⟨bytes, file⟩ _ _ _ _ agrees
  apply (agreesOn_modify agrees _).bind
  intro _ _ _ _ _ agrees
  exact agreesOn_pure agrees _

theorem agreesOn_readAll (handle : Handle) :
  (readAll handle).AgreesOn session image image'
  := by
  apply (agreesOn_openFile agrees handle).bind
  intro file _ _ _ _ agrees
  apply (agreesOn_modify agrees _).bind
  intro _ _ _ _ _ agrees
  exact agreesOn_read agrees handle _

theorem agreesOn_seek (handle : Handle) (position : Nat) :
  (seek handle position).AgreesOn session image image'
  := by
  apply (agreesOn_openFile agrees handle).bind
  intro file _ _ _ _ agrees
  apply (agreesOn_modify agrees _).bind
  intro _ _ _ _ _ agrees
  exact agreesOn_pure agrees _

end Contents

/-- Writing needs the coherence of the session: the chain of an open file is one that grows. -/
theorem alwaysAgrees_write (handle : Handle) (content : Bytes) (mode : WriteMode) :
  (write handle content mode).AlwaysAgrees
  := by
  intro session image image' h agrees
  apply (agreesOn_openFile agrees handle).bind
  intro file session' after after' hexec agrees'
  obtain ⟨hfile, rfl, rfl⟩ := exec_openFile_eq_ok hexec
  obtain ⟨hchain, low⟩ := h.isChain_of_open hfile
  have written := OpenFile.agrees_write agrees' h.sound.mirrored
    (fun b => h.sound.partitioned.reservedSpan_le_of_free) file hchain low content mode
  apply (agreesOn_lift written).bind
  intro file' _ _ _ _ agrees
  apply (agreesOn_modify agrees _).bind
  intro _ _ _ _ _ agrees
  exact agreesOn_pure agrees _

/-! ### The volume as a whole -/

theorem alwaysAgrees_check :
  check.AlwaysAgrees
  := by
  intro session image image' _ agrees
  apply agreesOn_get_bind
  exact agreesOn_lift (Check.respects_run _ image image' agrees)

theorem alwaysAgrees_usage :
  usage.AlwaysAgrees
  := by
  intro session image image' _ agrees
  have counted := Allocation.respects_countFree (fun _ _ => Image.Agrees.reserved) image image' agrees
  apply (agreesOn_lift counted).bind
  intro free _ _ _ _ agrees
  exact agreesOn_pure agrees _

theorem alwaysAgrees_shutdown :
  shutdown.AlwaysAgrees
  := by
  intro session image image' h agrees
  apply agreesOn_get_bind
  apply (agreesOn_forM_writeBack h agrees fun _ => mem_dirtyFiles.mp).bind
  intro _ _ _ _ _ agrees
  apply (agreesOn_openFile agrees _).bind
  intro root _ _ _ _ agrees
  apply agreesOn_set_bind
  apply (agreesOn_flush agrees).bind
  intro _ _ _ _ _ agrees
  exact agreesOn_log agrees _ _ _

end Session

end FatVolume
