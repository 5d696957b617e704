import FatVolume.Proofs.ChainOperations
import FatVolume.Proofs.CheckedHistories
import FatVolume.Proofs.FailingDevices
import FatVolume.Proofs.OpenPaths
import FatVolume.Proofs.Writing

/-!
# Working copies that are lost

Closing a handle releases it before its record is written back.  If the device fails there, the
working copy is gone: the handle cannot be closed again, and shutting down later does not know of it.
The record on disk keeps its old length, and the volume checks only if this length takes as many
blocks as the one that was lost.
-/

namespace FatVolume

/-! ### Places -/

namespace Image

variable {image : Image} {root : UInt16} {lengths : List String → Option Nat}

theorem entryAt_of_bytesAt {after : Image} {place : Location}
    (same : after.bytesAt place = image.bytesAt place) :
  after.entryAt place = image.entryAt place
  := congrArg (fun bytes => Entry.mk place (Record.ofBytes bytes)) same

/-- Different paths lead to different places. -/
theorem Sound.path_eq_of_location_eq (h : image.Sound root lengths) {names names' : List String}
    {name name' : String} {e e' : Entry} (he : image.find? root (names ++ [name]) = some e)
    (he' : image.find? root (names' ++ [name']) = some e') (same : e.location = e'.location) :
  names ++ [name] = names' ++ [name']
  := by
  obtain ⟨d, hd, hblock, -⟩ := place_of_find? he
  obtain ⟨d', hd', hblock', -⟩ := place_of_find? he'
  rw [← same] at hblock'
  obtain rfl := h.path_unique hd hd' hblock hblock'
  obtain rfl : e = e' := by rw [← entryAt_of_find? he, same, entryAt_of_find? he']
  obtain ⟨_, -, -, hchild⟩ := find?_concat_eq_some.mp he
  obtain ⟨_, -, -, hchild'⟩ := find?_concat_eq_some.mp he'
  rw [← fullName_of_child? hchild, ← fullName_of_child? hchild']

end Image

namespace Session

open SessionM

variable {session : Session} {image : Image} {handle : Handle} {file : OpenFile} {host : Host}

/-! ### Closing on a device that fails -/

/-- A device that refuses to read, or to write, does not let a record be written back. -/
theorem writeBack_of_refused (file : OpenFile) (session : Session)
    (refuses : host.Refuses .read ∨ host.Refuses .write) :
  ∃ e host', (writeBack file).runIn Host.serve session host = (.error e, session, host')
    ∧ host'.disk = host.disk
  := by
  rcases refuses with reads | writes
  · exact (mustRead_entryAt file.path).bind session host reads
  · rcases hback : (writeBack file).runIn Host.serve session host with ⟨result, session', host'⟩
    cases result with
    | error e =>
        obtain ⟨rfl, disk⟩ := isAtomic_writeBack file session host e _ _ hback
        exact ⟨e, host', rfl, disk⟩
    | ok done =>
        -- The entry was found, but its record cannot have been written.
        obtain ⟨entry, _, middle, hentry, hrest⟩ := runIn_bind_eq_ok.mp hback
        obtain ⟨_, _, _, hwrite, -⟩ := runIn_bind_eq_ok.mp hrest
        have faults := SessionM.faults_runIn (entryAt file.path) session host
        rw [hentry] at faults
        have refuses : middle.Refuses .write := by rwa [Host.Refuses, faults]
        obtain ⟨e, after, refused⟩ :=
          Directory.writeRecord_of_refused entry.location file.record refuses
        rw [runIn_lift_of_eq refused] at hwrite
        cases hwrite

/-- Closing a marked handle on such a device fails, and releases the handle. -/
theorem close_of_refused (hremove : session.openFiles.remove handle
      = .ok (file, session.openFiles.set handle none)) (dirty : file.dirty = true)
    (refuses : host.Refuses .read ∨ host.Refuses .write) :
  ∃ e host', (close handle).runIn Host.serve session host
      = (.error e, session.withSlot handle none, host')
    ∧ host'.disk = host.disk
  := by
  obtain ⟨e, host', hback, disk⟩ :=
    writeBack_of_refused file (session.withSlot handle none) refuses
  refine ⟨e, host', ?_, disk⟩
  rw [close, runIn_bind_of_ok runIn_get, hremove, runIn_bind_of_ok (runIn_ofExcept _)]
  dsimp only
  rw [runIn_bind_of_ok (runIn_set _), if_pos dirty]
  exact runIn_bind_of_error hback

/-! ### Shutting down without the working copy -/

section Lost

variable (h : session.Coherent image) (hfile : session.openFiles.get? handle = some file)
include h hfile

/-- A handle that is marked can be released: it is neither that of the root nor of the current
directory. -/
theorem Coherent.remove_of_dirty (dirty : file.dirty = true) :
  session.openFiles.remove handle = .ok (file, session.openFiles.set handle none)
  := by
  have isFile : ¬file.record.isDirectory = true := by
    intro hdir
    simp [h.clean_of_isDirectory hfile hdir] at dirty
  apply OpenTable.remove_of_get? hfile
  · rintro rfl
    obtain ⟨root, hroot, -, hdir⟩ := h.root_open
    obtain rfl := Option.some.inj (hfile.symm.trans hroot)
    exact isFile hdir
  · rintro rfl
    obtain ⟨current, hcurrent, hdir⟩ := h.current_open
    obtain rfl := Option.some.inj (hfile.symm.trans hcurrent)
    exact isFile hdir

omit h in
/-- The slots of the session without the handle are the others. -/
theorem get?_withSlot_none {other : Handle} {held : OpenFile} :
  (session.withSlot handle none).openFiles.get? other = some held
    ↔ handle ≠ other ∧ session.openFiles.get? other = some held
  := by
  rw [withSlot, OpenTable.get?_set _ (OpenTable.lt_of_get? hfile)]
  by_cases same : handle = other <;> simp [same]

omit h in
/-- The marked files of the session without the handle are those of the other handles. -/
theorem mem_dirtyFiles_withSlot_none {held : OpenFile} :
  held ∈ (session.withSlot handle none).dirtyFiles
    ↔ held.dirty = true ∧ ∃ other, handle ≠ other ∧ session.openFiles.get? other = some held
  := by
  simp only [mem_dirtyFiles, get?_withSlot_none hfile]

/-- Of the records that are still written back none is at the place of the handle. -/
theorem Coherent.location_notMem_pending {names : List String} {name : String} {e : Entry}
    (path : file.path = Path.render (names ++ [name]))
    (he : image.find? session.superblock.root (names ++ [name]) = some e) :
  e.location ∉ ((session.withSlot handle none).dirtyFiles.map (session.pending image)).map Prod.fst
  := by
  intro hmem
  rw [List.map_map] at hmem
  obtain ⟨held, hheld, same⟩ := List.mem_map.mp hmem
  obtain ⟨dirty', other, differs, hother⟩ := (mem_dirtyFiles_withSlot_none hfile).mp hheld
  obtain ⟨names', name', e', normal', path', he', -⟩ := h.exists_path_of_dirty hother dirty'
  have same : e'.location = e.location := (place_of_find? normal' path' he').symm.trans same
  have paths := h.sound.path_eq_of_location_eq he' he same
  -- The files have the same path, and no path is open at two handles.
  apply differs
  apply h.distinct _ _ _ _ hfile hother
  rw [path, path', paths]

/-- Without the handle shutting down writes the other records back.  What the path of the handle
leads to stays as it is on the disk. -/
theorem Coherent.exec_shutdown_withSlot_none (dirty : file.dirty = true) :
  ∃ names name e closed after, Path.Normal (names ++ [name])
    ∧ file.path = Path.render (names ++ [name])
    ∧ image.find? session.superblock.root (names ++ [name]) = some e
    ∧ shutdown.exec (session.withSlot handle none) image = (.ok (), closed, after)
    ∧ closed.superblock = session.superblock
    ∧ session.Coherent after
    ∧ after.find? session.superblock.root (names ++ [name]) = some e
    ∧ ∀ other held, session.openFiles.get? other = some held → handle ≠ other →
        session.UpToDate after held
  := by
  obtain ⟨names, name, e, normal, path, he, -⟩ := h.exists_path_of_dirty hfile dirty
  obtain ⟨hroot, -⟩ := OpenTable.remove_eq_ok (h.remove_of_dirty hfile dirty)
  obtain ⟨root, root_open, -⟩ := h.root_open
  let others := (session.withSlot handle none).dirtyFiles
  have opened : ∀ held ∈ others, held.dirty = true ∧ ∃ other,
      session.openFiles.get? other = some held := by
    intro held hheld
    obtain ⟨dirty, other, -, hother⟩ := (mem_dirtyFiles_withSlot_none hfile).mp hheld
    exact ⟨dirty, other, hother⟩
  have subset : others ⊆ session.dirtyFiles := fun held hheld =>
    mem_dirtyFiles.mpr (opened held hheld)
  obtain ⟨hback, quiet⟩ := h.exec_forM_writeBack_pending subset
  obtain ⟨after, hback', -, current, -⟩ := h.exec_forM_writeBack opened
  rw [hback session rfl, Prod.mk.injEq, Prod.mk.injEq] at hback'
  obtain ⟨-, -, hafter⟩ := hback'
  rw [hafter] at hback quiet
  have hshut := exec_shutdown_of_forM ((get?_withSlot_none hfile).mpr ⟨hroot, root_open⟩)
    (hback (session.withSlot handle none) rfl)
  refine ⟨names, name, e, _, after, normal, path, he, hshut, rfl, quiet.coherent, ?_, ?_⟩
  · have inside : ∀ w ∈ others.map (session.pending image),
        w.1.block < numBlocks ∧ w.1.slot < slotsPerBlock := by
      intro w hw
      obtain ⟨held, hheld, rfl⟩ := List.mem_map.mp hw
      exact (h.exec_writeBack_pending (subset hheld)).1
    have elsewhere := h.location_notMem_pending hfile path he
    rw [quiet.relengthed.find?, he, Option.map_some, Option.some.injEq, ← hafter]
    rw [Image.entryAt_of_bytesAt (Image.bytesAt_withRecords_of_notMem inside image elsewhere)]
    exact Image.entryAt_of_find? he
  · intro other held hother differs
    by_cases dirty : held.dirty = true
    · exact current held ((mem_dirtyFiles_withSlot_none hfile).mpr ⟨dirty, other, differs, hother⟩)
    · exact quiet.coherent.upToDate hother (by simpa using dirty)

section Length

variable {names : List String} {name : String} {e : Entry}
  (normal : Path.Normal (names ++ [name])) (path : file.path = Path.render (names ++ [name]))
  (he : image.find? session.superblock.root (names ++ [name]) = some e)
include normal path he

/-- The chain of an open file is as long as its working copy needs. -/
theorem Coherent.length_blocksOf_of_open :
  (image.blocksOf e.record.first.toNat).length = blocksFor file.record.length.toNat
  := by
  have span : (image.blocksOf e.record.first.toNat).length
      = blocksFor (session.lengthOf (names ++ [name]) e) := h.sound.spans he
  rw [span, h.lengthOf_of_open normal hfile path]

/-- The volume is sound by the lengths on disk if the others are up to date and this one takes as
many blocks as the working copy. -/
theorem Coherent.sound_of_lost
    (others : ∀ other held, session.openFiles.get? other = some held → handle ≠ other →
      session.UpToDate image held)
    (same : blocksFor e.record.length.toNat = blocksFor file.record.length.toNat) :
  image.Sound session.superblock.root fun _ => none
  := by
  refine { h.sound with spans := ?_ }
  intro names' name' e' he'
  by_cases here : names' ++ [name'] = names ++ [name]
  · rw [here, he] at he'
    obtain rfl := Option.some.inj he'
    rw [h.length_blocksOf_of_open hfile normal path he, ← same]
    rfl
  · have length : session.lengthOf (names' ++ [name']) e' = e'.record.length.toNat := by
      apply h.lengthOf_of_same
      rintro normal' record ⟨other, held, hother, path', rfl⟩
      refine others other held hother ?_ _ e' normal' path' he'
      rintro rfl
      obtain rfl := Option.some.inj (hfile.symm.trans hother)
      exact here (normal'.render_inj normal (path'.symm.trans path))
    rw [h.sound.spans he']
    exact congrArg blocksFor length

/-- The volume checks after that exactly if the length on disk takes as many blocks as the one that
was lost. -/
theorem Coherent.check_iff_of_lost
    (others : ∀ other held, session.openFiles.get? other = some held → handle ≠ other →
      session.UpToDate image held) {closed : Session}
    (superblock : closed.superblock = session.superblock) :
  (∃ usage, check.exec closed image = (.ok usage, closed, image))
    ↔ blocksFor e.record.length.toNat = blocksFor file.record.length.toNat
  := by
  rw [check, exec_bind_of_ok exec_get, exec_lift, superblock]
  constructor
  · rintro ⟨usage, hcheck⟩
    have consistent := Check.consistent_of_run (Prod.ext (Prod.mk.inj hcheck).1 rfl)
    rw [← h.length_blocksOf_of_open hfile normal path he, consistent.sound.spans he]
    rfl
  · intro same
    rw [Check.run_of_sound (h.sound_of_lost hfile normal path he others same)]
    exact ⟨_, rfl⟩

end Length

end Lost

end Session

/-! ### Histories -/

open Session

/-- The file that is open at a handle and marked is lost when the device fails while it is closed. -/
structure State.LosesCopy (state : State) (handle : Handle) (file : OpenFile) : Prop where
  /-- On a device that refuses to read, or to write, closing fails and releases the handle. -/
  released : ∀ host : Host, host.Refuses .read ∨ host.Refuses .write →
    ∃ e host', (close handle).runIn Host.serve state.session host
        = (.error e, state.session.withSlot handle none, host')
      ∧ host'.disk = host.disk
  /-- On no device can the handle be closed again. -/
  gone : ∀ host : Host, (close handle).runIn Host.serve (state.session.withSlot handle none) host
    = (.error (.invalidHandle handle), state.session.withSlot handle none, host)
  /-- Shutting down on a device that works leaves the entry on disk as it is, and then the volume
  checks exactly if the length on disk takes as many blocks as the one that was lost. -/
  unsaved : ∃ e closed after,
    (entryAt file.path).exec state.session state.image = (.ok e, state.session, state.image)
      ∧ shutdown.exec (state.session.withSlot handle none) state.image = (.ok (), closed, after)
      ∧ (entryAt file.path).exec closed after = (.ok e, closed, after)
      ∧ ((∃ usage, check.exec closed after = (.ok usage, closed, after))
        ↔ blocksFor e.record.length.toNat = blocksFor file.record.length.toNat)

theorem State.Coherent.losesCopy {state : State} (h : state.Coherent) {handle : Handle}
    {file : OpenFile} (hfile : state.session.openFiles.get? handle = some file)
    (dirty : file.dirty = true) :
  state.LosesCopy handle file
  := by
  have coherent : state.session.Coherent state.image := h
  have hremove := coherent.remove_of_dirty hfile dirty
  obtain ⟨hroot, hcurrent, -⟩ := OpenTable.remove_eq_ok hremove
  obtain ⟨names, name, e, closed, after, normal, path, he, hshut, superblock, coherent', he',
    others⟩ := coherent.exec_shutdown_withSlot_none hfile dirty
  refine ⟨?_, ?_, e, closed, after, ?_, hshut, ?_, ?_⟩
  · intro host refuses
    exact close_of_refused hremove dirty refuses
  · intro host
    have empty : (state.session.withSlot handle none).openFiles.remove handle
        = .error (.invalidHandle handle) := by
      have free : (state.session.withSlot handle none).openFiles.get? handle = none :=
        OpenTable.get?_set_self _ (OpenTable.lt_of_get? hfile) none
      exact OpenTable.remove_of_get?_eq_none free hroot hcurrent
    rw [close, SessionM.runIn_bind_of_ok SessionM.runIn_get, empty]
    rfl
  · rw [path, coherent.exec_entryAt normal, he]
    rfl
  · rw [path, exec_entryAt_of_sound coherent'.sound (by rw [superblock]) normal, he']
    rfl
  · exact coherent'.check_iff_of_lost hfile normal path he' others superblock

/-- A session begins by formatting any disk, or by mounting a volume that checks.  In every state
that it reaches, every marked file is lost when the device fails while it is closed. -/
theorem losesCopy_throughout (clock : Timestamp) (image : Image) :
  (∃ start : State, (Session.format clock).exec image = (.ok start.session, start.image)
      ∧ ∀ history handle file, (start.run history).session.openFiles.get? handle = some file →
          file.dirty = true → (start.run history).LosesCopy handle file)
    ∧ ∀ (start : State) (usage : Usage) (after : Image),
        (Session.mount clock).exec image = (.ok start.session, start.image) →
        Session.check.exec start.session start.image = (.ok usage, start.session, after) →
        ∀ history handle file, (start.run history).session.openFiles.get? handle = some file →
          file.dirty = true → (start.run history).LosesCopy handle file
  := by
  constructor
  · obtain ⟨start, hformat, throughout⟩ := exists_formatted clock image
    refine ⟨start, hformat, ?_⟩
    intro history handle file hfile dirty
    exact (throughout history).1.losesCopy hfile dirty
  · intro start usage after hmount hcheck history handle file hfile dirty
    have coherent : start.Coherent := Session.coherent_of_mount hmount hcheck
    exact (coherent.run history).losesCopy hfile dirty

/-! ### A file that is marked -/

/-- On an empty disk that was formatted a file is created, opened and marked. -/
theorem exists_marked :
  ∃ (start : State) (usage : Usage) (history : List Step) (file : OpenFile),
    (Session.format default).exec .zero = (.ok start.session, start.image)
    ∧ (Session.mount default).exec start.image = (.ok start.session, start.image)
    ∧ Session.check.exec start.session start.image = (.ok usage, start.session, start.image)
    ∧ history = [⟨.createFile "/a", default⟩, ⟨.openPath "/a", default⟩,
      ⟨.write 1 [0x61] .overwrite, default⟩]
    ∧ (start.run history).Coherent
    ∧ (start.run history).session.openFiles.get? 1 = some file ∧ file.dirty = true
  := by
  obtain ⟨start, history, file, hformat, hhistory, coherent, hfile, written⟩ := exists_written
  obtain ⟨hmount, -, usage, hcheck⟩ := Session.mount_of_format hformat
  exact ⟨start, usage, history, file, hformat, hmount, hcheck, hhistory, coherent, hfile,
    written.dirty⟩

/-- The file that was marked is lost when the device fails while it is closed. -/
theorem losesCopy_throughout_marked :
  ∃ (start : State) (usage : Usage) (history : List Step) (file : OpenFile),
    (Session.mount default).exec start.image = (.ok start.session, start.image)
    ∧ Session.check.exec start.session start.image = (.ok usage, start.session, start.image)
    ∧ (start.run history).session.openFiles.get? 1 = some file ∧ file.dirty = true
    ∧ (start.run history).LosesCopy 1 file
  := by
  obtain ⟨start, usage, history, file, -, hmount, hcheck, -, -, hfile, dirty⟩ := exists_marked
  have loses := (losesCopy_throughout default start.image).2 start usage start.image hmount hcheck
    history 1 file hfile dirty
  exact ⟨start, usage, history, file, hmount, hcheck, hfile, dirty, loses⟩

/-- A device that refuses to write lets closing this file fail, and then it is not open any more. -/
theorem exists_closed_of_refused :
  ∃ (start : State) (history : List Step) (file : OpenFile) (host host' : Host) (e : Error)
      (session' : Session),
    (Session.format default).exec .zero = (.ok start.session, start.image)
    ∧ history = [⟨.createFile "/a", default⟩, ⟨.openPath "/a", default⟩,
      ⟨.write 1 [0x61] .overwrite, default⟩]
    ∧ (start.run history).session.openFiles.get? 1 = some file ∧ file.dirty = true
    ∧ host = { disk := { image := (start.run history).image }, faults := .always .write }
    ∧ (close 1).runIn Host.serve (start.run history).session host = (.error e, session', host')
    ∧ session'.openFiles.get? 1 = none
  := by
  obtain ⟨start, usage, history, file, hformat, -, -, hhistory, coherent, hfile, dirty⟩ :=
    exists_marked
  have refuses : Host.Refuses
      { disk := { image := (start.run history).image }, faults := .always .write } .write :=
    fun _ => rfl
  obtain ⟨e, host', hclose, -⟩ := (coherent.losesCopy hfile dirty).released _ (.inr refuses)
  refine ⟨start, history, file, _, host', e, _, hformat, hhistory, hfile, dirty, rfl, hclose, ?_⟩
  exact OpenTable.get?_set_self _ (OpenTable.lt_of_get? hfile) none

end FatVolume
