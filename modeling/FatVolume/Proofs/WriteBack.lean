import FatVolume.Proofs.QuietActions

/-!
# Writing records back

A file that is marked has its record brought up to date on disk when it is closed and when the
session ends.  Nothing that a user sees changes by this.
-/

namespace FatVolume.Session

open DiskM

variable {session session' : Session} {image : Image} {handle : Handle} {file : OpenFile}

/-- An open directory is not marked. -/
theorem Tracking.clean_of_isDirectory (h : session.Tracking image)
    (hfile : session.openFiles.get? handle = some file)
    (hdir : file.record.isDirectory = true) :
  file.dirty = false
  := by
  obtain ⟨-, e, -, -, -, tracks⟩ := h.tracks hfile
  by_contra dirty
  rw [tracks.isDirectory_eq, tracks.isFile (by simpa using dirty)] at hdir
  simp at hdir

/-- A directory has the length of its record. -/
theorem Tracking.lengthOf_of_isDirectory (h : session.Tracking image) {names : List String}
    {e : Entry} (he : image.find? session.superblock.root names = some e)
    (hdir : e.record.isDirectory = true) :
  session.lengthOf names e = e.record.length.toNat
  := by
  apply h.lengthOf_of_same
  rintro hnames record ⟨handle, file, hfile, hpath, rfl⟩
  have tracks := h.tracks_of_find? hfile hnames hpath he
  rw [← tracks.isDirectory_eq] at hdir
  exact tracks.clean (h.clean_of_isDirectory hfile hdir)

/-- A file that is marked has a path to the entry that it tracks. -/
theorem Coherent.exists_path_of_dirty (h : session.Coherent image)
    (hfile : session.openFiles.get? handle = some file) (dirty : file.dirty = true) :
  ∃ names name e, Path.Normal (names ++ [name]) ∧ file.path = Path.render (names ++ [name])
    ∧ image.find? session.superblock.root (names ++ [name]) = some e ∧ file.Tracks e
  := by
  apply h.exists_path hfile
  by_contra hdir
  simp [h.clean_of_isDirectory hfile (by simpa using hdir)] at dirty

/-- A record is written back to the place of the entry of its path.  Of the session only the
superblock matters. -/
theorem exec_writeBack_of_find? {root : UInt16} {lengths : List String → Option Nat}
    (sound : image.Sound root lengths) (superblock : session.superblock.root = root)
    {names : List String} {name : String} {e : Entry} (hnames : Path.Normal (names ++ [name]))
    (hpath : file.path = Path.render (names ++ [name]))
    (he : image.find? root (names ++ [name]) = some e) :
  (writeBack file).exec session image
    = (.ok (), session, image.withRecord e.location file.record)
  := by
  have found := exec_entryAt_of_sound sound superblock hnames
  rw [he, ← hpath] at found
  rw [writeBack, SessionM.exec_bind_of_ok found,
    SessionM.exec_bind_of_ok (SessionM.exec_lift_of_eq
      (Directory.exec_writeRecord_of_find? he file.record)), SessionM.exec_log]

/-- Writing a record back is quiet, and afterwards the record on disk is the working copy.  Of
the session only the superblock matters. -/
theorem Coherent.exec_writeBack (h : session.Coherent image)
    (hfile : session.openFiles.get? handle = some file) (dirty : file.dirty = true) :
  ∃ after, (∀ session' : Session, session'.superblock = session.superblock →
      (writeBack file).exec session' image = (.ok (), session', after))
    ∧ session.Quiet image session after
    ∧ session.UpToDate after file
    ∧ ∀ other held, session.openFiles.get? other = some held → session.UpToDate image held →
        session.UpToDate after held
  := by
  obtain ⟨names, name, e, hnames, hpath, he, tracks⟩ := h.exists_path_of_dirty hfile dirty
  have isFile := tracks.isFile dirty
  obtain ⟨d, hd, hblock, hslot⟩ := Image.place_of_find? he
  have hentry := Image.entryAt_of_find? he
  have inside := Image.lt_of_mem_blocksOf hblock
  have replaced := Image.replaced_withLength h.sound hd he isFile file.record.length
  rw [← tracks.record] at replaced
  have table := (image.table_withRecord (h.sound.above hd _ hblock) file.record).1
  have relengthed := image.relengthed_withLength (h.sound.above hd _ hblock) inside hslot
    (by rw [hentry, isFile]) file.record.length
  rw [hentry, ← tracks.record] at relengthed
  generalize hafter : image.withRecord e.location file.record = after at replaced table relengthed
  have blocks (first : Nat) := Image.blocksOf_congr table first
  have only {other : Handle} {held : OpenFile} (hheld : session.openFiles.get? other = some held)
      (same : held.path = file.path) : held = file := by
    obtain rfl := h.distinct _ _ _ _ hheld hfile same
    rw [hfile] at hheld
    exact (Option.some.inj hheld).symm
  have tracking : session.Tracking after := by
    apply Tracking.of_replaced h replaced
    intro other held hheld hpath'
    obtain rfl := only hheld (hpath'.trans hpath.symm)
    refine ⟨_, rfl, ⟨?_, by simp [dirty], fun _ => isFile, tracks.within⟩⟩
    rw [Entry.withLength, Record.withLength_withLength]
    exact tracks.record
  have length (e' : Entry) : session.lengthOf (names ++ [name]) e' = file.record.length.toNat :=
    h.lengthOf_of_open hnames hfile hpath
  have copies (other : List String) (_ : other ≠ names ++ [name]) (_ : Path.Normal other)
      (record : Record) : session.HasCopy (Path.render other) record
        ↔ session.HasCopy (Path.render other) record := Iff.rfl
  have elsewhere : e.location.block ∉ image.blocksOf e.record.first.toNat := by
    intro hmem
    apply Image.ne_concat names name (h.sound.path_unique hd he hblock hmem)
  have current : session.UpToDate after file := by
    intro names' e' hnames' hpath' he'
    obtain rfl := hnames.render_inj hnames' (hpath.symm.trans hpath')
    rw [replaced.find?_self h.sound] at he'
    obtain rfl := Option.some.inj he'
    exact tracks.record
  refine ⟨after, ?_, ⟨?_, rfl, ?_, relengthed⟩, current, ?_⟩
  · intro session' superblock
    rw [exec_writeBack_of_find? h.sound (by rw [superblock]) hnames hpath he, hafter]
  · apply h.of_replaced replaced rfl tracking copies
    rintro e' ⟨⟩
    have := h.sound.spans he
    rw [length, Entry.withLength, Record.first_withLength, blocks, this, ← length e]
    rfl
  · rw [node?_of_replaced h replaced rfl tracking copies, Function.update_eq_self_iff, node?, he,
      Option.map_some, Option.map_some, nodeOf, nodeOf, length, length, Entry.withLength,
      Record.isDirectory_withLength, Record.first_withLength, isFile, blocks,
      Image.contentOf_congr _ (blocks _)]
    · rfl
    · intro b hb
      rw [← hafter]
      apply Image.block_withRecord_of_ne
      rintro rfl
      exact elsewhere hb
  · intro other held hheld before names' e' hnames' hpath' he'
    by_cases same : names' = names ++ [name]
    · subst same
      obtain rfl := only hheld (hpath'.trans hpath.symm)
      exact current _ e' hnames' hpath' he'
    · rw [replaced.find?_of_ne h.sound same] at he'
      exact before names' e' hnames' hpath' he'

/-! ### Closing -/

/-- Closing a handle releases it quietly, or it fails and changes nothing. -/
theorem Coherent.close_cases (h : session.Coherent image) (handle : Handle) :
  (∃ error, (close handle).exec session image = (.error error, session, image))
    ∨ ∃ file after, session.openFiles.get? handle = some file
        ∧ (close handle).exec session image
          = (.ok (), { session with openFiles := session.openFiles.set handle none }, after)
        ∧ session.Quiet image { session with openFiles := session.openFiles.set handle none } after
  := by
  rw [close, SessionM.exec_bind_of_ok SessionM.exec_get]
  cases hremove : session.openFiles.remove handle with
  | error e => exact .inl ⟨e, SessionM.exec_bind_of_error (SessionM.exec_ofExcept _)⟩
  | ok removed =>
      obtain ⟨file, openFiles⟩ := removed
      obtain ⟨hroot, hcurrent, hfile, rfl⟩ := OpenTable.remove_eq_ok hremove
      right
      rw [SessionM.exec_bind_of_ok (SessionM.exec_ofExcept _)]
      dsimp only
      rw [SessionM.exec_bind_of_ok (SessionM.exec_set _)]
      split_ifs with dirty
      · -- The handle is released before its record is written back, but as far as the disk is
        -- concerned the order does not matter.
        obtain ⟨after, hexec, quiet, current, -⟩ := h.exec_writeBack hfile dirty
        rw [SessionM.exec_bind_of_ok
          (hexec { session with openFiles := session.openFiles.set handle none } rfl)]
        exact ⟨file, after, hfile, rfl,
          quiet.trans (quiet.coherent.quiet_release rfl hfile current hroot hcurrent rfl)⟩
      · have current := h.upToDate hfile (by simpa using dirty)
        exact ⟨file, image, hfile, rfl, h.quiet_release rfl hfile current hroot hcurrent rfl⟩

/-- Closing a handle is quiet. -/
theorem alwaysQuiet_close (handle : Handle) :
  (close handle).AlwaysQuiet
  := by
  intro session image h
  rcases h.close_cases handle with ⟨error, hexec⟩ | ⟨file, after, -, hexec, quiet⟩
  · apply SessionM.quietAt_of_eq hexec h.refl
  · apply SessionM.quietAt_of_eq hexec quiet

/-- Closing the handles that may be closed is quiet. -/
theorem alwaysQuiet_closeAll :
  closeAll.AlwaysQuiet
  := by
  intro session image h
  unfold closeAll
  apply SessionM.QuietAt.bind_of_ok SessionM.exec_get h.refl
  apply SessionM.quietAt_forM h
  intro handle _
  exact alwaysQuiet_close handle

/-! ### Shutting down -/

/-- Writing records back one after the other is quiet, and afterwards these records on disk are
the working copies. -/
theorem Coherent.exec_forM_writeBack {files : List OpenFile} (h : session.Coherent image)
    (opened : ∀ file ∈ files, file.dirty = true ∧ ∃ handle,
      session.openFiles.get? handle = some file) :
  ∃ after, (files.forM writeBack).exec session image = (.ok (), session, after)
    ∧ session.Quiet image session after
    ∧ (∀ file ∈ files, session.UpToDate after file)
    ∧ ∀ other held, session.openFiles.get? other = some held → session.UpToDate image held →
        session.UpToDate after held
  := by
  induction files generalizing image with
  | nil => exact ⟨image, rfl, h.refl, by simp, fun _ _ _ current => current⟩
  | cons file rest ih =>
      obtain ⟨⟨dirty, handle, hfile⟩, opened⟩ := List.forall_mem_cons.mp opened
      obtain ⟨middle, hexec, quiet, current, stay⟩ := h.exec_writeBack hfile dirty
      obtain ⟨after, hexec', quiet', current', stay'⟩ := ih quiet.coherent opened
      refine ⟨after, ?_, quiet.trans quiet', ?_, ?_⟩
      · rw [List.forM_eq_forM, List.forM_cons, SessionM.exec_bind_of_ok (hexec session rfl)]
        exact hexec'
      · intro written hwritten
        rcases List.mem_cons.mp hwritten with rfl | hwritten
        · exact stay' handle _ hfile current
        · exact current' written hwritten
      · intro other held hheld before
        exact stay' other held hheld (stay other held hheld before)

/-- The open files whose records on disk are out of date. -/
def dirtyFiles (session : Session) : List OpenFile :=
  (session.openFiles.occupied.map (·.2)).filter (·.dirty)

theorem mem_dirtyFiles :
  file ∈ session.dirtyFiles
    ↔ file.dirty = true ∧ ∃ handle, session.openFiles.get? handle = some file
  := by
  simp only [dirtyFiles, List.mem_filter, List.mem_map, Prod.exists, OpenTable.mem_occupied,
    exists_eq_right]
  exact and_comm

/-- Writing back all records that are out of date is quiet, and afterwards no record is. -/
theorem Coherent.exec_forM_dirtyFiles (h : session.Coherent image) :
  ∃ after, (session.dirtyFiles.forM writeBack).exec session image = (.ok (), session, after)
    ∧ session.Quiet image session after
    ∧ ∀ handle file, session.openFiles.get? handle = some file → session.UpToDate after file
  := by
  have opened : ∀ file ∈ session.dirtyFiles, file.dirty = true ∧ ∃ handle,
      session.openFiles.get? handle = some file := fun _ => mem_dirtyFiles.mp
  obtain ⟨after, hexec, quiet, current, stay⟩ := h.exec_forM_writeBack opened
  refine ⟨after, hexec, quiet, ?_⟩
  intro handle file hfile
  by_cases dirty : file.dirty = true
  · exact current file (mem_dirtyFiles.mpr ⟨dirty, handle, hfile⟩)
  · exact stay handle file hfile (h.upToDate hfile (by simpa using dirty))

/-- When the records are written back only the root stays open. -/
theorem exec_shutdown_of_forM {root : OpenFile} {after : Image}
    (hroot : session.openFiles.get? OpenTable.rootHandle = some root)
    (hback : (session.dirtyFiles.forM writeBack).exec session image = (.ok (), session, after)) :
  shutdown.exec session image
    = (.ok (), { session with openFiles := .ofRoot root, borrowed := none }, after)
  := by
  have hget : (openFile OpenTable.rootHandle).exec session after
      = (.ok root, session, after) := by
    rw [exec_openFile, OpenTable.get_eq_ok.mpr hroot]
  unfold dirtyFiles at hback
  rw [shutdown, SessionM.exec_bind_of_ok SessionM.exec_get, SessionM.exec_bind_of_ok hback,
    SessionM.exec_bind_of_ok hget, SessionM.exec_bind_of_ok (SessionM.exec_set _),
    SessionM.exec_bind_of_ok (SessionM.exec_lift_of_eq (exec_flush after)), SessionM.exec_log]

/-- Shutting down succeeds and is quiet, and afterwards no open file is marked. -/
theorem Coherent.exec_shutdown (h : session.Coherent image) :
  ∃ session' after, shutdown.exec session image = (.ok (), session', after)
    ∧ session.Quiet image session' after
    ∧ ∀ handle file, session'.openFiles.get? handle = some file → file.dirty = false
  := by
  obtain ⟨root, hroot, -, hdir⟩ := h.root_open
  obtain ⟨after, hexec, quiet, current⟩ := h.exec_forM_dirtyFiles
  refine ⟨{ session with openFiles := .ofRoot root, borrowed := none }, after,
    exec_shutdown_of_forM hroot hexec,
    quiet.trans (quiet.coherent.quiet_ofRoot rfl hroot current rfl), ?_⟩
  intro handle file hfile
  obtain ⟨-, rfl⟩ := OpenTable.get?_ofRoot_eq_some.mp hfile
  exact h.clean_of_isDirectory hroot hdir

end FatVolume.Session
