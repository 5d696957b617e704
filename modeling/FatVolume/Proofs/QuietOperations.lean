import FatVolume.Proofs.Contents
import FatVolume.Proofs.WriteBack

/-!
# Quiet operations

Looking up, listing, opening, closing, changing the directory, reading, seeking and checking are
quiet, whether they succeed or fail.
-/

namespace FatVolume.Session

open SessionM

variable {session : Session} {image : Image}

/-! ### Entries -/

theorem alwaysQuiet_entryAt (path : String) :
  (entryAt path).AlwaysQuiet
  := by
  intro session image h
  apply QuietAt.bind_of_ok exec_get h.refl
  apply quietAt_lift h (Path.uses_lookup (Set.mem_singleton _) _ _).readOnly

theorem alwaysQuiet_lookup (path : String) :
  (lookup path).AlwaysQuiet
  := by
  intro session image h
  apply QuietAt.bind_of_ok exec_get h.refl
  apply alwaysQuiet_entryAt _ session image h

theorem alwaysQuiet_list (path : Option String) :
  (list path).AlwaysQuiet
  := by
  intro session image h
  apply QuietAt.bind_of_ok exec_get h.refl
  apply (alwaysQuiet_entryAt _ session image h).bind
  intro target session' after _ h'
  split
  · apply quietAt_pure h' _
  · apply (quietAt_lift h' (Directory.uses_entries (Set.mem_singleton _) _).readOnly).bind
    intro entries session'' after' _ h''
    apply quietAt_pure h'' _

/-! ### The table of open files -/

/-- The entry of a path that is not open is put into the first free slot, if there is one. -/
theorem Coherent.exec_openPath_eq (h : session.Coherent image) {path : String} {e : Entry}
    (unopened : session.openFiles.find? (session.absolute path) = none)
    (he : image.find? session.superblock.root (session.target path) = some e) :
  (openPath path).exec session image
    = match session.openFiles.insert { record := e.record, path := session.absolute path } with
      | .ok (handle, openFiles) => (.ok handle, { session with openFiles }, image)
      | .error error => (.error error, session, image)
  := by
  have hentry := h.exec_entryAt_absolute path
  rw [he] at hentry
  rw [openPath, exec_bind_of_ok exec_get]
  dsimp only
  rw [unopened, if_neg (by simp), exec_bind_of_ok hentry]
  cases session.openFiles.insert { record := e.record, path := session.absolute path } with
  | ok inserted => rfl
  | error error => rfl

theorem Coherent.exec_openPath (h : session.Coherent image) {path : String} {e : Entry}
    (unopened : session.openFiles.find? (session.absolute path) = none)
    (he : image.find? session.superblock.root (session.target path) = some e) {handle : Handle}
    {openFiles : OpenTable}
    (hinsert : session.openFiles.insert { record := e.record, path := session.absolute path }
      = .ok (handle, openFiles)) :
  (openPath path).exec session image = (.ok handle, { session with openFiles }, image)
  := by
  rw [h.exec_openPath_eq unopened he, hinsert]

/-- Opening puts the entry of the path into a free slot, or it fails and changes nothing. -/
theorem Coherent.openPath_cases (h : session.Coherent image) (path : String) :
  (∃ error, (openPath path).exec session image = (.error error, session, image))
    ∨ ∃ handle e, (openPath path).exec session image
          = (.ok handle, { session with
              openFiles := session.openFiles.set handle
                (some { record := e.record, path := session.absolute path }) }, image)
        ∧ handle < maxOpen ∧ session.openFiles.get? handle = none
        ∧ session.openFiles.find? (session.absolute path) = none
        ∧ image.find? session.superblock.root (session.target path) = some e
  := by
  have hentry := h.exec_entryAt_absolute path
  by_cases opened : (session.openFiles.find? (session.absolute path)).isSome = true
  · left
    refine ⟨.alreadyOpen, ?_⟩
    rw [openPath, exec_bind_of_ok exec_get, if_pos opened]
    rfl
  have unopened : session.openFiles.find? (session.absolute path) = none := by simpa using opened
  cases he : image.find? session.superblock.root (session.target path) with
  | none =>
      rw [he] at hentry
      left
      refine ⟨.notFound, ?_⟩
      rw [openPath, exec_bind_of_ok exec_get, if_neg opened]
      exact exec_bind_of_error hentry
  | some e =>
      have hexec := h.exec_openPath_eq unopened he
      cases hinsert : session.openFiles.insert
          { record := e.record, path := session.absolute path } with
      | error error =>
          rw [hinsert] at hexec
          exact .inl ⟨error, hexec⟩
      | ok inserted =>
          obtain ⟨handle, openFiles⟩ := inserted
          rw [hinsert] at hexec
          obtain ⟨hlt, hfree, rfl⟩ := OpenTable.insert_eq_ok hinsert
          exact .inr ⟨handle, e, hexec, hlt, hfree, unopened, rfl⟩

/-- Opening a path is quiet. -/
theorem alwaysQuiet_openPath (path : String) :
  (openPath path).AlwaysQuiet
  := by
  intro session image h
  obtain ⟨absolute, normal⟩ := h.absolute_eq path
  rcases h.openPath_cases path with ⟨error, hexec⟩ | ⟨handle, e, hexec, hlt, hfree, unopened, he⟩
  · apply quietAt_of_eq hexec h.refl
  · apply quietAt_of_eq hexec
    have hpath : OpenFile.path { record := e.record, path := session.absolute path }
        = Path.render (session.target path) := absolute
    exact h.quiet_insert rfl hfree hlt normal hpath he rfl rfl rfl unopened rfl

theorem alwaysQuiet_handleOf (path : String) :
  (handleOf path).AlwaysQuiet
  := by
  intro session image h
  apply QuietAt.bind_of_ok exec_get h.refl
  split
  · apply quietAt_pure h _
  · apply quietAt_throw h _

/-- An open directory can become the current one. -/
theorem Coherent.quiet_setDirectory (h : session.Coherent image) {session' : Session}
    (superblock : session'.superblock = session.superblock) {handle : Handle}
    (hset : session.openFiles.setDirectory handle = .ok session'.openFiles) :
  session.Quiet image session' image
  := by
  obtain ⟨⟨file, hfile, hdir⟩, hopen⟩ := OpenTable.setDirectory_eq_ok hset
  exact h.quiet_enter superblock hfile hdir hopen

/-- Making an open directory the current one is quiet. -/
theorem alwaysQuiet_setDirectory (handle : Handle) :
  (setDirectory handle).AlwaysQuiet
  := by
  intro session image h
  apply QuietAt.bind_of_ok exec_get h.refl
  cases hset : session.openFiles.setDirectory handle with
  | error e => exact QuietAt.bind_of_error (exec_ofExcept _) h.refl
  | ok openFiles =>
      apply QuietAt.bind_of_ok (exec_ofExcept _) h.refl
      exact h.quiet_setDirectory rfl hset

theorem alwaysQuiet_returnBorrowed (kept : Handle) :
  (returnBorrowed kept).AlwaysQuiet
  := by
  intro session image h
  apply QuietAt.bind_of_ok exec_get h.refl
  split
  · split_ifs
    · have quiet : session.Quiet image { session with borrowed := none } image :=
        h.quiet_of_eq rfl rfl
      apply QuietAt.bind_of_ok (exec_set _) quiet
      apply alwaysQuiet_close _ _ _ quiet.coherent
    · apply quietAt_pure h _
  · apply quietAt_pure h _

/-- Going into a directory whose handle is known is quiet. -/
theorem alwaysQuiet_enter (handle : Handle) (opened : Bool) :
  (enter handle opened).AlwaysQuiet
  := by
  intro session image h
  apply QuietAt.bind_of_ok exec_get h.refl
  cases hset : session.openFiles.setDirectory handle with
  | error e => exact QuietAt.bind_of_error (exec_ofExcept _) h.refl
  | ok openFiles =>
      apply QuietAt.bind_of_ok (exec_ofExcept _) h.refl
      have entered : session.Quiet image { session with openFiles } image :=
        h.quiet_setDirectory rfl hset
      apply QuietAt.bind_of_ok (exec_set _) entered
      apply (alwaysQuiet_returnBorrowed handle _ _ entered.coherent).bind
      intro _ session'' after' _ h''
      split_ifs
      · apply quietAt_of_eq (exec_modify _) (h''.quiet_of_eq rfl rfl)
      · apply quietAt_pure h'' _

/-- Changing the current directory is quiet. -/
theorem alwaysQuiet_changeDirectory (path : String) :
  (changeDirectory path).AlwaysQuiet
  := by
  rw [changeDirectory_eq]
  intro session image h
  apply QuietAt.bind_of_ok exec_get h.refl
  apply (alwaysQuiet_entryAt _ session image h).bind
  intro entry session' after _ h'
  refine quietAt_unless h' fun _ => ?_
  apply QuietAt.bind_of_ok exec_get h'.refl
  split
  · apply alwaysQuiet_enter _ false session' after h'
  · apply (alwaysQuiet_openPath _ session' after h').bind
    intro handle session'' after' _ h''
    apply alwaysQuiet_enter handle true session'' after' h''

/-! ### Contents -/

theorem alwaysQuiet_openFile (handle : Handle) :
  (openFile handle).AlwaysQuiet
  := by
  intro session image h
  apply QuietAt.bind_of_ok exec_get h.refl
  apply h.refl

theorem exec_openFile_eq_ok {handle : Handle} {file : OpenFile} {session' : Session}
    {after : Image} (h : (openFile handle).exec session image = (.ok file, session', after)) :
  session.openFiles.get? handle = some file ∧ session' = session ∧ after = image
  := by
  rw [exec_openFile] at h
  obtain ⟨hget, rfl, rfl⟩ : session.openFiles.get handle = .ok file ∧ session = session'
    ∧ image = after := by simpa using h
  exact ⟨OpenTable.get_eq_ok.mp hget, rfl, rfl⟩

/-- What goes on with an open file is quiet if it is for the file that is held. -/
theorem alwaysQuiet_openFile_bind {α : Type} {handle : Handle} {next : OpenFile → SessionM α}
    (h : ∀ {session : Session} {image : Image} {file : OpenFile}, session.Coherent image →
      session.openFiles.get? handle = some file → (next file).QuietAt session image) :
  (openFile handle >>= next).AlwaysQuiet
  := by
  intro session image coherent
  apply (alwaysQuiet_openFile handle session image coherent).bind
  intro file session' after hget coherent'
  obtain ⟨hfile, rfl, rfl⟩ := exec_openFile_eq_ok hget
  exact h coherent' hfile

/-- Moving a cursor is quiet. -/
theorem quietAt_putBack {handle : Handle} {file : OpenFile} {cursor : Nat}
    (h : session.Coherent image) (hfile : session.openFiles.get? handle = some file)
    (within : cursor ≤ file.record.length.toNat) :
  (putBack handle { file with cursor }).QuietAt session image
  := by
  apply quietAt_of_eq (exec_putBack _ _)
  refine h.quiet_set rfl hfile ?_ ?_ ?_ within rfl
  · rfl
  · rfl
  · rfl

/-- Reading gives what follows the cursor, as much as was asked for. -/
theorem Coherent.exec_read (h : session.Coherent image) {handle : Handle} {file : OpenFile}
    (hfile : session.openFiles.get? handle = some file) (isFile : file.record.isDirectory = false)
    (count : Nat) :
  ∃ session', (read handle count).exec session image
    = (.ok (((image.contentOf file.record.first.toNat file.record.length.toNat).drop
        file.cursor).take count), session', image)
  := by
  obtain ⟨hchain, span⟩ := h.chain_of_open hfile isFile
  obtain ⟨_, rfl, hread⟩ := OpenFile.exec_read isFile hchain span.ge count
  have hopen := exec_openFile session image handle
  rw [OpenTable.get_eq_ok.mpr hfile] at hopen
  rw [read, exec_bind_of_ok hopen, exec_bind_of_ok (exec_lift_of_eq hread)]
  exact ⟨_, rfl⟩

/-- Reading everything gives the content. -/
theorem Coherent.exec_readAll (h : session.Coherent image) {handle : Handle} {file : OpenFile}
    (hfile : session.openFiles.get? handle = some file)
    (isFile : file.record.isDirectory = false) :
  ∃ session', (readAll handle).exec session image
    = (.ok (image.contentOf file.record.first.toNat file.record.length.toNat), session', image)
  := by
  have full : (image.contentOf file.record.first.toNat file.record.length.toNat).length
      = file.record.length.toNat := Image.length_contentOf (h.chain_of_open hfile isFile).2.ge
  have rewound : Session.Coherent { session with
      openFiles := session.openFiles.set handle (some { file with cursor := 0 }) } image :=
    (quietAt_putBack h hfile (Nat.zero_le _)).coherent
  obtain ⟨session', hread⟩ := rewound.exec_read
    (OpenTable.get?_set_self _ (OpenTable.lt_of_get? hfile) _) isFile file.record.length.toNat
  rw [List.drop_zero, List.take_of_length_le full.le] at hread
  have hopen := exec_openFile session image handle
  rw [OpenTable.get_eq_ok.mpr hfile] at hopen
  rw [readAll, exec_bind_of_ok hopen, exec_bind_of_ok (exec_putBack _ _)]
  exact ⟨session', hread⟩

theorem alwaysQuiet_read (handle : Handle) (count : Nat) :
  (read handle count).AlwaysQuiet
  := by
  apply alwaysQuiet_openFile_bind
  intro session image file h hfile
  cases kind : file.record.isDirectory with
  | true =>
      have refused : (file.read count).exec image = (.error .notFile, image) :=
        OpenFile.exec_read_of_isDirectory kind
      apply QuietAt.bind_of_error (exec_lift_of_eq refused) h.refl
  | false =>
      obtain ⟨hchain, span⟩ := h.chain_of_open hfile kind
      obtain ⟨bytes, hbytes, hread⟩ := OpenFile.exec_read kind hchain span.ge count
      have within : file.cursor + bytes.length ≤ file.record.length.toNat := by
        have cursor := h.cursor_le hfile
        rw [hbytes, List.length_take, List.length_drop, Image.length_contentOf span.ge]
        omega
      apply QuietAt.bind_of_ok (exec_lift_of_eq hread) h.refl
      apply (quietAt_putBack h hfile within).bind
      intro _ session' after _ h'
      apply quietAt_pure h' _

theorem alwaysQuiet_readAll (handle : Handle) :
  (readAll handle).AlwaysQuiet
  := by
  apply alwaysQuiet_openFile_bind
  intro session image file h hfile
  apply (quietAt_putBack h hfile (Nat.zero_le _)).bind
  intro _ session' after _ h'
  apply alwaysQuiet_read handle _ session' after h'

theorem alwaysQuiet_seek (handle : Handle) (position : Nat) :
  (seek handle position).AlwaysQuiet
  := by
  apply alwaysQuiet_openFile_bind
  intro session image file h hfile
  apply (quietAt_putBack h hfile (Nat.min_le_right _ _)).bind
  intro _ session' after _ h'
  apply quietAt_pure h' _

/-! ### The volume -/

theorem alwaysQuiet_check :
  check.AlwaysQuiet
  := by
  intro session image h
  apply QuietAt.bind_of_ok exec_get h.refl
  apply quietAt_lift h (Check.uses_run (Set.mem_singleton _) _).readOnly

theorem alwaysQuiet_usage :
  usage.AlwaysQuiet
  := by
  intro session image h
  apply (quietAt_lift h (Allocation.uses_countFree (Set.mem_singleton _)).readOnly).bind
  intro free session' after _ h'
  apply quietAt_pure h' _

end FatVolume.Session
