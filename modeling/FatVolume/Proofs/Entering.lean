import FatVolume.Proofs.Borrowing

/-!
# Changing the current directory

Whether the current directory can change is decided before anything is changed, and
`Session.entering` is this decision.  When the directory changes, the handle that was borrowed is
returned, which cannot fail, and no other handle is released.
-/

namespace FatVolume.Session

open SessionM

variable {session : Session} {image : Image} {handle other : Handle} {file : OpenFile}

/-! ### Returning the borrowed handle -/

/-- The table without the borrowed handle, unless that is the one to keep. -/
def tableReturned (session : Session) (kept : Handle) : OpenTable :=
  match session.borrowed with
  | some other => if other ≠ kept then session.openFiles.set other none else session.openFiles
  | none => session.openFiles

theorem get?_tableReturned (kept : Handle) :
  (session.tableReturned kept).get? other
    = if session.borrowed = some other ∧ other ≠ kept then none else session.openFiles.get? other
  := by
  unfold tableReturned
  cases session.borrowed with
  | none => simp
  | some lent =>
      by_cases differs : lent ≠ kept
      · dsimp only
        rw [if_pos differs]
        by_cases same : lent = other
        · subst same
          rw [if_pos ⟨rfl, differs⟩]
          by_cases hlt : lent < maxOpen
          · exact OpenTable.get?_set_self _ hlt _
          · by_contra held
            obtain ⟨file, hfile⟩ := Option.ne_none_iff_exists'.mp held
            exact hlt (OpenTable.lt_of_get? hfile)
        · rw [if_neg (by simp [same]), OpenTable.get?_set_of_ne _ same]
      · dsimp only
        rw [if_neg differs, if_neg]
        rintro ⟨⟨rfl⟩, differs'⟩
        exact differs differs'

/-- A handle that can be released is, without device calls, if its file is up to date on disk. -/
theorem exec_close_of_clean (hfile : session.openFiles.get? handle = some file)
    (hroot : handle ≠ OpenTable.rootHandle) (hcurrent : handle ≠ session.openFiles.current)
    (clean : file.dirty = false) :
  (close handle).exec session image = (.ok (), session.withSlot handle none, image)
  := by
  rw [close, exec_bind_of_ok exec_get, OpenTable.remove_of_get? hfile hroot hcurrent,
    exec_bind_of_ok (exec_ofExcept _)]
  dsimp only
  rw [exec_bind_of_ok (exec_set _), clean, if_neg Bool.false_ne_true, exec_log]
  rfl

/-- Returning the borrowed handle succeeds if it is that of an open directory other than the root
and the current one. -/
theorem exec_returnBorrowed {kept : Handle}
    (returns : ∀ other, session.borrowed = some other → other ≠ kept →
      other ≠ OpenTable.rootHandle ∧ other ≠ session.openFiles.current
        ∧ ∃ held, session.openFiles.get? other = some held ∧ held.dirty = false) :
  (returnBorrowed kept).exec session image
    = (.ok (), { session with
        openFiles := session.tableReturned kept
        borrowed := if session.borrowed = some kept then some kept else none }, image)
  := by
  rw [returnBorrowed, exec_bind_of_ok exec_get, tableReturned]
  cases borrowed : session.borrowed with
  | none =>
      dsimp only
      rw [if_neg (by simp), exec_pure, ← borrowed]
  | some lent =>
      dsimp only
      by_cases differs : lent ≠ kept
      · obtain ⟨hroot, hcurrent, held, hheld, clean⟩ := returns lent borrowed differs
        rw [if_pos differs, if_pos differs, if_neg (by simpa using differs),
          exec_bind_of_ok (exec_set _)]
        exact exec_close_of_clean hheld hroot hcurrent clean
      · obtain rfl := not_not.mp differs
        rw [if_neg differs, if_neg differs, if_pos rfl, exec_pure, ← borrowed]

/-! ### Going into a directory -/

/-- The session after the directory at a handle has become the current one.  A handle that was
opened for this is borrowed. -/
def entered (session : Session) (handle : Handle) (opened : Bool) : Session :=
  { session with
    openFiles := { session.tableReturned handle with current := handle }
    borrowed := if opened = true ∨ session.borrowed = some handle then some handle else none }

theorem get?_entered (opened : Bool) :
  (session.entered handle opened).openFiles.get? other
    = if session.borrowed = some other ∧ other ≠ handle then none
      else session.openFiles.get? other
  := get?_tableReturned handle

/-- Going into an open directory succeeds. -/
theorem exec_enter (hfile : session.openFiles.get? handle = some file)
    (hdir : file.record.isDirectory = true) (opened : Bool)
    (returns : ∀ other, session.borrowed = some other → other ≠ OpenTable.rootHandle
      ∧ ∃ held, session.openFiles.get? other = some held ∧ held.dirty = false) :
  (enter handle opened).exec session image = (.ok (), session.entered handle opened, image)
  := by
  have returned : (returnBorrowed handle).exec
      { session with openFiles := { session.openFiles with current := handle } } image
      = (.ok (), { session with
          openFiles := { session.tableReturned handle with current := handle }
          borrowed := if session.borrowed = some handle then some handle else none }, image) := by
    refine (exec_returnBorrowed fun other borrowed differs => ?_).trans ?_
    · exact ⟨(returns other borrowed).1, differs, (returns other borrowed).2⟩
    · unfold tableReturned
      dsimp only
      cases session.borrowed with
      | none => rfl
      | some other => dsimp only; split_ifs <;> rfl
  rw [enter, exec_bind_of_ok exec_get, OpenTable.setDirectory_of_get? hfile hdir,
    exec_bind_of_ok (exec_ofExcept _), exec_bind_of_ok (exec_set _), exec_bind_of_ok returned]
  cases opened with
  | false => simp [entered]
  | true => simp [entered]

/-! ### The decision -/

/-- The session after changing the current directory, or the reason why it does not change. -/
def entering (session : Session) (image : Image) (path : String) : Except Error Session :=
  match image.find? session.superblock.root (session.target path) with
  | none => .error .notFound
  | some e =>
      if e.record.isDirectory then
        match session.openFiles.find? (session.absolute path) with
        | some handle => .ok (session.entered handle false)
        | none =>
            match session.openFiles.insert
              { record := e.record, path := session.absolute path } with
            | .ok (handle, openFiles) =>
                .ok (({ session with openFiles } : Session).entered handle true)
            | .error error => .error error
      else .error .notDirectory

/-- The current directory changes to one that is open, or to one that is put into a free slot. -/
theorem entering_eq_ok {session' : Session} {path : String}
    (h : session.entering image path = .ok session') :
  ∃ e handle, image.find? session.superblock.root (session.target path) = some e
    ∧ e.record.isDirectory = true
    ∧ (session' = session.entered handle false
        ∧ session.openFiles.find? (session.absolute path) = some handle
      ∨ session' = (session.withSlot handle
            (some { record := e.record, path := session.absolute path })).entered handle true
        ∧ session.openFiles.get? handle = none ∧ handle < maxOpen)
  := by
  unfold entering at h
  cases he : image.find? session.superblock.root (session.target path) with
  | none => simp [he] at h
  | some e =>
      rw [he] at h
      dsimp only at h
      split_ifs at h with hdir
      cases hfound : session.openFiles.find? (session.absolute path) with
      | some handle =>
          rw [hfound] at h
          exact ⟨e, handle, rfl, hdir, .inl ⟨(Except.ok.inj h).symm, rfl⟩⟩
      | none =>
          rw [hfound] at h
          dsimp only at h
          split at h
          · next handle openFiles hinsert =>
              obtain ⟨hlt, free, rfl⟩ := OpenTable.insert_eq_ok hinsert
              exact ⟨e, handle, rfl, hdir, .inr ⟨(Except.ok.inj h).symm, free, hlt⟩⟩
          · cases h

/-- The current directory changes exactly if the path leads to a directory that is open or for which
a slot is free. -/
theorem exists_entering_iff {path : String} :
  (∃ session', session.entering image path = .ok session')
    ↔ ∃ e, image.find? session.superblock.root (session.target path) = some e
      ∧ e.record.isDirectory = true
      ∧ ((∃ handle file, session.openFiles.get? handle = some file
            ∧ file.path = session.absolute path)
          ∨ ∃ handle < maxOpen, session.openFiles.get? handle = none)
  := by
  constructor
  · rintro ⟨session', hentering⟩
    obtain ⟨e, handle, he, hdir, ⟨-, hfound⟩ | ⟨-, free, hlt⟩⟩ := entering_eq_ok hentering
    · obtain ⟨file, hfile, hpath⟩ := OpenTable.exists_of_find? hfound
      exact ⟨e, he, hdir, .inl ⟨handle, file, hfile, hpath⟩⟩
    · exact ⟨e, he, hdir, .inr ⟨handle, hlt, free⟩⟩
  · rintro ⟨e, he, hdir, place⟩
    unfold entering
    rw [he]
    dsimp only
    rw [if_pos hdir]
    cases hfound : session.openFiles.find? (session.absolute path) with
    | some handle => exact ⟨_, rfl⟩
    | none =>
        rcases place with ⟨handle, file, hfile, hpath⟩ | free
        · exact (OpenTable.find?_eq_none_iff.mp hfound handle file hfile hpath).elim
        · obtain ⟨inserted, hinsert⟩ := OpenTable.exists_insert_iff.mpr free
          rw [hinsert]
          exact ⟨_, rfl⟩

/-! ### Going into a directory -/

section Coherence

variable (h : session.Coherent image) (borrows : session.BorrowsCurrent) {path : String} {e : Entry}
  (he : image.find? session.superblock.root (session.target path) = some e)
  (hdir : e.record.isDirectory = true)
include h borrows he hdir

/-- A path that is open has the file that tracks the entry found at it. -/
theorem Coherent.exec_enter_of_find? {handle : Handle}
    (hfound : session.openFiles.find? (session.absolute path) = some handle) :
  (enter handle false).exec session image = (.ok (), session.entered handle false, image)
  := by
  obtain ⟨absolute, normal⟩ := h.absolute_eq path
  obtain ⟨file, hfile, hpath⟩ := OpenTable.exists_of_find? hfound
  have tracks := h.tracks_of_find? hfile normal (hpath.trans absolute) he
  exact exec_enter hfile (tracks.isDirectory_eq.trans hdir) false
    fun lent borrowed => h.returns_of_borrowsCurrent borrows borrowed

/-- A path that is not open is opened first, if a slot is free. -/
theorem Coherent.exec_openPath_enter
    (hfound : session.openFiles.find? (session.absolute path) = none) :
  (do enter (← openPath (session.absolute path)) true : SessionM Unit).exec session image
    = match session.openFiles.insert { record := e.record, path := session.absolute path } with
      | .ok (handle, openFiles) =>
          (.ok (), ({ session with openFiles } : Session).entered handle true, image)
      | .error error => (.error error, session, image)
  := by
  obtain ⟨absolute, normal⟩ := h.absolute_eq path
  have again : session.absolute (session.absolute path) = session.absolute path := by
    rw [absolute, h.absolute_render normal]
  have unopened : session.openFiles.find? (session.absolute (session.absolute path)) = none := by
    rw [again, hfound]
  have hopen := h.exec_openPath_eq unopened ((h.target_absolute path).symm ▸ he)
  rw [again] at hopen
  cases hinsert : session.openFiles.insert
      { record := e.record, path := session.absolute path } with
  | error error =>
      rw [hinsert] at hopen
      exact exec_bind_of_error hopen
  | ok inserted =>
      obtain ⟨handle, openFiles⟩ := inserted
      rw [hinsert] at hopen
      obtain ⟨hlt, hfree, rfl⟩ := OpenTable.insert_eq_ok hinsert
      let opened : OpenFile := { record := e.record, path := session.absolute path }
      let session' : Session :=
        { session with openFiles := session.openFiles.set handle (some opened) }
      have held : session'.openFiles.get? handle = some opened :=
        OpenTable.get?_set_self session.openFiles hlt opened
      refine (exec_bind_of_ok hopen).trans ?_
      exact exec_enter held hdir true fun _ => h.returns_of_free borrows hlt hfree opened

end Coherence

/-- Changing the current directory does what was decided. -/
theorem Coherent.exec_changeDirectory (h : session.Coherent image)
    (borrows : session.BorrowsCurrent) (path : String) :
  (changeDirectory path).exec session image
    = match session.entering image path with
      | .ok session' => (.ok (), session', image)
      | .error error => (.error error, session, image)
  := by
  have hentry := h.exec_entryAt_absolute path
  rw [changeDirectory_eq, exec_bind_of_ok exec_get]
  dsimp only
  unfold entering
  cases he : image.find? session.superblock.root (session.target path) with
  | none =>
      rw [he] at hentry
      exact exec_bind_of_error hentry
  | some e =>
      rw [he] at hentry
      rw [exec_bind_of_ok hentry]
      dsimp only
      cases hdir : e.record.isDirectory with
      | false => rfl
      | true =>
          rw [if_neg (by simp), if_pos rfl, exec_bind_of_ok exec_get]
          cases hfound : session.openFiles.find? (session.absolute path) with
          | some handle => exact h.exec_enter_of_find? borrows he hdir hfound
          | none =>
              refine (h.exec_openPath_enter borrows he hdir hfound).trans ?_
              cases session.openFiles.insert
                  { record := e.record, path := session.absolute path } <;> rfl

end FatVolume.Session
