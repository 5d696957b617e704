import FatVolume.Proofs.Histories
import FatVolume.Proofs.SessionEffects

/-!
# The borrowed handle

Changing the current directory may open a handle by itself, which the session borrows until it
changes the directory again.  Throughout a session the borrowed handle is that of the current
directory and not that of the root.  Therefore it can always be returned.
-/

namespace FatVolume

namespace Session

/-- A borrowed handle is that of the current directory and not that of the root. -/
def BorrowsCurrent (session : Session) : Prop :=
  ∀ handle, session.borrowed = some handle →
    handle = session.openFiles.current ∧ handle ≠ OpenTable.rootHandle

/-- The session after borrows nothing, or what the session before does, in the same directory. -/
def KeepsBorrowed (session session' : Session) : Prop :=
  session'.borrowed = none ∨
    session'.borrowed = session.borrowed ∧ session'.openFiles.current = session.openFiles.current

variable {session session' session'' : Session}

theorem KeepsBorrowed.refl (session : Session) :
  session.KeepsBorrowed session
  := .inr ⟨rfl, rfl⟩

theorem KeepsBorrowed.trans (h : session.KeepsBorrowed session')
    (h' : session'.KeepsBorrowed session'') :
  session.KeepsBorrowed session''
  := by
  rcases h' with returned | ⟨borrowed, current⟩
  · exact .inl returned
  · rw [KeepsBorrowed, borrowed, current]
    exact h

theorem keepsBorrowed_withSlot (session : Session) (handle : Handle) (held : Option OpenFile) :
  session.KeepsBorrowed (session.withSlot handle held)
  := .inr ⟨rfl, rfl⟩

theorem BorrowsCurrent.of_keeps (h : session.BorrowsCurrent) (keeps : session.KeepsBorrowed session') :
  session'.BorrowsCurrent
  := by
  intro handle borrowed
  rcases keeps with returned | ⟨same, current⟩
  · simp [returned] at borrowed
  · rw [same] at borrowed
    rw [current]
    exact h handle borrowed

end Session

/-! ### Actions that keep what is borrowed -/

namespace SessionM

variable {α β : Type} {action : SessionM α} {next : α → SessionM β}

/-- The action goes on borrowing in the same directory, or returns what is borrowed. -/
def KeepsBorrowed (action : SessionM α) : Prop :=
  ∀ session, action.Ensures session fun _ session' => session.KeepsBorrowed session'

theorem Still.keepsBorrowed (h : action.Still) :
  action.KeepsBorrowed
  := by
  intro session
  apply (h session).mono
  rintro _ _ rfl
  exact .refl _

theorem KeepsBorrowed.bind (h : action.KeepsBorrowed) (h' : ∀ a, (next a).KeepsBorrowed) :
  (action >>= next).KeepsBorrowed
  := by
  intro session
  refine (h session).bind (fun a session' keeps => ?_) fun _ _ keeps => keeps
  exact (h' a session').mono fun _ _ keeps' => keeps.trans keeps'

theorem keepsBorrowed_modify {f : Session → Session}
    (h : ∀ session : Session, session.KeepsBorrowed (f session)) :
  (modify f : SessionM PUnit).KeepsBorrowed
  := fun session => ⟨fun _ _ => h session⟩

theorem keepsBorrowed_set {session' : Session} (h : session'.borrowed = none) :
  (set session' : SessionM PUnit).KeepsBorrowed
  := fun _ => ⟨fun _ _ => .inl h⟩

theorem keepsBorrowed_forM {action : α → SessionM Unit} (h : ∀ a, (action a).KeepsBorrowed)
    (list : List α) :
  (list.forM action).KeepsBorrowed
  := by
  induction list with
  | nil => exact (still_pure ()).keepsBorrowed
  | cons a rest ih =>
      rw [List.forM_eq_forM, List.forM_cons]
      exact (h a).bind fun _ => ih

end SessionM

namespace Session

open SessionM

theorem keepsBorrowed_openPath (path : String) :
  (openPath path).KeepsBorrowed
  := by
  intro session
  apply (ensures_openPath path).mono
  rintro _ _ (⟨_, -, rfl⟩ | ⟨handle, file, -, -, -, rfl⟩)
  · exact .refl _
  · apply keepsBorrowed_withSlot

theorem keepsBorrowed_close (handle : Handle) :
  (close handle).KeepsBorrowed
  := by
  intro session
  apply (ensures_close handle).mono
  rintro _ _ (⟨_, -, rfl, -⟩ | rfl)
  · exact .refl _
  · apply keepsBorrowed_withSlot

theorem keepsBorrowed_closeAll :
  closeAll.KeepsBorrowed
  := still_get.keepsBorrowed.bind fun _ => keepsBorrowed_forM keepsBorrowed_close _

theorem keepsBorrowed_setDirectory (handle : Handle) :
  (setDirectory handle).KeepsBorrowed
  := by
  intro session
  apply (ensures_setDirectory handle).mono
  rintro _ _ (⟨_, -, rfl⟩ | rfl)
  · exact .refl _
  · exact .inl rfl

theorem keepsBorrowed_putBack (handle : Handle) (file : OpenFile) :
  (putBack handle file).KeepsBorrowed
  := keepsBorrowed_modify fun session => session.keepsBorrowed_withSlot handle (some file)

theorem keepsBorrowed_read (handle : Handle) (count : Nat) :
  (read handle count).KeepsBorrowed
  := by
  apply (still_openFile handle).keepsBorrowed.bind
  intro file
  apply (still_lift _).keepsBorrowed.bind
  exact fun _ => (keepsBorrowed_putBack _ _).bind fun _ => (still_pure _).keepsBorrowed

theorem keepsBorrowed_readAll (handle : Handle) :
  (readAll handle).KeepsBorrowed
  := by
  apply (still_openFile handle).keepsBorrowed.bind
  exact fun _ => (keepsBorrowed_putBack _ _).bind fun _ => keepsBorrowed_read _ _

theorem keepsBorrowed_seek (handle : Handle) (position : Nat) :
  (seek handle position).KeepsBorrowed
  := by
  apply (still_openFile handle).keepsBorrowed.bind
  exact fun _ => (keepsBorrowed_putBack _ _).bind fun _ => (still_pure _).keepsBorrowed

theorem keepsBorrowed_write (handle : Handle) (content : Bytes) (mode : WriteMode) :
  (write handle content mode).KeepsBorrowed
  := by
  apply (still_openFile handle).keepsBorrowed.bind
  intro file
  apply (still_lift _).keepsBorrowed.bind
  exact fun _ => (keepsBorrowed_putBack _ _).bind fun _ => (still_pure _).keepsBorrowed

theorem keepsBorrowed_beginAgain {finish : SessionM Unit} (h : finish.Still) :
  (beginAgain finish).KeepsBorrowed
  := by
  apply still_get.keepsBorrowed.bind
  intro session
  apply (still_lift _).keepsBorrowed.bind
  intro _
  apply (still_lift _).keepsBorrowed.bind
  intro superblock
  refine SessionM.KeepsBorrowed.bind (keepsBorrowed_modify fun _ => .inr ⟨rfl, rfl⟩) fun _ => ?_
  apply (still_lift _).keepsBorrowed.bind
  intro root
  exact (keepsBorrowed_modify fun _ => .inl rfl).bind fun _ => h.keepsBorrowed

theorem keepsBorrowed_reformat (full : Bool) :
  (reformat full).KeepsBorrowed
  := by
  cases full with
  | false =>
      rw [reformat_false]
      exact keepsBorrowed_beginAgain (still_pure _)
  | true =>
      have erasing := keepsBorrowed_forM fun b => (still_lift (DiskM.writeBlock b .zero)).keepsBorrowed
      rw [reformat_true]
      exact (erasing _).bind fun _ => keepsBorrowed_beginAgain (still_lift _)

theorem keepsBorrowed_shutdown :
  shutdown.KeepsBorrowed
  := by
  apply still_get.keepsBorrowed.bind
  intro session
  apply (keepsBorrowed_forM (fun file => (still_writeBack file).keepsBorrowed) _).bind
  intro _
  apply (still_openFile _).keepsBorrowed.bind
  intro root
  apply (keepsBorrowed_set rfl).bind
  exact fun _ => (still_lift _).keepsBorrowed.bind fun _ => (still_log _ _ _).keepsBorrowed

/-! ### Changing the current directory -/

variable {session : Session}

/-- The borrowed handle is returned unless it is the one to keep. -/
theorem ensures_returnBorrowed (kept : Handle) :
  (returnBorrowed kept).Ensures session fun _ session' =>
    session'.openFiles.current = session.openFiles.current
      ∧ (session'.borrowed = none
        ∨ session'.borrowed = some kept ∧ session.borrowed = some kept)
  := by
  apply ensures_get_bind
  cases borrowed : session.borrowed with
  | none => exact ⟨fun _ _ => ⟨rfl, .inl borrowed⟩⟩
  | some handle =>
      dsimp only
      split_ifs with other
      · apply ensures_set_bind
        apply (ensures_close handle).mono
        rintro _ _ (⟨_, -, rfl, -⟩ | rfl)
        · exact ⟨rfl, .inl rfl⟩
        · exact ⟨rfl, .inl rfl⟩
      · obtain rfl := not_not.mp other
        exact ⟨fun _ _ => ⟨rfl, .inr ⟨borrowed, rfl⟩⟩⟩

/-- Going into a directory borrows its handle, if the handle is not that of the root. -/
theorem ensures_enter {handle : Handle} {opened : Bool} (h : session.BorrowsCurrent)
    (notRoot : opened = true → handle ≠ OpenTable.rootHandle) :
  (enter handle opened).Ensures session fun _ session' => session'.BorrowsCurrent
  := by
  apply ensures_get_bind
  refine ensures_ofExcept_bind ?_ fun _ _ => h
  intro openFiles hset
  obtain ⟨-, rfl⟩ := OpenTable.setDirectory_eq_ok hset
  apply ensures_set_bind
  have kept {session' : Session} (current : session'.openFiles.current = handle)
      (borrowed : session'.borrowed = none
        ∨ session'.borrowed = some handle ∧ session.borrowed = some handle) :
      session'.BorrowsCurrent := by
    intro other hother
    rcases borrowed with none | ⟨same, before⟩
    · simp [none] at hother
    · rw [same] at hother
      obtain rfl := Option.some.inj hother
      exact ⟨current.symm, (h _ before).2⟩
  refine (ensures_returnBorrowed handle).bind ?_ ?_
  · rintro _ session' ⟨current, borrowed⟩
    cases opened with
    | false => exact ⟨fun _ _ => kept current borrowed⟩
    | true =>
        refine ⟨fun _ _ => ?_⟩
        rintro _ ⟨rfl⟩
        exact ⟨current.symm, notRoot rfl⟩
  · rintro _ session' ⟨current, borrowed⟩
    exact kept current borrowed

/-- Going into a directory succeeds if the borrowed handle can be returned. -/
theorem ensures_enter_ok {handle : Handle} {file : OpenFile} (opened : Bool)
    (hfile : session.openFiles.get? handle = some file) (hdir : file.record.isDirectory = true)
    (returns : ∀ other, session.borrowed = some other → other ≠ OpenTable.rootHandle
        ∧ ∃ held, session.openFiles.get? other = some held ∧ held.dirty = false) :
  (enter handle opened).Ensures session fun result _ => result = .ok ()
  := by
  have finish (session' : Session) : (if opened then modify fun session =>
      { session with borrowed := some handle } else pure () : SessionM Unit).Ensures session'
        fun result _ => result = .ok () := by
    cases opened <;> exact ⟨fun _ _ => rfl⟩
  apply ensures_get_bind
  rw [OpenTable.setDirectory_of_get? hfile hdir]
  refine ensures_ofExcept_bind ?_ fun _ failed => by cases failed
  rintro _ ⟨rfl⟩
  apply ensures_set_bind
  have returned : (returnBorrowed handle).Ensures
      { session with openFiles := { session.openFiles with current := handle } }
        fun result _ => result = .ok () := by
    apply ensures_get_bind
    cases borrowed : session.borrowed with
    | none => exact ⟨fun _ _ => rfl⟩
    | some other =>
        dsimp only
        split_ifs with differs
        · obtain ⟨hroot, held, hheld, clean⟩ := returns other borrowed
          apply ensures_set_bind
          exact ensures_close_ok hheld hroot differs clean
        · exact ⟨fun _ _ => rfl⟩
  exact returned.bind (fun _ session' _ => finish session') fun _ _ failed => by cases failed

/-- A borrowed handle is that of an open directory, which can be closed after another one was
entered. -/
theorem Coherent.returns_of_borrowsCurrent {image : Image} (h : session.Coherent image)
    (borrows : session.BorrowsCurrent) {handle : Handle} (borrowed : session.borrowed = some handle) :
  handle ≠ OpenTable.rootHandle
    ∧ ∃ file, session.openFiles.get? handle = some file ∧ file.dirty = false
  := by
  obtain ⟨rfl, hroot⟩ := borrows handle borrowed
  obtain ⟨file, hfile, hdir⟩ := h.current_open
  exact ⟨hroot, file, hfile, h.clean_of_isDirectory hfile hdir⟩

/-- It can also be closed after a file was put into a free slot. -/
theorem Coherent.returns_of_free {image : Image} (h : session.Coherent image)
    (borrows : session.BorrowsCurrent) {handle other : Handle} (hlt : handle < maxOpen)
    (hfree : session.openFiles.get? handle = none) (opened : OpenFile)
    (borrowed : session.borrowed = some other) :
  other ≠ OpenTable.rootHandle
    ∧ ∃ file, (session.openFiles.set handle (some opened)).get? other = some file
      ∧ file.dirty = false
  := by
  obtain ⟨hroot, file, hfile, clean⟩ := h.returns_of_borrowsCurrent borrows borrowed
  have differs : handle ≠ other := by
    rintro rfl
    simp [hfree] at hfile
  refine ⟨hroot, file, ?_, clean⟩
  rw [OpenTable.get?_set _ hlt, if_neg differs, hfile]

/-- Changing the directory borrows the handle of the new one, if it was not open. -/
theorem ensures_changeDirectory (path : String) (h : session.BorrowsCurrent)
    (root : session.openFiles.get? OpenTable.rootHandle ≠ none) :
  (changeDirectory path).Ensures session fun _ session' => session'.BorrowsCurrent
  := by
  rw [changeDirectory_eq]
  apply ensures_get_bind
  refine (still_entryAt _).bind_ensures (fun entry => ?_) fun _ => h
  refine ensures_unless (fun _ => h) fun _ => ?_
  apply ensures_get_bind
  split
  · exact ensures_enter h (by simp)
  · refine (ensures_openPath _).bind ?_ ?_
    · rintro _ _ (⟨_, ⟨⟩, -⟩ | ⟨handle, file, ⟨rfl⟩, -, free, rfl⟩)
      apply ensures_enter (h.of_keeps (keepsBorrowed_withSlot _ _ _))
      rintro - rfl
      exact root free
    · rintro _ _ (⟨_, -, rfl⟩ | ⟨_, _, ⟨⟩, -⟩)
      exact h

end Session

/-! ### Histories -/

namespace Operation

open Session SessionM

/-- Only changing the directory borrows. -/
theorem keepsBorrowed_perform {operation : Operation}
    (h : ∀ path, operation ≠ .changeDirectory path) :
  operation.perform.KeepsBorrowed
  := by
  have answer {α : Type} {action : SessionM α} (h : action.KeepsBorrowed) (answer : α → Answer) :
      (do return answer (← action) : SessionM Answer).KeepsBorrowed :=
    h.bind fun _ => (still_pure _).keepsBorrowed
  cases operation with
  | makeDirectory path => exact answer (still_createAt path .directory).keepsBorrowed _
  | createFile path => exact answer (still_createAt path .file).keepsBorrowed _
  | removeDirectory path => exact answer (still_removeDirectory path).keepsBorrowed fun _ => .done
  | removeFile path => exact answer (still_removeFile path).keepsBorrowed fun _ => .done
  | list path => exact answer (still_list path).keepsBorrowed _
  | lookup path => exact answer (still_lookup path).keepsBorrowed _
  | openPath path => exact answer (keepsBorrowed_openPath path) _
  | handleOf path => exact answer (still_handleOf path).keepsBorrowed _
  | close handle => exact answer (keepsBorrowed_close handle) fun _ => .done
  | closeAll => exact answer keepsBorrowed_closeAll fun _ => .done
  | setDirectory handle => exact answer (keepsBorrowed_setDirectory handle) fun _ => .done
  | changeDirectory path => exact (h path rfl).elim
  | read handle count => exact answer (keepsBorrowed_read handle count) _
  | readAll handle => exact answer (keepsBorrowed_readAll handle) _
  | seek handle position => exact answer (keepsBorrowed_seek handle position) _
  | write handle content mode => exact answer (keepsBorrowed_write handle content mode) _
  | openFile handle => exact answer (still_openFile handle).keepsBorrowed _
  | check => exact answer still_check.keepsBorrowed _
  | usage => exact answer still_usage.keepsBorrowed _
  | reformat full => exact answer (keepsBorrowed_reformat full) fun _ => .done
  | shutdown => exact answer keepsBorrowed_shutdown fun _ => .done

/-- No operation leaves a borrowed handle other than that of the current directory. -/
theorem ensures_borrowsCurrent (operation : Operation) {session : Session}
    (h : session.BorrowsCurrent) (root : session.openFiles.get? OpenTable.rootHandle ≠ none) :
  operation.perform.Ensures session fun _ session' => session'.BorrowsCurrent
  := by
  by_cases changes : ∃ path, operation = .changeDirectory path
  · obtain ⟨path, rfl⟩ := changes
    refine (ensures_changeDirectory path h root).bind ?_ fun _ _ borrows => borrows
    exact fun _ _ borrows => ⟨fun _ _ => borrows⟩
  · apply (keepsBorrowed_perform (not_exists.mp changes) session).mono
    exact fun _ _ keeps => h.of_keeps keeps

end Operation

/-- A step of a coherent session leaves no borrowed handle other than that of the current
directory. -/
theorem State.Coherent.borrowsCurrent_next {state : State} (h : state.Coherent)
    (borrows : state.session.BorrowsCurrent) (step : Step) :
  (step.next state).session.BorrowsCurrent
  := by
  have root : (state.session.atTime step.now).openFiles.get? OpenTable.rootHandle ≠ none := by
    obtain ⟨file, hfile, -⟩ := h.root_open
    simp [hfile]
  have borrows : (state.session.atTime step.now).BorrowsCurrent := borrows
  exact (step.operation.ensures_borrowsCurrent borrows root).runIn Image.serve state.image

/-- A coherent session that borrows nothing, or the handle of its directory, never borrows
another. -/
theorem State.Coherent.borrowsCurrent_run {state : State} (h : state.Coherent)
    (borrows : state.session.BorrowsCurrent) (history : List Step) :
  (state.run history).session.BorrowsCurrent
  := by
  apply (State.run_induction (motive := fun state => state.Coherent ∧ state.session.BorrowsCurrent)
    ⟨h, borrows⟩ _ history).2
  rintro state step ⟨h, borrows⟩
  exact ⟨(h.change step).1, h.borrowsCurrent_next borrows step⟩

/-- A session that was mounted borrows nothing. -/
theorem Session.borrowed_of_mount {clock : Timestamp} {image after : Image} {session : Session}
    (h : (mount clock).exec image = (.ok session, after)) :
  session.borrowed = none
  := by
  obtain ⟨superblock, read, -, h⟩ := DiskM.exec_bind_eq_ok.mp h
  obtain ⟨root, opened, -, h⟩ := DiskM.exec_bind_eq_ok.mp h
  rw [DiskM.exec_bind_of_ok (DiskM.exec_log _ _ _ _), DiskM.exec_pure] at h
  obtain ⟨⟨rfl⟩, -⟩ := Prod.mk.inj h
  rfl

/-- A session that begins by formatting never borrows a handle other than that of its directory. -/
theorem borrowsCurrent_of_format {clock : Timestamp} {image : Image} {start : State}
    (h : (Session.format clock).exec image = (.ok start.session, start.image))
    (coherent : start.Coherent) (history : List Step) :
  (start.run history).session.BorrowsCurrent
  := by
  obtain ⟨-, formatted, -, hmount⟩ := DiskM.exec_bind_eq_ok.mp h
  apply coherent.borrowsCurrent_run
  intro handle borrowed
  simp [Session.borrowed_of_mount hmount] at borrowed

end FatVolume
