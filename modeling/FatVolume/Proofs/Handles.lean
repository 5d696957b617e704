import FatVolume.Proofs.Entering
import FatVolume.Proofs.FreshVolumes
import FatVolume.Proofs.Results

/-!
# Handles

A handle that was given out for a path keeps that path until it is released.  It is never the
handle that the session borrows, so that changing the current directory leaves it alone.  With
nothing but such changes no more than two slots are occupied.
-/

namespace FatVolume

/-! ### Counting slots -/

namespace OpenTable

variable {table : OpenTable}

/-- No slot is occupied twice. -/
theorem nodup_occupied (table : OpenTable) :
  (table.occupied.map (·.1)).Nodup
  := by
  have handles (slots : List (Option OpenFile)) (first : Nat) :
      ((slots.zipIdx first).filterMap fun place =>
          place.1.map fun file => (place.2, file)).map (·.1)
        = ((slots.zipIdx first).filter (·.1.isSome)).map (·.2) := by
    induction slots generalizing first with
    | nil => rfl
    | cons slot rest ih =>
        rw [List.zipIdx_cons, List.filterMap_cons, List.filter_cons]
        cases slot with
        | none => exact ih (first + 1)
        | some file => exact congrArg (first :: ·) (ih (first + 1))
  have listed : table.occupied = table.slots.toList.zipIdx.filterMap fun place =>
      place.1.map fun file => (place.2, file) := rfl
  rw [listed, handles]
  have within := (List.filter_sublist (p := (·.1.isSome))
    (l := table.slots.toList.zipIdx)).map Prod.snd
  apply within.nodup
  rw [List.zipIdx_map_snd]
  exact List.nodup_range'

/-- There are no more occupied slots than handles that an occupied slot can have. -/
theorem count_le {handles : List Handle}
    (h : ∀ handle file, table.get? handle = some file → handle ∈ handles) :
  table.count ≤ handles.length
  := by
  have within : table.occupied.map (·.1) ⊆ handles := by
    intro handle listed
    obtain ⟨⟨handle, file⟩, hmem, rfl⟩ := List.mem_map.mp listed
    exact h handle file (mem_occupied.mp hmem)
  have := (table.nodup_occupied.subperm within).length_le
  rwa [List.length_map] at this

end OpenTable

/-! ### Files keep their paths -/

namespace OpenFile

open DiskM

theorem returns_read (file : OpenFile) (count : Nat) :
  (file.read count).Returns fun answer => answer.2.path = file.path
  := returns_unless fun _ => returns_bind fun _ => returns_pure rfl

theorem returns_write (file : OpenFile) (new : Bytes) (mode : WriteMode) :
  (file.write new mode).Returns fun file' => file'.path = file.path
  := by
  refine returns_unless fun _ => returns_bind fun old => ?_
  exact returns_bind fun _ => returns_bind fun _ => returns_pure rfl

end OpenFile

/-! ### Handles that are not borrowed -/

namespace Session

/-- The handle is that of an open file with the given path, and the session does not borrow it. -/
def Owns (session : Session) (handle : Handle) (path : String) : Prop :=
  (∃ file, session.openFiles.get? handle = some file ∧ file.path = path)
    ∧ session.borrowed ≠ some handle

variable {session session' : Session} {handle other : Handle} {path : String}
  {file file' : OpenFile}

theorem Owns.withSlot (h : session.Owns handle path) (differs : other ≠ handle)
    (held : Option OpenFile) :
  (session.withSlot other held).Owns handle path
  := by
  obtain ⟨⟨file, hfile, hpath⟩, kept⟩ := h
  exact ⟨⟨file, (OpenTable.get?_set_of_ne _ differs _).trans hfile, hpath⟩, kept⟩

/-- An open file can be replaced by one with the same path. -/
theorem Owns.replaced (h : session.Owns handle path)
    (hfile : session.openFiles.get? other = some file) (same : file'.path = file.path) :
  (session.withSlot other (some file')).Owns handle path
  := by
  by_cases differs : other = handle
  · subst differs
    obtain ⟨⟨held, hheld, hpath⟩, kept⟩ := h
    obtain rfl := Option.some.inj (hfile.symm.trans hheld)
    have now := OpenTable.get?_set_self session.openFiles (OpenTable.lt_of_get? hfile) (some file')
    exact ⟨⟨file', now, same.trans hpath⟩, kept⟩
  · exact h.withSlot differs _

end Session

namespace SessionM

variable {α β : Type} {action : SessionM α} {next : α → SessionM β} {session : Session}
  {post : Except Error β → Session → Prop} {handle : Handle} {path : String}

/-- The handle keeps its path and is not borrowed, whatever the action's surroundings are. -/
def KeepsOwned (action : SessionM α) (handle : Handle) (path : String) : Prop :=
  ∀ session, session.Owns handle path →
    action.Ensures session fun _ session' => session'.Owns handle path

theorem Still.keepsOwned (h : action.Still) :
  action.KeepsOwned handle path
  := by
  intro session owns
  apply (h session).mono
  rintro _ _ rfl
  exact owns

theorem KeepsOwned.bind (h : action.KeepsOwned handle path)
    (h' : ∀ a, (next a).KeepsOwned handle path) :
  (action >>= next).KeepsOwned handle path
  := fun session owns =>
    (h session owns).bind (fun a session' owns' => h' a session' owns') fun _ _ owns' => owns'

theorem KeepsOwned.answer (h : action.KeepsOwned handle path) (answer : α → β) :
  (do return answer (← action) : SessionM β).KeepsOwned handle path
  := h.bind fun _ => (still_pure _).keepsOwned

/-- An action of the disk is followed by what goes on from its possible results. -/
theorem ensures_lift_bind {action : DiskM α} {P : α → Prop} (h : action.Returns P)
    (ok : ∀ a, P a → (next a).Ensures session post) (error : ∀ e, post (.error e) session) :
  ((liftM action : SessionM α) >>= next).Ensures session post
  := by
  refine ⟨fun serve s => ?_⟩
  rcases hrun : action.runIn serve s with ⟨result, s'⟩
  have lifted : (liftM action : SessionM α).runIn serve session s = (result, session, s') := by
    rw [runIn_lift, hrun]
  cases result with
  | ok a =>
      rw [runIn_bind_of_ok lifted]
      exact (ok a (h.runIn serve s hrun)).runIn serve s'
  | error e =>
      rw [runIn_bind_of_error lifted]
      exact error e

end SessionM

namespace Session

open SessionM

variable {session : Session} {handle : Handle} {path : String}

theorem keepsOwned_openPath (given : String) :
  (openPath given).KeepsOwned handle path
  := by
  intro session owns
  apply (ensures_openPath given).mono
  rintro _ _ (⟨_, -, rfl⟩ | ⟨other, file, -, -, free, rfl⟩)
  · exact owns
  · apply owns.withSlot
    rintro rfl
    obtain ⟨⟨held, hheld, -⟩, -⟩ := owns
    simp [free] at hheld

theorem keepsOwned_close {other : Handle} (differs : other ≠ handle) :
  (close other).KeepsOwned handle path
  := by
  intro session owns
  apply (ensures_close other).mono
  rintro _ _ (⟨_, -, rfl, -⟩ | rfl)
  · exact owns
  · exact owns.withSlot differs none

theorem keepsOwned_setDirectory (other : Handle) :
  (setDirectory other).KeepsOwned handle path
  := by
  intro session owns
  apply (ensures_setDirectory other).mono
  rintro _ _ (⟨_, -, rfl⟩ | rfl)
  · exact owns
  · exact ⟨owns.1, by simp⟩

theorem keepsOwned_read (other : Handle) (count : Nat) :
  (read other count).KeepsOwned handle path
  := by
  intro session owns
  refine ensures_openFile_bind (fun file hfile => ?_) fun _ _ => owns
  refine ensures_lift_bind (file.returns_read count) (fun answer same => ?_) fun _ => owns
  exact ⟨fun _ _ => owns.replaced hfile same⟩

theorem keepsOwned_readAll (other : Handle) :
  (readAll other).KeepsOwned handle path
  := by
  intro session owns
  refine ensures_openFile_bind (fun file hfile => ?_) fun _ _ => owns
  have rewound : (session.withSlot other (some { file with cursor := 0 })).Owns handle path :=
    owns.replaced hfile rfl
  exact ⟨fun serve s => (keepsOwned_read other _ _ rewound).runIn serve s⟩

theorem keepsOwned_seek (other : Handle) (position : Nat) :
  (seek other position).KeepsOwned handle path
  := by
  intro session owns
  refine ensures_openFile_bind (fun file hfile => ?_) fun _ _ => owns
  exact ⟨fun _ _ => owns.replaced hfile rfl⟩

/-- Writing replaces an open file by one with the same path, or leaves the session alone. -/
theorem ensures_write (other : Handle) (content : Bytes) (mode : WriteMode) :
  (write other content mode).Ensures session fun _ session' =>
    session' = session ∨ ∃ file file', session.openFiles.get? other = some file
      ∧ file'.path = file.path ∧ session' = session.withSlot other (some file')
  := by
  refine ensures_openFile_bind (fun file hfile => ?_) fun _ _ => .inl rfl
  refine ensures_lift_bind (file.returns_write content mode) (fun file' same => ?_)
    fun _ => .inl rfl
  exact ⟨fun _ _ => .inr ⟨file, file', hfile, same, rfl⟩⟩

theorem keepsOwned_write (other : Handle) (content : Bytes) (mode : WriteMode) :
  (write other content mode).KeepsOwned handle path
  := by
  intro session owns
  apply (ensures_write other content mode).mono
  rintro _ _ (rfl | ⟨file, file', hfile, same, rfl⟩)
  · exact owns
  · exact owns.replaced hfile same

/-! ### Changing the current directory -/

theorem keepsOwned_returnBorrowed (kept : Handle) :
  (returnBorrowed kept).KeepsOwned handle path
  := by
  intro session owns
  apply ensures_get_bind
  cases borrowed : session.borrowed with
  | none => exact ⟨fun _ _ => owns⟩
  | some lent =>
      dsimp only
      split_ifs with other
      · apply ensures_set_bind
        have differs : lent ≠ handle := by
          rintro rfl
          exact owns.2 borrowed
        exact keepsOwned_close differs _ ⟨owns.1, by simp⟩
      · exact ⟨fun _ _ => owns⟩

/-- Going into a directory borrows at most the handle that was opened for this. -/
theorem keepsOwned_enter {other : Handle} {opened : Bool}
    (differs : opened = true → other ≠ handle) :
  (enter other opened).KeepsOwned handle path
  := by
  intro session owns
  apply ensures_get_bind
  refine ensures_ofExcept_bind ?_ fun _ _ => owns
  intro openFiles hset
  obtain ⟨-, rfl⟩ := OpenTable.setDirectory_eq_ok hset
  apply ensures_set_bind
  have entered : ({ session with openFiles := { session.openFiles with current := other } } :
      Session).Owns handle path := owns
  refine (keepsOwned_returnBorrowed other _ entered).bind ?_ fun _ _ owns' => owns'
  intro _ session' owns'
  cases opened with
  | false => exact ⟨fun _ _ => owns'⟩
  | true => exact ⟨fun _ _ => ⟨owns'.1, by simpa using differs rfl⟩⟩

theorem keepsOwned_changeDirectory (given : String) :
  (changeDirectory given).KeepsOwned handle path
  := by
  rw [changeDirectory_eq]
  intro session owns
  apply ensures_get_bind
  refine (still_entryAt _).bind_ensures (fun entry => ?_) fun _ => owns
  refine ensures_unless (fun _ => owns) fun _ => ?_
  apply ensures_get_bind
  split
  · exact keepsOwned_enter (by simp) session owns
  · refine (ensures_openPath _).bind ?_ ?_
    · rintro other _ (⟨_, ⟨⟩, -⟩ | ⟨_, file, ⟨rfl⟩, -, free, rfl⟩)
      have differs : other ≠ handle := by
        rintro rfl
        obtain ⟨⟨held, hheld, -⟩, -⟩ := owns
        simp [free] at hheld
      exact keepsOwned_enter (fun _ => differs) _ (owns.withSlot differs _)
    · rintro _ _ (⟨_, -, rfl⟩ | ⟨_, _, ⟨⟩, -⟩)
      exact owns

end Session

/-! ### Operations -/

namespace Operation

open Session SessionM

/-- The operations that may release a handle. -/
def releases (handle : Handle) : Operation → Bool
  | close other => other == handle
  | closeAll | reformat _ | shutdown => true
  | _ => false

/-- What does not release a handle keeps its path. -/
theorem keepsOwned_perform {operation : Operation} {handle : Handle} {path : String}
    (h : operation.releases handle = false) :
  operation.perform.KeepsOwned handle path
  := by
  cases operation with
  | makeDirectory given => exact (still_createAt given .directory).keepsOwned.answer _
  | createFile given => exact (still_createAt given .file).keepsOwned.answer _
  | removeDirectory given =>
      exact (still_removeDirectory given).keepsOwned.answer fun _ => Answer.done
  | removeFile given => exact (still_removeFile given).keepsOwned.answer fun _ => Answer.done
  | list given => exact (still_list given).keepsOwned.answer _
  | lookup given => exact (still_lookup given).keepsOwned.answer _
  | openPath given => exact (keepsOwned_openPath given).answer _
  | handleOf given => exact (still_handleOf given).keepsOwned.answer _
  | close other =>
      exact (keepsOwned_close (by simpa [releases] using h)).answer fun _ => Answer.done
  | setDirectory other => exact (keepsOwned_setDirectory other).answer fun _ => Answer.done
  | changeDirectory given => exact (keepsOwned_changeDirectory given).answer fun _ => Answer.done
  | read other count => exact (keepsOwned_read other count).answer _
  | readAll other => exact (keepsOwned_readAll other).answer _
  | seek other position => exact (keepsOwned_seek other position).answer _
  | write other content mode => exact (keepsOwned_write other content mode).answer _
  | openFile other => exact (still_openFile other).keepsOwned.answer _
  | check => exact still_check.keepsOwned.answer _
  | usage => exact still_usage.keepsOwned.answer _
  | closeAll => simp [releases] at h
  | reformat full => simp [releases] at h
  | shutdown => simp [releases] at h

end Operation

/-- The step may release the handle.  It does not if it tries to close the handle and fails. -/
def Step.Releases (step : Step) (state : State) (handle : Handle) : Prop :=
  step.operation.releases handle = true
    ∧ ¬(step.operation = .close handle ∧ ∃ error, step.result state = .error error)

namespace State.Coherent

variable {state : State} {handle : Handle} {path : String}

theorem owns_next (h : state.Coherent) (owns : state.session.Owns handle path) {step : Step}
    (keeps : ¬step.Releases state handle) :
  (step.next state).session.Owns handle path
  := by
  have owns : (state.session.atTime step.now).Owns handle path := owns
  by_cases releases : step.operation.releases handle = true
  · obtain ⟨operation, now⟩ := step
    rw [Step.Releases, and_iff_right releases, not_not] at keeps
    obtain ⟨rfl, error, failed⟩ := keeps
    rcases (h.at_time now).close_cases handle with ⟨error', hexec⟩ | ⟨_, after, -, hexec, -⟩
    · have hclose : Step.exec ⟨.close handle, now⟩ state = _ := SessionM.exec_bind_of_error hexec
      rw [Step.next_of_exec hclose]
      exact owns
    · have hclose : Step.exec ⟨.close handle, now⟩ state = _ := SessionM.exec_bind_of_ok hexec
      rw [Step.result_of_exec hclose] at failed
      cases failed
  · have kept := Operation.keepsOwned_perform (by simpa using releases) _ owns
    exact kept.runIn Image.serve state.image

/-- A handle keeps its path through every history that does not release it. -/
theorem owns_run (h : state.Coherent) (owns : state.session.Owns handle path) {history : List Step}
    (keeps : ∀ done step rest, history = done ++ step :: rest →
      ¬step.Releases (state.run done) handle) :
  (state.run history).session.Owns handle path
  := by
  induction history generalizing state with
  | nil => exact owns
  | cons step rest ih =>
      apply ih (h.change step).1 (h.owns_next owns (keeps [] step rest rfl))
      intro done later further split
      exact keeps (step :: done) later further (by rw [split, List.cons_append])

/-- A handle that was given out for a path has this path and is not borrowed. -/
theorem owns_of_openPath (h : state.Coherent) (borrows : state.session.BorrowsCurrent)
    {now : Timestamp}
    (hopen : Step.result ⟨.openPath path, now⟩ state = .ok (.handle handle)) :
  (Step.next ⟨.openPath path, now⟩ state).session.Owns handle (state.session.absolute path)
  := by
  have coherent : state.session.Coherent state.image := h
  rcases (h.at_time now).openPath_cases path with ⟨error, hexec⟩ |
    ⟨other, e, hexec, hlt, hfree, -, -⟩
  · have failed : Step.exec ⟨.openPath path, now⟩ state = _ := SessionM.exec_bind_of_error hexec
    rw [Step.result_of_exec failed] at hopen
    cases hopen
  · have opened : Step.exec ⟨.openPath path, now⟩ state = _ := SessionM.exec_bind_of_ok hexec
    rw [SessionM.exec_pure] at opened
    rw [Step.result_of_exec opened] at hopen
    obtain rfl : other = handle := by simpa using hopen
    rw [Step.next_of_exec opened]
    refine ⟨⟨_, OpenTable.get?_set_self _ hlt _, rfl⟩, ?_⟩
    intro borrowed
    obtain ⟨current, -⟩ := borrows other borrowed
    obtain ⟨file, hfile, -⟩ := coherent.current_open
    rw [← current] at hfile
    simp [hfile] at hfree

end State.Coherent

/-! ### The borrowed handle -/

/-- Changing the current directory returns the borrowed handle and no other. -/
structure State.ReturnsBorrowed (state : State) : Prop where
  /-- The borrowed handle is that of the current directory and not that of the root. -/
  borrows : ∀ handle, state.session.borrowed = some handle →
    handle = state.session.openFiles.current ∧ handle ≠ OpenTable.rootHandle
  /-- The borrowed handle can be closed as soon as another directory is the current one. -/
  closes : ∀ handle (openFiles : OpenTable), state.session.borrowed = some handle →
    openFiles.get? handle = state.session.openFiles.get? handle → openFiles.current ≠ handle →
    (Session.close handle).exec { state.session with openFiles, borrowed := none } state.image
      = (.ok (), { state.session with openFiles := openFiles.set handle none, borrowed := none },
          state.image)
  /-- Changing the directory succeeds exactly when the path leads to a directory that is open or for
  which a slot is free. -/
  succeeds : ∀ path now,
    Step.result ⟨.changeDirectory path, now⟩ state = .ok .done
      ↔ ∃ e, Step.result ⟨.lookup path, now⟩ state = .ok (.entry e)
        ∧ e.record.isDirectory = true
        ∧ ((∃ handle file, state.session.openFiles.get? handle = some file
              ∧ file.path = state.session.absolute path)
            ∨ ∃ handle < maxOpen, state.session.openFiles.get? handle = none)
  failed : ∀ path now error, Step.result ⟨.changeDirectory path, now⟩ state = .error error →
    Step.next ⟨.changeDirectory path, now⟩ state = ⟨state.session.atTime now, state.image⟩
  /-- Moving elsewhere releases the borrowed handle and leaves every other one as it is. -/
  moved : ∀ path now, Step.result ⟨.changeDirectory path, now⟩ state = .ok .done →
    (Step.next ⟨.changeDirectory path, now⟩ state).session.openFiles.current
      ≠ state.session.openFiles.current →
    ∀ handle file, state.session.openFiles.get? handle = some file →
      (Step.next ⟨.changeDirectory path, now⟩ state).session.openFiles.get? handle
        = if state.session.borrowed = some handle then none else some file
  stayed : ∀ path now, Step.result ⟨.changeDirectory path, now⟩ state = .ok .done →
    (Step.next ⟨.changeDirectory path, now⟩ state).session.openFiles.current
      = state.session.openFiles.current →
    ∀ handle file, state.session.openFiles.get? handle = some file →
      (Step.next ⟨.changeDirectory path, now⟩ state).session.openFiles.get? handle = some file

namespace State.Coherent

variable {state : State} (h : state.Coherent) (borrows : state.session.BorrowsCurrent)
include h borrows

/-- A step that changes the current directory does what is decided before. -/
theorem exec_changeDirectory (path : String) (now : Timestamp) :
  Step.exec ⟨.changeDirectory path, now⟩ state
    = match (state.session.atTime now).entering state.image path with
      | .ok session' => (.ok .done, session', state.image)
      | .error error => (.error error, state.session.atTime now, state.image)
  := by
  have borrows : (state.session.atTime now).BorrowsCurrent := borrows
  have hexec := (h.at_time now).exec_changeDirectory borrows path
  cases hentering : (state.session.atTime now).entering state.image path with
  | ok session' =>
      rw [hentering] at hexec
      exact SessionM.exec_bind_of_ok hexec
  | error error =>
      rw [hentering] at hexec
      exact SessionM.exec_bind_of_error hexec

/-- When the directory changes, it does so to a directory that was open or is put into a slot that
was free, and only the borrowed handle is released. -/
theorem get?_of_changeDirectory {path : String} {now : Timestamp}
    (done : Step.result ⟨.changeDirectory path, now⟩ state = .ok .done) {handle : Handle}
    {file : OpenFile} (hfile : state.session.openFiles.get? handle = some file) :
  (Step.next ⟨.changeDirectory path, now⟩ state).session.openFiles.get? handle
    = if state.session.borrowed = some handle
          ∧ (Step.next ⟨.changeDirectory path, now⟩ state).session.openFiles.current
            ≠ state.session.openFiles.current
      then none else some file
  := by
  have hexec := h.exec_changeDirectory borrows path now
  cases hentering : (state.session.atTime now).entering state.image path with
  | error error =>
      rw [hentering] at hexec
      rw [Step.result_of_exec hexec] at done
      cases done
  | ok session' =>
      rw [hentering] at hexec
      rw [Step.next_of_exec hexec]
      have moved (kept : Handle) : state.session.borrowed = some handle ∧ handle ≠ kept
          ↔ state.session.borrowed = some handle ∧ kept ≠ state.session.openFiles.current := by
        refine and_congr_right fun borrowed => ?_
        rw [← (borrows handle borrowed).1, ne_comm]
      obtain ⟨e, kept, -, -, ⟨rfl, -⟩ | ⟨rfl, free, hlt⟩⟩ := Session.entering_eq_ok hentering
      · rw [Session.get?_entered, ← hfile]
        exact if_congr (moved kept) rfl rfl
      · have differs : kept ≠ handle := by
          rintro rfl
          have free : state.session.openFiles.get? kept = none := free
          simp [hfile] at free
        rw [Session.get?_entered, ← hfile]
        exact if_congr (moved kept) rfl (OpenTable.get?_set_of_ne _ differs _)

omit borrows in
theorem result_lookup_eq_ok {path : String} {now : Timestamp} {e : Entry} :
  Step.result ⟨.lookup path, now⟩ state = .ok (.entry e)
    ↔ state.image.find? state.session.superblock.root (state.session.target path) = some e
  := by
  rw [Step.result_of_exec (h.exec_lookup path now)]
  cases state.image.find? state.session.superblock.root (state.session.target path) with
  | none => simp [found, Except.map]
  | some e' => simp [found, Except.map]

theorem returnsBorrowed :
  state.ReturnsBorrowed
  := by
  constructor
  case borrows => exact borrows
  case closes =>
    intro handle openFiles borrowed same current
    obtain ⟨hroot, file, hfile, clean⟩ :=
      Session.Coherent.returns_of_borrowsCurrent h borrows borrowed
    exact Session.exec_close_of_clean (same.trans hfile) hroot current.symm clean
  case succeeds =>
    intro path now
    have hexec := h.exec_changeDirectory borrows path now
    have decided : (∃ session', (state.session.atTime now).entering state.image path = .ok session')
        ↔ _ := Session.exists_entering_iff
    simp only [h.result_lookup_eq_ok]
    refine Iff.trans ?_ decided
    cases hentering : (state.session.atTime now).entering state.image path with
    | ok session' =>
        rw [hentering] at hexec
        simp [Step.result_of_exec hexec]
    | error error =>
        rw [hentering] at hexec
        simp [Step.result_of_exec hexec]
  case failed =>
    intro path now error failed
    have hexec := h.exec_changeDirectory borrows path now
    cases hentering : (state.session.atTime now).entering state.image path with
    | ok session' =>
        rw [hentering] at hexec
        rw [Step.result_of_exec hexec] at failed
        cases failed
    | error error =>
        rw [hentering] at hexec
        exact Step.next_of_exec hexec
  case moved =>
    intro path now done moved handle file hfile
    rw [h.get?_of_changeDirectory borrows done hfile]
    exact if_congr (and_iff_left moved) rfl rfl
  case stayed =>
    intro path now done stayed handle file hfile
    rw [h.get?_of_changeDirectory borrows done hfile, if_neg]
    exact fun moved => moved.2 stayed

end State.Coherent

/-! ### Changing nothing but the directory -/

/-- Only the root and the borrowed handle are open. -/
def Session.OnlyBorrows (session : Session) : Prop :=
  ∀ handle file, session.openFiles.get? handle = some file →
    handle = OpenTable.rootHandle ∨ session.borrowed = some handle

/-- With only the root and the borrowed handle open at most two slots are occupied. -/
theorem Session.OnlyBorrows.count_le {session : Session} (h : session.OnlyBorrows) :
  session.openFiles.count ≤ 2
  := by
  have within : ∀ handle file, session.openFiles.get? handle = some file →
      handle ∈ OpenTable.rootHandle :: session.borrowed.toList := by
    intro handle file hfile
    simpa using h handle file hfile
  apply (OpenTable.count_le within).trans
  cases session.borrowed <;> simp

/-- Going into a directory leaves only its handle and that of the root open. -/
theorem Session.onlyBorrows_entered {session : Session} {handle : Handle} {opened : Bool}
    (h : ∀ other file, session.openFiles.get? other = some file →
      other = OpenTable.rootHandle ∨ session.borrowed = some other
        ∨ opened = true ∧ other = handle) :
  (session.entered handle opened).OnlyBorrows
  := by
  intro other file hfile
  rw [get?_entered] at hfile
  split_ifs at hfile with returned
  rcases h other file hfile with root | borrowed | ⟨opened, rfl⟩
  · exact .inl root
  · have same : other = handle := by
      by_contra differs
      exact returned ⟨borrowed, differs⟩
    subst same
    exact .inr (if_pos (.inr borrowed))
  · exact .inr (if_pos (.inl opened))

/-- Changing the current directory keeps only the root and the borrowed handle open. -/
theorem State.Coherent.onlyBorrows_changeDirectory {state : State} (h : state.Coherent)
    (borrows : state.session.BorrowsCurrent) (only : state.session.OnlyBorrows) (path : String)
    (now : Timestamp) :
  (Step.next ⟨.changeDirectory path, now⟩ state).session.OnlyBorrows
  := by
  have hexec := h.exec_changeDirectory borrows path now
  cases hentering : (state.session.atTime now).entering state.image path with
  | error error =>
      rw [hentering] at hexec
      rw [Step.next_of_exec hexec]
      exact only
  | ok session' =>
      rw [hentering] at hexec
      rw [Step.next_of_exec hexec]
      obtain ⟨e, handle, -, -, ⟨rfl, -⟩ | ⟨rfl, -, hlt⟩⟩ := Session.entering_eq_ok hentering
      · apply Session.onlyBorrows_entered
        intro other file hfile
        exact (only other file hfile).imp_right .inl
      · apply Session.onlyBorrows_entered
        intro other file hfile
        rw [Session.withSlot, OpenTable.get?_set _ hlt] at hfile
        split_ifs at hfile with same
        · exact .inr (.inr ⟨rfl, same.symm⟩)
        · exact (only other file hfile).imp_right .inl

/-- Steps that only change the current directory leave at most two slots occupied. -/
theorem State.Coherent.onlyBorrows_run {state : State} (h : state.Coherent)
    (borrows : state.session.BorrowsCurrent) (only : state.session.OnlyBorrows)
    {history : List Step}
    (changes : ∀ step ∈ history, ∃ path, step.operation = .changeDirectory path) :
  (state.run history).session.OnlyBorrows
  := by
  induction history generalizing state with
  | nil => exact only
  | cons step rest ih =>
      obtain ⟨operation, now⟩ := step
      obtain ⟨⟨path, rfl⟩, further⟩ := List.forall_mem_cons.mp changes
      exact ih (h.change _).1 (h.borrowsCurrent_next borrows _)
        (h.onlyBorrows_changeDirectory borrows only path now) further

/-! ### Histories -/

/-- A session begins by formatting any disk.  A handle that is given out for a path keeps this path
until it is released; in every state that the session reaches, changing the directory returns the
borrowed handle and no other; and with nothing but such changes at most two slots are occupied. -/
theorem handles_throughout (clock : Timestamp) (image : Image) :
  ∃ start : State, (Session.format clock).exec image = (.ok start.session, start.image)
    ∧ (∀ history path now handle,
        Step.result ⟨.openPath path, now⟩ (start.run history) = .ok (.handle handle) →
        ∀ more : List Step,
          (∀ done step rest, more = done ++ step :: rest →
            ¬Step.Releases step (start.run (history ++ ⟨.openPath path, now⟩ :: done)) handle) →
        ∃ file, (start.run (history ++ ⟨.openPath path, now⟩ :: more)).session.openFiles.get? handle
            = some file
          ∧ file.path = (start.run history).session.absolute path)
    ∧ (∀ history, (start.run history).ReturnsBorrowed)
    ∧ ∀ history : List Step,
        (∀ step ∈ history, ∃ path, step.operation = .changeDirectory path) →
        (start.run history).session.openFiles.count ≤ 2
  := by
  obtain ⟨start, hformat, throughout⟩ := exists_formatted clock image
  have borrows := borrowsCurrent_of_format hformat (throughout []).1
  refine ⟨start, hformat, ?_, ?_, ?_⟩
  · intro history path now handle hopen more keeps
    have split (done : List Step) : start.run (history ++ ⟨.openPath path, now⟩ :: done)
        = (Step.next ⟨.openPath path, now⟩ (start.run history)).run done := by
      rw [State.run, List.foldl_append, List.foldl_cons]
      rfl
    simp only [split] at keeps ⊢
    have coherent := (throughout history).1
    have owns := coherent.owns_of_openPath (borrows history) hopen
    exact ((coherent.change _).1.owns_run owns keeps).1
  · intro history
    exact (throughout history).1.returnsBorrowed (borrows history)
  · intro history changes
    have only : start.session.OnlyBorrows := by
      obtain ⟨prepared, -, hbegun⟩ := Session.exec_format_begun clock image
      obtain ⟨begun, -⟩ := Prod.mk.inj (hformat.symm.trans hbegun)
      intro handle file hfile
      rw [Except.ok.inj begun] at hfile
      exact .inl (OpenTable.get?_ofRoot_eq_some.mp hfile).1
    exact ((throughout []).1.onlyBorrows_run (borrows []) only changes).count_le

/-- A directory that was created on an empty disk that was formatted and opened keeps its handle
when the session goes there and back. -/
theorem handles_throughout_opened :
  ∃ (start : State) (history more : List Step),
    (Session.format default).exec .zero = (.ok start.session, start.image)
    ∧ Step.result ⟨.openPath "/a", default⟩ (start.run history) = .ok (.handle 1)
    ∧ (∀ done step rest, more = done ++ step :: rest →
        ¬Step.Releases step (start.run (history ++ ⟨.openPath "/a", default⟩ :: done)) 1)
    ∧ (∀ step ∈ more, ∃ path, step.operation = .changeDirectory path)
    ∧ more.length = 2
    ∧ (∃ file, (start.run (history ++ ⟨.openPath "/a", default⟩ :: more)).session.openFiles.get? 1
          = some file
        ∧ file.path = (start.run history).session.absolute "/a")
    ∧ (start.run history).ReturnsBorrowed
    ∧ (start.run more).session.openFiles.count ≤ 2
  := by
  have normal : Path.Normal ["a"] := by decide
  have hsplit : Name.split "a" .directory = .ok (['a'], []) := by decide
  have hpath : Path.render ["a"] = "/a" := by decide
  obtain ⟨⟨session, disk⟩, e, hstart, hopen, -⟩ := exists_opened default .zero normal hsplit
  obtain ⟨⟨session', disk'⟩, hstart', keeps, returns, counts⟩ := handles_throughout default .zero
  obtain ⟨rfl, rfl⟩ : session = session' ∧ disk = disk' := by
    simpa using hstart.symm.trans hstart'
  rw [hpath] at hopen
  obtain ⟨more, changes, length⟩ : ∃ more : List Step,
      (∀ step ∈ more, ∃ path, step.operation = .changeDirectory path) ∧ more.length = 2 :=
    ⟨[⟨.changeDirectory "/a", default⟩, ⟨.changeDirectory "/", default⟩], by simp, rfl⟩
  have releases (done : List Step) (step : Step) (rest : List Step)
      (split : more = done ++ step :: rest) (state : State) : ¬step.Releases state 1 := by
    rintro ⟨releases, -⟩
    obtain ⟨path, hpath⟩ := changes step (by rw [split]; simp)
    simp [hpath, Operation.releases] at releases
  have kept := keeps _ _ _ _ hopen more fun done step rest split => releases done step rest split _
  exact ⟨⟨session, disk⟩, _, more, hstart, hopen,
    fun done step rest split => releases done step rest split _, changes, length, kept, returns _,
    counts more changes⟩

end FatVolume
