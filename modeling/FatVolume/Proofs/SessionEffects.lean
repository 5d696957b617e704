import FatVolume.Proofs.OpenFiles
import FatVolume.Proofs.Surroundings
import FatVolume.Proofs.TreeOperations

/-!
# What operations do to a session

Most of what an operation does to the session does not depend on what its surroundings answer.
`SessionM.Ensures` says what holds of the result of an action and of the session it leaves, in
whatever surroundings it is performed.  There is one statement for each operation.
-/

namespace FatVolume

namespace SessionM

variable {α β : Type} {action : SessionM α} {next : α → SessionM β} {session : Session}
  {post : Except Error β → Session → Prop}

/-- The result of the action and the session that it leaves are as stated, whatever its
surroundings are. -/
structure Ensures (action : SessionM α) (session : Session)
    (post : Except Error α → Session → Prop) : Prop where
  runIn {σ : Type} (serve : Surroundings σ) (s : σ) :
    post (action.runIn serve session s).1 (action.runIn serve session s).2.1

/-- The action leaves every session as it is. -/
def Still (action : SessionM α) : Prop :=
  ∀ session, action.Ensures session fun _ session' => session' = session

theorem Ensures.mono {post post' : Except Error α → Session → Prop}
    (h : action.Ensures session post)
    (implies : ∀ result session', post result session' → post' result session') :
  action.Ensures session post'
  := ⟨fun serve s => implies _ _ (h.runIn serve s)⟩

/-! ### Sequences -/

/-- A sequence goes on in the session that its first part leaves, unless that part fails. -/
theorem Ensures.bind {middle : Except Error α → Session → Prop}
    (h : action.Ensures session middle)
    (ok : ∀ a session', middle (.ok a) session' → (next a).Ensures session' post)
    (error : ∀ e session', middle (.error e) session' → post (.error e) session') :
  (action >>= next).Ensures session post
  := by
  refine ⟨fun serve s => ?_⟩
  have first := h.runIn serve s
  rw [runIn_bind]
  rcases hrun : action.runIn serve session s with ⟨result, session', s'⟩
  rw [hrun] at first
  cases result with
  | ok a => exact (ok a session' first).runIn serve s'
  | error e => exact error e session' first

/-- A sequence goes on in the same session after a part that leaves it as it is. -/
theorem Still.bind_ensures (h : action.Still) (ok : ∀ a, (next a).Ensures session post)
    (error : ∀ e, post (.error e) session) :
  (action >>= next).Ensures session post
  := by
  refine (h session).bind ?_ ?_
  · rintro a _ rfl
    apply ok
  · rintro e _ rfl
    apply error

theorem ensures_get_bind {next : Session → SessionM β} (h : (next session).Ensures session post) :
  (get >>= next).Ensures session post
  := ⟨fun serve s => h.runIn serve s⟩

theorem ensures_set_bind {session' : Session} {next : PUnit → SessionM β}
    (h : (next ⟨⟩).Ensures session' post) :
  (set session' >>= next).Ensures session post
  := ⟨fun serve s => h.runIn serve s⟩

theorem ensures_ofExcept_bind {result : Except Error α}
    (ok : ∀ a, result = .ok a → (next a).Ensures session post)
    (error : ∀ e, result = .error e → post (.error e) session) :
  (ofExcept result >>= next).Ensures session post
  := by
  cases result with
  | ok a => exact ⟨fun serve s => (ok a rfl).runIn serve s⟩
  | error e => exact ⟨fun _ _ => error e rfl⟩

/-- What goes on only under a condition is ensured by the refusal and the rest. -/
theorem ensures_unless {p : Prop} [Decidable p] {e : Error} {rest : SessionM β}
    (refused : p → post (.error e) session) (h : ¬p → rest.Ensures session post) :
  (if p then (throw e : SessionM PUnit) >>= fun _ => rest else rest).Ensures session post
  := by
  split_ifs with hp
  · exact ⟨fun _ _ => refused hp⟩
  · exact h hp

/-! ### Actions that leave the session as it is -/

theorem still_pure (a : α) :
  (pure a : SessionM α).Still
  := fun _ => ⟨fun _ _ => rfl⟩

theorem still_throw (e : Error) :
  (throw e : SessionM α).Still
  := fun _ => ⟨fun _ _ => rfl⟩

theorem still_get :
  (get : SessionM Session).Still
  := fun _ => ⟨fun _ _ => rfl⟩

theorem still_ofExcept (result : Except Error α) :
  (ofExcept result).Still
  := fun _ => ⟨fun _ _ => rfl⟩

theorem still_lift (action : DiskM α) :
  (liftM action : SessionM α).Still
  := by
  refine fun session => ⟨fun serve s => ?_⟩
  rw [runIn_lift]

theorem still_log (level : Level) (source : Component) (message : String) :
  (liftM (Program.log level source message) : SessionM Unit).Still
  := fun _ => ⟨fun _ _ => rfl⟩

theorem Still.bind (h : action.Still) (h' : ∀ a, (next a).Still) :
  (action >>= next).Still
  := fun session => h.bind_ensures (fun a => h' a session) fun _ => rfl

/-- If the action fails it leaves the session as it is. -/
def FailsStill (action : SessionM α) : Prop :=
  ∀ session, action.Ensures session fun result session' =>
    ∀ e, result = .error e → session' = session

theorem Still.failsStill (h : action.Still) :
  action.FailsStill
  := fun session => (h session).mono fun _ _ same _ _ => same

theorem Still.bind_failsStill (h : action.Still) (h' : ∀ a, (next a).FailsStill) :
  (action >>= next).FailsStill
  := fun session => h.bind_ensures (fun a => h' a session) fun _ _ _ => rfl

theorem FailsStill.answer (h : action.FailsStill) (answer : α → β) :
  (do return answer (← action) : SessionM β).FailsStill
  := by
  intro session
  refine (h session).bind (fun a session' _ => ?_) fun e session' same _ _ => same e rfl
  exact ⟨fun _ _ _ failed => by cases failed⟩

theorem still_ite {p : Prop} [Decidable p] {other : SessionM α} (h : action.Still)
    (h' : other.Still) :
  (if p then action else other).Still
  := by
  split
  · exact h
  · exact h'

theorem Still.unless {p : Prop} [Decidable p] {rest : SessionM α} {refusal : SessionM PUnit}
    (h : rest.Still) (h' : refusal.Still) :
  (if p then refusal >>= fun _ => rest else rest).Still
  := still_ite (h'.bind fun _ => h) h

end SessionM

/-! ### Operations -/

namespace Session

open SessionM

/-- The session with another content of a slot of its table. -/
def withSlot (session : Session) (handle : Handle) (held : Option OpenFile) : Session :=
  { session with openFiles := session.openFiles.set handle held }

theorem still_entryAt (path : String) :
  (entryAt path).Still
  := still_get.bind fun _ => still_lift _

theorem still_lookup (path : String) :
  (lookup path).Still
  := still_get.bind fun _ => still_entryAt _

theorem still_list (path : Option String) :
  (list path).Still
  := by
  apply still_get.bind
  intro session
  apply (still_entryAt _).bind
  intro target
  apply still_ite
  · apply still_pure
  · exact (still_lift _).bind fun _ => still_pure _

theorem still_createAt (path : String) (kind : Kind) :
  (createAt path kind).Still
  := by
  apply still_get.bind
  intro session
  split
  · apply still_throw
  · apply (still_entryAt _).bind
    intro parent
    exact (still_lift _).unless (still_throw _)

theorem still_removeDirectory (path : String) :
  (removeDirectory path).Still
  := by
  apply still_get.bind
  intro session
  refine Still.unless ?_ (still_throw _)
  apply (still_entryAt _).bind
  intro e
  refine Still.unless (Still.unless ?_ (still_throw _)) (still_throw _)
  exact (still_lift _).bind fun _ => (still_lift _).unless (still_throw _)

theorem still_removeFile (path : String) :
  (removeFile path).Still
  := by
  apply still_get.bind
  intro session
  refine Still.unless ?_ (still_throw _)
  apply (still_entryAt _).bind
  intro e
  exact ((still_lift _).unless (still_throw _)).unless (still_throw _)

theorem still_removeAt (path : String) (kind : Kind) :
  (removeAt path kind).Still
  := by
  cases kind with
  | directory => exact still_removeDirectory path
  | file => exact still_removeFile path

theorem still_handleOf (path : String) :
  (handleOf path).Still
  := by
  apply still_get.bind
  intro session
  split
  · apply still_pure
  · apply still_throw

theorem still_openFile (handle : Handle) :
  (openFile handle).Still
  := still_get.bind fun _ => still_ofExcept _

theorem still_writeBack (file : OpenFile) :
  (writeBack file).Still
  := (still_entryAt _).bind fun _ => (still_lift _).bind fun _ => still_log _ _ _

theorem still_check :
  check.Still
  := still_get.bind fun _ => still_lift _

theorem still_usage :
  usage.Still
  := (still_lift _).bind fun _ => still_pure _

variable {session : Session}

/-- An action on an open file goes on with what the slot holds. -/
theorem ensures_openFile_bind {β : Type} {next : OpenFile → SessionM β} {other : Handle}
    {post : Except Error β → Session → Prop}
    (ok : ∀ file, session.openFiles.get? other = some file → (next file).Ensures session post)
    (error : ∀ e, session.openFiles.get? other = none → post (.error e) session) :
  (openFile other >>= next).Ensures session post
  := by
  refine ⟨fun serve s => ?_⟩
  have opened : (openFile other).runIn serve session s
    = (session.openFiles.get other, session, s) := rfl
  cases hget : session.openFiles.get other with
  | ok file =>
      rw [hget] at opened
      rw [runIn_bind_of_ok opened]
      exact (ok file (OpenTable.get_eq_ok.mp hget)).runIn serve s
  | error e =>
      rw [hget] at opened
      rw [runIn_bind_of_error opened]
      apply error e
      cases hfile : session.openFiles.get? other with
      | none => rfl
      | some file => cases hget.symm.trans (OpenTable.get_eq_ok.mpr hfile)

/-- Opening puts a file into a slot that was free, or it fails and leaves the session alone. -/
theorem ensures_openPath (path : String) :
  (openPath path).Ensures session fun result session' =>
    (∃ e, result = .error e ∧ session' = session)
      ∨ ∃ handle file, result = .ok handle ∧ handle < maxOpen
        ∧ session.openFiles.get? handle = none ∧ session' = session.withSlot handle (some file)
  := by
  apply ensures_get_bind
  refine ensures_unless (fun _ => .inl ⟨_, rfl, rfl⟩) fun _ => ?_
  refine (still_entryAt _).bind_ensures (fun e => ?_) fun e => .inl ⟨e, rfl, rfl⟩
  refine ensures_ofExcept_bind ?_ fun e _ => .inl ⟨e, rfl, rfl⟩
  rintro ⟨handle, openFiles⟩ hinsert
  obtain ⟨hlt, free, rfl⟩ := OpenTable.insert_eq_ok hinsert
  apply ensures_set_bind
  exact ⟨fun _ _ => .inr ⟨handle, _, rfl, hlt, free, rfl⟩⟩

/-- Closing releases a handle that is neither that of the root nor that of the current directory,
unless there is no such handle. -/
theorem ensures_close (handle : Handle) :
  (close handle).Ensures session fun result session' =>
    (∃ e, result = .error e ∧ session' = session ∧ session.openFiles.remove handle = .error e)
      ∨ session' = session.withSlot handle none
  := by
  apply ensures_get_bind
  refine ensures_ofExcept_bind ?_ fun e h => .inl ⟨e, rfl, rfl, h⟩
  rintro ⟨file, openFiles⟩ hremove
  obtain ⟨-, -, -, rfl⟩ := OpenTable.remove_eq_ok hremove
  apply ensures_set_bind
  have mention := still_log .debug .session s!"closed handle {handle} ({file.path})"
  have writes := (still_writeBack file).bind fun _ => mention
  have still := still_ite (p := file.dirty = true) writes mention
  exact (still _).mono fun _ session' same => .inr same

/-- A handle that can be released is, if its file is up to date on disk. -/
theorem ensures_close_ok {handle : Handle} {file : OpenFile}
    (hfile : session.openFiles.get? handle = some file) (hroot : handle ≠ OpenTable.rootHandle)
    (hcurrent : handle ≠ session.openFiles.current) (clean : file.dirty = false) :
  (close handle).Ensures session fun result _ => result = .ok ()
  := by
  apply ensures_get_bind
  rw [OpenTable.remove_of_get? hfile hroot hcurrent]
  refine ensures_ofExcept_bind ?_ fun _ failed => by cases failed
  rintro _ ⟨rfl⟩
  apply ensures_set_bind
  rw [if_neg (by simp [clean])]
  exact ⟨fun _ _ => rfl⟩

/-- Making a directory the current one succeeds if its handle is that of a directory. -/
theorem ensures_setDirectory (handle : Handle) :
  (setDirectory handle).Ensures session fun result session' =>
    (∃ e, result = .error e ∧ session' = session)
      ∨ session' = { session with
          openFiles := { session.openFiles with current := handle }, borrowed := none }
  := by
  apply ensures_get_bind
  refine ensures_ofExcept_bind ?_ fun e _ => .inl ⟨e, rfl, rfl⟩
  intro openFiles hset
  obtain ⟨-, rfl⟩ := OpenTable.setDirectory_eq_ok hset
  exact ⟨fun _ _ => .inr rfl⟩

/-! ### Operations that keep the session when they fail -/

theorem failsStill_openPath (path : String) :
  (openPath path).FailsStill
  := by
  intro session
  apply ensures_get_bind
  refine ensures_unless (fun _ _ _ => rfl) fun _ => ?_
  refine (still_entryAt _).bind_ensures (fun e => ?_) fun _ _ _ => rfl
  refine ensures_ofExcept_bind (fun opened _ => ?_) fun _ _ _ _ => rfl
  exact ⟨fun _ _ _ failed => by cases failed⟩

theorem failsStill_setDirectory (handle : Handle) :
  (setDirectory handle).FailsStill
  := by
  intro session
  apply ensures_get_bind
  refine ensures_ofExcept_bind (fun openFiles _ => ?_) fun _ _ _ _ => rfl
  exact ⟨fun _ _ _ failed => by cases failed⟩

theorem failsStill_seek (handle : Handle) (position : Nat) :
  (seek handle position).FailsStill
  := by
  apply (still_openFile _).bind_failsStill
  exact fun _ _ => ⟨fun _ _ _ failed => by cases failed⟩

theorem failsStill_read (handle : Handle) (count : Nat) :
  (read handle count).FailsStill
  := by
  apply (still_openFile _).bind_failsStill
  intro file
  apply (still_lift _).bind_failsStill
  exact fun _ _ => ⟨fun _ _ _ failed => by cases failed⟩

theorem failsStill_write (handle : Handle) (content : Bytes) (mode : WriteMode) :
  (write handle content mode).FailsStill
  := by
  apply (still_openFile _).bind_failsStill
  intro file
  apply (still_lift _).bind_failsStill
  exact fun _ _ => ⟨fun _ _ _ failed => by cases failed⟩

end Session

end FatVolume
