import FatVolume.Proofs.Borrowing
import FatVolume.Proofs.FreshVolumes
import FatVolume.Proofs.RefusedReads

/-!
# Failed operations

An operation that fails changes neither the disk nor the session, on a device that works and on one
that fails at every call to read or at every call to write.  On a device that works nothing fails
after the first change; a device that refuses to write keeps the disk as it is; and what writes must
read before.
-/

namespace FatVolume

/-! ### Atomic actions -/

namespace SessionM

variable {α : Type} {action : SessionM α} {session : Session} {host : Host}

/-- If the action fails, the session and the disk are what they were. -/
def IsAtomic (action : SessionM α) (session : Session) (host : Host) : Prop :=
  ∀ e session' host', action.runIn Host.serve session host = (.error e, session', host') →
    session' = session ∧ host'.disk = host.disk

/-- A failing action that keeps the session is atomic if it does not write, or cannot. -/
theorem FailsStill.isAtomic {calls : Set DeviceCall} (h : action.FailsStill)
    (uses : action.Uses calls) (refuses : .write ∈ calls → host.Refuses .write) :
  action.IsAtomic session host
  := by
  intro e session' host' hrun
  have same := (h session).runIn Host.serve host e
  have disk := uses.disk_runIn session refuses
  rw [hrun] at same disk
  exact ⟨same rfl, disk⟩

theorem MustRead.isAtomic (h : action.MustRead) (refuses : host.Refuses .read) :
  action.IsAtomic session host
  := by
  intro e session' host' hrun
  obtain ⟨e', after, hdenied, hdisk⟩ := h session host refuses
  rw [hrun] at hdenied
  obtain ⟨-, rfl, rfl⟩ : e = e' ∧ session' = session ∧ host' = after := by simpa using hdenied
  exact ⟨rfl, hdisk⟩

/-- An action is atomic on a host that serves it if it is on a working device. -/
theorem Uses.isAtomic {calls : Set DeviceCall} (uses : action.Uses calls)
    (serves : host.Serves calls)
    (h : (∃ e, action.exec session host.disk.image = (.error e, session, host.disk.image))
      ∨ ∃ a session' after, action.exec session host.disk.image = (.ok a, session', after)) :
  action.IsAtomic session host
  := by
  intro e session' host' hrun
  obtain ⟨served, hserved, hdisk, -⟩ := uses.runIn_host session serves
  rw [hrun] at hserved
  rcases h with ⟨e', hexec⟩ | ⟨a, session'', after, hexec⟩
  · rw [hexec] at hserved hdisk
    obtain ⟨-, rfl, rfl⟩ : e = e' ∧ session' = session ∧ host' = served := by simpa using hserved
    exact ⟨rfl, hdisk⟩
  · simp [hexec] at hserved

/-- What succeeds in whatever surroundings does not fail on a host. -/
theorem Ensures.ne_error {a : α} (h : action.Ensures session fun result _ => result = .ok a)
    {e : Error} {session' : Session} {host' : Host} :
  action.runIn Host.serve session host ≠ (.error e, session', host')
  := by
  intro hrun
  have succeeds := h.runIn Host.serve host
  rw [hrun] at succeeds
  cases succeeds

theorem Ensures.isAtomic {a : α} (h : action.Ensures session fun result _ => result = .ok a) :
  action.IsAtomic session host
  := fun _ _ _ hrun => (h.ne_error hrun).elim

section Sequences

variable {β : Type} {next : α → SessionM β}

/-- A sequence is atomic if its first part changes nothing and the rest is atomic. -/
theorem isAtomic_bind {result : Except Error α} {middle : Host}
    (h : action.runIn Host.serve session host = (result, session, middle))
    (disk : middle.disk = host.disk)
    (rest : ∀ a, result = .ok a → (next a).IsAtomic session middle) :
  (action >>= next).IsAtomic session host
  := by
  intro e session' host' hrun
  cases result with
  | ok a =>
      rw [runIn_bind_of_ok h] at hrun
      rw [← disk]
      exact rest a rfl e session' host' hrun
  | error e' =>
      rw [runIn_bind_of_error h] at hrun
      obtain ⟨-, rfl, rfl⟩ : e' = e ∧ session = session' ∧ middle = host' := by simpa using hrun
      exact ⟨rfl, disk⟩

/-- A sequence is atomic if its first part is and the rest does not fail. -/
theorem IsAtomic.bind (h : action.IsAtomic session host)
    (rest : ∀ a session' host', action.runIn Host.serve session host = (.ok a, session', host') →
      ∃ b, (next a).Ensures session' fun result _ => result = .ok b) :
  (action >>= next).IsAtomic session host
  := by
  intro e session' host' hrun
  rcases haction : action.runIn Host.serve session host with ⟨result, middle, host''⟩
  cases result with
  | ok a =>
      obtain ⟨b, succeeds⟩ := rest a middle host'' haction
      rw [runIn_bind_of_ok haction] at hrun
      exact (succeeds.ne_error hrun).elim
  | error e' =>
      rw [runIn_bind_of_error haction] at hrun
      obtain ⟨-, rfl, rfl⟩ : e' = e ∧ middle = session' ∧ host'' = host' := by simpa using hrun
      exact h e' _ _ haction

theorem IsAtomic.answer (h : action.IsAtomic session host) (answer : α → β) :
  (do return answer (← action) : SessionM β).IsAtomic session host
  := h.bind fun a _ _ _ => ⟨answer a, ⟨fun _ _ => rfl⟩⟩

end Sequences

end SessionM

/-! ### Changing the directory -/

namespace Session

open SessionM

variable {session : Session} {host : Host}

/-- Changing the directory fails only before it changes something, if the disk can be read. -/
theorem Coherent.isAtomic_changeDirectory (h : session.Coherent host.disk.image)
    (borrows : session.BorrowsCurrent) (serves : host.Serves {.read}) (path : String) :
  (changeDirectory path).IsAtomic session host
  := by
  have reads : DeviceCall.read ∈ ({.read} : Set DeviceCall) := rfl
  obtain ⟨absolute, normal⟩ := h.absolute_eq path
  obtain ⟨middle, hentry, hdisk, serves'⟩ :=
    (uses_entryAt reads (session.absolute path)).runIn_host session serves
  rw [h.exec_entryAt_absolute path] at hentry hdisk
  dsimp only at hentry hdisk
  rw [changeDirectory_eq]
  apply isAtomic_bind runIn_get rfl
  rintro _ ⟨rfl⟩
  apply isAtomic_bind hentry hdisk
  intro e he
  rw [found_eq_ok] at he
  split_ifs with notDirectory
  · exact isAtomic_bind (runIn_throw _) rfl fun _ failed => by cases failed
  have hdir : e.record.isDirectory = true := by simpa using notDirectory
  apply isAtomic_bind runIn_get rfl
  rintro _ ⟨rfl⟩
  split
  · next handle hfound =>
      -- The path is open, and its file tracks the entry that was found.
      obtain ⟨file, hfile, hpath⟩ := OpenTable.exists_of_find? hfound
      have tracks := h.tracks_of_find? hfile normal (hpath.trans absolute) he
      apply Ensures.isAtomic
      exact ensures_enter_ok false hfile (tracks.isDirectory_eq.trans hdir)
        fun _ => h.returns_of_borrowsCurrent borrows
  · next unopened =>
      have opened := h.openPath_cases (session.absolute path)
      obtain ⟨served, hopen, -, -⟩ :=
        (uses_openPath reads (session.absolute path)).runIn_host session serves'
      have image : middle.disk.image = host.disk.image := by rw [hdisk]
      rw [image] at hopen
      apply ((failsStill_openPath _).isAtomic (uses_openPath reads _) (by simp)).bind
      intro handle session' host' hrun
      rw [hrun] at hopen
      rcases opened with ⟨error, hexec⟩ | ⟨handle', e', hexec, hlt, hfree, -, he'⟩
      · simp [hexec] at hopen
      · obtain ⟨rfl, rfl, rfl⟩ : handle = handle' ∧ session' = _ ∧ host' = served := by
          simpa [hexec] using hopen
        rw [h.target_absolute path, he] at he'
        obtain rfl := Option.some.inj he'
        let opened : OpenFile :=
          { record := e.record, path := session.absolute (session.absolute path) }
        have held := OpenTable.get?_set_self session.openFiles hlt opened
        refine ⟨(), ensures_enter_ok true held hdir ?_⟩
        exact fun _ => h.returns_of_free borrows hlt hfree opened

end Session

/-! ### Operations -/

namespace Operation

open Session SessionM

/-- The operations that change nothing if they fail, even if the device refuses to read or to
write. -/
def isAtomic : Operation → Bool
  | makeDirectory _ | createFile _ | removeDirectory _ | removeFile _ | openPath _
  | setDirectory _ | changeDirectory _ | read _ _ | seek _ _ | write _ _ _ => true
  | _ => false

/-- An atomic operation only reads and keeps the session if it fails, or it creates, removes,
changes the directory or writes. -/
theorem isAtomic_cases {operation : Operation} (h : operation.isAtomic = true) :
  (operation.perform.FailsStill ∧ operation.perform.Uses {.read})
    ∨ (∃ path kind, operation = create path kind) ∨ (∃ path kind, operation = remove path kind)
    ∨ (∃ path, operation = changeDirectory path)
    ∨ ∃ handle content mode, operation = write handle content mode
  := by
  have reads : operation.calls ⊆ {.read} → operation.perform.Uses {.read} :=
    operation.uses_perform.mono
  cases operation with
  | makeDirectory path => exact .inr (.inl ⟨path, .directory, rfl⟩)
  | createFile path => exact .inr (.inl ⟨path, .file, rfl⟩)
  | removeDirectory path => exact .inr (.inr (.inl ⟨path, .directory, rfl⟩))
  | removeFile path => exact .inr (.inr (.inl ⟨path, .file, rfl⟩))
  | changeDirectory path => exact .inr (.inr (.inr (.inl ⟨path, rfl⟩)))
  | write handle content mode => exact .inr (.inr (.inr (.inr ⟨handle, content, mode, rfl⟩)))
  | openPath path => exact .inl ⟨(failsStill_openPath path).answer _, reads subset_rfl⟩
  | setDirectory handle =>
      have still := (failsStill_setDirectory handle).answer fun _ => Answer.done
      exact .inl ⟨still, reads (by simp [calls])⟩
  | read handle count => exact .inl ⟨(failsStill_read handle count).answer _, reads subset_rfl⟩
  | seek handle position =>
      exact .inl ⟨(failsStill_seek handle position).answer _, reads (by simp [calls])⟩
  | _ => simp [isAtomic] at h

variable {operation : Operation} {session : Session} {host : Host}

/-- On a device that refuses to read, what could write fails before. -/
theorem isAtomic_of_refuses_read (h : operation.isAtomic = true) (refuses : host.Refuses .read) :
  operation.perform.IsAtomic session host
  := by
  rcases isAtomic_cases h with ⟨still, uses⟩ | ⟨path, kind, rfl⟩ | ⟨path, kind, rfl⟩ |
    ⟨path, rfl⟩ | ⟨handle, content, mode, rfl⟩
  · exact still.isAtomic uses (by simp)
  · rw [perform_create]
    exact ((mustRead_createAt path kind).isAtomic refuses).answer _
  · rw [perform_remove]
    exact ((mustRead_removeAt path kind).isAtomic refuses).answer fun _ => Answer.done
  · exact ((mustRead_changeDirectory path).isAtomic refuses).answer fun _ => Answer.done
  · exact ((mustRead_write handle content mode).isAtomic refuses).answer _

section Coherent

variable (coherent : session.Coherent host.disk.image) (borrows : session.BorrowsCurrent)
include coherent borrows

/-- On a device that refuses to write only the session could change. -/
theorem isAtomic_of_refuses_write (h : operation.isAtomic = true) (serves : host.Serves {.read})
    (refuses : host.Refuses .write) :
  operation.perform.IsAtomic session host
  := by
  have denied {α : Type} {action : SessionM α} {calls : Set DeviceCall} (still : action.FailsStill)
      (uses : action.Uses calls) : action.IsAtomic session host :=
    still.isAtomic uses fun _ => refuses
  have uses := operation.uses_perform
  rcases isAtomic_cases h with ⟨still, -⟩ | ⟨path, kind, rfl⟩ | ⟨path, kind, rfl⟩ |
    ⟨path, rfl⟩ | ⟨handle, content, mode, rfl⟩
  · exact denied still uses
  · rw [perform_create] at uses ⊢
    exact denied ((still_createAt path kind).failsStill.answer _) uses
  · rw [perform_remove] at uses ⊢
    exact denied ((still_removeAt path kind).failsStill.answer fun _ => Answer.done) uses
  · exact (coherent.isAtomic_changeDirectory borrows serves path).answer fun _ => Answer.done
  · exact denied ((failsStill_write handle content mode).answer _) uses

/-- On a device that works nothing fails after the first change. -/
theorem isAtomic_of_serves
    (h : operation.isAtomic = true ∨ ∃ handle, operation = close handle)
    (serves : host.Serves {.read, .write}) :
  operation.perform.IsAtomic session host
  := by
  have reads : DeviceCall.read ∈ ({.read, .write} : Set DeviceCall) := .inl rfl
  have writes : DeviceCall.write ∈ ({.read, .write} : Set DeviceCall) := .inr rfl
  rcases h with h | ⟨handle, rfl⟩
  · rcases isAtomic_cases h with ⟨still, uses⟩ | ⟨path, kind, rfl⟩ | ⟨path, kind, rfl⟩ |
      ⟨path, rfl⟩ | ⟨handle, content, mode, rfl⟩
    · exact still.isAtomic uses (by simp)
    · rw [perform_create]
      refine ((uses_createAt reads writes path kind).isAtomic serves ?_).answer _
      rcases coherent.createAt_cases path kind with ⟨error, -, hexec⟩ | ⟨_, e, after, -, hexec, -⟩
      · exact .inl ⟨error, hexec⟩
      · exact .inr ⟨e, _, after, hexec⟩
    · rw [perform_remove]
      refine ((uses_removeAt reads writes path kind).isAtomic serves ?_).answer fun _ => Answer.done
      rcases coherent.removeAt_cases path kind with ⟨error, -, hexec⟩ | ⟨_, after, -, hexec, -⟩
      · exact .inl ⟨error, hexec⟩
      · exact .inr ⟨(), _, after, hexec⟩
    · have serves' : host.Serves {.read} := ⟨fun call hcall => serves.works call (.inl hcall), by simp⟩
      exact (coherent.isAtomic_changeDirectory borrows serves' path).answer fun _ => Answer.done
    · refine ((uses_write reads writes handle content mode).isAtomic serves ?_).answer _
      rcases coherent.exec_write handle content mode with ⟨error, hexec⟩ |
        ⟨_, session', after, -, hexec, -⟩
      · exact .inl ⟨error, hexec⟩
      · exact .inr ⟨_, session', after, hexec⟩
  · refine ((uses_close reads writes handle).isAtomic serves ?_).answer fun _ => Answer.done
    rcases coherent.close_cases handle with ⟨error, hexec⟩ | ⟨_, after, -, hexec, -⟩
    · exact .inl ⟨error, hexec⟩
    · exact .inr ⟨(), _, after, hexec⟩

end Coherent

end Operation

/-! ### Histories -/

/-- A session begins by formatting any disk.  In every state that it reaches an operation that
fails leaves the session and the disk as they are, if the device works or fails at every call to
read or at every call to write.  Closing a handle does so if the device works. -/
theorem unchanged_of_failed (clock : Timestamp) (image : Image) :
  ∃ start : State, (Session.format clock).exec image = (.ok start.session, start.image)
    ∧ ∀ (history : List Step) (step : Step) (host host' : Host) (session' : Session)
        (error : Error),
      host.disk.image = (start.run history).image →
      (host.faults = .none
          ∧ (step.operation.isAtomic = true ∨ ∃ handle, step.operation = .close handle)
        ∨ (host.faults = .always .read ∨ host.faults = .always .write)
          ∧ step.operation.isAtomic = true) →
      step.operation.perform.runIn Host.serve ((start.run history).session.atTime step.now) host
        = (.error error, session', host') →
      session' = (start.run history).session.atTime step.now ∧ host'.disk = host.disk
  := by
  obtain ⟨start, hformat, throughout⟩ := exists_formatted clock image
  refine ⟨start, hformat, ?_⟩
  intro history step host host' session' error hdisk device
  have coherent : ((start.run history).session.atTime step.now).Coherent host.disk.image := by
    rw [hdisk]
    exact (throughout history).1.at_time step.now
  have borrows : ((start.run history).session.atTime step.now).BorrowsCurrent :=
    borrowsCurrent_of_format hformat (throughout []).1 history
  apply (_ : SessionM.IsAtomic _ _ _)
  rcases device with ⟨works, operation⟩ | ⟨refused | refused, operation⟩
  · apply Operation.isAtomic_of_serves coherent borrows operation
    exact ⟨by simp [works, Faults.none], by simp⟩
  · apply Operation.isAtomic_of_refuses_read operation
    simp [Host.Refuses, refused, Faults.always]
  · apply Operation.isAtomic_of_refuses_write coherent borrows operation
    · exact ⟨by simp [refused, Faults.always], by simp⟩
    · simp [Host.Refuses, refused, Faults.always]

/-- A file was created and could be removed.  On a device that refuses to write, removing it fails
and leaves the disk and the session as they are. -/
theorem unchanged_of_failed_removal :
  ∃ (start : State) (history : List Step) (answer : Answer) (host host' : Host)
      (session' : Session) (error : Error),
    (Session.format default).exec .zero = (.ok start.session, start.image)
    ∧ history = [⟨.createFile "/a", default⟩]
    ∧ Step.result ⟨.removeFile "/a", default⟩ (start.run history) = .ok answer
    ∧ host.disk.image = (start.run history).image ∧ host.faults = .always .write
    ∧ (Operation.removeFile "/a").perform.runIn Host.serve
        ((start.run history).session.atTime default) host = (.error error, session', host')
    ∧ session' = (start.run history).session.atTime default ∧ host'.disk = host.disk
  := by
  have path : Path.render ["a"] = "/a" := by decide
  have hsplit : Name.split "a" .file = .ok (['a'], []) := by decide
  obtain ⟨start, hformat, unchanged⟩ := unchanged_of_failed default .zero
  obtain ⟨answer, removed⟩ := exists_removed hformat (by decide) hsplit default default
  rw [path, Operation.create] at removed
  let history : List Step := [⟨.createFile "/a", default⟩]
  let host : Host := { disk := { image := (start.run history).image }, faults := .always .write }
  have coherent : (start.run history).Coherent := (flat_of_format hformat).1.coherent.run history
  have changes := coherent.image_remove_ne removed
  rw [Operation.remove] at removed
  rw [Step.exec, Operation.remove] at changes
  have refuses : host.Refuses .write := fun _ => rfl
  obtain ⟨error, session', host', failed⟩ :=
    (Operation.removeFile "/a").uses_perform.fails_of_refused _ refuses changes
  refine ⟨start, history, answer, host, host', session', error, hformat, rfl, removed, rfl, rfl,
    failed, ?_⟩
  exact unchanged history ⟨.removeFile "/a", default⟩ host host' session' error rfl
    (.inr ⟨.inr rfl, rfl⟩) failed

end FatVolume
