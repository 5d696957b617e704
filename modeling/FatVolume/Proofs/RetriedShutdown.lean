import FatVolume.Proofs.CheckedHistories
import FatVolume.Proofs.FailingDevices
import FatVolume.Proofs.OpenPaths
import FatVolume.Proofs.SavedDisks
import FatVolume.Proofs.ShellSessions

/-!
# Shutting down again

Shutting down may fail because the device does, before, among or after the records that it writes
back, or when the disk is saved.  It can be tried again: what it writes in the end is what it would
have written at once.  This is an invariant of the attempts: the result of shutting down on a
working device stays the same.
-/

namespace FatVolume

namespace Session

open SessionM

variable {session session' : Session} {image after : Image} {host : Host}

/-- A session that was shut down is left as it is by shutting down. -/
theorem Coherent.exec_shutdown_twice (h : session.Coherent image)
    (hshut : shutdown.exec session image = (.ok (), session', after)) :
  session'.Coherent after ∧ shutdown.exec session' after = (.ok (), session', after)
  := by
  obtain ⟨root, hroot, -⟩ := h.root_open
  obtain ⟨_, _, hshut', quiet, clean⟩ := h.exec_shutdown
  rw [hshut, Prod.mk.injEq, Prod.mk.injEq] at hshut'
  obtain ⟨-, rfl, rfl⟩ := hshut'
  rw [h.exec_shutdown_pending hroot, Prod.mk.injEq, Prod.mk.injEq] at hshut
  obtain ⟨-, rfl, -⟩ := hshut
  refine ⟨quiet.coherent, ?_⟩
  apply exec_shutdown_of_forM (OpenTable.get?_ofRoot_eq_some.mpr ⟨rfl, rfl⟩)
  have none_dirty : dirtyFiles { session with openFiles := .ofRoot root, borrowed := none } = [] := by
    apply List.eq_nil_iff_forall_not_mem.mpr
    intro file hfile
    obtain ⟨dirty, handle, held⟩ := mem_dirtyFiles.mp hfile
    simp [clean handle file held] at dirty
  rw [none_dirty]
  rfl

/-- When everything is prepared only the disk has to be saved, which changes neither session nor
disk. -/
theorem runIn_shutdown_of_prepared {prepared : Session} {middle : Host}
    (h : prepareShutdown.runIn Host.serve session host = (.ok (), prepared, middle)) :
  ∃ result host', shutdown.runIn Host.serve session host = (result, prepared, host')
    ∧ host'.disk = middle.disk
  := by
  have uses : (do
      DiskM.flush
      Program.log .info .session "file system shut down" : SessionM Unit).Uses {.flush} :=
    (Uses.lift (.flush (Set.mem_singleton _))).bind fun _ => .log _ _ _
  have still : (do
      DiskM.flush
      Program.log .info .session "file system shut down" : SessionM Unit).Still :=
    (still_lift _).bind fun _ => still_log _ _ _
  rw [shutdown_eq, runIn_bind_of_ok h]
  refine ⟨_, _, Prod.ext rfl (Prod.ext ?_ rfl), uses.disk_runIn prepared (by simp)⟩
  exact (still prepared).runIn Host.serve middle

/-- Shutting down on whatever device writes some records back and keeps the session, or it does all
that it does on a working device. -/
theorem Coherent.runIn_shutdown_cases (h : session.Coherent host.disk.image) :
  ∃ result session' host', shutdown.runIn Host.serve session host = (result, session', host')
    ∧ ((session' = session ∧ ∃ done ⊆ session.dirtyFiles, host'.disk.image
            = host.disk.image.withRecords (done.map (session.pending host.disk.image)))
      ∨ shutdown.exec session host.disk.image = (.ok (), session', host'.disk.image))
  := by
  obtain ⟨root, hroot, -⟩ := h.root_open
  obtain ⟨result, middle, done, hback, first, all, written⟩ :=
    h.runIn_forM_writeBack (List.Subset.refl _)
  cases result with
  | error e =>
      refine ⟨.error e, session, middle, ?_, .inl ⟨rfl, done, first.subset, written⟩⟩
      rw [shutdown_eq]
      apply runIn_bind_of_error
      rw [prepareShutdown, runIn_bind_of_ok runIn_get, runIn_bind_of_error hback]
  | ok _ =>
      obtain rfl := all rfl
      have hget : (openFile OpenTable.rootHandle).runIn Host.serve session middle
          = (.ok root, session, middle) := by
        rw [openFile, runIn_bind_of_ok runIn_get, runIn_ofExcept, OpenTable.get_eq_ok.mpr hroot]
      have hprepare : prepareShutdown.runIn Host.serve session host
          = (.ok (), { session with openFiles := .ofRoot root, borrowed := none }, middle) := by
        rw [prepareShutdown, runIn_bind_of_ok runIn_get, runIn_bind_of_ok hback,
          runIn_bind_of_ok hget, runIn_set]
      obtain ⟨result, host', hrun, disk⟩ := runIn_shutdown_of_prepared hprepare
      refine ⟨result, _, host', hrun, .inr ?_⟩
      rw [h.exec_shutdown_pending hroot, disk, written]

end Session

/-! ### Attempts -/

namespace State

open Session

/-- The state after an attempt to shut down on a host whose device holds the image. -/
def tryShutdown (state : State) (host : Host) : State :=
  let attempted := shutdown.runIn Host.serve state.session
    { host with disk := { host.disk with image := state.image } }
  ⟨attempted.2.1, attempted.2.2.disk.image⟩

/-- Whether shutting down fails or not, shutting down after it on a working device does the same. -/
theorem Coherent.tryShutdown {state : State} (h : state.Coherent) (host : Host) :
  (state.tryShutdown host).Coherent
    ∧ shutdown.exec (state.tryShutdown host).session (state.tryShutdown host).image
      = shutdown.exec state.session state.image
  := by
  let device : Host := { host with disk := { host.disk with image := state.image } }
  have coherent : state.session.Coherent device.disk.image := h
  obtain ⟨result, session', host', hrun, cases⟩ := coherent.runIn_shutdown_cases
  have attempted : state.tryShutdown host = ⟨session', host'.disk.image⟩ := by
    rw [State.tryShutdown, hrun]
  rw [attempted]
  rcases cases with ⟨rfl, done, hdone, written⟩ | hshut
  · rw [written]
    exact ⟨(coherent.exec_forM_writeBack_pending hdone).2.coherent,
      coherent.exec_shutdown_again hdone⟩
  · obtain ⟨coherent', again⟩ := coherent.exec_shutdown_twice hshut
    exact ⟨coherent', again.trans hshut.symm⟩

theorem Coherent.foldl_tryShutdown {state : State} (h : state.Coherent) (attempts : List Host) :
  (attempts.foldl State.tryShutdown state).Coherent
    ∧ shutdown.exec (attempts.foldl State.tryShutdown state).session
        (attempts.foldl State.tryShutdown state).image
      = shutdown.exec state.session state.image
  := by
  induction attempts generalizing state with
  | nil => exact ⟨h, rfl⟩
  | cons host rest ih =>
      obtain ⟨coherent, same⟩ := h.tryShutdown host
      obtain ⟨coherent', same'⟩ := ih coherent
      exact ⟨coherent', same'.trans same⟩

/-- However often shutting down was tried on devices that may fail, it succeeds on a device that
works, and leaves the disk as shutting down at once would have. -/
structure RetriesShutdown (state : State) : Prop where
  retried : ∀ (attempts : List Host) (host : Host),
    host.disk.image = (attempts.foldl State.tryShutdown state).image → host.Serves Set.univ →
    ∃ closed host', shutdown.runIn Host.serve (attempts.foldl State.tryShutdown state).session host
        = (.ok (), closed, host')
      ∧ shutdown.exec state.session state.image = (.ok (), closed, host'.disk.image)
      ∧ (∃ root, closed.openFiles = .ofRoot root ∧ root.path = Path.root)
      ∧ ∀ path, host.disk.backing = some path →
        host'.files.read path = .ok host'.disk.image.toBytes

theorem Coherent.retriesShutdown {state : State} (h : state.Coherent) :
  state.RetriesShutdown
  := by
  refine ⟨fun attempts host hdisk serves => ?_⟩
  obtain ⟨coherent, same⟩ := h.foldl_tryShutdown attempts
  have coherent : (attempts.foldl State.tryShutdown state).session.Coherent host.disk.image :=
    hdisk ▸ coherent
  obtain ⟨closed, host', hrun, hexec, -, saved⟩ := coherent.runIn_shutdown serves
  obtain ⟨_, _, hrun', done⟩ := coherent.runIn_shutdown_closed serves
  rw [hrun, Prod.mk.injEq, Prod.mk.injEq] at hrun'
  obtain ⟨-, rfl, rfl⟩ := hrun'
  rw [hdisk, same] at hexec
  exact ⟨closed, host', hrun, hexec, done.root_only, saved⟩

end State

/-- A session begins by formatting any disk, or by mounting a volume that checks.  In every state
that it reaches, shutting down can be tried until it succeeds. -/
theorem shutdown_retried_throughout (clock : Timestamp) (image : Image) :
  (∃ start : State, (Session.format clock).exec image = (.ok start.session, start.image)
      ∧ ∀ history, (start.run history).RetriesShutdown)
    ∧ ∀ (start : State) (usage : Usage) (after : Image),
        (Session.mount clock).exec image = (.ok start.session, start.image) →
        Session.check.exec start.session start.image = (.ok usage, start.session, after) →
        ∀ history, (start.run history).RetriesShutdown
  := by
  constructor
  · obtain ⟨start, hformat, throughout⟩ := exists_formatted clock image
    exact ⟨start, hformat, fun history => (throughout history).1.retriesShutdown⟩
  · intro start usage after hmount hcheck history
    have coherent : start.Coherent := Session.coherent_of_mount hmount hcheck
    exact (coherent.run history).retriesShutdown

/-- A file was created, opened and written on a disk that was formatted and mounted.  Shutting down
was tried on a device that refuses to write and on one that refuses to flush. -/
theorem shutdown_retried_throughout_refused :
  ∃ (start : State) (usage : Usage) (history : List Step) (attempts : List Host)
      (host host' : Host) (closed : Session),
    (Session.mount default).exec start.image = (.ok start.session, start.image)
    ∧ Session.check.exec start.session start.image = (.ok usage, start.session, start.image)
    ∧ history = [⟨.createFile "a", default⟩, ⟨.openPath "a", default⟩,
      ⟨.write 1 [0x61] .overwrite, default⟩]
    ∧ attempts = [{ faults := .always .write }, { faults := .always .flush }]
    ∧ host.disk.image = (attempts.foldl State.tryShutdown (start.run history)).image
    ∧ host.Serves Set.univ
    ∧ Session.shutdown.runIn Host.serve
        (attempts.foldl State.tryShutdown (start.run history)).session host
      = (.ok (), closed, host')
    ∧ Session.shutdown.exec (start.run history).session (start.run history).image
      = (.ok (), closed, host'.disk.image)
  := by
  obtain ⟨start, hformat, -⟩ := exists_formatted default .zero
  obtain ⟨hmount, -, usage, hcheck⟩ := Session.mount_of_format hformat
  have throughout := (shutdown_retried_throughout default start.image).2 start usage start.image
    hmount hcheck
  let history : List Step := [⟨.createFile "a", default⟩, ⟨.openPath "a", default⟩,
    ⟨.write 1 [0x61] .overwrite, default⟩]
  let attempts : List Host := [{ faults := .always .write }, { faults := .always .flush }]
  obtain ⟨host, hdisk, serves, -⟩ :=
    Host.exists_serving (attempts.foldl State.tryShutdown (start.run history)).image
  obtain ⟨closed, host', hrun, hexec, -⟩ := (throughout history).retried attempts host hdisk serves
  exact ⟨start, usage, history, attempts, host, host', closed, hmount, hcheck, rfl, rfl,
    hdisk, serves, hrun, hexec⟩

end FatVolume
