import FatVolume.Proofs.SessionEffects
import FatVolume.Proofs.WriteBack

/-!
# Recorded device calls

Surroundings may record the device calls that they serve.  This changes nothing else.  The last call
of shutting down is the one that flushes.
-/

namespace FatVolume

variable {α σ : Type}

/-- The device call that serves a request, if one does. -/
def Request.call? : Request → Option DeviceCall
  | readBlock _ => some .read
  | writeBlock _ _ => some .write
  | flush => some .flush
  | _ => none

/-- The surroundings with a record of the device calls made in them. -/
def Surroundings.recorded (serve : Surroundings σ) : Surroundings (σ × List DeviceCall) :=
  fun request (s, calls) =>
    ((serve request s).1, (serve request s).2, calls ++ request.call?.toList)

/-- Recording does not change what a program does. -/
theorem Program.run_recorded (serve : Surroundings σ) (program : Program α) (s : σ)
    (calls : List DeviceCall) :
  (program.run serve.recorded (s, calls)).1 = (program.run serve s).1
    ∧ (program.run serve.recorded (s, calls)).2.1 = (program.run serve s).2
  := by
  induction program generalizing s calls with
  | done result => exact ⟨rfl, rfl⟩
  | ask request next ih => exact ih _ _ _

/-- The call that flushes is the last one of flushing. -/
theorem DiskM.runIn_recorded_flush (serve : Surroundings σ) (s : σ) (calls : List DeviceCall) :
  (DiskM.flush.runIn serve.recorded (s, calls)).2.2 = calls ++ [.flush]
  := by
  have asked : runIn serve.recorded (ExceptT.mk (Program.request .flush)) (s, calls)
      = ((serve .flush s).1, (serve .flush s).2, calls ++ [.flush]) := rfl
  rw [DiskM.flush, runIn_bind, asked]
  rcases (serve .flush s).1 with error | saved
  · rfl
  · cases saved with
    | none => rfl
    | some path => exact List.append_nil _

namespace SessionM

/-- Recording does not change what an action does. -/
theorem runIn_recorded {serve : Surroundings σ} {action : SessionM α} {session session' : Session}
    {s s' : σ} {result : Except Error α}
    (h : action.runIn serve session s = (result, session', s')) (calls : List DeviceCall) :
  ∃ more, action.runIn serve.recorded session (s, calls) = (result, session', s', more)
  := by
  obtain ⟨results, states⟩ := Program.run_recorded serve (action.run.run session) s calls
  refine ⟨(action.runIn serve.recorded session (s, calls)).2.2.2, ?_⟩
  obtain ⟨rfl, rfl, rfl⟩ : _ = result ∧ _ = session' ∧ _ = s' := by simpa [runIn] using h
  unfold runIn
  rw [← results, ← states]

end SessionM

namespace Session

open SessionM

/-- What shutting down does before it flushes. -/
def prepareShutdown : SessionM Unit := do
  let session ← get
  session.dirtyFiles.forM writeBack
  let root ← openFile OpenTable.rootHandle
  set { session with openFiles := .ofRoot root, borrowed := none }

theorem shutdown_eq :
  shutdown = (do
    prepareShutdown
    DiskM.flush
    Program.log .info .session "file system shut down" : SessionM Unit)
  := by
  simp only [prepareShutdown, bind_assoc]
  rfl

/-- The call that flushes is the last one of shutting down, if that succeeds. -/
theorem calls_of_shutdown {serve : Surroundings σ} {session session' : Session} {s s' : σ}
    {calls more : List DeviceCall}
    (h : shutdown.runIn serve.recorded session (s, calls) = (.ok (), session', s', more)) :
  ∃ earlier, more = earlier ++ [.flush]
  := by
  rw [shutdown_eq] at h
  rcases hprepare : prepareShutdown.runIn serve.recorded session (s, calls) with
    ⟨result, prepared, s'', earlier⟩
  cases result with
  | error e =>
      rw [runIn_bind_of_error hprepare] at h
      cases h
  | ok done =>
      have flushed := DiskM.runIn_recorded_flush serve s'' earlier
      rw [runIn_bind_of_ok hprepare] at h
      rcases hflush : DiskM.flush.runIn serve.recorded (s'', earlier) with ⟨result, served⟩
      rw [hflush] at flushed
      cases result with
      | error e =>
          rw [runIn_bind_of_error (runIn_lift_of_eq hflush)] at h
          cases h
      | ok done =>
          rw [runIn_bind_of_ok (runIn_lift_of_eq hflush)] at h
          have last : served.2 ++ [] = more := congrArg (·.2.2.2) h
          exact ⟨earlier, by rw [← last, List.append_nil, ← flushed]⟩

/-- Shutting down leaves only the root open, if it succeeds. -/
theorem ensures_shutdown (session : Session) :
  shutdown.Ensures session fun result session' => result = .ok () →
    ∃ root, session.openFiles.get? OpenTable.rootHandle = some root
      ∧ session'.openFiles = .ofRoot root
  := by
  apply ensures_get_bind
  have written (files : List OpenFile) : (files.forM writeBack).Still := by
    induction files with
    | nil => exact still_pure ()
    | cons file rest ih => exact (still_writeBack file).bind fun _ => ih
  refine (written _).bind_ensures (fun _ => ?_) fun _ failed => by cases failed
  refine ensures_openFile_bind (fun root hroot => ?_) fun _ _ failed => by cases failed
  apply ensures_set_bind
  have finish : (do
      DiskM.flush
      Program.log .info .session "file system shut down" : SessionM Unit).Still :=
    (still_lift _).bind fun _ => still_log _ _ _
  apply (finish _).mono
  rintro _ _ rfl _
  exact ⟨root, hroot, rfl⟩

end Session

end FatVolume
