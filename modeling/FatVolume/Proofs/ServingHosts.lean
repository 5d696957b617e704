import FatVolume.Program.Host
import FatVolume.Proofs.DeviceCalls
import FatVolume.Proofs.HostFiles
import FatVolume.Proofs.Surroundings

/-!
# Actions on hosts

On a host whose device serves the calls of an action, the action does what it does on a working
device.  On a device that refuses to write it leaves the disk as it is.  What succeeds on any host
did what it does on a working device, so that nothing that would change the disk succeeds on one
that refuses to write.
-/

namespace FatVolume

namespace Host

/-- A device serves calls of the given kinds: it does not fail at them, and if it is flushed the
disk can be saved. -/
structure Serves (host : Host) (calls : Set DeviceCall) : Prop where
  works : ∀ call ∈ calls, ∀ made, host.faults made call = false
  saves : .flush ∈ calls → ∀ path, host.disk.backing = some path → host.files.Writable path

/-- A device refuses calls of a kind. -/
def Refuses (host : Host) (call : DeviceCall) : Prop :=
  ∀ made, host.faults made call = true

theorem disk_log (host : Host) (event : Event) :
  (host.log event).disk = host.disk
  := by
  unfold log
  split <;> rfl

theorem files_log (host : Host) (event : Event) :
  (host.log event).files = host.files
  := by
  unfold log
  split <;> rfl

theorem faults_log (host : Host) (event : Event) :
  (host.log event).faults = host.faults
  := by
  unfold log
  split <;> rfl

/-! ### Calls that fail and calls that do not -/

section Calls

variable (host : Host)

theorem call_of_refused {kind : DeviceCall} (h : host.faults host.calls kind = true) :
  host.call kind = (.error (.io (.deviceFailure kind)), (host.call kind).2)
  := by
  simp [call, h]

theorem call_of_served {kind : DeviceCall} (h : host.faults host.calls kind = false) :
  host.call kind = (.ok (), (host.call kind).2)
  := by
  simp [call, h]

theorem readBlock_of_refused (h : host.faults host.calls .read = true) (b size : Nat) :
  host.readBlock b size = (.error (.io (.deviceFailure .read)), (host.call .read).2)
  := by
  rw [readBlock, host.call_of_refused h]

theorem readBlock_of_served (h : host.faults host.calls .read = false) (b size : Nat) :
  host.readBlock b size = (host.disk.image.read b size, (host.call .read).2)
  := by
  rw [readBlock, host.call_of_served h]
  rfl

theorem writeBlock_of_refused (h : host.faults host.calls .write = true) (b : Nat)
    (buffer : Array UInt8) :
  host.writeBlock b buffer = (.error (.io (.deviceFailure .write)), (host.call .write).2)
  := by
  rw [writeBlock, host.call_of_refused h]

theorem writeBlock_of_served (h : host.faults host.calls .write = false) (b : Nat)
    (buffer : Array UInt8) :
  host.writeBlock b buffer
    = match host.disk.image.write b buffer with
      | .error e => (.error e, (host.call .write).2)
      | .ok image =>
          (.ok (), { (host.call .write).2 with disk := { host.disk with image } })
  := by
  rw [writeBlock, host.call_of_served h]
  rfl

theorem flush_of_refused (h : host.faults host.calls .flush = true) :
  host.flush = (.error (.io (.deviceFailure .flush)), (host.call .flush).2)
  := by
  rw [flush, host.call_of_refused h]

theorem flush_of_served (h : host.faults host.calls .flush = false) :
  host.flush = (host.call .flush).2.persist
  := by
  rw [flush, host.call_of_served h]

/-- Saving a disk does not change it. -/
theorem disk_flush :
  host.flush.2.disk = host.disk
  := by
  cases h : host.faults host.calls .flush with
  | true =>
      rw [host.flush_of_refused h]
      rfl
  | false =>
      rw [host.flush_of_served h, persist]
      split
      · rfl
      · split <;> rfl

theorem faults_persist :
  host.persist.2.faults = host.faults
  := by
  unfold persist
  split
  · rfl
  · split <;> rfl

/-- Serving a request does not change which calls fail. -/
theorem faults_serve (request : Request) :
  (Host.serve request host).2.faults = host.faults
  := by
  cases request with
  | readBlock b =>
      cases h : host.faults host.calls .read with
      | true => rw [serve, host.readBlock_of_refused h]; rfl
      | false => rw [serve, host.readBlock_of_served h]; rfl
  | writeBlock b data =>
      cases h : host.faults host.calls .write with
      | true => rw [serve, host.writeBlock_of_refused h]; rfl
      | false =>
          rw [serve, host.writeBlock_of_served h]
          split <;> rfl
  | flush =>
      cases h : host.faults host.calls .flush with
      | true => rw [serve, host.flush_of_refused h]; rfl
      | false => rw [serve, host.flush_of_served h, faults_persist]; rfl
  | log event => exact host.faults_log event
  | writeFile path bytes =>
      rw [serve]
      split <;> rfl
  | insert disk => rfl
  | readFile path => rfl
  | print bytes => rfl
  | report bytes => rfl

/-- No program changes which calls fail. -/
theorem faults_run {α : Type} (program : Program α) :
  (program.run Host.serve host).2.faults = host.faults
  := by
  induction program generalizing host with
  | done result => rfl
  | ask request next ih => rw [Program.run, ih, faults_serve]

end Calls

end Host

/-! ### Actions on hosts -/

namespace DiskM

variable {α β : Type} {calls : Set DeviceCall} {action : DiskM α} {host : Host}

theorem runIn_log (level : Level) (source : Component) (message : String) (host : Host) :
  (liftM (Program.log level source message) : DiskM Unit).runIn Host.serve host
    = (.ok (), host.log ⟨level, source, message⟩)
  := rfl

/-- A disk that was saved is mentioned in the log. -/
theorem runIn_flush (host : Host) :
  DiskM.flush.runIn Host.serve host
    = match host.flush with
      | (.ok (some path), host) =>
          (.ok (), host.log ⟨.info, .device, s!"persisted disk image to {path}"⟩)
      | (.ok none, host) => (.ok (), host)
      | (.error e, host) => (.error e, host)
  := by
  have served : runIn Host.serve (ExceptT.mk (Program.request .flush)) host = host.flush := rfl
  rw [DiskM.flush, runIn_bind, served]
  cases host.flush with
  | mk result host =>
      rcases result with e | _ | path
      · rfl
      · rfl
      · exact runIn_log _ _ _ _

/-- Flushing saves the disk in its host file, if it has one that can be written. -/
theorem runIn_flush_of_works (works : host.faults host.calls .flush = false)
    (saves : ∀ path, host.disk.backing = some path → host.files.Writable path) :
  ∃ host', DiskM.flush.runIn Host.serve host = (.ok (), host') ∧ host'.disk = host.disk
    ∧ ∀ path, host.disk.backing = some path →
        host'.files.read path = .ok host.disk.image.toBytes ∧ host'.files.Writable path
  := by
  have disk : (host.call .flush).2.disk = host.disk := rfl
  have files : (host.call .flush).2.files = host.files := rfl
  rw [runIn_flush, host.flush_of_served works, Host.persist, disk, files]
  cases hbacking : host.disk.backing with
  | none => exact ⟨_, rfl, rfl, by simp⟩
  | some path =>
      obtain ⟨after, hwrite, hread, writable⟩ :=
        Files.write_of_writable (saves path hbacking) host.disk.image.toBytes
      dsimp only
      rw [hwrite]
      refine ⟨_, rfl, Host.disk_log _ _, ?_⟩
      rintro _ ⟨⟩
      rw [Host.files_log]
      exact ⟨hread, writable⟩

theorem faults_runIn (action : DiskM α) (host : Host) :
  (action.runIn Host.serve host).2.faults = host.faults
  := host.faults_run action.run

/-- On a host that serves its calls an action does what it does on a working device. -/
theorem Uses.runIn_host (uses : action.Uses calls) (serves : host.Serves calls) :
  ∃ host', action.runIn Host.serve host = ((action.exec host.disk.image).1, host')
    ∧ host'.disk = { host.disk with image := (action.exec host.disk.image).2 }
    ∧ host'.Serves calls
  := by
  induction uses generalizing host with
  | pure a => exact ⟨host, rfl, rfl, serves⟩
  | throw e => exact ⟨host, rfl, rfl, serves⟩
  | log level source message =>
      refine ⟨host.log ⟨level, source, message⟩, rfl, host.disk_log _, ?_, ?_⟩
      · rw [host.faults_log]
        exact serves.works
      · rw [host.disk_log, host.files_log]
        exact serves.saves
  | read h b =>
      exact ⟨_, host.readBlock_of_served (serves.works _ h _) b _, rfl, serves.works, serves.saves⟩
  | write h b data =>
      have served : (writeBlock b data).runIn Host.serve host = _ :=
        host.writeBlock_of_served (serves.works _ h _) b data.toArray
      have worked : (writeBlock b data).exec host.disk.image
        = Image.serve (.writeBlock b data) host.disk.image := rfl
      rw [served, worked, Image.serve]
      cases host.disk.image.write b data.toArray with
      | error e => exact ⟨_, rfl, rfl, serves.works, serves.saves⟩
      | ok image => exact ⟨_, rfl, rfl, serves.works, serves.saves⟩
  | flush h =>
      obtain ⟨host', hflush, hdisk, saved⟩ :=
        runIn_flush_of_works (serves.works _ h _) (serves.saves h)
      have faults := faults_runIn DiskM.flush host
      rw [hflush] at faults
      refine ⟨host', hflush, hdisk, ?_, ?_⟩
      · rw [faults]
        exact serves.works
      · intro _ path hpath
        rw [hdisk] at hpath
        exact (saved path hpath).2
  | @bind _ _ action next _ _ ih ih' =>
      obtain ⟨middle, hfirst, hdisk, serves'⟩ := ih serves
      rw [runIn_bind, exec_bind, hfirst]
      cases hexec : action.exec host.disk.image with
      | mk result after =>
          rw [hexec] at hdisk
          cases result with
          | error e => exact ⟨middle, rfl, hdisk, serves'⟩
          | ok a =>
              obtain ⟨host', hnext, hdisk', serves''⟩ := ih' a serves'
              rw [hdisk] at hnext hdisk'
              exact ⟨host', hnext, hdisk', serves''⟩

/-- An action whose writes are refused leaves the disk as it is. -/
theorem Uses.disk_runIn (uses : action.Uses calls)
    (refuses : .write ∈ calls → host.Refuses .write) :
  (action.runIn Host.serve host).2.disk = host.disk
  := by
  induction uses generalizing host with
  | pure a => rfl
  | throw e => rfl
  | log level source message => exact host.disk_log _
  | read h b =>
      have served : (readBlock b).runIn Host.serve host = host.readBlock b blockSize := rfl
      rw [served]
      cases h : host.faults host.calls .read with
      | true => rw [host.readBlock_of_refused h]; rfl
      | false => rw [host.readBlock_of_served h]; rfl
  | write h b data =>
      have served : (writeBlock b data).runIn Host.serve host
        = host.writeBlock b data.toArray := rfl
      rw [served, host.writeBlock_of_refused (refuses h _)]
      rfl
  | flush h =>
      have disk := host.disk_flush
      rw [runIn_flush]
      cases hflush : host.flush with
      | mk result host' =>
          rw [hflush] at disk
          rcases result with e | _ | path
          · exact disk
          · exact disk
          · exact (host'.disk_log _).trans disk
  | @bind _ _ action next _ _ ih ih' =>
      have first := ih refuses
      have faults := faults_runIn action host
      rw [runIn_bind]
      cases hrun : action.runIn Host.serve host with
      | mk result middle =>
          rw [hrun] at first faults
          cases result with
          | error e => exact first
          | ok a =>
              dsimp only at first faults ⊢
              rw [← first]
              apply ih'
              intro h
              rw [Host.Refuses, faults]
              exact refuses h

end DiskM

namespace SessionM

variable {α β : Type} {calls : Set DeviceCall} {action : SessionM α} {host : Host}

theorem faults_runIn (action : SessionM α) (session : Session) (host : Host) :
  (action.runIn Host.serve session host).2.2.faults = host.faults
  := host.faults_run (action.run.run session)

/-- On a host that serves its calls an action does what it does on a working device. -/
theorem Uses.runIn_host (uses : action.Uses calls) (session : Session)
    (serves : host.Serves calls) :
  ∃ host', action.runIn Host.serve session host
      = ((action.exec session host.disk.image).1, (action.exec session host.disk.image).2.1, host')
    ∧ host'.disk = { host.disk with image := (action.exec session host.disk.image).2.2 }
    ∧ host'.Serves calls
  := by
  induction uses generalizing session host with
  | pure a => exact ⟨host, rfl, rfl, serves⟩
  | throw e => exact ⟨host, rfl, rfl, serves⟩
  | get => exact ⟨host, rfl, rfl, serves⟩
  | modify f => exact ⟨host, rfl, rfl, serves⟩
  | log level source message =>
      obtain ⟨host', hlog, hdisk, serves'⟩ :=
        (DiskM.Uses.log level source message).runIn_host serves
      exact ⟨host', runIn_lift_of_eq hlog, hdisk, serves'⟩
  | lift h =>
      obtain ⟨host', hrun, hdisk, serves'⟩ := h.runIn_host serves
      rw [exec_lift]
      exact ⟨host', runIn_lift_of_eq hrun, hdisk, serves'⟩
  | @bind _ _ action next _ _ ih ih' =>
      obtain ⟨middle, hfirst, hdisk, serves'⟩ := ih session serves
      rw [runIn_bind, exec_bind, hfirst]
      rcases hexec : action.exec session host.disk.image with ⟨result, session', after⟩
      rw [hexec] at hdisk
      cases result with
      | error e => exact ⟨middle, rfl, hdisk, serves'⟩
      | ok a =>
          obtain ⟨host', hnext, hdisk', serves''⟩ := ih' a session' serves'
          rw [hdisk] at hnext hdisk'
          exact ⟨host', hnext, hdisk', serves''⟩

/-- An action whose writes are refused leaves the disk as it is. -/
theorem Uses.disk_runIn (uses : action.Uses calls) (session : Session)
    (refuses : .write ∈ calls → host.Refuses .write) :
  (action.runIn Host.serve session host).2.2.disk = host.disk
  := by
  induction uses generalizing session host with
  | pure a => rfl
  | throw e => rfl
  | get => rfl
  | modify f => rfl
  | log level source message => exact host.disk_log _
  | lift h =>
      rw [runIn_lift]
      exact h.disk_runIn refuses
  | @bind _ _ action next _ _ ih ih' =>
      have first := ih session refuses
      have faults := faults_runIn action session host
      rw [runIn_bind]
      rcases hrun : action.runIn Host.serve session host with ⟨result, session', middle⟩
      rw [hrun] at first faults
      cases result with
      | error e => exact first
      | ok a =>
          dsimp only at first faults ⊢
          rw [← first]
          apply ih'
          intro h
          rw [Host.Refuses, faults]
          exact refuses h

end SessionM

/-! ### What succeeds -/

namespace Host

variable {host host' : Host}

/-- A block that was read is that of the image. -/
theorem eq_of_readBlock {b size : Nat} {data : Block}
    (h : host.readBlock b size = (.ok data, host')) :
  host.disk.image.read b size = .ok data ∧ host'.disk = host.disk
  := by
  cases fails : host.faults host.calls .read with
  | true =>
      rw [host.readBlock_of_refused fails] at h
      cases h
  | false =>
      rw [host.readBlock_of_served fails, Prod.mk.injEq] at h
      obtain ⟨hread, rfl⟩ := h
      exact ⟨hread, rfl⟩

/-- A block that was written is in the image. -/
theorem eq_of_writeBlock {b : Nat} {buffer : Array UInt8}
    (h : host.writeBlock b buffer = (.ok (), host')) :
  host.disk.image.write b buffer = .ok host'.disk.image
  := by
  cases fails : host.faults host.calls .write with
  | true =>
      rw [host.writeBlock_of_refused fails] at h
      cases h
  | false =>
      rw [host.writeBlock_of_served fails] at h
      cases hwrite : host.disk.image.write b buffer with
      | error e =>
          rw [hwrite] at h
          cases h
      | ok image =>
          rw [hwrite] at h
          cases h
          rfl

/-- A block that was not written left the disk as it was. -/
theorem disk_of_writeBlock {b : Nat} {buffer : Array UInt8} {e : Error}
    (h : host.writeBlock b buffer = (.error e, host')) :
  host'.disk = host.disk
  := by
  cases fails : host.faults host.calls .write with
  | true =>
      rw [host.writeBlock_of_refused fails] at h
      cases h
      rfl
  | false =>
      rw [host.writeBlock_of_served fails] at h
      cases hwrite : host.disk.image.write b buffer with
      | error e =>
          rw [hwrite] at h
          cases h
          rfl
      | ok image =>
          rw [hwrite] at h
          cases h

end Host

namespace DiskM

variable {α : Type} {calls : Set DeviceCall} {action : DiskM α} {a : α} {host host' : Host}

/-- What succeeds on a host does the same on a working device. -/
theorem Uses.exec_of_runIn (uses : action.Uses calls)
    (h : action.runIn Host.serve host = (.ok a, host')) :
  action.exec host.disk.image = (.ok a, host'.disk.image)
  := by
  induction uses generalizing host host' with
  | pure b =>
      cases h
      rfl
  | throw e => cases h
  | log level source message =>
      cases h
      exact Prod.ext rfl (congrArg Disk.image (host.disk_log _)).symm
  | read hread b =>
      obtain ⟨read, disk⟩ := Host.eq_of_readBlock h
      rw [disk]
      exact Prod.ext read rfl
  | write hwrite b data =>
      have written := Host.eq_of_writeBlock h
      have worked : (writeBlock b data).exec host.disk.image
        = Image.serve (.writeBlock b data) host.disk.image := rfl
      rw [worked, Image.serve, written]
  | flush hflush =>
      have uses : DiskM.flush.Uses {.flush} := .flush (Set.mem_singleton _)
      have disk : (DiskM.flush.runIn Host.serve host).2.disk = host.disk := uses.disk_runIn (by simp)
      rw [h] at disk
      exact Prod.ext rfl (congrArg Disk.image disk).symm
  | @bind _ _ action next _ _ ih ih' =>
      rw [runIn_bind] at h
      cases hfirst : action.runIn Host.serve host with
      | mk result middle =>
          rw [hfirst] at h
          cases result with
          | error e => cases h
          | ok b =>
              rw [exec_bind_of_ok (ih hfirst)]
              exact ih' b h

/-- What changes the disk on a working device fails on one that refuses to write. -/
theorem Uses.fails_of_refused (uses : action.Uses calls) (refuses : host.Refuses .write)
    (changes : (action.exec host.disk.image).2 ≠ host.disk.image) :
  ∃ e host', action.runIn Host.serve host = (.error e, host')
  := by
  have disk : (action.runIn Host.serve host).2.disk = host.disk := uses.disk_runIn fun _ => refuses
  rcases hrun : action.runIn Host.serve host with ⟨result, host'⟩
  cases result with
  | error e => exact ⟨e, host', rfl⟩
  | ok a =>
      rw [hrun] at disk
      rw [uses.exec_of_runIn hrun] at changes
      exact (changes (congrArg Disk.image disk)).elim

end DiskM

namespace SessionM

variable {α : Type} {calls : Set DeviceCall} {action : SessionM α} {a : α}
  {session session' : Session} {host host' : Host}

/-- What succeeds on a host does the same on a working device. -/
theorem Uses.exec_of_runIn (uses : action.Uses calls)
    (h : action.runIn Host.serve session host = (.ok a, session', host')) :
  action.exec session host.disk.image = (.ok a, session', host'.disk.image)
  := by
  induction uses generalizing session session' host host' with
  | pure b =>
      cases h
      rfl
  | throw e => cases h
  | get =>
      cases h
      rfl
  | modify f =>
      cases h
      rfl
  | log level source message =>
      cases h
      exact Prod.ext rfl (Prod.ext rfl (congrArg Disk.image (host.disk_log _)).symm)
  | lift hlift =>
      rw [runIn_lift, Prod.mk.injEq, Prod.mk.injEq] at h
      obtain ⟨result, rfl, rest⟩ := h
      exact exec_lift_of_eq (hlift.exec_of_runIn (Prod.ext result rest))
  | @bind _ _ action next _ _ ih ih' =>
      obtain ⟨b, middle, host'', hfirst, hnext⟩ := runIn_bind_eq_ok.mp h
      rw [exec_bind_of_ok (ih hfirst)]
      exact ih' b hnext

/-- What changes the disk on a working device fails on one that refuses to write. -/
theorem Uses.fails_of_refused (uses : action.Uses calls) (session : Session)
    (refuses : host.Refuses .write)
    (changes : (action.exec session host.disk.image).2.2 ≠ host.disk.image) :
  ∃ e session' host', action.runIn Host.serve session host = (.error e, session', host')
  := by
  have disk : (action.runIn Host.serve session host).2.2.disk = host.disk :=
    uses.disk_runIn session fun _ => refuses
  rcases hrun : action.runIn Host.serve session host with ⟨result, session', host'⟩
  cases result with
  | error e => exact ⟨e, session', host', rfl⟩
  | ok a =>
      rw [hrun] at disk
      rw [uses.exec_of_runIn hrun] at changes
      exact (changes (congrArg Disk.image disk)).elim

end SessionM

end FatVolume
