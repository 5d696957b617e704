import FatVolume.Proofs.ServingHosts
import FatVolume.Proofs.SessionCalls
import FatVolume.Proofs.SessionEffects
import FatVolume.Proofs.TreeOperations

/-!
# Devices that refuse to read

What must read before it does anything else fails on a device that refuses to read, and then it
changes nothing.  Looking up an entry is of this kind, and hence is every operation that begins by
looking up.
-/

namespace FatVolume

/-! ### Actions of a disk -/

namespace DiskM

variable {α β : Type} {action other : DiskM α} {next : α → DiskM β}

/-- On a host that refuses to read the action fails and leaves the disk as it is. -/
def MustRead (action : DiskM α) : Prop :=
  ∀ host : Host, host.Refuses .read →
    ∃ e host', action.runIn Host.serve host = (.error e, host') ∧ host'.disk = host.disk

theorem mustRead_throw (e : Error) :
  (throw e : DiskM α).MustRead
  := fun host _ => ⟨e, host, rfl, rfl⟩

theorem mustRead_readBlock (b : Nat) :
  (readBlock b).MustRead
  := fun host refuses => ⟨_, _, host.readBlock_of_refused (refuses _) b _, rfl⟩

theorem MustRead.bind (h : action.MustRead) :
  (action >>= next).MustRead
  := by
  intro host refuses
  obtain ⟨e, host', hrun, hdisk⟩ := h host refuses
  exact ⟨e, host', runIn_bind_of_error hrun, hdisk⟩

/-- What must read after an action that does not write must read. -/
theorem Uses.bind_mustRead (uses : action.Uses {.read}) (h : ∀ a, (next a).MustRead) :
  (action >>= next).MustRead
  := by
  intro host refuses
  have hdisk : (action.runIn Host.serve host).2.disk = host.disk := uses.disk_runIn (by simp)
  have hfaults := faults_runIn action host
  cases hrun : action.runIn Host.serve host with
  | mk result middle =>
      rw [hrun] at hdisk hfaults
      cases result with
      | error e => exact ⟨e, middle, runIn_bind_of_error hrun, hdisk⟩
      | ok a =>
          obtain ⟨e, host', hnext, hdisk'⟩ := h a middle (by rwa [Host.Refuses, hfaults])
          exact ⟨e, host', (runIn_bind_of_ok hrun).trans hnext, hdisk'.trans hdisk⟩

theorem mustRead_ite {p : Prop} [Decidable p] (h : action.MustRead) (h' : other.MustRead) :
  (if p then action else other).MustRead
  := by
  split
  · exact h
  · exact h'

/-- What refuses to go on under a condition must read if the rest must. -/
theorem MustRead.unless {p : Prop} [Decidable p] {rest : DiskM α} {e : Error}
    (h : rest.MustRead) :
  (if p then (throw e : DiskM PUnit) >>= fun _ => rest else rest).MustRead
  := mustRead_ite (mustRead_throw e).bind h

end DiskM

section Actions

open DiskM

theorem Allocation.mustRead_chain (first : Nat) :
  (chain first).MustRead
  := by
  apply Uses.bind_mustRead (uses_ite (.pure _) (.throw _))
  exact fun _ => MustRead.bind (mustRead_readBlock _).bind

theorem Directory.mustRead_readRecord (place : Location) :
  (readRecord place).MustRead
  := by
  apply Uses.bind_mustRead (uses_ite (.pure _) (.throw _))
  exact fun _ => (mustRead_readBlock _).bind

theorem Path.mustRead_lookup (root : Nat) (path : String) :
  (lookup root path).MustRead
  := (Directory.mustRead_readRecord _).bind

theorem OpenFile.mustRead_write (file : OpenFile) (content : Bytes) (mode : WriteMode) :
  (file.write content mode).MustRead
  := by
  apply MustRead.unless
  apply (uses_readRange (Set.mem_singleton _) _ _ _ _).bind_mustRead
  exact fun _ => MustRead.bind (Allocation.mustRead_chain _).bind

end Actions

/-! ### Actions of a session -/

namespace SessionM

variable {α β : Type} {action other : SessionM α} {next : α → SessionM β}

/-- On a host that refuses to read the action fails and leaves the session and the disk as they
are. -/
def MustRead (action : SessionM α) : Prop :=
  ∀ (session : Session) (host : Host), host.Refuses .read →
    ∃ e host', action.runIn Host.serve session host = (.error e, session, host')
      ∧ host'.disk = host.disk

theorem mustRead_throw (e : Error) :
  (throw e : SessionM α).MustRead
  := fun _ host _ => ⟨e, host, rfl, rfl⟩

theorem mustRead_lift {action : DiskM α} (h : action.MustRead) :
  (liftM action : SessionM α).MustRead
  := by
  intro session host refuses
  obtain ⟨e, host', hrun, hdisk⟩ := h host refuses
  exact ⟨e, host', runIn_lift_of_eq hrun, hdisk⟩

theorem MustRead.bind (h : action.MustRead) :
  (action >>= next).MustRead
  := by
  intro session host refuses
  obtain ⟨e, host', hrun, hdisk⟩ := h session host refuses
  exact ⟨e, host', runIn_bind_of_error hrun, hdisk⟩

theorem mustRead_get_bind {next : Session → SessionM β} (h : ∀ session, (next session).MustRead) :
  (get >>= next).MustRead
  := fun session host refuses => h session session host refuses

theorem mustRead_ofExcept_bind {result : Except Error α} (h : ∀ a, (next a).MustRead) :
  (ofExcept result >>= next).MustRead
  := by
  cases result with
  | ok a => exact fun session host refuses => h a session host refuses
  | error e => exact fun _ host _ => ⟨e, host, rfl, rfl⟩

theorem mustRead_ite {p : Prop} [Decidable p] (h : action.MustRead) (h' : other.MustRead) :
  (if p then action else other).MustRead
  := by
  split
  · exact h
  · exact h'

theorem MustRead.unless {p : Prop} [Decidable p] {rest : SessionM α} {e : Error}
    (h : rest.MustRead) :
  (if p then (throw e : SessionM PUnit) >>= fun _ => rest else rest).MustRead
  := mustRead_ite (mustRead_throw e).bind h

end SessionM

namespace Session

open SessionM

theorem mustRead_entryAt (path : String) :
  (entryAt path).MustRead
  := mustRead_get_bind fun _ => mustRead_lift (Path.mustRead_lookup _ _)

theorem mustRead_createAt (path : String) (kind : Kind) :
  (createAt path kind).MustRead
  := by
  apply mustRead_get_bind
  intro session
  split
  · apply mustRead_throw
  · exact (mustRead_entryAt _).bind

theorem mustRead_removeDirectory (path : String) :
  (removeDirectory path).MustRead
  := mustRead_get_bind fun _ => (mustRead_entryAt _).bind.unless

theorem mustRead_removeFile (path : String) :
  (removeFile path).MustRead
  := mustRead_get_bind fun _ => (mustRead_entryAt _).bind.unless

theorem mustRead_removeAt (path : String) (kind : Kind) :
  (removeAt path kind).MustRead
  := by
  cases kind with
  | directory => exact mustRead_removeDirectory path
  | file => exact mustRead_removeFile path

theorem mustRead_changeDirectory (path : String) :
  (changeDirectory path).MustRead
  := mustRead_get_bind fun _ => (mustRead_entryAt _).bind

theorem mustRead_write (handle : Handle) (content : Bytes) (mode : WriteMode) :
  (write handle content mode).MustRead
  := by
  have transfer (file : OpenFile) := mustRead_lift (file.mustRead_write content mode)
  intro session
  refine mustRead_get_bind (fun session => mustRead_ofExcept_bind fun file => ?_) session
  exact (transfer file).bind

end Session

end FatVolume
