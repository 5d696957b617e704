import FatVolume.Proofs.FailedOperations
import FatVolume.Proofs.RepeatedWrites

/-!
# Devices that fail

A device may fail at any call.  Writing a record back writes once and last, so if it fails it
changed nothing; writing several records back gets through some of them.
-/

namespace FatVolume

/-! ### Writing records back -/

namespace Directory

variable {place : Location} {record : Record} {host host' : Host}

/-- A record is written after everything is read. -/
theorem exists_writeRecord_eq (place : Location) (record : Record) :
  ∃ reading : DiskM Block, reading.Uses {.read}
    ∧ writeRecord place record = reading >>= fun content =>
      DiskM.writeBlock place.block (content.splice (place.slot * recordSize) record.toBytes)
  := by
  refine ⟨do checkLocation place; DiskM.readBlock place.block, ?_, ?_⟩
  · exact (DiskM.uses_ite (.pure _) (.throw _)).bind fun _ => .read (Set.mem_singleton _) _
  · rw [bind_assoc]
    rfl

/-- A record that is not written leaves the disk as it was. -/
theorem disk_of_writeRecord {e : Error}
    (h : (writeRecord place record).runIn Host.serve host = (.error e, host')) :
  host'.disk = host.disk
  := by
  obtain ⟨reading, uses, split⟩ := exists_writeRecord_eq place record
  have disk : (reading.runIn Host.serve host).2.disk = host.disk := uses.disk_runIn (by simp)
  rw [split, DiskM.runIn_bind] at h
  rcases hread : reading.runIn Host.serve host with ⟨result, middle⟩
  rw [hread] at h disk
  cases result with
  | error e =>
      cases h
      exact disk
  | ok content => exact (Host.disk_of_writeBlock h).trans disk

/-- No record is written on a device that refuses to write. -/
theorem writeRecord_of_refused (place : Location) (record : Record)
    (refuses : host.Refuses .write) :
  ∃ e host', (writeRecord place record).runIn Host.serve host = (.error e, host')
  := by
  obtain ⟨reading, -, split⟩ := exists_writeRecord_eq place record
  have faults := DiskM.faults_runIn reading host
  rw [split, DiskM.runIn_bind]
  rcases hread : reading.runIn Host.serve host with ⟨result, middle⟩
  rw [hread] at faults
  cases result with
  | error e => exact ⟨e, middle, rfl⟩
  | ok content =>
      have refused : middle.faults middle.calls .write = true := by
        rw [faults]
        exact refuses _
      exact ⟨_, _, middle.writeBlock_of_refused refused _ _⟩

end Directory

namespace Session

open SessionM

variable {session session' : Session} {host host' : Host} {file : OpenFile}

/-- Writing a record back changes nothing if it fails, at whatever call. -/
theorem isAtomic_writeBack (file : OpenFile) (session : Session) (host : Host) :
  (writeBack file).IsAtomic session host
  := by
  have uses := uses_entryAt (Set.mem_singleton DeviceCall.read) file.path
  have disk : ((entryAt file.path).runIn Host.serve session host).2.2.disk = host.disk :=
    uses.disk_runIn session (by simp)
  have still := (still_entryAt file.path session).runIn Host.serve host
  rcases hentry : (entryAt file.path).runIn Host.serve session host with ⟨result, session', middle⟩
  rw [hentry] at disk still
  obtain rfl : session' = session := still
  apply isAtomic_bind hentry disk
  intro entry _
  have written : (liftM (Directory.writeRecord entry.location file.record) : SessionM Unit).IsAtomic
      session' middle := by
    intro e session'' host' hrun
    rw [runIn_lift, Prod.mk.injEq, Prod.mk.injEq] at hrun
    obtain ⟨result, rfl, rest⟩ := hrun
    exact ⟨rfl, Directory.disk_of_writeRecord (Prod.ext result rest)⟩
  apply written.bind
  intro _ session'' _ _
  exact ⟨(), ⟨fun _ _ => rfl⟩⟩

/-- Writing records back gets through the first of them, on whatever device. -/
theorem Coherent.runIn_forM_writeBack {files : List OpenFile} (h : session.Coherent host.disk.image)
    (hfiles : files ⊆ session.dirtyFiles) :
  ∃ result host' done, (files.forM writeBack).runIn Host.serve session host
      = (result, session, host')
    ∧ done <+: files ∧ (result = .ok () → done = files)
    ∧ host'.disk.image
      = host.disk.image.withRecords (done.map (session.pending host.disk.image))
  := by
  have any (call : DeviceCall) := Set.mem_univ call
  induction files generalizing host with
  | nil => exact ⟨.ok (), host, [], rfl, List.prefix_rfl, fun _ => rfl, rfl⟩
  | cons file rest ih =>
      obtain ⟨hfile, hrest⟩ := List.cons_subset.mp hfiles
      obtain ⟨-, hexec, quiet⟩ := h.exec_writeBack_pending hfile
      have still := (still_writeBack file session).runIn Host.serve host
      rcases hback : (writeBack file).runIn Host.serve session host with ⟨result, session', middle⟩
      rw [hback] at still
      obtain rfl : session' = session := still
      rw [List.forM_eq_forM, List.forM_cons]
      cases result with
      | error e =>
          obtain ⟨-, disk⟩ := isAtomic_writeBack file session' host e _ _ hback
          refine ⟨.error e, middle, [], runIn_bind_of_error hback, List.nil_prefix,
            by simp, ?_⟩
          rw [disk]
          rfl
      | ok done =>
          have hexec' := (uses_writeBack (any .read) (any .write) file).exec_of_runIn hback
          rw [hexec session' rfl, Prod.mk.injEq, Prod.mk.injEq] at hexec'
          obtain ⟨-, -, image⟩ := hexec'
          obtain ⟨result, host', done, hrun, first, all, himage⟩ :=
            ih (by rw [← image]; exact quiet.coherent) hrest
          rw [← image, quiet.pending_eq] at himage
          refine ⟨result, host', file :: done, ?_, ?_, ?_, himage⟩
          · rw [runIn_bind_of_ok hback]
            exact hrun
          · exact List.prefix_cons_inj file |>.mpr first
          · intro succeeded
            rw [all succeeded]

end Session

end FatVolume
