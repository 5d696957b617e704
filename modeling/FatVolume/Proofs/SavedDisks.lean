import FatVolume.Proofs.Contents
import FatVolume.Proofs.ServingHosts
import FatVolume.Proofs.SessionCalls
import FatVolume.Proofs.WriteBack
import FatVolume.Session.Start

/-!
# Saved disks

The bytes of an image determine it, and shutting down saves them in the host file of the disk.
What is loaded from this file later is the disk as it was.
-/

namespace FatVolume

/-! ### The bytes of an image -/

namespace Image

theorem toList_toBytes (image : Image) :
  image.toBytes.toList = image.toList.flatMap Vector.toList
  := by
  rw [toBytes, Array.toList_flatMap]
  rfl

/-- The bytes of a block stand where the block does. -/
theorem extract_toBytes (image : Image) {b : Nat} (hb : b < numBlocks) :
  (image.toBytes.extract (b * blockSize) (b * blockSize + blockSize)).toList = image[b].toList
  := by
  have uniform (data : Block) : data.toList.length = blockSize := Vector.length_toList
  have single : ((image.toList.drop b).take 1) = [image[b]] := by
    rw [List.drop_eq_getElem_cons (by simpa using hb)]
    rfl
  have first := flatMap_take_of_uniform uniform (image.toList.drop b) 1
  rw [single, List.flatMap_singleton, Nat.one_mul] at first
  rw [Array.toList_extract, List.extract_eq_take_drop, toList_toBytes,
    ← flatMap_drop_of_uniform uniform, Nat.add_sub_cancel_left, first]

/-- An image is read back from its bytes. -/
theorem ofBytes_toBytes (image : Image) :
  ofBytes image.toBytes = image
  := by
  apply Vector.ext
  intro b hb
  rw [ofBytes, Vector.getElem_ofFn]
  dsimp only
  rw [extract_toBytes image hb]
  apply Vector.toList_inj.mp
  rw [Block.ofBytes, Bytes.toList_padded_of_length (Vector.length_toList)]

end Image

/-! ### Loading -/

namespace DiskM

variable {σ : Type} {serve : Surroundings σ} {s : σ}

/-- A single request is served once. -/
theorem runIn_request (request : Request) :
  (liftM (Program.request request) : DiskM request.Answer).runIn serve s
    = (.ok (serve request s).1, (serve request s).2)
  := rfl

/-- A host file that can be read is loaded into the device. -/
theorem runIn_load {host : Host} {path : String} {bytes : Array UInt8}
    (h : host.files.read path = .ok bytes) :
  ∃ loaded, (Disk.load path).runIn Host.serve host = (.ok false, loaded)
    ∧ loaded.disk = ⟨Image.ofBytes bytes, some path⟩ ∧ loaded.faults = host.faults
  := by
  have answer : Host.serve (.readFile path) host = (.ok bytes, host) := by
    rw [Host.serve, h]
  have finish (middle : Host) (hfaults : middle.faults = host.faults) :
      ∃ loaded, (do
          Program.log .info .device s!"loaded disk image from {path}"
          (Program.request (.insert ⟨Image.ofBytes bytes, some path⟩) : Program Unit)
          return false : DiskM Bool).runIn Host.serve middle = (.ok false, loaded)
        ∧ loaded.disk = ⟨Image.ofBytes bytes, some path⟩ ∧ loaded.faults = host.faults := by
    generalize (⟨Image.ofBytes bytes, some path⟩ : Disk) = disk
    rw [runIn_bind_of_ok (runIn_log _ _ _ middle), runIn_bind_of_ok (runIn_request _)]
    exact ⟨_, rfl, rfl, (middle.faults_log _).trans hfaults⟩
  rw [Disk.load, runIn_bind_of_ok (runIn_request _), answer]
  dsimp only
  split_ifs
  · rw [runIn_bind_of_ok (runIn_log _ _ _ host)]
    exact finish _ (host.faults_log _)
  · exact finish host rfl

end DiskM

/-! ### Saving -/

namespace Session

open SessionM

variable {session : Session} {host : Host}

/-- Shutting down on a host whose device works does what it does on a working device, and saves the
disk in its host file. -/
theorem Coherent.runIn_shutdown (h : session.Coherent host.disk.image)
    (serves : host.Serves Set.univ) :
  ∃ session' host', shutdown.runIn Host.serve session host = (.ok (), session', host')
    ∧ shutdown.exec session host.disk.image = (.ok (), session', host'.disk.image)
    ∧ host'.disk.backing = host.disk.backing
    ∧ ∀ path, host.disk.backing = some path →
        host'.files.read path = .ok host'.disk.image.toBytes
  := by
  obtain ⟨root, hroot, -⟩ := h.root_open
  obtain ⟨after, hexec, -⟩ := h.exec_forM_dirtyFiles
  have hget : session.openFiles.get OpenTable.rootHandle = .ok root :=
    OpenTable.get_eq_ok.mpr hroot
  have any (call : DeviceCall) : call ∈ (Set.univ : Set DeviceCall) := trivial
  have uses : (session.dirtyFiles.forM writeBack).Uses Set.univ :=
    uses_forM (fun _ => uses_writeBack (any _) (any _) _) _
  obtain ⟨middle, hback, hdisk, serves'⟩ := uses.runIn_host session serves
  rw [hexec] at hback hdisk
  obtain ⟨flushed, hflush, kept, saved⟩ :=
    DiskM.runIn_flush_of_works (serves'.works _ (any _) _) (serves'.saves (any _))
  have hroot : (openFile OpenTable.rootHandle).runIn Host.serve session middle
      = (.ok root, session, middle) := by
    rw [openFile, runIn_bind_of_ok runIn_get, runIn_ofExcept, hget]
  unfold dirtyFiles at hback
  have hrun : shutdown.runIn Host.serve session host
      = (.ok (), { session with openFiles := .ofRoot root, borrowed := none },
          flushed.log ⟨.info, .session, "file system shut down"⟩) := by
    rw [shutdown, runIn_bind_of_ok runIn_get, runIn_bind_of_ok hback, runIn_bind_of_ok hroot,
      runIn_bind_of_ok (runIn_set _), runIn_bind_of_ok (runIn_lift_of_eq hflush)]
    rfl
  obtain ⟨served, hserved, disk, -⟩ :=
    (uses_shutdown (any .read) (any .write) (any .flush)).runIn_host session serves
  rw [hrun] at hserved
  obtain ⟨hresult, hsession, rfl⟩ : _ ∧ _ ∧ _ = served := by simpa using hserved
  have backing : middle.disk.backing = host.disk.backing := by rw [hdisk]
  refine ⟨_, _, hrun, ?_, by rw [disk], ?_⟩
  · rw [disk]
    exact Prod.ext hresult.symm (Prod.ext hsession.symm rfl)
  · intro path hpath
    rw [flushed.disk_log, flushed.files_log, kept]
    exact (saved path (backing.trans hpath)).1

end Session

end FatVolume
