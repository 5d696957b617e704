import FatVolume.Proofs.FreshVolumes
import FatVolume.Proofs.RefusedReads

/-!
# Creations that fail

`Directory.create` finds the slot and the block of the new entry before it writes, and on a working
device nothing fails after that, whatever the image holds.  A device that refuses to read does not
let it come to writing, and one that refuses to write does not let it write.  So on these devices a
creation that fails leaves any disk as it is.
-/

namespace FatVolume

namespace Directory

open DiskM

theorem mustRead_slots (first : Nat) :
  (slots first).MustRead
  := (Allocation.mustRead_chain first).bind

theorem mustRead_create (now : Timestamp) (parent : Record) (name : String) (kind : Kind) :
  (create now parent name kind).MustRead
  := by
  apply MustRead.unless
  apply (uses_ofExcept _).bind_mustRead
  exact fun _ => (mustRead_slots _).bind

/-- On a working device a creation that fails leaves the image as it is. -/
theorem exec_create_eq_error {image after : Image} {now : Timestamp} {parent : Record}
    {name : String} {kind : Kind} {e : Error}
    (h : (create now parent name kind).exec image = (.error e, after)) :
  after = image
  := by
  rw [exec_create_eq] at h
  cases hentry : newEntry image now parent name kind with
  | ok entry =>
      rw [hentry] at h
      cases h
  | error e' =>
      rw [hentry] at h
      cases h
      rfl

/-- A creation that fails leaves the disk as it is, whatever the disk holds, on a device that works
and on one that refuses every read or every write. -/
theorem disk_create_of_failed {host host' : Host}
    (device : host.Serves {.read, .write} ∨ host.Refuses .read ∨ host.Refuses .write)
    {now : Timestamp} {parent : Record} {name : String} {kind : Kind} {e : Error}
    (h : (create now parent name kind).runIn Host.serve host = (.error e, host')) :
  host'.disk = host.disk
  := by
  have uses : (create now parent name kind).Uses {.read, .write} :=
    uses_create (by simp) (by simp) now parent name kind
  rcases device with serves | refuses | refuses
  · obtain ⟨after, hrun, hdisk, -⟩ := uses.runIn_host serves
    rw [hrun, Prod.mk.injEq] at h
    obtain ⟨failed, rfl⟩ := h
    have kept : ((create now parent name kind).exec host.disk.image).2 = host.disk.image :=
      exec_create_eq_error (Prod.ext failed rfl)
    rw [hdisk, kept]
  · obtain ⟨e', after, hrun, hdisk⟩ := mustRead_create now parent name kind host refuses
    rw [hrun] at h
    cases h
    exact hdisk
  · have hdisk := uses.disk_runIn fun _ => refuses
    rwa [h] at hdisk

/-- In the root directory of a disk that was formatted a file can be created.  A device that refuses
to write lets this fail, after the slot and the block were found. -/
theorem disk_create_of_failed_formatted :
  ∃ (start : State) (directory created : Entry) (after : Image) (host host' : Host) (e : Error),
    (Session.format default).exec .zero = (.ok start.session, start.image)
    ∧ start.image.find? start.session.superblock.root [] = some directory
    ∧ (create default directory.record "a" .file).exec start.image = (.ok created, after)
    ∧ host.disk.image = start.image ∧ host.faults = .always .write
    ∧ (create default directory.record "a" .file).runIn Host.serve host = (.error e, host')
    ∧ host'.disk = host.disk
  := by
  have hsplit : Name.split "a" .file = .ok (['a'], []) := by decide
  obtain ⟨start, hformat, -⟩ := exists_formatted default .zero
  obtain ⟨flat, -⟩ := flat_of_format hformat
  have sound : start.image.Sound _ _ := Session.Coherent.sound flat.coherent
  obtain ⟨directory, created, hd, hdir, hcreation⟩ :=
    flat.exists_creation (by decide) (by decide) rfl hsplit (by decide) default
  obtain ⟨parent, dots⟩ := sound.exists_hasDots hd hdir
  have hexec := exec_create hdir dots default "a" .file
  rw [hcreation] at hexec
  let host : Host := { disk := { image := start.image }, faults := .always .write }
  have changes : ((create default directory.record "a" .file).exec host.disk.image).2
      ≠ host.disk.image := by
    rw [hexec]
    exact created_ne sound hd hcreation
  have refuses : host.Refuses .write := fun _ => rfl
  obtain ⟨e, host', failed⟩ := (uses_create (Set.mem_univ _) (Set.mem_univ _) default
    directory.record "a" .file).fails_of_refused refuses changes
  exact ⟨start, directory, created, _, host, host', e, hformat, hd, hexec, rfl, rfl, failed,
    disk_create_of_failed (.inr (.inr refuses)) failed⟩

end Directory

/-! ### A disk of zeros -/

/-- On a disk of zeros every block is free, in each copy of the table. -/
theorem Image.tableAt_zero (start : Nat) :
  Image.tableAt .zero start = List.replicate numBlocks .free
  := by
  have content : Block.zero.toList ++ Block.zero.toList = List.replicate (2 * numBlocks) 0 := by
    rw [Block.zero, Vector.toList_replicate, List.replicate_append_replicate]
    rfl
  rw [Image.tableAt, block_zero, block_zero, content, Table.ofBytes_replicate_zero]

theorem Image.table_zero :
  Image.table .zero = List.replicate numBlocks .free
  := Image.tableAt_zero tableStart

end FatVolume
