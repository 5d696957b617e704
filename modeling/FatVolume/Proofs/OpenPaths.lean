import FatVolume.Proofs.CheckedHistories
import FatVolume.Proofs.SessionCalls

/-!
# Open files keep track of the disk

Each open file has a working copy of a record and a path.  Throughout a session the path leads to
the entry of which the record is a copy, and the chain fits the working length, so that the table
of open files never loses track of what is on disk.
-/

namespace FatVolume

/-- The table of open files keeps track of the disk. -/
structure State.KeepsTrack (state : State) : Prop where
  /-- The first slot holds the root directory. -/
  root : ∃ file, state.session.openFiles.get? OpenTable.rootHandle = some file
    ∧ file.path = Path.root ∧ file.record.isDirectory = true
    ∧ file.record.first = state.session.superblock.root
  current : ∃ file, state.session.openFiles.get? state.session.openFiles.current = some file
    ∧ file.record.isDirectory = true
  normal : ∀ handle file, state.session.openFiles.get? handle = some file →
    ∃ names, Path.Normal names ∧ file.path = Path.render names
  distinct : state.session.openFiles.Distinct
  /-- Each open path leads to an entry.  The working copy is the record of this entry, but for the
  length of a file that is out of date on disk. -/
  resolves : ∀ handle file, state.session.openFiles.get? handle = some file →
    ∃ e, (Path.lookup state.session.superblock.root.toNat file.path).exec state.image
        = (.ok e, state.image)
      ∧ file.record = e.record.withLength file.record.length
      ∧ (file.dirty = false → file.record = e.record)
  dirty : ∀ handle file, state.session.openFiles.get? handle = some file → file.dirty = true →
    file.record.isDirectory = false
  cursor : ∀ handle file, state.session.openFiles.get? handle = some file →
    file.cursor ≤ file.record.length.toNat
  /-- The chain of an open file has the blocks that its working length needs. -/
  chains : ∀ handle file, state.session.openFiles.get? handle = some file →
    file.record.isDirectory = false →
    ∃ blocks, (Allocation.chain file.record.first.toNat).exec state.image
        = (.ok blocks, state.image)
      ∧ blocks.length = blocksFor file.record.length.toNat

namespace Session

variable {session : Session} {image : Image} (h : session.Coherent image)
include h

/-- An open path leads to the entry that its file tracks. -/
theorem Coherent.exists_entry {handle : Handle} {file : OpenFile}
    (hfile : session.openFiles.get? handle = some file) :
  ∃ e, (Path.lookup session.superblock.root.toNat file.path).exec image = (.ok e, image)
    ∧ file.Tracks e
  := by
  obtain ⟨names, e, hnames, hpath, he, tracks⟩ := h.tracks hfile
  have hlookup := Path.exec_lookup h.sound hnames
  rw [he, ← hpath] at hlookup
  exact ⟨e, hlookup, tracks⟩

/-- The file in the first slot is the root directory. -/
theorem Coherent.exists_root :
  ∃ file, session.openFiles.get? OpenTable.rootHandle = some file ∧ file.path = Path.root
    ∧ file.record.isDirectory = true ∧ file.record.first = session.superblock.root
  := by
  obtain ⟨file, hfile, hroot, hdir⟩ := h.root_open
  obtain ⟨e, he, tracks⟩ := h.exists_tracked hfile Path.Normal.nil hroot
  refine ⟨file, hfile, hroot, hdir, ?_⟩
  rw [tracks.first_eq, (h.sound.standsFor_root he).2.2.2]

end Session

theorem State.Coherent.keepsTrack {state : State} (h : state.Coherent) :
  state.KeepsTrack
  := by
  have coherent : state.session.Coherent state.image := h
  constructor
  case root => exact coherent.exists_root
  case current => exact coherent.current_open
  case normal => exact coherent.exists_path_of_get?
  case distinct => exact coherent.distinct
  case resolves =>
    intro handle file hfile
    obtain ⟨e, hlookup, tracks⟩ := coherent.exists_entry hfile
    exact ⟨e, hlookup, tracks.record, tracks.clean⟩
  case dirty =>
    intro handle file hfile dirty
    obtain ⟨e, -, tracks⟩ := coherent.exists_entry hfile
    rw [tracks.isDirectory_eq, tracks.isFile dirty]
  case cursor =>
    intro handle file hfile
    exact coherent.cursor_le hfile
  case chains =>
    intro handle file hfile isFile
    obtain ⟨hchain, span⟩ := coherent.chain_of_open hfile isFile
    exact ⟨_, Allocation.exec_chain_of_isChain hchain, span⟩

/-! ### Mounting -/

namespace Session

/-- Only a volume with a valid superblock can be mounted, and mounting leaves the disk as it is. -/
theorem exec_mount_eq_ok {clock : Timestamp} {image after : Image} {session : Session}
    (h : (mount clock).exec image = (.ok session, after)) :
  (Superblock.ofBlock (image.block superblockAt)).isValid = true
    ∧ session.superblock = Superblock.ofBlock (image.block superblockAt) ∧ after = image
  := by
  have inside : superblockAt < numBlocks := by decide
  obtain ⟨superblock, read, hread, h⟩ := DiskM.exec_bind_eq_ok.mp h
  rw [Volume.readSuperblock, DiskM.exec_bind_of_ok (DiskM.exec_readBlock image inside)] at hread
  dsimp only at hread
  split_ifs at hread with valid
  · rw [DiskM.exec_pure] at hread
    obtain ⟨⟨rfl⟩, rfl⟩ := Prod.mk.inj hread
    obtain ⟨root, opened, hroot, h⟩ := DiskM.exec_bind_eq_ok.mp h
    obtain rfl : image = opened := by
      rw [← (uses_openRoot (Set.mem_singleton _) _).readOnly image, hroot]
    rw [DiskM.exec_bind_of_ok (DiskM.exec_log _ _ _ _), DiskM.exec_pure] at h
    obtain ⟨⟨rfl⟩, rfl⟩ := Prod.mk.inj h
    exact ⟨valid, rfl, rfl⟩
  · simp at hread

/-- A session on a volume that checks begins coherently. -/
theorem coherent_of_mount {clock : Timestamp} {image after checked : Image} {session : Session}
    {usage : Usage} (hmount : (mount clock).exec image = (.ok session, after))
    (hcheck : check.exec session after = (.ok usage, session, checked)) :
  session.Coherent after
  := by
  obtain ⟨valid, hsuper, rfl⟩ := exec_mount_eq_ok hmount
  rw [check, SessionM.exec_bind_of_ok SessionM.exec_get, SessionM.exec_lift] at hcheck
  obtain ⟨hrun, -⟩ := Prod.mk.inj hcheck
  have consistent := Check.consistent_of_run (Prod.ext hrun rfl)
  rw [hsuper, Superblock.root_of_isValid valid] at consistent
  obtain ⟨mounted, hmount', coherent, -⟩ := exec_mount clock valid consistent.sound
  rw [hmount] at hmount'
  obtain ⟨⟨rfl⟩, -⟩ := Prod.mk.inj hmount'
  exact coherent

end Session

/-! ### Histories -/

/-- A session begins by formatting any disk, or by mounting a volume that checks.  After every
history the table of open files keeps track of the disk. -/
theorem keepsTrack_throughout (clock : Timestamp) (image : Image) :
  (∃ start : State, (Session.format clock).exec image = (.ok start.session, start.image)
      ∧ ∀ history, (start.run history).KeepsTrack)
    ∧ ∀ (start : State) (usage : Usage) (after : Image),
        (Session.mount clock).exec image = (.ok start.session, start.image) →
        Session.check.exec start.session start.image = (.ok usage, start.session, after) →
        ∀ history, (start.run history).KeepsTrack
  := by
  constructor
  · obtain ⟨start, hformat, throughout⟩ := exists_formatted clock image
    exact ⟨start, hformat, fun history => (throughout history).1.keepsTrack⟩
  · intro start usage after hmount hcheck history
    have coherent : start.Coherent := Session.coherent_of_mount hmount hcheck
    exact (coherent.run history).keepsTrack

/-- An empty disk that was formatted can be mounted and checks. -/
theorem keepsTrack_throughout_mounted :
  ∃ (image : Image) (start : State) (usage : Usage),
    (Volume.format default).exec .zero = (.ok (), image)
    ∧ (Session.mount default).exec image = (.ok start.session, start.image)
    ∧ Session.check.exec start.session start.image = (.ok usage, start.session, start.image)
    ∧ ∀ history, (start.run history).KeepsTrack
  := by
  obtain ⟨image, hformat, fresh⟩ := Volume.exec_format default .zero
  obtain ⟨session, hmount, coherent, -, openFiles⟩ :=
    Session.exec_mount default fresh.isValid_superblock fresh.sound
  obtain ⟨usage, hcheck⟩ := coherent.exec_check (Session.clean_of_ofRoot openFiles)
  refine ⟨image, ⟨session, image⟩, usage, hformat, hmount, hcheck, ?_⟩
  exact (keepsTrack_throughout default image).2 _ usage image hmount hcheck

end FatVolume
