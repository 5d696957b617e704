import FatVolume.Proofs.Formatting
import FatVolume.Proofs.QuietActions

/-!
# Beginning a session

A session that begins on a sound volume, or on any disk by formatting it, is coherent.
Reformatting begins again.
-/

namespace FatVolume

open DiskM

namespace Image.Fresh

variable {image : Image} (h : image.Fresh)
include h

theorem isValid_superblock :
  (Superblock.ofBlock (image.block superblockAt)).isValid = true
  := by
  rw [h.superblock]
  apply Superblock.isValid_ofBlock_toBlock_standard

theorem root_superblock :
  (Superblock.ofBlock (image.block superblockAt)).root = rootBlock
  := Superblock.root_of_isValid h.isValid_superblock

end Image.Fresh

/-- There is nothing but a root directory. -/
def Tree.Bare (tree : Tree) : Prop :=
  (∃ length, tree [] = some (.directory length)) ∧ ∀ names, names ≠ [] → tree names = none

theorem Volume.exec_readSuperblock {image : Image}
    (valid : (Superblock.ofBlock (image.block superblockAt)).isValid = true) :
  readSuperblock.exec image = (.ok (Superblock.ofBlock (image.block superblockAt)), image)
  := by
  rw [readSuperblock, exec_bind_of_ok (exec_readBlock image (by decide))]
  dsimp only
  rw [if_pos valid, exec_pure]

namespace Session

variable {image : Image} {session : Session}

/-! ### The root directory -/

/-- The open file of the root directory. -/
def rootFile (image : Image) (root : UInt16) : OpenFile where
  record := (image.entryAt ⟨root.toNat, 0⟩).record
  path := Path.root

/-- The session that begins on the volume of a disk. -/
def begun (image : Image) (clock : Timestamp) : Session where
  superblock := Superblock.ofBlock (image.block superblockAt)
  openFiles := .ofRoot (rootFile image (Superblock.ofBlock (image.block superblockAt)).root)
  clock

/-- The root directory is opened whatever stands in it. -/
theorem exec_openRoot {superblock : Superblock} (valid : superblock.isValid = true) :
  (openRoot superblock).exec image = (.ok (rootFile image superblock.root), image)
  := by
  have place : (⟨superblock.root.toNat, 0⟩ : Location).block < numBlocks :=
    Superblock.toNat_root_lt valid
  have slot : (⟨superblock.root.toNat, 0⟩ : Location).slot < slotsPerBlock :=
    Nat.pos_of_ne_zero (by decide)
  have found : (Path.lookup superblock.root.toNat Path.root).exec image
      = (.ok (image.entryAt ⟨superblock.root.toNat, 0⟩), image) :=
    exec_bind_of_ok (Directory.exec_readRecord place slot)
  apply exec_bind_of_ok found

/-- With nothing but the root open a session is coherent. -/
theorem coherent_of_sound (sound : image.Sound session.superblock.root fun _ => none)
    (openFiles : session.openFiles = .ofRoot (rootFile image session.superblock.root))
    (described : Superblock.ofBlock (image.block superblockAt) = session.superblock)
    (valid : session.superblock.isValid = true) :
  session.Coherent image
  := by
  have hroot := Image.find?_nil image session.superblock.root
  have directory : (rootFile image session.superblock.root).record.isDirectory = true :=
    (sound.standsFor_root hroot).2.1
  have tracking : session.Tracking image := by
    apply Tracking.of_ofRoot rfl directory hroot _ openFiles
    exact ⟨rfl, fun _ => rfl, by simp [rootFile], Nat.zero_le _⟩
  refine ⟨tracking, sound.of_lengths ?_, described, valid⟩
  intro names e he
  apply tracking.lengthOf_of_same
  rintro hnames record ⟨handle, file, hfile, hpath, rfl⟩
  rw [openFiles, OpenTable.get?_ofRoot_eq_some] at hfile
  obtain ⟨-, rfl⟩ := hfile
  obtain rfl := hnames.render_inj Path.Normal.nil hpath.symm
  obtain rfl := Option.some.inj (hroot.symm.trans he)
  rfl

/-- The root directory is up to date on disk when nothing else is open. -/
theorem clean_of_ofRoot {superblock : Superblock}
    (openFiles : session.openFiles = .ofRoot (rootFile image superblock.root)) (handle : Handle)
    (file : OpenFile) (hfile : session.openFiles.get? handle = some file) :
  file.dirty = false
  := by
  rw [openFiles, OpenTable.get?_ofRoot_eq_some] at hfile
  rw [hfile.2]
  rfl

theorem bare_of_fresh (fresh : image.Fresh) (root : session.superblock.root = rootBlock) :
  Tree.Bare (session.node? image)
  := by
  constructor
  · rw [node?, Image.find?_nil, Option.map_some, nodeOf, root, if_pos]
    · exact ⟨_, rfl⟩
    · apply fresh.self.2.1
  · intro names nonempty
    rw [node?, root]
    cases he : image.find? rootBlock names with
    | none => rfl
    | some e => exact (nonempty (fresh.find?_eq_some_iff.mp he).1).elim

/-! ### Beginning -/

/-- Mounting begins a session on any disk with a valid superblock. -/
theorem exec_mount_begun (clock : Timestamp)
    (valid : (Superblock.ofBlock (image.block superblockAt)).isValid = true) :
  (mount clock).exec image = (.ok (begun image clock), image)
  := by
  rw [mount, exec_bind_of_ok (Volume.exec_readSuperblock valid),
    exec_bind_of_ok (exec_openRoot valid), exec_bind_of_ok (exec_log _ _ _ _), exec_pure]
  rfl

/-- Mounting a sound volume begins a coherent session in which only the root is open. -/
theorem exec_mount (clock : Timestamp)
    (valid : (Superblock.ofBlock (image.block superblockAt)).isValid = true)
    (sound : image.Sound rootBlock fun _ => none) :
  ∃ session, (mount clock).exec image = (.ok session, image) ∧ session.Coherent image
    ∧ session.superblock.root = rootBlock
    ∧ session.openFiles = .ofRoot (rootFile image session.superblock.root)
  := by
  refine ⟨begun image clock, exec_mount_begun clock valid, ?_⟩
  have root := Superblock.root_of_isValid valid
  rw [← root] at sound
  exact ⟨coherent_of_sound sound rfl rfl valid, root, rfl⟩

/-- On a volume that was just formatted a coherent session begins, in which there is only the
root. -/
theorem coherent_begun (fresh : image.Fresh) (clock : Timestamp) :
  (begun image clock).Coherent image ∧ Tree.Bare ((begun image clock).node? image)
  := by
  have sound := fresh.sound
  rw [← fresh.root_superblock] at sound
  exact ⟨coherent_of_sound sound rfl rfl fresh.isValid_superblock,
    bare_of_fresh fresh fresh.root_superblock⟩

/-- Formatting a disk begins a session on what formatting makes of it. -/
theorem exec_format_of_exec {clock : Timestamp} {image after : Image} (fresh : after.Fresh)
    (hformat : (Volume.format clock).exec image = (.ok (), after)) :
  (format clock).exec image = (.ok (begun after clock), after)
  := by
  rw [format, exec_bind_of_ok hformat, exec_mount_begun clock fresh.isValid_superblock]

/-- Formatting prepares the disk and begins a session on it. -/
theorem exec_format_begun (clock : Timestamp) (image : Image) :
  ∃ prepared : Image, prepared.Prepared
    ∧ (format clock).exec image
      = (.ok (begun (prepared.withRoot clock) clock), prepared.withRoot clock)
  := by
  obtain ⟨prepared, hprepared, -, hformat⟩ := Volume.exec_format_prepared clock image
  exact ⟨prepared, hprepared, exec_format_of_exec (hprepared.fresh clock) hformat⟩

/-- Formatting begins a coherent session on any disk, in which there is only the root. -/
theorem exec_format (clock : Timestamp) (image : Image) :
  ∃ session after, (format clock).exec image = (.ok session, after) ∧ session.Coherent after
    ∧ Tree.Bare (session.node? after)
  := by
  obtain ⟨prepared, hprepared, hexec⟩ := exec_format_begun clock image
  exact ⟨_, _, hexec, coherent_begun (hprepared.fresh clock) clock⟩

/-- Erasing all blocks leaves an image of zeros. -/
theorem exec_erase (session : Session) (image : Image) :
  SessionM.exec ((List.range numBlocks).forM fun b =>
      (DiskM.writeBlock b .zero : SessionM Unit)) session image = (.ok (), session, .zero)
  := by
  have erase {blocks : List Nat} (inside : ∀ b ∈ blocks, b < numBlocks) (image : Image) :
      SessionM.exec (blocks.forM fun b => (DiskM.writeBlock b .zero : SessionM Unit)) session image
        = (.ok (), session, blocks.foldl (fun image b => image.setIfInBounds b .zero) image) := by
    induction blocks generalizing image with
    | nil => rfl
    | cons b rest ih =>
        obtain ⟨hb, inside⟩ := List.forall_mem_cons.mp inside
        rw [List.forM_eq_forM, List.forM_cons,
          SessionM.exec_bind_of_ok (SessionM.exec_lift_of_eq (exec_writeBlock image hb .zero))]
        exact ih inside _
  have inside : ∀ b ∈ List.range numBlocks, b < numBlocks := fun b => List.mem_range.mp
  have zeros : (List.range numBlocks).foldl (fun image b => image.setIfInBounds b .zero) image
      = .zero := by
    apply Image.ext_block
    intro b hb
    rw [Image.block_foldl_zero inside, if_pos (List.mem_range.mpr hb), Image.block_zero]
  rw [erase inside, zeros]

section Reformat

variable {after : Image} (fresh : after.Fresh)
include fresh

/-- After formatting a disk a session begins again on it. -/
theorem exec_beginAgain (hformat : (Volume.format session.clock).exec image = (.ok (), after))
    {finish : SessionM Unit}
    (hfinish : ∀ session image, finish.exec session image = (.ok (), session, image)) :
  (beginAgain finish).exec session image = (.ok (), begun after session.clock, after)
  := by
  have valid := fresh.isValid_superblock
  rw [beginAgain, SessionM.exec_bind_of_ok SessionM.exec_get,
    SessionM.exec_bind_of_ok (SessionM.exec_lift_of_eq hformat),
    SessionM.exec_bind_of_ok
      (SessionM.exec_lift_of_eq (Volume.exec_readSuperblock valid)),
    SessionM.exec_bind_of_ok (SessionM.exec_modify _),
    SessionM.exec_bind_of_ok (SessionM.exec_lift_of_eq (exec_openRoot valid)),
    SessionM.exec_bind_of_ok (SessionM.exec_modify _), hfinish]
  rfl

theorem exec_reformat_false
    (hformat : (Volume.format session.clock).exec image = (.ok (), after)) :
  (reformat false).exec session image = (.ok (), begun after session.clock, after)
  := by
  rw [reformat_false]
  exact exec_beginAgain fresh hformat fun _ _ => SessionM.exec_pure ()

/-- A full format does to any disk what formatting does to an empty one. -/
theorem exec_reformat_true
    (hformat : (Volume.format session.clock).exec .zero = (.ok (), after)) (image : Image) :
  (reformat true).exec session image = (.ok (), begun after session.clock, after)
  := by
  rw [reformat_true, SessionM.exec_bind_of_ok (exec_erase session image)]
  apply exec_beginAgain fresh hformat
  exact fun session image => SessionM.exec_lift_of_eq (exec_flush image)

end Reformat

/-- Reformatting prepares the disk and begins again on it, in every state. -/
theorem exec_reformat_begun (full : Bool) (session : Session) (image : Image) :
  ∃ prepared : Image, prepared.Prepared
    ∧ (reformat full).exec session image
      = (.ok (), begun (prepared.withRoot session.clock) session.clock,
          prepared.withRoot session.clock)
  := by
  cases full with
  | false =>
      obtain ⟨prepared, h, -, hformat⟩ := Volume.exec_format_prepared session.clock image
      exact ⟨prepared, h, exec_reformat_false (h.fresh _) hformat⟩
  | true =>
      obtain ⟨prepared, h, -, hformat⟩ := Volume.exec_format_prepared session.clock .zero
      exact ⟨prepared, h, exec_reformat_true (h.fresh _) hformat image⟩

/-- Reformatting succeeds in every state and begins again. -/
theorem exec_reformat (full : Bool) (session : Session) (image : Image) :
  ∃ session' after, (reformat full).exec session image = (.ok (), session', after)
    ∧ session'.Coherent after ∧ Tree.Bare (session'.node? after)
  := by
  obtain ⟨prepared, hprepared, hexec⟩ := exec_reformat_begun full session image
  exact ⟨_, _, hexec, coherent_begun (hprepared.fresh session.clock) session.clock⟩

end Session

end FatVolume
