import FatVolume.Proofs.Listing
import FatVolume.Proofs.WriteBack

/-!
# Records that are written again

`Image.withRecords image writes` is the image with records put at places, one after the other.  What
stood at these places before does not matter to it, so a part of the writes may come twice.  Bringing
the records of open files up to date is such a sequence of writes: it does not move any entry.
-/

namespace FatVolume

/-! ### Records put at places -/

namespace Image

/-- The bytes of the slot at a place. -/
def bytesAt (image : Image) (place : Location) : Bytes :=
  (image.block place.block).slice (place.slot * recordSize) recordSize

/-- A byte of a block is one of the bytes of its slot. -/
theorem getElem_of_bytesAt {image other : Image} {b i : Nat} (hi : i < blockSize)
    (same : image.bytesAt ⟨b, i / recordSize⟩ = other.bytesAt ⟨b, i / recordSize⟩) :
  (image.block b)[i] = (other.block b)[i]
  := by
  have offset : i / recordSize * recordSize + i % recordSize = i := Nat.div_add_mod' i recordSize
  have bytes := congrArg (·[i % recordSize]?) same
  simp only [bytesAt, Block.slice, List.getElem?_take, List.getElem?_drop,
    Nat.mod_lt i (show 0 < recordSize by decide), if_true, offset] at bytes
  simpa [hi] using bytes

/-- A block is determined by the bytes of its slots. -/
theorem block_eq_of_bytesAt {image other : Image} {b : Nat}
    (same : ∀ slot < slotsPerBlock, image.bytesAt ⟨b, slot⟩ = other.bytesAt ⟨b, slot⟩) :
  image.block b = other.block b
  := by
  apply Vector.ext
  intro i hi
  exact getElem_of_bytesAt hi (same _ (Nat.div_lt_of_lt_mul hi))

/-- An image is determined by the bytes of its slots. -/
theorem ext_bytesAt {image other : Image}
    (same : ∀ place : Location, place.block < numBlocks → place.slot < slotsPerBlock →
      image.bytesAt place = other.bytesAt place) :
  image = other
  := ext_block fun _ hb => block_eq_of_bytesAt fun _ hslot => same ⟨_, _⟩ hb hslot

theorem bytesAt_withRecord (image : Image) {place : Location} (hblock : place.block < numBlocks)
    (hslot : place.slot < slotsPerBlock) (record : Record) (other : Location) :
  (image.withRecord place record).bytesAt other
    = if other = place then record.toBytes else image.bytesAt other
  := by
  obtain ⟨b, slot⟩ := place
  obtain ⟨c, slot'⟩ := other
  by_cases hc : c = b
  · subst hc
    simp only [withRecord, bytesAt, block_setIfInBounds_self image hblock,
      Directory.slice_splice _ hslot, Location.mk.injEq, true_and]
  · rw [bytesAt, block_withRecord_of_ne image record hc, if_neg]
    · rfl
    · intro same
      exact hc (Location.mk.inj same).1

/-- The image with records put at places, one after the other. -/
def withRecords (image : Image) (writes : List (Location × Record)) : Image :=
  writes.foldl (fun image w => image.withRecord w.1 w.2) image

theorem withRecords_cons (image : Image) (w : Location × Record) (writes : List (Location × Record)) :
  image.withRecords (w :: writes) = (image.withRecord w.1 w.2).withRecords writes
  := rfl

theorem withRecords_append (image : Image) (done writes : List (Location × Record)) :
  image.withRecords (done ++ writes) = (image.withRecords done).withRecords writes
  := List.foldl_append

variable {writes done : List (Location × Record)}
  (inside : ∀ w ∈ writes, w.1.block < numBlocks ∧ w.1.slot < slotsPerBlock)
include inside

theorem bytesAt_withRecords_of_notMem (image : Image) {place : Location}
    (hplace : place ∉ writes.map Prod.fst) :
  (image.withRecords writes).bytesAt place = image.bytesAt place
  := by
  induction writes generalizing image with
  | nil => rfl
  | cons w rest ih =>
      obtain ⟨hw, inside⟩ := List.forall_mem_cons.mp inside
      rw [List.map_cons, List.mem_cons, not_or] at hplace
      rw [withRecords_cons, ih inside _ hplace.2, bytesAt_withRecord image hw.1 hw.2,
        if_neg hplace.1]

/-- What stood at the places before does not matter: the last record put at each of them stays. -/
theorem withRecords_congr {image other : Image}
    (same : ∀ place, place ∉ writes.map Prod.fst → image.bytesAt place = other.bytesAt place) :
  image.withRecords writes = other.withRecords writes
  := by
  induction writes generalizing image other with
  | nil => exact ext_bytesAt fun place _ _ => same place (by simp)
  | cons w rest ih =>
      obtain ⟨hw, inside⟩ := List.forall_mem_cons.mp inside
      apply ih inside
      intro place hplace
      rw [bytesAt_withRecord image hw.1 hw.2, bytesAt_withRecord other hw.1 hw.2]
      split_ifs with here
      · rfl
      · exact same place (by simpa using ⟨here, by simpa using hplace⟩)

/-- Writes may be done before all of them are done. -/
theorem withRecords_of_subset (image : Image) (subset : done ⊆ writes) :
  (image.withRecords done).withRecords writes = image.withRecords writes
  := by
  apply withRecords_congr inside
  intro place hplace
  apply bytesAt_withRecords_of_notMem fun w hw => inside w (subset hw)
  exact fun hmem => hplace (List.map_subset _ subset hmem)

section Functional

variable (functional : ∀ w ∈ writes, ∀ w' ∈ writes, w.1 = w'.1 → w = w')
include functional

/-- If no place gets two records, every record is found at its place. -/
theorem bytesAt_withRecords_of_mem (image : Image) {w : Location × Record} (hw : w ∈ writes) :
  (image.withRecords writes).bytesAt w.1 = w.2.toBytes
  := by
  induction writes generalizing image with
  | nil => simp at hw
  | cons first rest ih =>
      obtain ⟨hfirst, hrest⟩ := List.forall_mem_cons.mp inside
      by_cases later : w ∈ rest
      · apply ih hrest _ _ later
        exact fun w hw w' hw' =>
          functional w (List.mem_cons_of_mem _ hw) w' (List.mem_cons_of_mem _ hw')
      · obtain rfl : w = first := (List.mem_cons.mp hw).resolve_right later
        have elsewhere : w.1 ∉ rest.map Prod.fst := by
          rintro hmem
          obtain ⟨w', hw', same⟩ := List.mem_map.mp hmem
          apply later
          rwa [functional w List.mem_cons_self w' (List.mem_cons_of_mem _ hw') same.symm]
        rw [withRecords_cons, bytesAt_withRecords_of_notMem hrest _ elsewhere,
          bytesAt_withRecord image hfirst.1 hfirst.2, if_pos rfl]

/-- If no place gets two records, the order in which they are put and how often does not matter. -/
theorem withRecords_eq_of_subset (image : Image) (subset : done ⊆ writes)
    (subset' : writes ⊆ done) :
  image.withRecords done = image.withRecords writes
  := by
  apply ext_bytesAt
  intro place _ _
  by_cases hplace : place ∈ writes.map Prod.fst
  · obtain ⟨w, hw, rfl⟩ := List.mem_map.mp hplace
    rw [bytesAt_withRecords_of_mem inside functional image hw,
      bytesAt_withRecords_of_mem (fun w hw => inside w (subset hw))
        (fun w hw w' hw' => functional w (subset hw) w' (subset hw')) image (subset' hw)]
  · rw [bytesAt_withRecords_of_notMem inside image hplace,
      bytesAt_withRecords_of_notMem (fun w hw => inside w (subset hw)) image
        fun hmem => hplace (List.map_subset _ subset hmem)]

end Functional

end Image

/-! ### Writing records back -/

namespace Session

variable {session session' : Session} {image after : Image} {file : OpenFile}

/-- The place of the entry of an open file. -/
def place (session : Session) (image : Image) (file : OpenFile) : Location :=
  match image.find? session.superblock.root (Path.segments file.path) with
  | some e => e.location
  | none => default

/-- The record of an open file with the place to which it is written back. -/
def pending (session : Session) (image : Image) (file : OpenFile) : Location × Record :=
  (session.place image file, file.record)

theorem place_of_find? {names : List String} (normal : Path.Normal names)
    (path : file.path = Path.render names) {e : Entry}
    (he : image.find? session.superblock.root names = some e) :
  session.place image file = e.location
  := by
  rw [place, path, normal.segments_render, he]

/-- Entries stay where they are when only lengths change. -/
theorem Quiet.pending_eq (h : session.Quiet image session' after) :
  session'.pending after = session.pending image
  := by
  funext file
  rw [pending, pending, place, place, h.superblock, h.relengthed.find?]
  cases image.find? session.superblock.root (Path.segments file.path) <;> rfl

/-- The record of a marked file is written back to the place of its entry.  Of the session in which
this is done only the superblock matters. -/
theorem Coherent.exec_writeBack_pending (h : session.Coherent image)
    (hfile : file ∈ session.dirtyFiles) :
  ((session.pending image file).1.block < numBlocks
      ∧ (session.pending image file).1.slot < slotsPerBlock)
    ∧ (∀ session' : Session, session'.superblock = session.superblock →
      (writeBack file).exec session' image
        = (.ok (), session', image.withRecords [session.pending image file]))
    ∧ session.Quiet image session (image.withRecords [session.pending image file])
  := by
  obtain ⟨dirty, handle, held⟩ := mem_dirtyFiles.mp hfile
  obtain ⟨names, name, e, normal, path, he, -⟩ := h.exists_path_of_dirty held dirty
  obtain ⟨d, -, hblock, hslot⟩ := Image.place_of_find? he
  have hexec := exec_writeBack_of_find? h.sound rfl normal path he
  obtain ⟨after, hexec', quiet, -⟩ := h.exec_writeBack held dirty
  rw [hexec' session rfl, Prod.mk.injEq, Prod.mk.injEq] at hexec
  obtain ⟨-, -, rfl⟩ := hexec
  have pending : session.pending image file = (e.location, file.record) := by
    rw [Session.pending, place_of_find? normal path he]
  rw [pending]
  exact ⟨⟨Image.lt_of_mem_blocksOf hblock, hslot⟩, hexec', quiet⟩

/-- Records of marked files are written back one after the other. -/
theorem Coherent.exec_forM_writeBack_pending {files : List OpenFile} (h : session.Coherent image)
    (hfiles : files ⊆ session.dirtyFiles) :
  (∀ session' : Session, session'.superblock = session.superblock →
      (files.forM writeBack).exec session' image
        = (.ok (), session', image.withRecords (files.map (session.pending image))))
    ∧ session.Quiet image session (image.withRecords (files.map (session.pending image)))
  := by
  induction files generalizing image with
  | nil => exact ⟨fun _ _ => rfl, h.refl⟩
  | cons file rest ih =>
      obtain ⟨hfile, hrest⟩ := List.cons_subset.mp hfiles
      obtain ⟨-, hexec, quiet⟩ := h.exec_writeBack_pending hfile
      obtain ⟨hexec', quiet'⟩ := ih quiet.coherent hrest
      rw [quiet.pending_eq] at hexec' quiet'
      refine ⟨?_, quiet.trans quiet'⟩
      intro session' superblock
      rw [List.forM_eq_forM, List.forM_cons, SessionM.exec_bind_of_ok (hexec session' superblock)]
      exact hexec' session' superblock

/-- Shutting down writes the records of all marked files back and leaves only the root open. -/
theorem Coherent.exec_shutdown_pending (h : session.Coherent image) {root : OpenFile}
    (hroot : session.openFiles.get? OpenTable.rootHandle = some root) :
  shutdown.exec session image
    = (.ok (), { session with openFiles := .ofRoot root, borrowed := none },
        image.withRecords (session.dirtyFiles.map (session.pending image)))
  := exec_shutdown_of_forM hroot
    ((h.exec_forM_writeBack_pending (List.Subset.refl _)).1 session rfl)

/-- Shutting down does not depend on whether some of the records were written back before. -/
theorem Coherent.exec_shutdown_again {done : List OpenFile} (h : session.Coherent image)
    (hdone : done ⊆ session.dirtyFiles) :
  shutdown.exec session (image.withRecords (done.map (session.pending image)))
    = shutdown.exec session image
  := by
  obtain ⟨root, hroot, -⟩ := h.root_open
  have quiet := (h.exec_forM_writeBack_pending hdone).2
  rw [h.exec_shutdown_pending hroot, quiet.coherent.exec_shutdown_pending hroot,
    quiet.pending_eq, Image.withRecords_of_subset]
  · intro w hw
    obtain ⟨file, hfile, rfl⟩ := List.mem_map.mp hw
    exact (h.exec_writeBack_pending hfile).1
  · exact List.map_subset _ hdone

end Session

end FatVolume
