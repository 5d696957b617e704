import FatVolume.Proofs.Replacement

/-!
# Rewriting the record of a file

When a file is closed its record on disk gets the length that the file has by then.  Name, kind
and chain stay, so this replaces what one path leads to by the same file with another length.
-/

namespace FatVolume

/-- The record with another length. -/
def Record.withLength (r : Record) (length : UInt32) : Record :=
  { r with length }

/-- The entry with another length. -/
def Entry.withLength (e : Entry) (length : UInt32) : Entry :=
  { e with record := e.record.withLength length }

namespace Record

variable (r : Record) (length : UInt32)

@[simp]
theorem first_withLength :
  (r.withLength length).first = r.first
  := rfl

@[simp]
theorem length_withLength :
  (r.withLength length).length = length
  := rfl

@[simp]
theorem isDirectory_withLength :
  (r.withLength length).isDirectory = r.isDirectory
  := rfl

@[simp]
theorem fullName_withLength :
  (r.withLength length).fullName = r.fullName
  := rfl

@[simp]
theorem isDot_withLength :
  (r.withLength length).isDot = r.isDot
  := rfl

@[simp]
theorem withLength_withLength (other : UInt32) :
  (r.withLength length).withLength other = r.withLength other
  := rfl

@[simp]
theorem withLength_self :
  r.withLength r.length = r
  := rfl

end Record

namespace Image

/-- Two images with the same chains and records, but for the lengths of files. -/
structure Relengthed (image after : Image) : Prop where
  table : after.table = image.table
  record : ∀ place, ∃ length,
    (after.entryAt place).record = (image.entryAt place).record.withLength length
  directory : ∀ place, (image.entryAt place).record.isDirectory = true →
    after.entryAt place = image.entryAt place

theorem Relengthed.refl (image : Image) :
  image.Relengthed image
  := ⟨rfl, fun place => ⟨(image.entryAt place).record.length, rfl⟩, fun _ _ => rfl⟩

theorem Relengthed.trans {image after after' : Image} (h : image.Relengthed after)
    (h' : after.Relengthed after') :
  image.Relengthed after'
  := by
  constructor
  · rw [h'.table, h.table]
  · intro place
    obtain ⟨middle, hmiddle⟩ := h.record place
    obtain ⟨length, hlength⟩ := h'.record place
    exact ⟨length, by rw [hlength, hmiddle, Record.withLength_withLength]⟩
  · intro place hdir
    have same := h.directory place hdir
    rw [h'.directory place (by rw [same, hdir]), same]

/-- Rewriting the length of a file changes nothing but this length. -/
theorem relengthed_withLength (image : Image) {place : Location} (low : rootStart ≤ place.block)
    (inside : place.block < numBlocks) (hslot : place.slot < slotsPerBlock)
    (isFile : (image.entryAt place).record.isDirectory = false) (length : UInt32) :
  image.Relengthed
    (image.withRecord place ((image.entryAt place).record.withLength length))
  := by
  have held (other : Location) := image.entryAt_withRecord inside hslot
    ((image.entryAt place).record.withLength length) other
  constructor
  · exact (image.table_withRecord low _).1
  · intro other
    rw [held]
    split_ifs with same
    · exact ⟨length, by rw [same]⟩
    · exact ⟨(image.entryAt other).record.length, rfl⟩
  · intro other hdir
    rw [held, if_neg]
    rintro rfl
    simp [isFile] at hdir

variable {image : Image} {root : UInt16} {lengths : List String → Option Nat}
  {names : List String} {name : String} {d e : Entry}

/-- Rewriting the length of a file changes nothing but what its path leads to. -/
theorem replaced_withLength (sound : image.Sound root lengths)
    (hd : image.find? root names = some d) (he : image.find? root (names ++ [name]) = some e)
    (hfile : e.record.isDirectory = false) (length : UInt32) :
  image.Replaced (image.withRecord e.location (e.record.withLength length)) root names name d
    e.location (some (e.withLength length))
  := by
  obtain ⟨d', hd', -, hchild⟩ := find?_concat_eq_some.mp he
  obtain rfl := Option.some.inj (hd.symm.trans hd')
  obtain ⟨hplace, -, occupied⟩ := mem_listed_iff.mp (mem_listed_of_child? hchild)
  obtain ⟨hblock, hslot⟩ := Directory.mem_places.mp (List.mem_of_mem_drop hplace)
  have inside := lt_of_mem_blocksOf hblock
  obtain ⟨table, mirror⟩ := image.table_withRecord (sound.above hd _ hblock)
    (e.record.withLength length)
  have hchain := sound.isChain he
  rw [← table] at hchain
  have new_eq : (image.withRecord e.location (e.record.withLength length)).blocksOf
      (e.withLength length).record.first.toNat = image.blocksOf e.record.first.toNat :=
    blocksOf_eq hchain
  apply Replaced.of_file sound hd he hfile
  case kind => exact Record.isDirectory_withLength _ _
  case fullName => exact Record.fullName_withLength _ _
  case isDot => exact Record.isDot_withLength _ _
  case holds =>
    refine ⟨?_, occupied⟩
    rw [entryAt_withRecord _ inside hslot, if_pos rfl]
    rfl
  case chained =>
    rw [new_eq]
    exact hchain
  case mirrored => rw [table, mirror, sound.mirrored]
  case superblock =>
    apply block_withRecord_of_ne _ _ (superblockAt_ne (sound.above hd _ hblock))
  case untouched =>
    intro b _ _
    rw [table]
  case fresh =>
    rw [new_eq]
    exact fun b hb hb' => (hb' hb).elim
  case released =>
    rw [new_eq]
    exact fun b hb hb' => (hb' hb).elim
  case content =>
    intro b _ _ _ hne
    rw [block_withRecord_of_ne _ _ hne]
  case slots =>
    intro other _ hne
    rw [entryAt_withRecord _ inside hslot, if_neg hne]

end Image

end FatVolume
