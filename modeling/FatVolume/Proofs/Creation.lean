import FatVolume.Proofs.Lookup
import FatVolume.Proofs.Replacement

/-!
# Creating entries

`Directory.create` puts a record into the first slot of the directory that is not occupied and
gives the new entry the first free block, which it empties.  A new directory holds nothing but
itself and its parent.
-/

namespace FatVolume

open DiskM

variable {image : Image} {root : UInt16} {lengths : List String → Option Nat}

/-- A slot of zeros is not occupied. -/
theorem Directory.occupied_recordIn_zero (slot : Nat) :
  (recordIn .zero slot).occupied = false
  := by
  have zeros : ∀ b ∈ Block.slice .zero (slot * recordSize) recordSize, b = 0 := by
    intro b hb
    have := List.mem_of_mem_drop (List.mem_of_mem_take hb)
    simpa [Block.zero] using this
  have at_twelve : (Block.slice .zero (slot * recordSize) recordSize).getD 12 0 = 0 := by
    rw [List.getD_eq_getElem?_getD]
    cases hget : (Block.slice .zero (slot * recordSize) recordSize)[12]? with
    | none => rfl
    | some b => exact zeros b (List.mem_of_getElem? hget)
  unfold recordIn Record.ofBytes
  dsimp only
  rw [at_twelve]
  rfl

namespace Image

/-- The image in which a block was emptied and holds the first two entries of a directory. -/
def withDots (image : Image) (first : Nat) (self up : Record) : Image :=
  (Image.withRecord image ⟨first, 0⟩ self).withRecord ⟨first, 1⟩ up

variable (image) {first : Nat} (inside : first < numBlocks) (self up : Record)

theorem block_withDots_of_ne {b : Nat} (hb : b ≠ first) :
  (image.withDots first self up).block b = image.block b
  := by
  rw [withDots, block_withRecord_of_ne _ _ hb, block_withRecord_of_ne _ _ hb]

theorem table_withDots (above : rootStart ≤ first) :
  (image.withDots first self up).table = image.table
    ∧ (image.withDots first self up).mirror = image.mirror
  := by
  have below : ∀ b < rootStart, (image.withDots first self up).block b = image.block b := by
    intro b hb
    apply block_withDots_of_ne
    omega
  apply table_congr below

include inside

theorem entryAt_withDots (slot : Nat) :
  ((image.withDots first self up).entryAt ⟨first, slot⟩).record
    = if slot = 0 then self else if slot = 1 then up else (image.entryAt ⟨first, slot⟩).record
  := by
  have zero : 0 < slotsPerBlock := by decide
  have one : 1 < slotsPerBlock := by decide
  rw [withDots, entryAt_withRecord _ inside one, entryAt_withRecord _ inside zero]
  simp only [Location.mk.injEq, true_and]
  split_ifs with h1 h0 h0
  · omega
  · rfl
  · rfl
  · rfl

end Image

namespace Directory

/-- The first two entries of a directory are put into its first block. -/
theorem exec_begin (now : Timestamp) (directory parent : Record)
    (inside : directory.first.toNat < numBlocks) :
  (begin now directory parent).exec image = (.ok (),
    image.withDots directory.first.toNat
      (Record.made Name.dot.toList [] .directory directory.first directory.length now)
      (Record.made Name.dotdot.toList [] .directory parent.first parent.length now))
  := by
  have zero : 0 < slotsPerBlock := by decide
  have one : 1 < slotsPerBlock := by decide
  rw [begin, Record.new_of_dot _ _ _ (.inl rfl), Record.new_of_dot _ _ _ (.inr rfl),
    exec_bind_of_ok (exec_ofExcept _ _), exec_bind_of_ok (exec_ofExcept _ _),
    exec_bind_of_ok (exec_writeRecord inside zero _)]
  apply exec_writeRecord inside one _

end Directory

/-! ### The image with a new entry -/

namespace Image

/-- The first slot of a directory that is not occupied. -/
def freeSlot (image : Image) (first : Nat) : Option Location :=
  ((image.slots first).find? (!·.record.occupied)).map Entry.location

/-- The image in which an entry was created with the given record, whose first block was free,
in a slot of the directory `parent`. -/
def created (image : Image) (now : Timestamp) (parent record : Record) (place : Location) :
    Image :=
  let first := record.first.toNat
  let taken : Image := (image.withEntry first .last).setIfInBounds first .zero
  let filled := if record.isDirectory then
      taken.withDots first
        (Record.made Name.dot.toList [] .directory record.first record.length now)
        (Record.made Name.dotdot.toList [] .directory parent.first parent.length now)
    else taken
  filled.withRecord place record

section Created

variable (now : Timestamp) (parent record : Record) (place : Location)
  (inside : record.first.toNat < numBlocks)
include inside

theorem block_created_of_ne {b : Nat} (hb : ¬(tableStart ≤ b ∧ b < rootStart))
    (hfirst : b ≠ record.first.toNat) (hplace : b ≠ place.block) :
  (image.created now parent record place).block b = image.block b
  := by
  have edit := image.retabled_withEntry inside .last rfl
  rw [created, block_withRecord_of_ne _ _ hplace]
  split_ifs
  · rw [block_withDots_of_ne _ _ _ hfirst, block_setIfInBounds_of_ne _ hfirst.symm,
      edit.block b hb]
  · rw [block_setIfInBounds_of_ne _ hfirst.symm, edit.block b hb]

theorem table_created (above : rootStart ≤ record.first.toNat) (hplace : rootStart ≤ place.block) :
  (image.created now parent record place).table = image.table.set record.first.toNat .last
    ∧ (image.created now parent record place).mirror
      = image.mirror.set record.first.toNat .last
  := by
  have edit := image.retabled_withEntry inside .last rfl
  have emptied := (image.withEntry record.first.toNat .last).table_setIfInBounds above .zero
  rw [created, (table_withRecord _ hplace _).1, (table_withRecord _ hplace _).2]
  split_ifs
  · rw [(table_withDots _ _ _ above).1, (table_withDots _ _ _ above).2, emptied.1, emptied.2]
    exact ⟨edit.table, edit.mirror⟩
  · rw [emptied.1, emptied.2]
    exact ⟨edit.table, edit.mirror⟩

/-- The record stands in its slot, and the other slots of that block are the same. -/
theorem entryAt_created (hblock : place.block < numBlocks) (above : rootStart ≤ place.block)
    (hslot : place.slot < slotsPerBlock) (hplace : place.block ≠ record.first.toNat)
    {other : Location} (hother : other.block = place.block) :
  (image.created now parent record place).entryAt other
    = if other = place then ⟨place, record⟩ else image.entryAt other
  := by
  have edit := image.retabled_withEntry inside .last rfl
  have hother' : other.block ≠ record.first.toNat := by rwa [hother]
  rw [created, entryAt_withRecord _ hblock hslot]
  split_ifs
  · rfl
  · apply entryAt_congr
    rw [block_withDots_of_ne _ _ _ hother', block_setIfInBounds_of_ne _ hother'.symm,
      edit.block_of_le (by omega)]
  · apply entryAt_congr
    rw [block_setIfInBounds_of_ne _ hother'.symm, edit.block_of_le (by omega)]

/-- The block of a new directory holds the entries for itself and its parent and nothing
else. -/
theorem record_entryAt_created (hdir : record.isDirectory = true)
    (hplace : place.block ≠ record.first.toNat) (slot : Nat) :
  ((image.created now parent record place).entryAt ⟨record.first.toNat, slot⟩).record
    = if slot = 0 then Record.made Name.dot.toList [] .directory record.first record.length now
      else if slot = 1 then
        Record.made Name.dotdot.toList [] .directory parent.first parent.length now
      else Directory.recordIn .zero slot
  := by
  have filled := block_withRecord_of_ne (Image.withDots
      ((image.withEntry record.first.toNat .last).setIfInBounds record.first.toNat .zero)
      record.first.toNat
      (Record.made Name.dot.toList [] .directory record.first record.length now)
      (Record.made Name.dotdot.toList [] .directory parent.first parent.length now))
    record hplace.symm
  rw [created, if_pos hdir, entryAt_congr filled, entryAt_withDots _ inside]
  congr 2
  rw [entryAt, block_setIfInBounds_self _ inside]

section NewDirectory

variable (hdir : record.isDirectory = true) (hplace : place.block ≠ record.first.toNat)
  (hchain : (image.created now parent record place).table.IsChain record.first.toNat
    [record.first.toNat])
include hdir hplace hchain

/-- A new directory begins with the entries for itself and its parent. -/
theorem hasDots_created :
  (image.created now parent record place).HasDots record.first parent.first
  := by
  have slots := image.record_entryAt_created now parent record place inside hdir hplace
  have hblocks := blocksOf_eq hchain
  apply hasDots_iff.mpr
  refine ⟨hblocks ▸ hchain, ?_, ?_⟩
  · unfold Entry.StandsFor
    rw [slots 0]
    exact ⟨rfl, rfl, Record.baseName_made_dot _ _ _ (.inl rfl), rfl⟩
  · unfold Entry.StandsFor
    rw [slots 1]
    exact ⟨rfl, rfl, Record.baseName_made_dot _ _ _ (.inr rfl), rfl⟩

/-- A new directory lists nothing. -/
theorem listed_created :
  (image.created now parent record place).listed record.first.toNat = []
  := by
  apply List.eq_nil_iff_forall_not_mem.mpr
  intro e he
  obtain ⟨hmem, hentry, occupied⟩ := mem_listed_iff.mp he
  rw [blocksOf_eq hchain] at hmem
  obtain ⟨⟨b, slot⟩, _⟩ := e
  have hb : b = record.first.toNat := by
    simpa using (Directory.mem_places.mp (List.mem_of_mem_drop hmem)).1
  subst hb
  obtain ⟨self, up⟩ := notMem_drop_places (List.nodup_singleton record.first.toNat) ⟨[], rfl⟩
  have hslot : slot ≠ 0 ∧ slot ≠ 1 := by
    constructor <;> rintro rfl <;> contradiction
  have empty := image.record_entryAt_created now parent record place inside hdir hplace slot
  dsimp only at hentry
  rw [hentry, if_neg hslot.1, if_neg hslot.2] at empty
  rw [empty, Directory.occupied_recordIn_zero] at occupied
  simp at occupied

end NewDirectory

end Created

theorem freeSlot_eq_some {first : Nat} {place : Location}
    (h : image.freeSlot first = some place) :
  place ∈ Directory.places (image.blocksOf first)
    ∧ (image.entryAt place).record.occupied = false
  := by
  obtain ⟨e, hfind, rfl⟩ := Option.map_eq_some_iff.mp h
  have hmem := List.mem_of_find?_eq_some hfind
  obtain ⟨hblock, hslot, he⟩ := mem_slots.mp hmem
  refine ⟨Directory.mem_places.mpr ⟨hblock, hslot⟩, ?_⟩
  rw [he]
  simpa using List.find?_some hfind

/-- A directory has a free slot exactly when it lists fewer entries than it has slots besides
its first two. -/
theorem freeSlot_eq_none_iff {first parent : UInt16} (dots : image.HasDots first parent) :
  image.freeSlot first.toNat = none
    ↔ (image.blocksOf first.toNat).length * slotsPerBlock ≤ (image.listed first.toNat).length + 2
  := by
  obtain ⟨self, up, rest, hslots, hself, hup⟩ := dots
  have total : (image.slots first.toNat).length
      = (image.blocksOf first.toNat).length * slotsPerBlock := by
    rw [slots, List.length_map, Directory.length_places]
  rw [freeSlot, Option.map_eq_none_iff, List.find?_eq_none, ← total, listed, hslots]
  simp only [List.drop_succ_cons, List.drop_zero, List.length_cons, List.mem_cons,
    forall_eq_or_imp, hself.1, hup.1, true_and, Bool.not_eq_true', Bool.not_eq_false,
    Nat.add_le_add_iff_right]
  rw [← List.length_filter_eq_length_iff]
  have := List.length_filter_le (fun e : Entry => e.record.occupied) rest
  omega

/-- A free slot of a directory comes after its first two. -/
theorem mem_drop_places_of_freeSlot {first parent : UInt16} (dots : image.HasDots first parent)
    {place : Location} (h : image.freeSlot first.toNat = some place) :
  place ∈ (Directory.places (image.blocksOf first.toNat)).drop 2
  := by
  obtain ⟨hplace, free⟩ := freeSlot_eq_some h
  obtain ⟨hchain, hself, hup⟩ := hasDots_iff.mp dots
  obtain ⟨blocks, hblocks⟩ := hchain.eq_cons
  obtain ⟨more, hmore⟩ := Directory.places_cons first.toNat blocks
  rw [hblocks, hmore] at hplace ⊢
  rcases List.mem_cons.mp hplace with rfl | hplace
  · simp [hself.1] at free
  · rcases List.mem_cons.mp hplace with rfl | hplace
    · simp [hup.1] at free
    · apply hplace

section Replaced

variable (sound : image.Sound root lengths) {names : List String} {name : String} {d : Entry}
  (hd : image.find? root names = some d) (now : Timestamp) {record : Record} {place : Location}
  (hplace : image.freeSlot d.record.first.toNat = some place)
  (free : image.table[record.first.toNat]? = some .free)
include sound hd hplace free

/-- Only the block of a new entry is taken. -/
theorem table_created_of_free :
  (image.created now d.record record place).table = image.table.set record.first.toNat .last
  := by
  obtain ⟨inside, -⟩ := List.getElem?_eq_some_iff.mp free
  have hblock := (Directory.mem_places.mp (freeSlot_eq_some hplace).1).1
  exact (image.table_created now d.record _ _ (by simpa using inside)
    (sound.partitioned.reservedSpan_le_of_free free) (sound.above hd _ hblock)).1

/-- A new entry has one block. -/
theorem isChain_created :
  (image.created now d.record record place).table.IsChain record.first.toNat
    [record.first.toNat]
  := by
  obtain ⟨inside, -⟩ := List.getElem?_eq_some_iff.mp free
  apply Table.IsChain.last
  rw [table_created_of_free sound hd now hplace free, List.getElem?_set_self inside]

/-- A new entry replaces what its path leads to, which was nothing. -/
theorem replaced_created (hdir : d.record.isDirectory = true)
    (absent : image.find? root (names ++ [name]) = none) (occupied : record.occupied = true)
    (hname : record.fullName = name ∧ record.isDot = false) :
  image.Replaced (image.created now d.record record place) root names name d place
    (some ⟨place, record⟩)
  := by
  have hchain := isChain_created sound hd now hplace free
  obtain ⟨inside, -⟩ := List.getElem?_eq_some_iff.mp free
  rw [length_table] at inside
  have low := sound.partitioned.reservedSpan_le_of_free free
  obtain ⟨parent, dots⟩ := sound.exists_hasDots hd hdir
  obtain ⟨hmem, unoccupied⟩ := freeSlot_eq_some hplace
  obtain ⟨hblock, hslot⟩ := Directory.mem_places.mp hmem
  have hlow := sound.above hd _ hblock
  have hne : place.block ≠ record.first.toNat := by
    intro same
    apply (sound.isChain hd).ne_free hblock
    rw [same]
    apply free
  have table := image.table_created now d.record record place inside low hlow
  have hblocks := blocksOf_eq hchain
  constructor
  case parent => exact hd
  case directory => exact hdir
  case place_mem => apply mem_drop_places_of_freeSlot dots hplace
  case holds_old =>
    rw [absent]
    apply unoccupied
  case holds_new =>
    have := image.entryAt_created now d.record record place inside (lt_of_mem_blocksOf hblock)
      hlow hslot hne rfl
    rw [if_pos rfl] at this
    exact ⟨this, occupied⟩
  case fullName =>
    rintro _ ⟨⟩
    apply hname
  case childless_old =>
    intro e he
    simp [absent] at he
  case childless_new =>
    rintro _ ⟨⟩ hdir'
    exact image.listed_created now d.record record place inside hdir' hne hchain
  case dots =>
    rintro _ ⟨⟩ hdir'
    exact image.hasDots_created now d.record record place inside hdir' hne hchain
  case chained =>
    rintro _ ⟨⟩
    dsimp only
    rw [hblocks]
    apply hchain
  case mirrored => rw [table.1, table.2, sound.mirrored]
  case superblock =>
    exact image.block_created_of_ne now d.record record place inside (by decide)
      (superblockAt_ne low) (superblockAt_ne hlow)
  case untouched =>
    intro b _ hb
    simp only [blocksOf?_some, hblocks, List.mem_singleton] at hb
    rw [table.1, List.getElem?_set_ne (Ne.symm hb)]
  case fresh =>
    intro b hb _
    simp only [blocksOf?_some, hblocks, List.mem_singleton] at hb
    rw [hb]
    apply free
  case released =>
    intro b hb
    simp [absent] at hb
  case content =>
    intro b hb _ hb' hplace
    simp only [blocksOf?_some, hblocks, List.mem_singleton] at hb'
    apply image.block_created_of_ne now d.record record place inside (notTable_of_le hb)
      hb' hplace
  case slots =>
    intro other hother hdiff
    rw [image.entryAt_created now d.record record place inside (lt_of_mem_blocksOf hblock)
      hlow hslot hne hother, if_neg hdiff]

end Replaced

end Image

/-! ### Creating -/

namespace Allocation

theorem exec_allocate_one {b : Nat} (hb : b < numBlocks) :
  (allocate (.ofNat b) 1).exec image = (.ok (), image.withEntry b .last)
  := by
  change (allocate (.ofNat b) (.ofNat 1)).exec image = _
  rw [allocate_eq Nat.one_pos hb]
  change (setEntry b .last >>= _).exec image = _
  rw [exec_bind_of_ok (exec_setEntry hb _), exec_log]

end Allocation

namespace Directory

/-- Some slot has a plain name exactly when an entry is found by it. -/
theorem any_isNamed {first parent : UInt16} (dots : image.HasDots first parent) {name : String}
    (hname : Name.Plain name) :
  (image.slots first.toNat).any (·.record.isNamed name)
    = (image.child? first.toNat name).isSome
  := by
  rw [← dots.find?_isNamed hname, Bool.eq_iff_iff, List.any_eq_true, List.find?_isSome]
  simp only [List.mem_filter]
  constructor
  · rintro ⟨e, he, named⟩
    have occupied : e.record.occupied = true := by
      rw [Record.isNamed, Bool.and_eq_true] at named
      apply named.1
    exact ⟨e, ⟨he, occupied⟩, named⟩
  · rintro ⟨e, ⟨he, -⟩, named⟩
    exact ⟨e, he, named⟩

/-- The entry that is created under a name, or the reason why none is. -/
def creation (image : Image) (now : Timestamp) (first : Nat) (name : String) (kind : Kind) :
    Except Error Entry := do
  let (base, extension) ← Name.split name kind
  if (image.child? first name).isSome then throw .alreadyExists
  let some place := image.freeSlot first | throw .directoryFull
  let some fresh := image.table.firstFit 1 | throw .outOfSpace
  return ⟨place, Record.made base extension kind (UInt16.ofNat fresh) (initialLength kind) now⟩

section Creation

variable (now : Timestamp) {first : Nat} {name : String} {kind : Kind} {base extension : List Char}
  (hsplit : Name.split name kind = .ok (base, extension))
include hsplit

theorem creation_of_used (used : (image.child? first name).isSome = true) :
  creation image now first name kind = .error .alreadyExists
  := by
  unfold creation
  rw [hsplit]
  dsimp only [bind, Except.bind]
  rw [if_pos used]
  rfl

theorem creation_of_unused (unused : ¬(image.child? first name).isSome = true) :
  creation image now first name kind
    = match image.freeSlot first with
      | none => .error .directoryFull
      | some place =>
          match image.table.firstFit 1 with
          | none => .error .outOfSpace
          | some fresh => .ok
              ⟨place, Record.made base extension kind (UInt16.ofNat fresh) (initialLength kind) now⟩
  := by
  unfold creation
  rw [hsplit]
  dsimp only [bind, Except.bind]
  rw [if_neg unused]
  cases image.freeSlot first with
  | none => rfl
  | some place => cases image.table.firstFit 1 <;> rfl

end Creation

/-- An entry is created exactly when its name is accepted and not used, and a slot and a block are
free. -/
theorem creation_eq_ok_iff {now : Timestamp} {first : Nat} {name : String} {kind : Kind}
    {e : Entry} :
  creation image now first name kind = .ok e
    ↔ ∃ base extension place fresh, Name.split name kind = .ok (base, extension)
      ∧ image.child? first name = none ∧ image.freeSlot first = some place
      ∧ image.table.firstFit 1 = some fresh
      ∧ e = ⟨place,
          Record.made base extension kind (UInt16.ofNat fresh) (initialLength kind) now⟩
  := by
  cases hsplit : Name.split name kind with
  | error cause =>
      rw [creation, hsplit]
      simp [bind, Except.bind]
  | ok parts =>
      obtain ⟨base, extension⟩ := parts
      by_cases used : (image.child? first name).isSome = true
      · rw [creation_of_used now hsplit used]
        simp [Option.ne_none_iff_isSome.mpr used]
      · rw [creation_of_unused now hsplit used]
        have none : image.child? first name = none := by simpa using used
        cases hplace : image.freeSlot first with
        | none => simp
        | some place =>
            cases hfresh : image.table.firstFit 1 with
            | none => simp
            | some fresh => simp [none, eq_comm]

/-- Once a slot and a block are found nothing fails, whatever the image holds: the block may be one
of the table or of the directory itself. -/
theorem exec_fill {place : Location} (hblock : place.block < numBlocks)
    (hslot : place.slot < slotsPerBlock) {fresh : Nat} (inside : fresh < numBlocks)
    (now : Timestamp) (d : Record) {name : String} {kind : Kind} {base extension : List Char}
    (hsplit : Name.split name kind = .ok (base, extension)) (message : String) :
  let record := Record.made base extension kind (UInt16.ofNat fresh) (initialLength kind) now
  (do
    Allocation.allocate (UInt16.ofNat fresh) 1
    DiskM.writeBlock fresh .zero
    let record ←
      DiskM.ofExcept (Record.new name kind (UInt16.ofNat fresh) (initialLength kind) now)
    if kind = .directory then begin now record d
    writeRecord place record
    Program.log .debug .directory message
    return (⟨place, record⟩ : Entry) : DiskM Entry).exec image
    = (.ok ⟨place, record⟩, image.created now d record place)
  := by
  intro record
  have number : (UInt16.ofNat fresh).toNat = fresh :=
    UInt16.toNat_ofNat_of_lt' (Nat.lt_trans inside (by decide))
  rw [exec_bind_of_ok (Allocation.exec_allocate_one inside),
    exec_bind_of_ok (exec_writeBlock _ inside _), Record.new_of_split _ _ _ hsplit,
    exec_bind_of_ok (exec_ofExcept _ _)]
  cases kind with
  | directory =>
      have inside' : (UInt16.ofNat fresh).toNat < numBlocks := by rwa [number]
      rw [if_pos rfl, exec_bind_of_ok (exec_begin now _ d inside'),
        exec_bind_of_ok (exec_writeRecord hblock hslot _), exec_bind_of_ok (exec_log _ _ _ _),
        exec_pure, Image.created]
      simp only [record, Record.made, number]
      rfl
  | file =>
      rw [if_neg (by simp), exec_bind_of_ok (exec_writeRecord hblock hslot _),
        exec_bind_of_ok (exec_log _ _ _ _), exec_pure, Image.created]
      simp only [record, Record.made, number]
      rfl

/-- The entry that is created in the directory `parent` of any image, or the reason why none
is. -/
def newEntry (image : Image) (now : Timestamp) (parent : Record) (name : String) (kind : Kind) :
    Except Error Entry := do
  if !parent.isDirectory then throw .notDirectory
  let (base, extension) ← Name.split name kind
  let _ ← image.chain parent.first.toNat
  if (image.slots parent.first.toNat).any (·.record.isNamed name) then throw .alreadyExists
  let some place := image.freeSlot parent.first.toNat | throw .directoryFull
  let some fresh := image.table.firstFit 1 | throw .outOfSpace
  return ⟨place, Record.made base extension kind (UInt16.ofNat fresh) (initialLength kind) now⟩

/-- Creating an entry changes the image only if it succeeds.  Nothing is assumed of the image. -/
theorem exec_create_eq (now : Timestamp) (d : Record) (name : String) (kind : Kind) :
  (create now d name kind).exec image
    = match newEntry image now d name kind with
      | .ok e => (.ok e, image.created now d e.record e.location)
      | .error e => (.error e, image)
  := by
  generalize hentry : newEntry image now d name kind = entry
  unfold newEntry at hentry
  unfold create
  by_cases hdir : d.isDirectory = true
  case neg =>
    rw [if_pos (by simpa using hdir)] at hentry ⊢
    subst hentry
    rfl
  rw [if_neg (by simpa using hdir)] at hentry ⊢
  cases hsplit : Name.split name kind with
  | error e =>
      rw [hsplit] at hentry
      subst hentry
      rfl
  | ok parts =>
      obtain ⟨base, extension⟩ := parts
      have hslots : (slots d.first.toNat).exec image = _ := exec_slots d.first.toNat
      rw [hsplit] at hentry
      rw [exec_bind_of_ok (exec_ofExcept _ _)]
      cases hchain : image.chain d.first.toNat with
      | error e =>
          rw [hchain] at hslots hentry
          subst hentry
          exact exec_bind_of_error hslots
      | ok blocks =>
          rw [hchain] at hslots hentry
          rw [exec_bind_of_ok hslots]
          dsimp only [bind, Except.bind] at hentry
          by_cases used : (image.slots d.first.toNat).any (·.record.isNamed name) = true
          · rw [if_pos used] at hentry ⊢
            subst hentry
            rfl
          rw [if_neg used] at hentry ⊢
          unfold Image.freeSlot at hentry
          cases hplace : (image.slots d.first.toNat).find? (!·.record.occupied) with
          | none =>
              rw [hplace] at hentry
              subst hentry
              rfl
          | some e =>
              rw [hplace] at hentry
              dsimp only [Option.map_some] at hentry ⊢
              rw [exec_bind_of_ok (Allocation.exec_findRun 1)]
              cases hfresh : image.table.firstFit 1 with
              | none =>
                  rw [hfresh] at hentry
                  subst hentry
                  rfl
              | some fresh =>
                  rw [hfresh] at hentry
                  subst hentry
                  have inside : fresh < numBlocks := by
                    have free := Table.free_of_firstFit_one hfresh
                    have := (List.getElem?_eq_some_iff.mp free).1
                    rwa [Image.length_table] at this
                  have ⟨hblock, hslot, _⟩ :=
                    Image.mem_slots.mp (List.mem_of_find?_eq_some hplace)
                  exact exec_fill (Image.lt_of_mem_blocksOf hblock) hslot inside now d hsplit _

/-- In a directory with the entries for itself and its parent names are looked up among what it
lists. -/
theorem newEntry_eq_creation {d : Record} {parent : UInt16} (hdir : d.isDirectory = true)
    (dots : image.HasDots d.first parent) (now : Timestamp) (name : String) (kind : Kind) :
  newEntry image now d name kind = creation image now d.first.toNat name kind
  := by
  rw [newEntry, creation, if_neg (by simp [hdir]), Image.chain_eq_ok_iff.mpr dots.isChain]
  cases hsplit : Name.split name kind with
  | error e => rfl
  | ok parts =>
      rw [any_isNamed dots (Name.accepted_of_split hsplit).plain]
      rfl

/-- Creating an entry in such a directory changes the image only if it succeeds. -/
theorem exec_create {d : Record} {parent : UInt16} (hdir : d.isDirectory = true)
    (dots : image.HasDots d.first parent) (now : Timestamp) (name : String) (kind : Kind) :
  (create now d name kind).exec image
    = match creation image now d.first.toNat name kind with
      | .ok e => (.ok e, image.created now d e.record e.location)
      | .error e => (.error e, image)
  := by
  rw [← newEntry_eq_creation hdir dots]
  exact exec_create_eq now d name kind

/-- A new entry fills one block. -/
theorem blocksFor_initialLength (kind : Kind) :
  blocksFor (initialLength kind).toNat = 1
  := by
  cases kind <;> decide

section Created

variable {now : Timestamp} {name : String} {kind : Kind} {e : Entry}

theorem record_of_creation {first : Nat} (h : creation image now first name kind = .ok e) :
  e.record.kind = kind ∧ e.record.length = initialLength kind
  := by
  obtain ⟨base, extension, place, fresh, -, -, -, -, rfl⟩ := creation_eq_ok_iff.mp h
  exact ⟨rfl, rfl⟩

/-- The block of a new entry was free. -/
theorem free_of_creation {first : Nat} (h : creation image now first name kind = .ok e) :
  image.table[e.record.first.toNat]? = some .free
  := by
  obtain ⟨base, extension, place, fresh, -, -, -, hfresh, rfl⟩ := creation_eq_ok_iff.mp h
  have free := Table.free_of_firstFit_one hfresh
  have inside : fresh < numBlocks := by
    have := (List.getElem?_eq_some_iff.mp free).1
    rwa [Image.length_table] at this
  have number : (UInt16.ofNat fresh).toNat = fresh :=
    UInt16.toNat_ofNat_of_lt' (Nat.lt_trans inside (by decide))
  rw [Record.made, number]
  apply free

/-- No path led to a new entry. -/
theorem find?_eq_none_of_creation {names : List String} {d : Entry}
    (hd : image.find? root names = some d) (hdir : d.record.isDirectory = true)
    (hcreation : creation image now d.record.first.toNat name kind = .ok e) :
  image.find? root (names ++ [name]) = none
  := by
  obtain ⟨-, -, -, -, -, unused, -⟩ := creation_eq_ok_iff.mp hcreation
  rw [Image.find?_concat, hd, Option.bind_some, Image.descend?, if_pos hdir, unused]

variable (sound : image.Sound root lengths) {names : List String} {d : Entry}
  (hd : image.find? root names = some d) (hdir : d.record.isDirectory = true)
  (hcreation : creation image now d.record.first.toNat name kind = .ok e)
include sound hd hcreation

theorem table_created :
  (image.created now d.record e.record e.location).table
    = image.table.set e.record.first.toNat .last
  := by
  have free := free_of_creation hcreation
  obtain ⟨base, extension, place, fresh, -, -, hplace, -, rfl⟩ := creation_eq_ok_iff.mp hcreation
  exact Image.table_created_of_free sound hd now hplace free

theorem isChain_created :
  (image.created now d.record e.record e.location).table.IsChain e.record.first.toNat
    [e.record.first.toNat]
  := by
  have free := free_of_creation hcreation
  obtain ⟨base, extension, place, fresh, -, -, hplace, -, rfl⟩ := creation_eq_ok_iff.mp hcreation
  apply Image.isChain_created sound hd now hplace free

/-- A new entry changes the image: its block is not free any more. -/
theorem created_ne :
  image.created now d.record e.record e.location ≠ image
  := by
  intro same
  have hchain := isChain_created sound hd hcreation
  rw [same] at hchain
  exact hchain.ne_free hchain.first_mem (free_of_creation hcreation)

include hdir

/-- Creating an entry replaces what its path leads to. -/
theorem replaced_created :
  image.Replaced (image.created now d.record e.record e.location) root names name d e.location
    (some e)
  := by
  have free := free_of_creation hcreation
  have absent := find?_eq_none_of_creation hd hdir hcreation
  obtain ⟨base, extension, place, fresh, hsplit, -, hplace, -, rfl⟩ :=
    creation_eq_ok_iff.mp hcreation
  have accepted := Name.accepted_of_split hsplit
  apply Image.replaced_created sound hd now hplace free hdir absent rfl
    ⟨Record.fullName_made _ _ _ accepted, Record.isDot_made _ _ _ accepted⟩

end Created

end Directory

end FatVolume
