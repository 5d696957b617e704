import FatVolume.Proofs.DiskTable

/-!
# Slots of an image

A slot of a block holds a record, and writing a record changes what that one slot holds.
`Image.slots` are the slots of a directory in the order of its blocks, and `Image.listed` the
entries among them that stand for something: the occupied ones after the first two, which the
directory has for itself and its parent.
-/

namespace FatVolume

/-! ### The encoding of records -/

/-- What lies apart from a stretch is not changed by putting bytes over it. -/
theorem Block.slice_splice_of_disjoint {b : Block} {start other count : Nat} {bytes : Bytes}
    (h : start + bytes.length ≤ blockSize)
    (apart : other + count ≤ start ∨ start + bytes.length ≤ other) :
  (b.splice start bytes).slice other count = b.slice other count
  := by
  have length_take : (b.toList.take start).length = start := by
    rw [List.length_take, Vector.length_toList]
    omega
  rw [slice, toList_splice h, slice]
  rcases apart with before | after
  · rw [List.append_assoc, List.drop_append_of_le_length (by omega),
      List.take_append_of_le_length (by simp; omega), List.drop_take, List.take_take,
      Nat.min_eq_left (by omega)]
  · rw [List.drop_append, List.drop_eq_nil_of_le (by simp; omega), List.nil_append,
      List.drop_drop, List.length_append, length_take, Nat.add_sub_cancel' after]

/-- A record is read back from its bytes. -/
theorem Record.ofBytes_toBytes (r : Record) :
  ofBytes r.toBytes = r
  := by
  obtain ⟨name, extension, kind, occupied, time, date, first, length⟩ := r
  simp only [ofBytes, mk.injEq]
  refine ⟨?name, ?extension, ?kind, ?occupied, ?time, ?date, ?first, ?length⟩
  case name =>
    apply Vector.toList_inj.mp
    simp [toBytes, Bytes.toList_padded]
  case extension =>
    apply Vector.toList_inj.mp
    simp [toBytes, Bytes.toList_padded]
  case kind => cases kind <;> simp [toBytes, kindByte]
  case occupied => cases occupied <;> simp [toBytes]
  case time => simp [toBytes, List.drop_append, List.drop_eq_nil_of_le]
  case date => simp [toBytes, List.drop_append, List.drop_eq_nil_of_le]
  case first => simp [toBytes, List.drop_append, List.drop_eq_nil_of_le]
  case length =>
    simp [toBytes, List.drop_append, List.drop_eq_nil_of_le, List.take_of_length_le]

namespace Directory

/-- A record put into a slot has its bytes there, and the other slots keep theirs. -/
theorem slice_splice (content : Block) {slot other : Nat} (hslot : slot < slotsPerBlock)
    (record : Record) :
  (content.splice (slot * recordSize) record.toBytes).slice (other * recordSize) recordSize
    = if other = slot then record.toBytes else content.slice (other * recordSize) recordSize
  := by
  have fits : slot * recordSize + record.toBytes.length ≤ blockSize := by
    rw [Record.length_toBytes]
    unfold slotsPerBlock at hslot
    unfold blockSize recordSize at *
    omega
  split_ifs with same
  · subst same
    have read := Block.slice_splice_self (b := content) fits
    rwa [Record.length_toBytes] at read
  · apply Block.slice_splice_of_disjoint fits
    rw [Record.length_toBytes]
    unfold recordSize
    omega

/-- A record put into a slot is read from it, and the other slots keep theirs. -/
theorem recordIn_splice (content : Block) {slot other : Nat} (hslot : slot < slotsPerBlock)
    (record : Record) :
  recordIn (content.splice (slot * recordSize) record.toBytes) other
    = if other = slot then record else recordIn content other
  := by
  unfold recordIn
  rw [slice_splice content hslot, apply_ite Record.ofBytes, Record.ofBytes_toBytes]

/-- The places of the slots of blocks. -/
def places (blocks : List Nat) : List Location :=
  blocks.flatMap fun b => (List.range slotsPerBlock).map fun slot => ⟨b, slot⟩

theorem mem_places {blocks : List Nat} {place : Location} :
  place ∈ places blocks ↔ place.block ∈ blocks ∧ place.slot < slotsPerBlock
  := by
  obtain ⟨b, slot⟩ := place
  simp [places]

/-- Different slots have different places. -/
theorem nodup_places {blocks : List Nat} (h : blocks.Nodup) :
  (places blocks).Nodup
  := by
  apply List.nodup_flatMap.mpr
  constructor
  · intro b _
    apply List.Nodup.map _ List.nodup_range
    intro slot slot' same
    apply (Location.mk.inj same).2
  · apply h.imp
    intro b c hbc place hb hc
    obtain ⟨_, _, rfl⟩ := List.mem_map.mp hb
    obtain ⟨_, _, same⟩ := List.mem_map.mp hc
    apply hbc (Location.mk.inj same).1.symm

/-- The first two places are in the first block. -/
theorem places_cons (b : Nat) (rest : List Nat) :
  ∃ more, places (b :: rest) = ⟨b, 0⟩ :: ⟨b, 1⟩ :: more
  := ⟨_, rfl⟩

theorem length_places (blocks : List Nat) :
  (places blocks).length = blocks.length * slotsPerBlock
  := by
  simp [places, List.length_flatMap]

end Directory

/-! ### The slots of a directory -/

namespace Image

open Directory

/-- The entry at a place. -/
def entryAt (image : Image) (place : Location) : Entry :=
  ⟨place, recordIn (image.block place.block) place.slot⟩

/-- The slots of the directory that starts at a block. -/
def slots (image : Image) (first : Nat) : List Entry :=
  (places (image.blocksOf first)).map image.entryAt

/-- The entries of the directory that starts at a block, those of itself and its parent
excepted. -/
def listed (image : Image) (first : Nat) : List Entry :=
  ((image.slots first).drop 2).filter (·.record.occupied)

@[simp]
theorem location_entryAt (image : Image) (place : Location) :
  (image.entryAt place).location = place
  := rfl

/-- An entry of a directory is what stands at its place in one of the blocks. -/
theorem mem_slots {image : Image} {first : Nat} {e : Entry} :
  e ∈ image.slots first
    ↔ e.location.block ∈ image.blocksOf first ∧ e.location.slot < slotsPerBlock
        ∧ image.entryAt e.location = e
  := by
  simp only [slots, List.mem_map, mem_places]
  constructor
  · rintro ⟨place, ⟨hblock, hslot⟩, rfl⟩
    exact ⟨hblock, hslot, rfl⟩
  · rintro ⟨hblock, hslot, he⟩
    exact ⟨e.location, ⟨hblock, hslot⟩, he⟩

/-- An entry stands at its place. -/
theorem entryAt_of_mem_slots {image : Image} {first : Nat} {e : Entry}
    (h : e ∈ image.slots first) :
  image.entryAt e.location = e
  := (mem_slots.mp h).2.2

theorem map_location_slots (image : Image) (first : Nat) :
  (image.slots first).map Entry.location = places (image.blocksOf first)
  := by
  rw [slots, List.map_map]
  apply List.map_id

/-- What has slots has a chain. -/
theorem isChain_of_mem_slots {image : Image} {first : Nat} {e : Entry}
    (h : e ∈ image.slots first) :
  image.table.IsChain first (image.blocksOf first)
  := isChain_blocksOf (List.ne_nil_of_mem (mem_slots.mp h).1)

theorem nodup_slots (image : Image) (first : Nat) :
  (image.slots first).Nodup
  := by
  apply List.Nodup.of_map Entry.location
  rw [map_location_slots]
  apply nodup_places (image.nodup_blocksOf first)

theorem mem_slots_of_mem_listed {image : Image} {first : Nat} {e : Entry}
    (h : e ∈ image.listed first) :
  e ∈ image.slots first
  := List.mem_of_mem_drop (List.mem_of_mem_filter h)

theorem occupied_of_mem_listed {image : Image} {first : Nat} {e : Entry}
    (h : e ∈ image.listed first) :
  e.record.occupied = true
  := (List.mem_filter.mp h).2

theorem block_mem_of_mem_listed {image : Image} {first : Nat} {e : Entry}
    (h : e ∈ image.listed first) :
  e.location.block ∈ image.blocksOf first
  := (mem_slots.mp (mem_slots_of_mem_listed h)).1

/-- Two listed entries at one place are the same. -/
theorem eq_of_location_eq {image : Image} {first first' : Nat} {e e' : Entry}
    (h : e ∈ image.slots first) (h' : e' ∈ image.slots first')
    (same : e.location = e'.location) :
  e = e'
  := by
  rw [← (mem_slots.mp h).2.2, ← (mem_slots.mp h').2.2, same]

theorem nodup_listed (image : Image) (first : Nat) :
  (image.listed first).Nodup
  := (List.Nodup.sublist (List.drop_sublist 2 _) (image.nodup_slots first)).filter _

/-- An entry that a directory lists stands at a place after the first two. -/
theorem mem_listed_iff {image : Image} {first : Nat} {e : Entry} :
  e ∈ image.listed first
    ↔ e.location ∈ (places (image.blocksOf first)).drop 2 ∧ image.entryAt e.location = e
        ∧ e.record.occupied = true
  := by
  rw [listed, List.mem_filter, slots, ← List.map_drop, List.mem_map]
  constructor
  · rintro ⟨⟨place, hplace, rfl⟩, occupied⟩
    exact ⟨hplace, rfl, occupied⟩
  · rintro ⟨hplace, he, occupied⟩
    exact ⟨⟨e.location, hplace, he⟩, occupied⟩

/-- The slots of a directory are the same in an image in which its chain and the slots at its
places are the same. -/
theorem slots_congr {image after : Image} {first : Nat}
    (blocks : after.blocksOf first = image.blocksOf first)
    (entries : ∀ place ∈ places (image.blocksOf first),
      after.entryAt place = image.entryAt place) :
  after.slots first = image.slots first
  := by
  rw [slots, slots, blocks]
  apply List.map_congr_left entries

theorem entryAt_congr {image after : Image} {place : Location}
    (h : after.block place.block = image.block place.block) :
  after.entryAt place = image.entryAt place
  := by
  rw [entryAt, entryAt, h]

/-- The slots of a directory are the same in an image in which its chain and the content of its
blocks are the same. -/
theorem slots_congr_block {image after : Image} {first : Nat}
    (blocks : after.blocksOf first = image.blocksOf first)
    (same : ∀ b ∈ image.blocksOf first, after.block b = image.block b) :
  after.slots first = image.slots first
  := by
  apply slots_congr blocks
  intro place hplace
  apply entryAt_congr
  apply same _ (mem_places.mp hplace).1

theorem listed_congr {image after : Image} {first : Nat}
    (h : after.slots first = image.slots first) :
  after.listed first = image.listed first
  := by
  rw [listed, listed, h]

/-- The image with a record at a place. -/
def withRecord (image : Image) (place : Location) (record : Record) : Image :=
  image.setIfInBounds place.block
    ((image.block place.block).splice (place.slot * recordSize) record.toBytes)

theorem block_withRecord_of_ne (image : Image) {place : Location} (record : Record) {b : Nat}
    (hb : b ≠ place.block) :
  (image.withRecord place record).block b = image.block b
  := block_setIfInBounds_of_ne image hb.symm _

theorem table_withRecord (image : Image) {place : Location} (h : rootStart ≤ place.block)
    (record : Record) :
  (image.withRecord place record).table = image.table
    ∧ (image.withRecord place record).mirror = image.mirror
  := image.table_setIfInBounds h _

/-- A record put at a place stands there, and at other places nothing changes. -/
theorem entryAt_withRecord (image : Image) {place : Location} (hblock : place.block < numBlocks)
    (hslot : place.slot < slotsPerBlock) (record : Record) (other : Location) :
  (image.withRecord place record).entryAt other
    = if other = place then ⟨place, record⟩ else image.entryAt other
  := by
  obtain ⟨b, slot⟩ := place
  obtain ⟨c, slot'⟩ := other
  by_cases hc : c = b
  · subst hc
    simp only [withRecord, entryAt, block_setIfInBounds_self image hblock,
      recordIn_splice _ hslot, Location.mk.injEq, true_and]
    split_ifs with same
    · rw [same]
    · rfl
  · rw [entryAt_congr (block_withRecord_of_ne image record hc), if_neg]
    intro same
    apply hc (Location.mk.inj same).1

end Image

/-! ### Execution -/

namespace Directory

open DiskM

variable {image : Image}

@[simp]
theorem exec_checkLocation {place : Location} (h : place.slot < slotsPerBlock) :
  (checkLocation place).exec image = (.ok (), image)
  := by
  rw [checkLocation, if_pos h]
  rfl

theorem exec_readRecord {place : Location} (hblock : place.block < numBlocks)
    (hslot : place.slot < slotsPerBlock) :
  (readRecord place).exec image = (.ok (image.entryAt place).record, image)
  := by
  rw [readRecord, exec_bind_of_ok (exec_checkLocation hslot),
    exec_bind_of_ok (exec_readBlock image hblock)]
  rfl

theorem exec_writeRecord {place : Location} (hblock : place.block < numBlocks)
    (hslot : place.slot < slotsPerBlock) (record : Record) :
  (writeRecord place record).exec image = (.ok (), image.withRecord place record)
  := by
  rw [writeRecord, exec_bind_of_ok (exec_checkLocation hslot),
    exec_bind_of_ok (exec_readBlock image hblock), exec_writeBlock image hblock]
  rfl

/-- Reading a directory gives its slots, or the error of its chain. -/
theorem exec_slots (first : Nat) :
  (slots first).exec image = ((image.chain first).map fun _ => image.slots first, image)
  := by
  have hchain := Allocation.exec_chain image first
  cases hblocks : image.chain first with
  | error e =>
      rw [hblocks] at hchain
      rw [slots, exec_bind_of_error hchain]
      rfl
  | ok blocks =>
      rw [hblocks] at hchain
      have ischain := Image.chain_eq_ok_iff.mp hblocks
      have parts : (blocks.mapM fun b => return slotsIn b (← readBlock b)).exec image
          = (.ok (blocks.map fun b => slotsIn b (image.block b)), image) := by
        apply exec_mapM
        intro b hb
        have inside := ischain.lt_length hb
        rw [Image.length_table] at inside
        rw [exec_bind_of_ok (exec_readBlock image inside), exec_pure]
      rw [slots, exec_bind_of_ok hchain, exec_bind_of_ok parts, exec_pure]
      simp only [Except.map, Image.slots, Image.blocksOf_eq ischain, places, ← List.flatMap_def,
        slotsIn_eq, List.map_flatMap, List.map_map]
      rfl

/-- A directory can be read exactly when it has a chain. -/
theorem exec_slots_eq_ok {first : Nat} {all : List Entry} {after : Image} :
  (slots first).exec image = (.ok all, after)
    ↔ after = image ∧ image.table.IsChain first (image.blocksOf first) ∧ all = image.slots first
  := by
  rw [exec_slots, Prod.mk.injEq]
  cases hblocks : image.chain first with
  | error e =>
      simp only [Except.map, reduceCtorEq, false_and, false_iff]
      rintro ⟨-, hchain, -⟩
      simp [Image.chain_eq_ok_iff.mpr hchain] at hblocks
  | ok blocks =>
      have hchain := Image.chain_eq_ok_iff.mp hblocks
      simp only [Except.map, Except.ok.injEq, Image.blocksOf_eq hchain, hchain, true_and]
      constructor
      · rintro ⟨rfl, rfl⟩
        exact ⟨rfl, rfl⟩
      · rintro ⟨rfl, rfl⟩
        exact ⟨rfl, rfl⟩

end Directory

end FatVolume
