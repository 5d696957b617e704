import FatVolume.Proofs.GuardedRecords
import FatVolume.Proofs.RepeatedWrites

/-!
# The encoding of records

A record comes back from its bytes, whatever they were put over.  Bytes come back from the record
that they hold exactly if the reserved ones are zero and the two flags are zero or one.  A record
put into a slot on disk is found there by everything that reads the slot, and no other byte changes.
-/

namespace FatVolume

/-! ### Numbers in fields -/

namespace Bytes

theorem value_lt (bytes : Bytes) :
  value bytes < Nat.pow 256 bytes.length
  := by
  rw [← littleEndian_value bytes, value_littleEndian, length_littleEndian]
  exact Nat.mod_lt _ (Nat.pow_pos (by decide))

/-- The bytes of a word come back from it. -/
theorem littleEndian_word {bytes : Bytes} (h : bytes.length = 2) :
  littleEndian 2 (UInt16.ofNat (value bytes)).toNat = bytes
  := by
  have small := value_lt bytes
  rw [h] at small
  rw [UInt16.toNat_ofNat_of_lt' small, ← h, littleEndian_value]

theorem littleEndian_double {bytes : Bytes} (h : bytes.length = 4) :
  littleEndian 4 (UInt32.ofNat (value bytes)).toNat = bytes
  := by
  have small := value_lt bytes
  rw [h] at small
  rw [UInt32.toNat_ofNat_of_lt' small, ← h, littleEndian_value]

end Bytes

/-! ### Records in buffers -/

namespace Record

/-- The byte that is written for a flag that was read from the given byte. -/
def flagByte (b : UInt8) : UInt8 :=
  if b = 0 then 0 else 1

theorem flagByte_eq_self_iff {b : UInt8} :
  flagByte b = b ↔ b = 0 ∨ b = 1
  := by
  unfold flagByte
  split_ifs with zero
  · simp [zero]
  · simp [zero, eq_comm]

section Fields

variable {bytes : Bytes} (h : bytes.length = recordSize)
include h

/-- The numbers of a record stand behind the reserved bytes. -/
theorem drop_reserved :
  (bytes.drop 22).take 2 ++ (bytes.drop 24).take 2 ++ (bytes.drop 26).take 2
    ++ (bytes.drop 28).take 4 = bytes.drop 22
  := by
  have final : (bytes.drop 28).length ≤ 4 := by
    rw [List.length_drop, h]
    decide
  have join (offset : Nat) :
      (bytes.drop offset).take 2 ++ bytes.drop (offset + 2) = bytes.drop offset := by
    rw [← List.drop_drop, List.take_append_drop]
  rw [List.take_of_length_le final, List.append_assoc, join 26, List.append_assoc, join 24, join 22]

/-- What is written for the record in given bytes: everything but the flags and the reserved bytes
is as before. -/
theorem toBytes_ofBytes :
  (ofBytes bytes).toBytes = bytes.take 11
    ++ [flagByte (bytes.getD 11 0), flagByte (bytes.getD 12 0)] ++ List.replicate 9 0
    ++ bytes.drop 22
  := by
  have numbers := drop_reserved h
  unfold recordSize at h
  have name : (Bytes.padded 8 bytes).toList ++ (Bytes.padded 3 (bytes.drop 8)).toList
      = bytes.take 11 := by
    rw [Bytes.toList_padded, Bytes.toList_padded, List.length_drop, h]
    simpa using (List.take_add (l := bytes) (i := 8) (j := 3)).symm
  have kind : kindByte (ofBytes bytes).kind = flagByte (bytes.getD 11 0) := by
    simp only [ofBytes, flagByte, beq_iff_eq]
    split_ifs <;> rfl
  have occupied : (if (ofBytes bytes).occupied then (1 : UInt8) else 0)
      = flagByte (bytes.getD 12 0) := by
    simp only [ofBytes, flagByte, bne_iff_ne, ne_eq, ite_not]
  have word (offset : Nat) (within : offset + 2 ≤ 32) :
      ((bytes.drop offset).take 2).length = 2 := by
    rw [List.length_take, List.length_drop]
    omega
  have double : ((bytes.drop 28).take 4).length = 4 := by
    rw [List.length_take, List.length_drop]
    omega
  rw [toBytes, kind, occupied, ← name, ← numbers]
  simp only [ofBytes]
  rw [Bytes.littleEndian_word (word 22 (by decide)), Bytes.littleEndian_word (word 24 (by decide)),
    Bytes.littleEndian_word (word 26 (by decide)), Bytes.littleEndian_double double]
  simp only [List.append_assoc]

/-- The name, the flags, the reserved bytes and the numbers make up a record. -/
theorem eq_fields :
  bytes = bytes.take 11 ++ [bytes.getD 11 0, bytes.getD 12 0] ++ (bytes.drop 13).take 9
    ++ bytes.drop 22
  := by
  unfold recordSize at h
  have flags : bytes.drop 11 = [bytes.getD 11 0, bytes.getD 12 0] ++ bytes.drop 13 := by
    rw [List.drop_eq_getElem_cons (by omega), List.drop_eq_getElem_cons (by omega),
      List.getD_eq_getElem _ _ (by omega), List.getD_eq_getElem _ _ (by omega)]
    rfl
  have behind : (bytes.drop 13).take 9 ++ bytes.drop 22 = bytes.drop 13 := by
    rw [← List.drop_drop (i := 9) (j := 13), List.take_append_drop]
  rw [List.append_assoc, List.append_assoc, behind, ← flags, List.take_append_drop]

theorem reserved_eq_zero_iff :
  List.replicate 9 0 = (bytes.drop 13).take 9
    ↔ ∀ i, 13 ≤ i → i ≤ 21 → bytes.getD i 0 = 0
  := by
  unfold recordSize at h
  have length : ((bytes.drop 13).take 9).length = 9 := by
    rw [List.length_take, List.length_drop]
    omega
  rw [eq_comm, List.eq_replicate_iff, List.forall_mem_iff_getElem, and_iff_right length]
  constructor
  · intro zeros i low high
    have zero := zeros (i - 13) (by omega)
    rw [List.getElem_take, List.getElem_drop] at zero
    rw [List.getD_eq_getElem _ _ (by omega), ← zero]
    congr 1
    omega
  · intro zeros i hi
    rw [length] at hi
    rw [List.getElem_take, List.getElem_drop, ← List.getD_eq_getElem _ 0]
    apply zeros <;> omega

/-- Bytes come back from the record in them exactly if they are as a record is written. -/
theorem toBytes_ofBytes_eq_iff :
  (ofBytes bytes).toBytes = bytes
    ↔ (∀ i, 13 ≤ i → i ≤ 21 → bytes.getD i 0 = 0)
      ∧ (bytes.getD 11 0 = 0 ∨ bytes.getD 11 0 = 1)
      ∧ (bytes.getD 12 0 = 0 ∨ bytes.getD 12 0 = 1)
  := by
  rw [← reserved_eq_zero_iff h, ← flagByte_eq_self_iff, ← flagByte_eq_self_iff, toBytes_ofBytes h]
  conv_lhs => rhs; rw [eq_fields h]
  rw [List.append_left_inj, List.append_assoc, List.append_assoc, List.append_right_inj]
  simp only [List.cons_append, List.nil_append, List.cons.injEq]
  constructor
  · rintro ⟨kind, occupied, zeros⟩
    exact ⟨zeros, kind, occupied⟩
  · rintro ⟨zeros, kind, occupied⟩
    exact ⟨kind, occupied, zeros⟩

end Fields

end Record

/-! ### Records in place -/

theorem DiskM.exec_readBlock_of_le (image : Image) {b : Nat} (h : numBlocks ≤ b) :
  (DiskM.readBlock b).exec image = (.error (.invalidBlock b), image)
  := by
  have served : (DiskM.readBlock b).exec image = (image.read b blockSize, image) := rfl
  rw [served, Image.read, dif_neg (Nat.not_lt.mpr h)]

namespace Image

variable {image : Image} {place : Location}

theorem getElem_eq_block (image : Image) {b : Nat} (hb : b < numBlocks) :
  image[b] = image.block b
  := by
  simp [block, hb]

/-- Only the bytes of the slot change when a record is put into it. -/
theorem getElem_withRecord (hblock : place.block < numBlocks) (hslot : place.slot < slotsPerBlock)
    (record : Record) {b i : Nat} (hb : b < numBlocks) (hi : i < blockSize)
    (apart : ¬(b = place.block ∧ place.slot * recordSize ≤ i
      ∧ i < place.slot * recordSize + recordSize)) :
  (image.withRecord place record)[b][i] = image[b][i]
  := by
  have other : (⟨b, i / recordSize⟩ : Location) ≠ place := by
    rintro rfl
    apply apart
    dsimp only
    unfold recordSize
    omega
  simp only [getElem_eq_block _ hb]
  apply getElem_of_bytesAt hi
  rw [bytesAt_withRecord image hblock hslot, if_neg other]

/-- The consulted copy of the table stays, wherever else a record is put. -/
theorem table_withRecord_of_apart (image : Image)
    (apart : ¬(tableStart ≤ place.block ∧ place.block < mirrorStart)) (record : Record) :
  (image.withRecord place record).table = image.table
  := by
  apply tableAt_congr
  all_goals
    apply block_withRecord_of_ne
    rintro same
    apply apart
    rw [← same]
    decide

/-- The slots of a directory stay but for the one into which a record was put. -/
theorem slots_withRecord (hblock : place.block < numBlocks) (hslot : place.slot < slotsPerBlock)
    (apart : ¬(tableStart ≤ place.block ∧ place.block < mirrorStart)) (record : Record)
    (first : Nat) :
  (image.withRecord place record).slots first
    = (image.slots first).map fun e => if e.location = place then ⟨place, record⟩ else e
  := by
  rw [slots, slots, blocksOf_congr (image.table_withRecord_of_apart apart record), List.map_map]
  apply List.map_congr_left
  intro other _
  rw [entryAt_withRecord image hblock hslot, Function.comp, location_entryAt]

end Image

namespace Directory

variable {image : Image} {place : Location}

/-- What is refused at a location that no slot of the disk has. -/
def locationError (place : Location) : Error :=
  if slotsPerBlock ≤ place.slot then .corrupted (.slotOutOfBlock place.slot)
  else .invalidBlock place.block

/-- A location that no slot of the disk has is refused before anything is written. -/
theorem exec_of_outside (outside : numBlocks ≤ place.block ∨ slotsPerBlock ≤ place.slot)
    (record : Record) :
  (writeRecord place record).exec image = (.error (locationError place), image)
  ∧ (readRecord place).exec image = (.error (locationError place), image)
  := by
  rw [writeRecord, readRecord, locationError]
  split_ifs with hslot
  · have refused : (checkLocation place).exec image
        = (.error (.corrupted (.slotOutOfBlock place.slot)), image) := by
      rw [checkLocation, if_neg (Nat.not_lt.mpr hslot), DiskM.exec_throw]
    exact ⟨DiskM.exec_bind_of_error refused, DiskM.exec_bind_of_error refused⟩
  · have checked : (checkLocation place).exec image = (.ok (), image) :=
      exec_checkLocation (Nat.lt_of_not_le hslot)
    have refused := DiskM.exec_readBlock_of_le image (outside.resolve_right hslot)
    constructor
    · rw [DiskM.exec_bind_of_ok checked, DiskM.exec_bind_of_error refused]
    · rw [DiskM.exec_bind_of_ok checked, DiskM.exec_bind_of_error refused]

end Directory

open Directory in
/-- A record comes back from its bytes, and bytes from their record if they are written as one is.
Put into a slot, a record is read from there and listed there by every directory that has the slot;
no other byte of the disk and no other slot changes.  Locations that no slot has are refused. -/
theorem records_in_place :
  (∀ (r : Record) (before : Vector UInt8 recordSize),
    Guarded.Record.toBytes r before.toList = .ok r.toBytes
    ∧ Guarded.Record.ofBytes r.toBytes = .ok r ∧ Record.ofBytes r.toBytes = r)
  ∧ (∀ bytes : Vector UInt8 recordSize, (Record.ofBytes bytes.toList).toBytes = bytes.toList
    ↔ (∀ i (_ : i < recordSize), 13 ≤ i → i ≤ 21 → bytes[i] = 0)
      ∧ (bytes[11] = 0 ∨ bytes[11] = 1) ∧ (bytes[12] = 0 ∨ bytes[12] = 1))
  ∧ (∀ (image : Image) (place : Location) (r : Record),
    place.block < numBlocks → place.slot < slotsPerBlock →
    ∃ after, (writeRecord place r).exec image = (.ok (), after)
      ∧ (readRecord place).exec after = (.ok r, after)
      ∧ (∀ b i (_ : b < numBlocks) (_ : i < blockSize),
          ¬(b = place.block ∧ place.slot * recordSize ≤ i
            ∧ i < place.slot * recordSize + recordSize) → after[b][i] = image[b][i])
      ∧ (¬(tableStart ≤ place.block ∧ place.block < mirrorStart) →
          ∀ first blocks, (Allocation.chain first).exec image = (.ok blocks, image) →
          place.block ∈ blocks → ∃ all, (slots first).exec image = (.ok all, image)
            ∧ (slots first).exec after
              = (.ok (all.map fun e => if e.location = place then ⟨place, r⟩ else e), after)
            ∧ ∃ e ∈ all, e.location = place))
  ∧ (∀ (image : Image) (place : Location) (r : Record),
    numBlocks ≤ place.block ∨ slotsPerBlock ≤ place.slot →
    (writeRecord place r).exec image = (.error (locationError place), image)
    ∧ (readRecord place).exec image = (.error (locationError place), image))
  := by
  refine ⟨fun r before => ?codec, fun bytes => ?canonical, fun image place r hblock hslot => ?inside,
    fun image place r outside => exec_of_outside outside r⟩
  case codec =>
    refine ⟨r.toBytes_guarded Vector.length_toList, ?_, r.ofBytes_toBytes⟩
    rw [Record.ofBytes_guarded r.length_toBytes, Record.ofBytes_toBytes]
  case canonical =>
    have byte (i : Nat) (hi : i < recordSize) : bytes.toList.getD i 0 = bytes[i] := by
      rw [List.getD_eq_getElem _ _ (by rwa [Vector.length_toList]), Vector.getElem_toList]
    rw [Record.toBytes_ofBytes_eq_iff Vector.length_toList, byte 11 (by decide),
      byte 12 (by decide)]
    refine and_congr_left fun _ => ⟨fun zeros i hi low high => ?_, fun zeros i low high => ?_⟩
    · rw [← byte i hi, zeros i low high]
    · have inside : i < recordSize := by
        unfold recordSize
        omega
      rw [byte i inside, zeros i inside low high]
  case inside =>
    refine ⟨_, exec_writeRecord hblock hslot r, ?_, fun b i hb hi apart => ?_, ?listed⟩
    · rw [exec_readRecord hblock hslot, image.entryAt_withRecord hblock hslot, if_pos rfl]
    · exact Image.getElem_withRecord hblock hslot r hb hi apart
    case listed =>
      intro apart first blocks hchain held
      rw [Allocation.exec_chain] at hchain
      have chained := Image.chain_eq_ok_iff.mp (Prod.mk.inj hchain).1
      have blocks_eq := Image.blocksOf_eq chained
      refine ⟨image.slots first, exec_slots_eq_ok.mpr ⟨rfl, by rwa [blocks_eq], rfl⟩,
        exec_slots_eq_ok.mpr ⟨rfl, ?_, ?_⟩, image.entryAt place, ?_, rfl⟩
      · have table := image.table_withRecord_of_apart apart r
        rwa [Image.blocksOf_congr table, table, blocks_eq]
      · rw [Image.slots_withRecord hblock hslot apart]
      · exact Image.mem_slots.mpr ⟨by rwa [blocks_eq], hslot, rfl⟩

open Directory in
/-- An occupied record put into the last slot of a directory of one block is listed there. -/
theorem records_in_place_last_slot :
  ∃ (image after : Image) (r : Record), r.occupied = true
    ∧ (writeRecord ⟨7, 31⟩ r).exec image = (.ok (), after)
    ∧ (readRecord ⟨7, 31⟩).exec after = (.ok r, after)
    ∧ ∃ all, (slots 7).exec after = (.ok all, after) ∧ ⟨⟨7, 31⟩, r⟩ ∈ all
  := by
  let r : Record := { Record.blank with occupied := true }
  have hchain := Image.zero.isChain_withEntry_last (b := 7) (by decide)
  obtain ⟨-, -, inside, -⟩ := records_in_place
  obtain ⟨after, hwrite, hread, -, hslots⟩ :=
    inside (Image.zero.withEntry 7 .last) ⟨7, 31⟩ r (by decide) (by decide)
  obtain ⟨all, -, listed, e, he, place⟩ :=
    hslots (by decide) 7 [7] (Allocation.exec_chain_of_isChain hchain) (by simp)
  exact ⟨_, after, r, rfl, hwrite, hread, _, listed, List.mem_map.mpr ⟨e, he, if_pos place⟩⟩

end FatVolume
