import FatVolume.Disk.Superblock
import FatVolume.Proofs.Faults
import FatVolume.Proofs.RecordNames
import FatVolume.Tree.Directory

/-!
# Guarded records

Records and superblocks are taken apart and put together field by field, in buffers of a fixed
length.  All fields lie within their buffers, and what is put into them fits.
-/

namespace FatVolume

namespace Guarded

/-! ### Fields of buffers -/

/-- The number in the `width` bytes from `offset` on. -/
def number (buffer : Bytes) (offset width : Nat) : Except Fault Nat := do
  let digits ← (List.range width).mapM fun i => do item buffer (← add wordSize offset i)
  return Bytes.value digits

/-- The buffer with a number in the `width` bytes from `offset` on. -/
def putNumber (buffer : Bytes) (offset width n : Nat) : Except Fault Bytes := do
  copyOver buffer offset (← add wordSize offset width) (Bytes.littleEndian width n)

/-- The buffer with another byte at an index. -/
def putByte (buffer : Bytes) (i : Nat) (b : UInt8) : Except Fault Bytes :=
  copyOver buffer i (i + 1) [b]

/-- A field with the given bytes, which fill it. -/
def field (width : Nat) (bytes : Bytes) : Except Fault (Vector UInt8 width) :=
  if bytes.length = width then return Bytes.padded width bytes else throw .lengthMismatch

/-- A field with the given bytes and zeros behind them. -/
def paddedField (width : Nat) (bytes : Bytes) : Except Fault (Vector UInt8 width) := do
  field width (← copyOver (List.replicate width 0) 0 bytes.length bytes)

/-- The bytes before `stop` without the zeros at their end. -/
def trimZeros (bytes : Bytes) : (stop : Nat) → Except Fault Bytes
  | 0 => stretch bytes 0 0
  | stop + 1 => do
      if (← item bytes stop) = 0 then trimZeros bytes stop else stretch bytes 0 (stop + 1)

/-! ### Records -/

namespace Record

/-- The record in the given bytes. -/
def ofBytes (bytes : Bytes) : Except Fault Record := do
  let name ← field 8 (← stretch bytes 0 8)
  let extension ← field 3 (← stretch bytes 8 11)
  let kind ← item bytes 11
  let occupied ← item bytes 12
  let time ← number bytes 22 2
  let date ← number bytes 24 2
  let first ← number bytes 26 2
  let length ← number bytes 28 4
  return {
    name
    extension
    kind := if kind == 0 then .directory else .file
    occupied := occupied != 0
    time := UInt16.ofNat time
    date := UInt16.ofNat date
    first := UInt16.ofNat first
    length := UInt32.ofNat length }

/-- The buffer with the bytes of a record. -/
def toBytes (record : Record) (buffer : Bytes) : Except Fault Bytes := do
  let buffer ← copyOver buffer 0 recordSize (List.replicate recordSize 0)
  let buffer ← copyOver buffer 0 8 record.name.toList
  let buffer ← copyOver buffer 8 11 record.extension.toList
  let buffer ← putByte buffer 11 (FatVolume.Record.kindByte record.kind)
  let buffer ← putByte buffer 12 (if record.occupied then 1 else 0)
  let buffer ← putNumber buffer 22 2 record.time.toNat
  let buffer ← putNumber buffer 24 2 record.date.toNat
  let buffer ← putNumber buffer 26 2 record.first.toNat
  putNumber buffer 28 4 record.length.toNat

/-- The word of a date. -/
def packDate (date : Date) : Except Fault UInt16 := do
  let years ← sub date.year Date.minYear
  return UInt16.ofNat (years * 512 + date.month * 32 + date.day)

/-- The record with a base and an extension. -/
def made (base extension : List Char) (kind : Kind) (first : UInt16) (length : UInt32)
    (created : Timestamp) : Except Fault Record := do
  let name ← paddedField 8 (Utf8.encode (String.ofList base))
  let extension ← paddedField 3 (Utf8.encode (String.ofList extension))
  let date ← packDate created.date
  return {
    name
    extension
    kind
    occupied := true
    time := created.time.pack
    date
    first
    length }

/-- The record of an entry created at the given instant. -/
def new (name : String) (kind : Kind) (first : UInt16) (length : UInt32) (created : Timestamp) :
    GuardedDisk Record := do
  let parts := if name == Name.dot || name == Name.dotdot then pure (name.toList, [])
    else Name.split name kind
  let (base, extension) ← (DiskM.ofExcept parts : DiskM _)
  made base extension kind first length created

end Record

/-! ### Superblocks -/

namespace Superblock

/-- The superblock in the given bytes. -/
def ofBytes (bytes : Bytes) : Except Fault Superblock := do
  let information ← stretch bytes 0 Superblock.informationSize
  let text ← trimZeros information information.length
  let root ← number bytes 200 2
  let dataStart ← number bytes 202 2
  let magic ← number bytes 204 4
  let blockSize ← number bytes 208 4
  let numBlocks ← number bytes 212 4
  return {
    information := Utf8.decodeLossy text
    root := UInt16.ofNat root
    dataStart := UInt16.ofNat dataStart
    magic := UInt32.ofNat magic
    blockSize := UInt32.ofNat blockSize
    numBlocks := UInt32.ofNat numBlocks }

/-- The buffer with the bytes of a superblock. -/
def toBytes (superblock : Superblock) (buffer : Bytes) : Except Fault Bytes := do
  let information := Utf8.encode superblock.information
  let length := min information.length (← sub Superblock.informationSize 1)
  let buffer := List.replicate buffer.length 0
  let buffer ← copyOver buffer 0 length (← stretch information 0 length)
  let buffer ← putNumber buffer 200 2 superblock.root.toNat
  let buffer ← putNumber buffer 202 2 superblock.dataStart.toNat
  let buffer ← putNumber buffer 204 4 superblock.magic.toNat
  let buffer ← putNumber buffer 208 4 superblock.blockSize.toNat
  putNumber buffer 212 4 superblock.numBlocks.toNat

end Superblock

/-! ### Records on disk -/

namespace Directory

open FatVolume.Directory (checkLocation)

/-- The record that a block holds in a slot. -/
def recordIn (content : Block) (slot : Nat) : Except Fault Record := do
  let offset ← mul wordSize slot recordSize
  Record.ofBytes (← stretch content.toList offset (← add wordSize offset recordSize))

/-- The record at a location. -/
def readRecord (location : Location) : GuardedDisk Record := do
  checkLocation location
  recordIn (← readBlock location.block) location.slot

/-- Puts a record at a location. -/
def writeRecord (location : Location) (record : Record) : GuardedDisk Unit := do
  checkLocation location
  let content ← readBlock location.block
  let offset ← mul wordSize location.slot recordSize
  let stop ← add wordSize offset recordSize
  let bytes ← Record.toBytes record (← stretch content.toList offset stop)
  writeBlock location.block (← copyOver content.toList offset stop bytes)

end Directory

/-! ### The guards hold -/

/-- A list is gone through without a fault if no element of it causes one. -/
theorem mapM_eq_ok {α β : Type} {list : List α} {partially : α → Except Fault β} {f : α → β}
    (h : ∀ a ∈ list, partially a = .ok (f a)) :
  list.mapM partially = .ok (list.map f)
  := by
  induction list with
  | nil => rfl
  | cons a rest ih =>
      rw [List.mapM_cons, h a List.mem_cons_self, ih fun b hb => h b (List.mem_cons_of_mem _ hb)]
      rfl

theorem number_eq {buffer : Bytes} {offset width : Nat} (h : offset + width ≤ buffer.length)
    (small : buffer.length < 2 ^ 32) :
  number buffer offset width = .ok (Bytes.value ((buffer.drop offset).take width))
  := by
  have digit (i : Nat) (hi : i ∈ List.range width) :
      (do item buffer (← add wordSize offset i)) = Except.ok (buffer.getD (offset + i) 0) := by
    have := List.mem_range.mp hi
    rw [add_word (by omega)]
    exact (item_eq (by omega)).trans (by rw [List.getD_eq_getElem _ _ (by omega)])
  have digits : (List.range width).map (fun i => buffer.getD (offset + i) 0)
      = (buffer.drop offset).take width := by
    apply List.ext_getElem
    · simp
      omega
    · intro i hi hi'
      simp only [List.length_map, List.length_range] at hi
      rw [List.getElem_map, List.getElem_range, List.getElem_take, List.getElem_drop,
        List.getD_eq_getElem _ _ (by omega)]
  rw [number, mapM_eq_ok digit, digits]
  rfl

/-- Zeros are taken away from the end on, at most all of them; no name is too short or too long for
that. -/
theorem trimZeros_eq {bytes : Bytes} {stop : Nat} (h : stop ≤ bytes.length) :
  trimZeros bytes stop = .ok (Bytes.trimZeros (bytes.take stop))
  := by
  induction stop with
  | zero => rfl
  | succ stop ih =>
      have final : bytes.take (stop + 1) = bytes.take stop ++ [bytes[stop]] :=
        (List.take_append_getElem h).symm
      rw [trimZeros, item_eq h, ok_bind, Bytes.trimZeros, final, List.reverse_append,
        List.reverse_singleton, List.singleton_append]
      by_cases zero : bytes[stop] = 0
      · rw [if_pos zero, ih (by omega), List.dropWhile_cons_of_pos (by simpa using zero)]
        rfl
      · rw [if_neg zero, List.dropWhile_cons_of_neg (by simpa using zero),
          stretch_eq (Nat.zero_le _) h, List.drop_zero, Nat.sub_zero, List.reverse_cons,
          List.reverse_reverse, final]

theorem field_eq {width : Nat} {bytes : Bytes} (h : bytes.length = width) :
  field width bytes = .ok (Bytes.padded width bytes)
  := if_pos h

/-! ### Buffers that are filled from the left -/

/-- What is copied behind the bytes that a buffer starts with extends them. -/
theorem copyOver_padded {n start stop : Nat} {before source : Bytes} (h : before.length = start)
    (h' : start + source.length = stop) (fits : stop ≤ n) :
  copyOver (Bytes.padded n before).toList start stop source
    = .ok (Bytes.padded n (before ++ source)).toList
  := by
  have whole : (Bytes.padded n before).toList.length = n := Vector.length_toList
  rw [copyOver_eq h' (by rwa [whole]), Bytes.toList_padded, Bytes.toList_padded,
    List.take_of_length_le (by omega : before.length ≤ n),
    List.take_of_length_le (by rw [List.length_append]; omega : (before ++ source).length ≤ n),
    List.take_left' h, List.drop_append, List.drop_of_length_le (by omega),
    List.drop_replicate, List.length_append, List.nil_append]
  congr 3
  omega

theorem putByte_padded {n i : Nat} {before : Bytes} (h : before.length = i) (fits : i < n)
    (b : UInt8) :
  putByte (Bytes.padded n before).toList i b = .ok (Bytes.padded n (before ++ [b])).toList
  := copyOver_padded h rfl fits

theorem putNumber_padded {n offset width : Nat} {before : Bytes} (h : before.length = offset)
    (fits : offset + width ≤ n) (small : n < 2 ^ 32) (value : Nat) :
  putNumber (Bytes.padded n before).toList offset width value
    = .ok (Bytes.padded n (before ++ Bytes.littleEndian width value)).toList
  := by
  rw [putNumber, add_word (by omega)]
  exact copyOver_padded h (by rw [Bytes.length_littleEndian]) fits

/-- Zeros behind the bytes that a buffer starts with are there already. -/
theorem padded_append_zeros {n k : Nat} {before : Bytes} (fits : before.length + k ≤ n) :
  Bytes.padded n (before ++ List.replicate k 0) = Bytes.padded n before
  := by
  apply Vector.toList_inj.mp
  rw [Bytes.toList_padded, Bytes.toList_padded, List.take_of_length_le (by simpa using fits),
    List.take_of_length_le (by omega), List.append_assoc, List.length_append,
    List.length_replicate, List.replicate_append_replicate]
  congr 2
  omega

/-- A buffer that is erased holds zeros. -/
theorem copyOver_zeros {n : Nat} {buffer : Bytes} (h : buffer.length = n) :
  copyOver buffer 0 n (List.replicate n 0) = .ok (Bytes.padded n []).toList
  := by
  rw [copyOver_eq (by simp) h.ge, List.drop_of_length_le h.le, Bytes.toList_padded]
  simp

theorem paddedField_eq {width : Nat} {bytes : Bytes} (fits : bytes.length ≤ width) :
  paddedField width bytes = .ok (Bytes.padded width bytes)
  := by
  have zeros : List.replicate width (0 : UInt8) = (Bytes.padded width []).toList := by
    rw [Bytes.toList_padded]
    simp
  rw [paddedField, zeros, copyOver_padded List.length_nil (Nat.zero_add _) fits, ok_bind,
    field_eq Vector.length_toList, List.nil_append, Bytes.padded_toList]

end Guarded

namespace Record

open Guarded

/-- The fields of a record are read from a slot. -/
theorem ofBytes_guarded {bytes : Bytes} (h : bytes.length = recordSize) :
  Guarded.Record.ofBytes bytes = .ok (ofBytes bytes)
  := by
  unfold recordSize at h
  have name : Bytes.padded 8 (bytes.take 8) = Bytes.padded 8 bytes := by
    apply Vector.toList_inj.mp
    rw [Bytes.toList_padded, Bytes.toList_padded, List.take_take, List.length_take]
    congr 2
    omega
  have extension : Bytes.padded 3 ((bytes.drop 8).take 3) = Bytes.padded 3 (bytes.drop 8) := by
    apply Vector.toList_inj.mp
    rw [Bytes.toList_padded, Bytes.toList_padded, List.take_take, List.length_take,
      List.length_drop]
    congr 2
    omega
  have fields : stretch bytes 0 8 = .ok (bytes.take 8)
      ∧ stretch bytes 8 11 = .ok ((bytes.drop 8).take 3) :=
    ⟨stretch_eq (by omega) (by omega), stretch_eq (by omega) (by omega)⟩
  have byte (i : Nat) (hi : i < 32) : item bytes i = .ok (bytes.getD i 0) := by
    rw [item_eq (by omega), List.getD_eq_getElem _ _ (by omega)]
  have digits (offset width : Nat) (hw : offset + width ≤ 32) :
      number bytes offset width = .ok (Bytes.value ((bytes.drop offset).take width)) :=
    number_eq (by omega) (by omega)
  rw [Guarded.Record.ofBytes, fields.1, ok_bind, field_eq (by simp; omega), ok_bind, fields.2,
    ok_bind, field_eq (by simp; omega), ok_bind, byte 11 (by decide), ok_bind,
    byte 12 (by decide), ok_bind, digits 22 2 (by decide), ok_bind, digits 24 2 (by decide),
    ok_bind, digits 26 2 (by decide), ok_bind, digits 28 4 (by decide), ok_bind, name, extension]
  rfl

/-- The fields of a record are put into a slot. -/
theorem toBytes_guarded (record : Record) {buffer : Bytes} (h : buffer.length = recordSize) :
  Guarded.Record.toBytes record buffer = .ok record.toBytes
  := by
  have name : record.name.toList.length = 8 := Vector.length_toList
  have extension : record.extension.toList.length = 3 := Vector.length_toList
  rw [Guarded.Record.toBytes, copyOver_zeros h, ok_bind,
    copyOver_padded List.length_nil (by rw [name]) (by decide), ok_bind, List.nil_append,
    copyOver_padded name (by rw [extension]) (by decide), ok_bind,
    putByte_padded (by simp) (by decide), ok_bind, putByte_padded (by simp) (by decide), ok_bind,
    ← padded_append_zeros (by simp [recordSize] : _ + 9 ≤ recordSize),
    putNumber_padded (by simp) (by decide) (by decide), ok_bind,
    putNumber_padded (by simp) (by decide) (by decide), ok_bind,
    putNumber_padded (by simp) (by decide) (by decide), ok_bind,
    putNumber_padded (by simp) (by decide) (by decide), Bytes.toList_padded_of_length (by simp)]
  simp [FatVolume.Record.toBytes]

/-- A record is made of parts that fit into their fields. -/
theorem made_guarded {base extension : List Char} (kind : Kind) (first : UInt16) (length : UInt32)
    (created : Timestamp) (hbase : (Utf8.encode (String.ofList base)).length ≤ 8)
    (hextension : (Utf8.encode (String.ofList extension)).length ≤ 3) :
  Guarded.Record.made base extension kind first length created
    = .ok (made base extension kind first length created)
  := by
  have date : Guarded.Record.packDate created.date = .ok created.date.pack := by
    rw [Guarded.Record.packDate, sub_eq created.date.minYear_le]
    rfl
  rw [Guarded.Record.made, paddedField_eq hbase, ok_bind, paddedField_eq hextension, ok_bind, date]
  rfl

open DiskM

theorem faultless_made {base extension : List Char} (kind : Kind) (first : UInt16)
    (length : UInt32) (created : Timestamp)
    (hbase : (Utf8.encode (String.ofList base)).length ≤ 8)
    (hextension : (Utf8.encode (String.ofList extension)).length ≤ 3) :
  Faultless (liftM (Guarded.Record.made base extension kind first length created))
    (pure (made base extension kind first length created)) fun record => record.first = first
  := by
  rw [made_guarded kind first length created hbase hextension]
  exact faultless_pure rfl

/-- Names that are accepted fit into the fields of a record. -/
theorem faultless_new (name : String) (kind : Kind) (first : UInt16) (length : UInt32)
    (created : Timestamp) :
  Faultless (Guarded.Record.new name kind first length created)
    (DiskM.ofExcept (new name kind first length created)) fun record => record.first = first
  := by
  unfold Guarded.Record.new
  by_cases special : name = Name.dot ∨ name = Name.dotdot
  · have dots : (name == Name.dot || name == Name.dotdot) = true := by simpa using special
    rw [new_of_dot first length created special, if_pos dots]
    have fits : (Utf8.encode (String.ofList name.toList)).length ≤ 8 := by
      rcases special with rfl | rfl <;> decide
    exact faultless_made kind first length created fits (by decide)
  · have plain : (name == Name.dot || name == Name.dotdot) = false := by simpa using special
    rw [plain, if_neg Bool.false_ne_true]
    cases hsplit : Name.split name kind with
    | error e =>
        have refused : new name kind first length created = .error e := by
          rw [new, plain, if_neg Bool.false_ne_true, hsplit]
          rfl
        rw [refused]
        exact faultless_throw e
    | ok parts =>
        obtain ⟨base, extension⟩ := parts
        have accepted := Name.accepted_of_split hsplit
        have length_encode {text : List Char} {n : Nat} (fits : text.length ≤ n)
            (ascii : ∀ c ∈ text, 0 < c.toNat ∧ c.toNat < 0x80) :
            (Utf8.encode (String.ofList text)).length ≤ n := by
          rwa [Utf8.encode_of_isAscii fun c hc => (ascii c hc).2, List.length_map]
        rw [new_of_split first length created hsplit]
        exact faultless_made kind first length created
          (length_encode (Nat.le_succ_of_le accepted.length_base) accepted.ascii_base)
          (length_encode accepted.length_extension accepted.ascii_extension)

end Record

namespace Superblock

open Guarded

/-- The fields of a superblock are read from a block. -/
theorem ofBytes_guarded {bytes : Bytes} (h : bytes.length = FatVolume.blockSize) :
  Guarded.Superblock.ofBytes bytes = .ok (ofBytes bytes)
  := by
  unfold FatVolume.blockSize at h
  have information : stretch bytes 0 informationSize = .ok (bytes.take informationSize) :=
    stretch_eq (by omega) (by unfold informationSize; omega)
  have digits (offset width : Nat) (hw : offset + width ≤ 1024) :
      number bytes offset width = .ok (Bytes.value ((bytes.drop offset).take width)) :=
    number_eq (by omega) (by omega)
  have text : trimZeros (bytes.take informationSize) (bytes.take informationSize).length
      = .ok (Bytes.trimZeros (bytes.take informationSize)) := by
    rw [trimZeros_eq le_rfl, List.take_length]
  rw [Guarded.Superblock.ofBytes, information, ok_bind, text, ok_bind,
    digits 200 2 (by decide), ok_bind, digits 202 2 (by decide), ok_bind,
    digits 204 4 (by decide), ok_bind, digits 208 4 (by decide), ok_bind, digits 212 4 (by decide)]
  rfl

/-- The fields of a superblock are put into a buffer of the size of a block. -/
theorem toBytes_guarded (superblock : Superblock) {buffer : Bytes}
    (h : buffer.length = FatVolume.blockSize) :
  Guarded.Superblock.toBytes superblock buffer = .ok superblock.toBlock.toList
  := by
  have fresh : List.replicate buffer.length (0 : UInt8)
      = (Bytes.padded FatVolume.blockSize []).toList := by
    rw [h, Bytes.toList_padded]
    simp
  obtain ⟨text, htext⟩ : ∃ text, text
      = (Utf8.encode superblock.information).take (informationSize - 1) := ⟨_, rfl⟩
  have length : min (Utf8.encode superblock.information).length (informationSize - 1)
      = text.length := by
    rw [htext, List.length_take, Nat.min_comm]
  have short : text.length < 200 := by
    rw [← length]
    unfold informationSize
    omega
  have cut : stretch (Utf8.encode superblock.information) 0 text.length = .ok text := by
    rw [stretch_eq (Nat.zero_le _) (by omega), List.drop_zero, Nat.sub_zero, ← length,
      ← List.take_take, List.take_of_length_le (List.length_take_le' _ _), htext]
  have information : text ++ List.replicate (200 - text.length) 0
      = (Bytes.padded informationSize text).toList := by
    rw [Bytes.toList_padded, List.take_of_length_le short.le]
  have width : (Bytes.padded informationSize text).toList.length = 200 := Vector.length_toList
  have within : text.length + (200 - text.length) ≤ FatVolume.blockSize := by
    unfold FatVolume.blockSize
    omega
  rw [Guarded.Superblock.toBytes, sub_eq (by decide), ok_bind]
  dsimp only
  rw [length, cut, ok_bind, fresh,
    copyOver_padded List.length_nil (Nat.zero_add _) (short.le.trans (by decide)), ok_bind,
    List.nil_append, ← padded_append_zeros within, information,
    putNumber_padded width (by decide) (by decide), ok_bind,
    putNumber_padded (by simp) (by decide) (by decide), ok_bind,
    putNumber_padded (by simp) (by decide) (by decide), ok_bind,
    putNumber_padded (by simp) (by decide) (by decide), ok_bind,
    putNumber_padded (by simp) (by decide) (by decide), htext]
  rfl

end Superblock

namespace Directory

open DiskM Guarded

/-- A slot lies within its block. -/
theorem slot_guarded {slot : Nat} (h : slot < slotsPerBlock) (content : Block) :
  mul wordSize slot recordSize = .ok (slot * recordSize)
    ∧ add wordSize (slot * recordSize) recordSize = .ok (slot * recordSize + recordSize)
    ∧ slot * recordSize + recordSize ≤ content.toList.length
    ∧ stretch content.toList (slot * recordSize) (slot * recordSize + recordSize)
      = .ok (content.slice (slot * recordSize) recordSize)
  := by
  have within : slot * recordSize + recordSize ≤ content.toList.length := by
    rw [Vector.length_toList]
    unfold slotsPerBlock blockSize recordSize at *
    omega
  have small : content.toList.length < 2 ^ 32 := by
    rw [Vector.length_toList]
    decide
  refine ⟨mul_word (by omega), add_word (by omega), within, ?_⟩
  rw [stretch_eq (Nat.le_add_right _ _) within, Nat.add_sub_cancel_left]
  rfl

theorem length_slice {slot : Nat} (h : slot < slotsPerBlock) (content : Block) :
  (content.slice (slot * recordSize) recordSize).length = recordSize
  := by
  obtain ⟨-, -, within, -⟩ := slot_guarded h content
  rw [Block.slice, List.length_take, List.length_drop]
  omega

theorem recordIn_guarded {slot : Nat} (h : slot < slotsPerBlock) (content : Block) :
  Guarded.Directory.recordIn content slot = .ok (recordIn content slot)
  := by
  obtain ⟨offset, stop, -, cut⟩ := slot_guarded h content
  rw [Guarded.Directory.recordIn, offset, ok_bind, stop, ok_bind, cut, ok_bind,
    Record.ofBytes_guarded (length_slice h content)]
  rfl

theorem returns_checkLocation (location : Location) :
  (checkLocation location).Returns fun _ => location.slot < slotsPerBlock
  := by
  unfold checkLocation
  split_ifs with h
  · exact returns_pure h
  · exact returns_throw _

variable {location : Location} (h : location.block < numBlocks)
include h

theorem faultless_readRecord :
  Faultless (Guarded.Directory.readRecord location) (readRecord location) fun _ => True
  := by
  apply (faultless_lift (returns_checkLocation location)).bind
  intro _ inside
  apply (faultless_readBlock h).bind
  intro content _
  rw [recordIn_guarded inside]
  exact faultless_pure trivial

theorem faultless_writeRecord (record : Record) :
  Faultless (Guarded.Directory.writeRecord location record) (writeRecord location record)
    fun _ => True
  := by
  apply (faultless_lift (returns_checkLocation location)).bind
  intro _ inside
  apply (faultless_readBlock h).bind
  intro content _
  obtain ⟨offset, stop, within, cut⟩ := slot_guarded inside content
  rw [Vector.length_toList] at within
  apply Faultless.guard offset
  apply Faultless.guard stop
  apply Faultless.guard cut
  apply Faultless.guard (Record.toBytes_guarded record (length_slice inside content))
  exact faultless_splice h (by rw [Record.length_toBytes]) within

end Directory

end FatVolume
