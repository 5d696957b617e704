import FatVolume.Proofs.CutText
import FatVolume.Proofs.Formatting
import FatVolume.Proofs.GuardedRecords

/-!
# The encoding of superblocks

The numbers of a superblock come back from its block, and so does a text that fits into its field
and does not end with null characters.  A longer text is cut, possibly inside a character.  What is
read then has a replacement character at its end, which may itself be cut when it is stored, but is
read as the same one again: storing what was read changes nothing.
-/

namespace FatVolume.Superblock

/-! ### Bytes that are not used -/

/-- The bytes of a text that are kept: the field has room for a zero behind them. -/
def keptBytes (text : String) : Bytes :=
  (Utf8.encode text).take (informationSize - 1)

/-- The place in a block is filled by the text of a superblock or by one of its numbers. -/
def Fills (s : Superblock) (i : Nat) : Prop :=
  i < min (Utf8.encode s.information).length (informationSize - 1)
    ∨ informationSize ≤ i ∧ i < informationSize + 16

theorem length_keptBytes (text : String) :
  (keptBytes text).length = min (Utf8.encode text).length (informationSize - 1)
  := by
  rw [keptBytes, List.length_take, Nat.min_comm]

/-- The bytes of the numbers of a superblock. -/
def numberBytes (s : Superblock) : Bytes :=
  Bytes.littleEndian 2 s.root.toNat ++ Bytes.littleEndian 2 s.dataStart.toNat
    ++ Bytes.littleEndian 4 s.magic.toNat ++ Bytes.littleEndian 4 s.blockSize.toNat
    ++ Bytes.littleEndian 4 s.numBlocks.toNat

/-- The text with the zeros behind it fills its field. -/
theorem length_textField (text : String) :
  (keptBytes text ++ List.replicate (informationSize - (keptBytes text).length) (0 : UInt8)).length
    = informationSize
  := by
  have kept := length_keptBytes text
  rw [List.length_append, List.length_replicate]
  unfold informationSize at *
  omega

/-- A block holds the text, zeros up to the numbers, the numbers, and zeros up to its end. -/
theorem toList_toBlock (s : Superblock) :
  s.toBlock.toList = keptBytes s.information
    ++ List.replicate (informationSize - (keptBytes s.information).length) 0
    ++ s.numberBytes ++ List.replicate (FatVolume.blockSize - (informationSize + 16)) 0
  := by
  have short : s.toBytes.length ≤ FatVolume.blockSize := by
    rw [length_toBytes]
    decide
  have text : (keptBytes s.information).length ≤ informationSize := by
    rw [length_keptBytes]
    unfold informationSize
    omega
  rw [toBlock, Block.ofBytes, Bytes.toList_padded, List.take_of_length_le short, length_toBytes,
    toBytes, ← keptBytes, Bytes.toList_padded, List.take_of_length_le text, numberBytes]
  simp only [List.append_assoc]

theorem toBlock_eq_zero (s : Superblock) {i : Nat} (h : i < FatVolume.blockSize)
    (unused : ¬s.Fills i) :
  s.toBlock[i] = 0
  := by
  have kept := length_keptBytes s.information
  have field := length_textField s.information
  have numbers : s.numberBytes.length = 16 := by simp [numberBytes]
  have place : s.toBlock.toList[i]? = some 0 := by
    unfold Fills at unused
    rw [toList_toBlock]
    rcases Nat.lt_or_ge i informationSize with inside | beyond
    · rw [List.append_assoc, List.getElem?_append_left (by omega),
        List.getElem?_append_right (by omega), List.getElem?_replicate, if_pos (by omega)]
    · rw [List.getElem?_append_right (by rw [List.length_append]; omega), List.length_append,
        List.getElem?_replicate, if_pos]
      unfold FatVolume.blockSize at *
      omega
  rw [Vector.getElem?_toList, Vector.getElem?_eq_getElem h] at place
  apply Option.some.inj place

/-! ### Texts -/

/-- The text that is read back after a text was stored. -/
def readText (text : String) : String :=
  Utf8.decodeLossy (Bytes.trimZeros (keptBytes text))

theorem information_ofBlock_toBlock (s : Superblock) :
  (ofBlock s.toBlock).information = readText s.information
  := by
  have field : s.toBlock.toList.take informationSize = keptBytes s.information
      ++ List.replicate (informationSize - (keptBytes s.information).length) 0 := by
    rw [toList_toBlock, List.append_assoc, List.take_left' (length_textField _)]
  rw [ofBlock, ofBytes, field]
  dsimp only
  rw [Bytes.trimZeros_append_replicate_zero, readText]

section Kept

variable {text : String} {before : List Char} {rest : Bytes}

/-- Whole characters are read back without the null characters at their end. -/
theorem readText_of_whole (kept : keptBytes text = before.flatMap String.utf8EncodeChar) :
  readText text = String.ofList (before.rdropWhile (· == '\x00'))
  := by
  rw [readText, kept, Utf8.trimZeros_flatMap, Utf8.decodeLossy_flatMap]

/-- A cut character is read as a replacement character. -/
theorem readText_of_cut (kept : keptBytes text = before.flatMap String.utf8EncodeChar ++ rest)
    (cut : Utf8.IsCut rest) :
  readText text = String.ofList (before ++ ['\uFFFD'])
  := by
  rw [readText, kept, cut.trimZeros_append, cut.decodeLossy_append]

/-- A text that fits and does not end with a null character is read back. -/
theorem readText_eq_self (fits : (Utf8.encode text).length ≤ informationSize - 1)
    (final : text.toList.getLast? ≠ some '\x00') :
  readText text = text
  := by
  have whole : text.toList.rdropWhile (· == '\x00') = text.toList := by
    rw [List.rdropWhile_eq_self_iff]
    intro nonempty null
    apply final
    rw [List.getLast?_eq_some_getLast nonempty, eq_of_beq null]
  have kept : keptBytes text = text.toList.flatMap String.utf8EncodeChar := by
    rw [keptBytes, List.take_of_length_le fits, Utf8.encode]
  rw [readText_of_whole kept, whole, String.ofList_toList]

/-- Whole characters that were read are read again. -/
theorem readText_readText_of_whole
    (kept : keptBytes text = before.flatMap String.utf8EncodeChar) :
  readText (readText text) = readText text
  := by
  have length := length_keptBytes text
  rw [readText_of_whole kept]
  apply readText_eq_self
  · have shorter := ((List.rdropWhile_prefix (· == '\x00') before).flatMap
      String.utf8EncodeChar).length_le
    rw [← kept] at shorter
    rw [Utf8.encode, String.toList_ofList]
    omega
  · rw [String.toList_ofList]
    intro null
    obtain ⟨nonempty, final⟩ := List.mem_getLast?_eq_getLast (Option.mem_def.mpr null)
    apply List.rdropWhile_last_not (· == '\x00') before nonempty
    rw [← final, beq_self_eq_true]

/-- A replacement character that was read for a cut one is kept or cut itself, and read again in
both cases. -/
theorem readText_readText_of_cut
    (kept : keptBytes text = before.flatMap String.utf8EncodeChar ++ rest)
    (cut : Utf8.IsCut rest)
    (full : (before.flatMap String.utf8EncodeChar ++ rest).length = informationSize - 1) :
  readText (readText text) = readText text
  := by
  have three : (String.utf8EncodeChar '\uFFFD').length = 3 := rfl
  have stored : Utf8.encode (String.ofList (before ++ ['\uFFFD']))
      = before.flatMap String.utf8EncodeChar ++ String.utf8EncodeChar '\uFFFD' := by
    rw [Utf8.encode, String.toList_ofList, List.flatMap_append, List.flatMap_singleton]
  rw [List.length_append] at full
  rw [readText_of_cut kept cut]
  rcases Nat.lt_or_ge rest.length 3 with short | long
  · have again : keptBytes (String.ofList (before ++ ['\uFFFD']))
        = before.flatMap String.utf8EncodeChar
          ++ (String.utf8EncodeChar '\uFFFD').take rest.length := by
      rw [keptBytes, stored, ← full, List.take_length_add_append]
    apply readText_of_cut again
    exact ⟨_, _, cut.length_lt.1, by rwa [three], rfl⟩
  · apply readText_eq_self
    · rw [stored, List.length_append, three]
      omega
    · rw [String.toList_ofList, List.getLast?_concat]
      decide

end Kept

/-- What was read is read again after it was stored. -/
theorem readText_readText (text : String) :
  readText (readText text) = readText text
  := by
  obtain ⟨before, rest, kept, rfl | ⟨cut, full⟩⟩ :=
    Utf8.exists_take_flatMap text.toList (informationSize - 1)
  · rw [List.append_nil] at kept
    apply readText_readText_of_whole kept
  · apply readText_readText_of_cut kept cut full

open Guarded in
/-- A superblock is put into a block over anything that stood there.  What it does not fill is zero,
its numbers come back, and with them its text if this fits and does not end with a null character.
What came back comes back again. -/
theorem encoding_laws (s : Superblock) (before : Block) :
  Guarded.Superblock.toBytes s before.toList = .ok s.toBlock.toList
  ∧ Guarded.Superblock.ofBytes s.toBlock.toList = .ok (ofBlock s.toBlock)
  ∧ (∀ i (_ : i < FatVolume.blockSize), ¬s.Fills i → s.toBlock[i] = 0)
  ∧ s.toBlock[informationSize - 1] = 0
  ∧ ofBlock s.toBlock = { s with information := (ofBlock s.toBlock).information }
  ∧ ((Utf8.encode s.information).length ≤ informationSize - 1 →
      s.information.toList.getLast? ≠ some '\x00' → ofBlock s.toBlock = s)
  ∧ ofBlock (ofBlock s.toBlock).toBlock = ofBlock s.toBlock
  := by
  refine ⟨toBytes_guarded s Vector.length_toList, ofBytes_guarded Vector.length_toList,
    fun i hi unused => s.toBlock_eq_zero hi unused, ?terminator, s.ofBlock_toBlock,
    fun fits final => ?fits, ?again⟩
  case terminator =>
    apply toBlock_eq_zero
    unfold Fills informationSize
    omega
  case fits =>
    rw [ofBlock_toBlock, information_ofBlock_toBlock, readText_eq_self fits final]
  case again =>
    rw [ofBlock_toBlock (ofBlock s.toBlock), information_ofBlock_toBlock,
      information_ofBlock_toBlock s, readText_readText, ← information_ofBlock_toBlock]

end FatVolume.Superblock
