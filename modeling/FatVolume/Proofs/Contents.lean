import FatVolume.Proofs.Effects
import FatVolume.Proofs.Reading

/-!
# Reading contents

The content in a chain that is long enough has the length that is asked for.  Reading visits only
the blocks that hold the stretch it is asked for, and gives this stretch of the content.
-/

namespace FatVolume

/-! ### Stretches of concatenated parts -/

section Uniform

variable {α β : Type} {part : α → List β} {size : Nat} (uniform : ∀ a, (part a).length = size)
include uniform

theorem length_flatMap_of_uniform (list : List α) :
  (list.flatMap part).length = list.length * size
  := by
  simp [List.length_flatMap, uniform]

/-- Leaving out parts of one size leaves out what they hold. -/
theorem flatMap_drop_of_uniform (list : List α) (count : Nat) :
  (list.drop count).flatMap part = (list.flatMap part).drop (count * size)
  := by
  induction list generalizing count with
  | nil => simp
  | cons a rest ih =>
      cases count with
      | zero => simp
      | succ count =>
          have split : (count + 1) * size = (part a).length + count * size := by
            rw [uniform, Nat.succ_mul, Nat.add_comm]
          rw [List.drop_succ_cons, ih, List.flatMap_cons, split,
            List.drop_length_add_append]

/-- The first parts of one size hold the beginning. -/
theorem flatMap_take_of_uniform (list : List α) (count : Nat) :
  (list.take count).flatMap part = (list.flatMap part).take (count * size)
  := by
  have whole : (list.take count).flatMap part ++ (list.drop count).flatMap part
      = list.flatMap part := by
    rw [← List.flatMap_append, List.take_append_drop]
  rw [flatMap_drop_of_uniform uniform] at whole
  by_cases inside : count ≤ list.length
  · have length : ((list.take count).flatMap part).length = count * size := by
      rw [length_flatMap_of_uniform uniform, List.length_take, Nat.min_eq_left inside]
    rw [← whole, List.take_left' length]
  · have all : list.length ≤ count := by omega
    rw [List.take_of_length_le all, List.take_of_length_le]
    rw [length_flatMap_of_uniform uniform]
    exact Nat.mul_le_mul_right size all

end Uniform

/-! ### Contents of chains -/

variable {image : Image} {first length : Nat} {blocks : List Nat}

theorem Image.length_block (image : Image) (b : Nat) :
  (image.block b).toList.length = blockSize
  := Vector.length_toList

/-- The bytes in blocks, one block after the other. -/
def Image.bytesIn (image : Image) (blocks : List Nat) : Bytes :=
  blocks.flatMap fun b => (image.block b).toList

theorem Image.length_bytesIn (image : Image) (blocks : List Nat) :
  (image.bytesIn blocks).length = blocks.length * blockSize
  := length_flatMap_of_uniform image.length_block blocks

/-- A content has its length if its chain is long enough. -/
theorem Image.length_contentOf (span : blocksFor length ≤ (image.blocksOf first).length) :
  (image.contentOf first length).length = length
  := by
  rw [contentOf, List.length_take, length_flatMap_of_uniform image.length_block]
  apply Nat.min_eq_left
  exact Nat.le_trans (le_blocksFor_mul length) (Nat.mul_le_mul_right blockSize span)

namespace OpenFile

open DiskM

/-- A chain lacks some of the blocks from that of the first byte of a stretch to that of its last
exactly if the stretch ends behind the chain. -/
theorem length_drop_take_lt_iff {offset available : Nat} (some_bytes : 0 < available) :
  ((blocks.drop (offset / blockSize)).take
      ((offset % blockSize + available + (blockSize - 1)) / blockSize)).length
    < (offset % blockSize + available + (blockSize - 1)) / blockSize
    ↔ blocks.length * blockSize < offset + available
  := by
  rw [List.length_take, List.length_drop]
  unfold blockSize
  omega

/-- The blocks of a stretch hold its bytes. -/
theorem take_drop_stretch (image : Image) (blocks : List Nat) (offset available : Nat) :
  ((((blocks.drop (offset / blockSize)).take
      ((offset % blockSize + available + (blockSize - 1)) / blockSize)).flatMap fun b =>
        (image.block b).toList).drop (offset % blockSize)).take available
    = ((image.bytesIn blocks).drop offset).take available
  := by
  have start : offset / blockSize * blockSize + offset % blockSize = offset :=
    Nat.div_add_mod' offset blockSize
  have enough : available
      ≤ (offset % blockSize + available + (blockSize - 1)) / blockSize * blockSize
        - offset % blockSize := by
    unfold blockSize
    omega
  rw [flatMap_take_of_uniform image.length_block, flatMap_drop_of_uniform image.length_block,
    ← Image.bytesIn, List.drop_take, List.take_take, List.drop_drop, start,
    Nat.min_eq_left enough]

/-- Reading gives the bytes from `offset` up to the end of what is asked for or of the content,
unless the chain lacks a block of them. -/
theorem exec_readRange_of_isChain (hchain : image.table.IsChain first blocks)
    (offset count : Nat) :
  (readRange first length offset count).exec image
    = (if offset < min (offset + count) length
          ∧ blocks.length * blockSize < min (offset + count) length
        then .error (.corrupted (.chainTooShort first))
        else .ok (((image.bytesIn blocks).take (min (offset + count) length)).drop offset), image)
  := by
  have available : min (offset + count) length - offset = min count (length - offset) := by omega
  rw [readRange]
  by_cases nothing : min count (length - offset) = 0
  · have empty : ¬offset < min (offset + count) length := by omega
    rw [if_pos nothing, if_neg fun short => empty short.1, exec_pure, List.drop_take, available,
      nothing, List.take_zero]
  have within : offset < min (offset + count) length := by omega
  have stop : offset + min count (length - offset) = min (offset + count) length := by omega
  have inside : ∀ b ∈ (blocks.drop (offset / blockSize)).take
      ((offset % blockSize + min count (length - offset) + (blockSize - 1)) / blockSize),
      b < numBlocks := by
    intro b hb
    have := hchain.lt_length (List.mem_of_mem_drop (List.mem_of_mem_take hb))
    rwa [Image.length_table] at this
  have parts := exec_mapM image.block fun b hb => exec_readBlock image (inside b hb)
  rw [if_neg nothing, exec_bind_of_ok (Allocation.exec_chain_of_isChain hchain)]
  dsimp only
  rw [exec_bind_of_ok parts]
  simp only [length_drop_take_lt_iff (Nat.pos_of_ne_zero nothing), stop, within, true_and]
  split_ifs with short
  · rfl
  · rw [exec_pure, List.flatMap_map, take_drop_stretch, List.drop_take, available]

/-- Reading gives a stretch of the content if the chain is long enough. -/
theorem exec_readRange (hchain : image.table.IsChain first blocks)
    (span : blocksFor length ≤ blocks.length) (offset count : Nat) :
  (readRange first length offset count).exec image
    = (.ok (((image.contentOf first length).drop offset).take count), image)
  := by
  have enough : length ≤ blocks.length * blockSize :=
    Nat.le_trans (le_blocksFor_mul length) (Nat.mul_le_mul_right blockSize span)
  have whole : ¬(offset < min (offset + count) length
      ∧ blocks.length * blockSize < min (offset + count) length) := by omega
  have content : image.contentOf first length = (image.bytesIn blocks).take length := by
    rw [Image.contentOf, Image.blocksOf_eq hchain, Image.bytesIn]
  rw [exec_readRange_of_isChain hchain, if_neg whole, content, List.drop_take, List.drop_take,
    List.take_take]
  congr 3
  omega

variable {file : OpenFile} {count : Nat}

theorem exec_read_of_isDirectory (hdir : file.record.isDirectory = true) :
  (file.read count).exec image = (.error .notFile, image)
  := by
  rw [read, if_pos hdir, exec_bind_of_error (exec_throw _ _)]

/-- Reading from an open file gives what follows the cursor and moves the cursor past it. -/
theorem exec_read (isFile : file.record.isDirectory = false)
    (hchain : image.table.IsChain file.record.first.toNat blocks)
    (span : blocksFor file.record.length.toNat ≤ blocks.length) (count : Nat) :
  ∃ bytes, bytes = ((image.contentOf file.record.first.toNat
        file.record.length.toNat).drop file.cursor).take count
    ∧ (file.read count).exec image
      = (.ok (bytes, { file with cursor := file.cursor + bytes.length }), image)
  := by
  refine ⟨_, rfl, ?_⟩
  rw [read, isFile, if_neg Bool.false_ne_true,
    exec_bind_of_ok (exec_readRange hchain span file.cursor count), exec_pure]

end OpenFile

/-! ### Open files -/

namespace Session

variable {session : Session} {handle : Handle} {file : OpenFile}

/-- The chain of an open file has as many blocks as its working length needs. -/
theorem Coherent.chain_of_open (h : session.Coherent image)
    (hfile : session.openFiles.get? handle = some file)
    (isFile : file.record.isDirectory = false) :
  image.table.IsChain file.record.first.toNat (image.blocksOf file.record.first.toNat)
    ∧ (image.blocksOf file.record.first.toNat).length = blocksFor file.record.length.toNat
  := by
  obtain ⟨names, name, e, hnames, hpath, he, tracks⟩ := h.exists_path hfile isFile
  have length : session.lengthOf (names ++ [name]) e = file.record.length.toNat :=
    h.lengthOf_of_open hnames hfile hpath
  refine ⟨(h.isChain_of_open hfile).1, ?_⟩
  rw [tracks.first_eq, ← length]
  exact h.sound.spans he

end Session

end FatVolume
