import FatVolume.Proofs.GuardedDirectories
import FatVolume.Session.Transfer

/-!
# Guarded reading and writing

Reading goes from block to block of a chain, and writing grows a chain, puts a content over it and
cuts it.  The length that a record claims can be anything: a chain that is too short is noticed
before it is left, and a content that is too long before it is written.
-/

namespace FatVolume

/-! ### Reading and writing with guards -/

namespace Guarded

/-- The content after writing, and the position after the last byte written. -/
def WriteMode.apply (mode : WriteMode) (old new : Bytes) (cursor : Nat) :
    Except Fault (Bytes × Nat) :=
  match mode with
  | .overwrite => return (new, new.length)
  | .cover => do
      let start := min cursor old.length
      let stop ← add wordSize start new.length
      let grown := if old.length < stop then old ++ List.replicate (stop - old.length) 0 else old
      return (← copyOver grown start stop new, stop)
  | .append => return (old ++ new, (old ++ new).length)

namespace OpenFile

/-- One turn of reading: the bytes read before and those of a block from `offset` on, and the place
behind these. -/
def readTurn (first : Nat) (blocks : List Nat) (available : Nat) (before : Bytes) (offset : Nat) :
    GuardedDisk (Bytes × Nat) := do
  let some block := blocks[offset / blockSize]?
    | throwThe Error (.corrupted (.chainTooShort first))
  let content ← readBlock block
  let start := offset % blockSize
  let count := min (← sub blockSize start) (← sub available before.length)
  let bytes ← stretch content.toList start (← add wordSize start count)
  return (before ++ bytes, ← add wordSize offset count)

/-- Reads in turns until there are as many bytes as are available. -/
def readOn (first : Nat) (blocks : List Nat) (available : Nat) (before : Bytes) (offset : Nat) :
    GuardedDisk Bytes :=
  if _more : before.length < available then do
    let (bytes, further) ← readTurn first blocks available before offset
    if _longer : before.length < bytes.length then readOn first blocks available bytes further
    else throw .stuck
  else return before
termination_by available - before.length

/-- The bytes from `offset` on of the content of length `length` in the chain that starts at
`first`, at most `count` of them. -/
def readRange (first length offset count : Nat) : GuardedDisk Bytes := do
  let available := min count (length - offset)
  if available = 0 then return []
  readOn first (← Allocation.chain first) available [] offset

/-- Reads at most `count` bytes from the cursor on and moves the cursor past them. -/
def read (file : OpenFile) (count : Nat) : GuardedDisk (Bytes × OpenFile) := do
  if file.record.isDirectory then throwThe Error .notFile
  let bytes ←
    readRange file.record.first.toNat file.record.length.toNat file.cursor count
  return (bytes, { file with cursor := ← add wordSize file.cursor bytes.length })

/-- Lets free blocks follow the given blocks of a chain until there are as many as needed. -/
def grow (needed : Nat) (blocks : List Nat) : GuardedDisk (List Nat) :=
  if _few : blocks.length < needed then do
    let final ← item blocks (← sub blocks.length 1)
    let fresh ← Allocation.append final
    grow needed (blocks ++ [fresh])
  else return blocks
termination_by needed - blocks.length
decreasing_by
  rw [List.length_append, List.length_singleton]
  omega

/-- Puts the part of a content that belongs there into the block at an index of a chain. -/
def putChunk (content : Bytes) (block i : Nat) : GuardedDisk Unit := do
  let start ← mul wordSize i blockSize
  let stop ← add wordSize start blockSize
  let chunk ← stretch content (min start content.length) (min stop content.length)
  writeBlock block (← copyOver (List.replicate blockSize 0) 0 chunk.length chunk)

/-- Puts a content over the chain that starts at `first`, which becomes as long as the content
needs. -/
def store (first : Nat) (content : Bytes) : GuardedDisk Unit := do
  let blocks ← Allocation.chain first
  let needed := blocksFor content.length
  if blocks.length < needed then
    if (← Allocation.countFree) < (← sub needed blocks.length) then throwThe Error .outOfSpace
  let all ← grow needed blocks
  (all.take needed).zipIdx.forM fun (block, i) => putChunk content block i
  if needed < all.length then Allocation.truncate first needed

/-- Writes `new` as `mode` says and moves the cursor past the bytes written. -/
def write (file : OpenFile) (new : Bytes) (mode : WriteMode) : GuardedDisk OpenFile := do
  if file.record.isDirectory then throwThe Error .notFile
  let first := file.record.first.toNat
  let length := file.record.length.toNat
  let old ← readRange first length 0 length
  let (content, position) ← WriteMode.apply mode old new file.cursor
  store first content
  Program.log .debug .content
    (s!"wrote {new.length} bytes to {file.path} ({mode.describe}), "
      ++ s!"length {length} -> {content.length}")
  let length ← narrow 32 content.length
  return { file with
    record := { file.record with length := UInt32.ofNat length }
    cursor := position
    dirty := true }

end OpenFile

end Guarded

/-! ### The guards hold -/

open Guarded

/-- What covers the old content reaches no further than words do. -/
theorem WriteMode.apply_guarded (mode : WriteMode) {old new : Bytes} (cursor : Nat)
    (hold : old.length < 2 ^ 32) (hnew : new.length < 2 ^ 63) :
  Guarded.WriteMode.apply mode old new cursor = .ok (mode.apply old new cursor)
  := by
  cases mode with
  | overwrite => rfl
  | append => simp [Guarded.WriteMode.apply, WriteMode.apply, pure, Except.pure]
  | cover =>
      obtain ⟨start, hstart⟩ : ∃ start, start = min cursor old.length := ⟨_, rfl⟩
      have within : start ≤ old.length := hstart ▸ Nat.min_le_right _ _
      have sum : start + new.length < 2 ^ wordSize := by
        unfold wordSize
        omega
      rw [Guarded.WriteMode.apply, WriteMode.apply, ← hstart, add_eq sum, ok_bind]
      dsimp only
      split_ifs with short
      · rw [copyOver_eq rfl (by rw [List.length_append, List.length_replicate]; omega), ok_bind,
          List.take_append_of_le_length within, List.drop_of_length_le (by simp; omega),
          List.drop_of_length_le (by omega)]
        rfl
      · rw [copyOver_eq rfl (by omega)]
        rfl

namespace OpenFile

open DiskM

/-! ### Reading -/

/-- A stretch that begins in some bytes and ends behind them. -/
theorem take_drop_append {data rest : Bytes} {start left : Nat} (within : start ≤ data.length)
    (beyond : data.length - start ≤ left) :
  ((data ++ rest).drop start).take left
    = data.drop start ++ rest.take (left - (data.length - start))
  := by
  rw [List.drop_append_of_le_length within, List.take_append,
    List.take_of_length_le (by rwa [List.length_drop]), List.length_drop]

/-- What is read of a chain from `offset` on, behind bytes that were read before. -/
def readRest (first : Nat) (blocks : List Nat) (before : Bytes) (offset left : Nat) :
    DiskM Bytes := do
  let span := (offset % blockSize + left + (blockSize - 1)) / blockSize
  let held := (blocks.drop (offset / blockSize)).take span
  let parts ← held.mapM DiskM.readBlock
  if held.length < span then throw (.corrupted (.chainTooShort first))
  return before ++ ((parts.flatMap Vector.toList).drop (offset % blockSize)).take left

section Rest

variable {first offset left block : Nat} {blocks : List Nat} {before : Bytes}

theorem readRest_of_short (positive : 0 < left) (h : blocks[offset / blockSize]? = none) :
  readRest first blocks before offset left = throw (.corrupted (.chainTooShort first))
  := by
  have gone : blocks.drop (offset / blockSize) = [] :=
    List.drop_eq_nil_of_le (List.getElem?_eq_none_iff.mp h)
  have spans : 0 < (offset % blockSize + left + (blockSize - 1)) / blockSize := by
    unfold blockSize
    omega
  rw [readRest, gone, List.take_nil, List.mapM_nil, pure_bind, List.length_nil, if_pos spans]
  rfl

variable (h : blocks[offset / blockSize]? = some block)
include h

/-- The stretch ends in the block in which it begins. -/
theorem readRest_last (positive : 0 < left) (final : left ≤ blockSize - offset % blockSize) :
  readRest first blocks before offset left
    = DiskM.readBlock block >>= fun content =>
      pure (before ++ (content.toList.drop (offset % blockSize)).take left)
  := by
  obtain ⟨hlt, rfl⟩ := List.getElem?_eq_some_iff.mp h
  have span : (offset % blockSize + left + (blockSize - 1)) / blockSize = 1 := by
    unfold blockSize at *
    omega
  rw [readRest, span, List.drop_eq_getElem_cons hlt]
  dsimp only
  rw [List.take_succ_cons, List.take_zero, List.mapM_cons, bind_assoc]
  simp

/-- The stretch ends behind the block in which it begins. -/
theorem readRest_next (beyond : blockSize - offset % blockSize < left) :
  readRest first blocks before offset left
    = DiskM.readBlock block >>= fun content =>
      readRest first blocks (before ++ content.toList.drop (offset % blockSize))
        (offset + (blockSize - offset % blockSize)) (left - (blockSize - offset % blockSize))
  := by
  obtain ⟨hlt, rfl⟩ := List.getElem?_eq_some_iff.mp h
  have within : offset % blockSize < blockSize := Nat.mod_lt _ (by decide)
  obtain ⟨span, hspan⟩ : ∃ span,
      (offset % blockSize + left + (blockSize - 1)) / blockSize = span + 1 :=
    Nat.exists_eq_succ_of_ne_zero (by unfold blockSize; omega)
  have behind : (offset + (blockSize - offset % blockSize)) % blockSize = 0
      ∧ (offset + (blockSize - offset % blockSize)) / blockSize = offset / blockSize + 1
      ∧ (left - (blockSize - offset % blockSize) + (blockSize - 1)) / blockSize = span := by
    unfold blockSize at *
    omega
  have across (content : Block) (rest : Bytes) :
      before ++ ((content.toList ++ rest).drop (offset % blockSize)).take left
        = before ++ content.toList.drop (offset % blockSize)
          ++ rest.take (left - (blockSize - offset % blockSize)) := by
    have length : content.toList.length = blockSize := Vector.length_toList
    rw [take_drop_append (by omega) (by omega), length, List.append_assoc]
  unfold readRest
  rw [hspan, behind.1, behind.2.1, Nat.zero_add, behind.2.2, List.drop_eq_getElem_cons hlt]
  dsimp only
  rw [List.take_succ_cons, List.mapM_cons, bind_assoc]
  simp only [bind_assoc, pure_bind, List.length_cons, List.flatMap_cons, Nat.add_lt_add_iff_right,
    across, List.drop_zero]

end Rest

/-- A turn of reading takes the rest of a block, or what is still to be read if that is less. -/
theorem faultless_readTurn_bind {α : Type} {first available offset block : Nat} {blocks : List Nat}
    {before : Bytes} {P : α → Prop} {guardedNext : Bytes × Nat → GuardedDisk α}
    {next : Block → DiskM α} (more : before.length < available)
    (small : offset + (available - before.length) < 2 ^ 32)
    (hblock : blocks[offset / blockSize]? = some block) (inside : block < numBlocks)
    (h : ∀ (content : Block) (count : Nat),
      count = min (blockSize - offset % blockSize) (available - before.length) →
      Faultless (guardedNext (before ++ (content.toList.drop (offset % blockSize)).take count,
        offset + count)) (next content) P) :
  Faultless (Guarded.OpenFile.readTurn first blocks available before offset >>= guardedNext)
    (DiskM.readBlock block >>= next) P
  := by
  have start : offset % blockSize < blockSize := Nat.mod_lt _ (by decide)
  have size : blockSize = 1024 := rfl
  rw [Guarded.OpenFile.readTurn, hblock]
  simp only [bind_assoc]
  apply (faultless_readBlock inside).bind
  intro content _
  have length : content.toList.length = blockSize := Vector.length_toList
  apply Faultless.guard (sub_eq start.le)
  apply Faultless.guard (sub_eq more.le)
  apply Faultless.guard (add_word (by omega))
  apply Faultless.guard (stretch_eq (Nat.le_add_right _ _) (by omega))
  apply Faultless.guard (add_word (by omega))
  rw [Nat.add_sub_cancel_left, pure_bind]
  exact h content _ rfl

/-- Turn by turn the blocks that hold a stretch are read, and no others. -/
theorem faultless_readOn {first available : Nat} {blocks : List Nat}
    (inside : ∀ block ∈ blocks, block < numBlocks) (left : Nat) {before : Bytes} {offset : Nat}
    (hleft : before.length + left = available) (positive : 0 < left)
    (small : offset + left < 2 ^ 32) :
  Faultless (Guarded.OpenFile.readOn first blocks available before offset)
    (readRest first blocks before offset left) fun _ => True
  := by
  induction left using Nat.strong_induction_on generalizing before offset with
  | _ left ih =>
      have more : before.length < available := by omega
      have room : 0 < blockSize - offset % blockSize :=
        Nat.sub_pos_of_lt (Nat.mod_lt _ (by decide))
      have length (content : Block) {count : Nat}
          (hcount : count ≤ blockSize - offset % blockSize) :
          (before ++ (content.toList.drop (offset % blockSize)).take count).length
            = before.length + count := by
        rw [List.length_append, List.length_take, List.length_drop, Vector.length_toList]
        omega
      rw [Guarded.OpenFile.readOn, dif_pos more]
      cases hblock : blocks[offset / blockSize]? with
      | none =>
          rw [readRest_of_short positive hblock, Guarded.OpenFile.readTurn, hblock]
          exact ⟨rfl, returns_throw _⟩
      | some block =>
          have hin := inside block (List.mem_of_getElem? hblock)
          by_cases final : left ≤ blockSize - offset % blockSize
          · rw [readRest_last hblock positive final]
            apply faultless_readTurn_bind more (by omega) hblock hin
            intro content count hcount
            obtain rfl : count = left := by omega
            dsimp only
            rw [dif_pos (by rw [length content final]; omega), Guarded.OpenFile.readOn,
              dif_neg (by rw [length content final]; omega)]
            exact faultless_pure trivial
          · rw [readRest_next hblock (by omega)]
            apply faultless_readTurn_bind more (by omega) hblock hin
            intro content count hcount
            obtain rfl : count = blockSize - offset % blockSize := by omega
            have whole : (content.toList.drop (offset % blockSize)).take
                (blockSize - offset % blockSize) = content.toList.drop (offset % blockSize) :=
              List.take_of_length_le (by rw [List.length_drop, Vector.length_toList])
            have length := length content le_rfl
            rw [whole] at length ⊢
            dsimp only
            rw [dif_pos (by omega)]
            exact ih _ (by omega) (by omega) (by omega) (by omega)

theorem returns_readRange (first length offset count : Nat) :
  (readRange first length offset count).Returns fun bytes => bytes.length ≤ length - offset
  := by
  have taken (bytes : Bytes) : (bytes.take (min count (length - offset))).length
      ≤ length - offset := by
    rw [List.length_take]
    omega
  apply returns_ite
  · exact returns_pure (Nat.zero_le _)
  · apply returns_bind
    intro blocks
    apply returns_bind
    intro parts
    apply returns_unless
    exact fun _ => returns_pure (taken _)

/-- A length can be anything that fits into a record. -/
theorem faultless_readRange (first : Nat) {length : Nat} (small : length < 2 ^ 32)
    (offset count : Nat) :
  Faultless (Guarded.OpenFile.readRange first length offset count)
    (readRange first length offset count) fun bytes => bytes.length ≤ length - offset
  := by
  have same : Faultless (Guarded.OpenFile.readRange first length offset count)
      (readRange first length offset count) fun _ => True := by
    apply faultless_ite
    · exact fun _ => faultless_pure trivial
    · intro available
      apply (Allocation.faultless_chain first).bind
      intro blocks listed
      exact faultless_readOn listed.lt _ (Nat.zero_add _) (Nat.pos_of_ne_zero available) (by omega)
  exact ⟨same.eq, returns_readRange first length offset count⟩

theorem faultless_read {file : OpenFile} (h : file.cursor < 2 ^ wordSize) (count : Nat) :
  Faultless (Guarded.OpenFile.read file count) (file.read count) fun answer =>
    answer.2.cursor < 2 ^ wordSize
  := by
  have small : file.record.length.toNat < 2 ^ 32 := file.record.length.toNat_lt
  apply faultless_unless
  intro _
  apply (faultless_readRange _ small file.cursor count).bind
  intro bytes hbytes
  have fits : file.cursor + bytes.length < 2 ^ wordSize := by
    unfold wordSize at *
    omega
  apply Faultless.guard (add_eq fits)
  exact faultless_pure fits

/-! ### Writing -/

/-- A chain grows until it has as many blocks as needed. -/
theorem faultless_grow (missing needed first : Nat) {blocks : List Nat}
    (hmissing : missing = needed - blocks.length) (positive : 0 < blocks.length)
    (inside : ∀ block ∈ blocks, block < numBlocks) :
  Faultless (Guarded.OpenFile.grow needed blocks)
    (grow blocks (blocks.getLastD first) missing) fun all => ∀ block ∈ all, block < numBlocks
  := by
  induction missing generalizing blocks with
  | zero =>
      rw [Guarded.OpenFile.grow, dif_neg (by omega), grow]
      exact faultless_pure inside
  | succ missing ih =>
      have final : blocks[blocks.length - 1] = blocks.getLastD first := by
        rw [List.getLastD_eq_getLast?, List.getLast?_eq_getElem?,
          List.getElem?_eq_getElem (by omega), Option.getD_some]
      rw [Guarded.OpenFile.grow, dif_pos (by omega), grow]
      apply Faultless.guard (sub_eq positive)
      apply Faultless.guard (item_eq (by omega))
      rw [final]
      apply (Allocation.faultless_append _).bind
      intro fresh hfresh
      have hmissing' : missing = needed - (blocks ++ [fresh]).length := by
        rw [List.length_append, List.length_singleton]
        omega
      have longer := ih hmissing' (by simp) (by simpa [or_imp, forall_and] using ⟨inside, hfresh⟩)
      rwa [List.getLastD_concat] at longer

/-- The part of a content that belongs into the block at an index of its chain. -/
def chunkAt (content : Bytes) (i : Nat) : Bytes :=
  (content.drop (i * blockSize)).take blockSize

/-- A chunk of a content ends where the content does. -/
theorem stretch_chunkAt (content : Bytes) (i : Nat) :
  stretch content (min (i * blockSize) content.length)
      (min (i * blockSize + blockSize) content.length) = .ok (chunkAt content i)
  := by
  rw [stretch_eq (by omega) (Nat.min_le_right _ _), chunkAt]
  by_cases within : i * blockSize ≤ content.length
  · rw [Nat.min_eq_left within]
    congr 1
    apply List.take_eq_take_iff.mpr
    rw [List.length_drop]
    omega
  · rw [List.drop_of_length_le (by omega), List.drop_of_length_le (by omega), List.take_nil,
      List.take_nil]

/-- A chunk of a content fits into a block. -/
theorem faultless_putChunk {content : Bytes} {block i : Nat} (inside : block < numBlocks)
    (small : i < 2 * numBlocks) :
  Faultless (Guarded.OpenFile.putChunk content block i)
    (DiskM.writeBlock block (.ofBytes (chunkAt content i))) fun _ => True
  := by
  have place : i * blockSize + blockSize < 2 ^ 32 := by
    unfold numBlocks blockSize at *
    omega
  have fits : (chunkAt content i).length ≤ blockSize := by
    rw [chunkAt]
    exact List.length_take_le _ _
  have zeros : List.replicate blockSize (0 : UInt8) = (Bytes.padded blockSize []).toList := by
    rw [Bytes.toList_padded]
    simp
  apply Faultless.guard (mul_word ((Nat.le_add_right _ _).trans_lt place))
  apply Faultless.guard (add_word place)
  apply Faultless.guard (stretch_chunkAt content i)
  rw [zeros]
  apply Faultless.guard (copyOver_padded List.length_nil (Nat.zero_add _) fits)
  exact faultless_writeBlock_toList inside (.ofBytes (chunkAt content i))

/-- The blocks of a chain with the parts of a content that belong there. -/
theorem zip_toBlocks {blocks : List Nat} {needed : Nat} (h : blocks.length ≤ needed)
    (content : Bytes) :
  blocks.zip (toBlocks needed content)
    = blocks.zipIdx.map fun place => (place.1, Block.ofBytes (chunkAt content place.2))
  := by
  apply List.ext_getElem
  · simp [h]
  · intro i hi hi'
    simp [toBlocks, Bytes.getElem_chunks, chunkAt]

/-- What a chain and the free blocks can hold is short. -/
theorem length_lt_of_blocksFor_le {length : Nat} (h : blocksFor length ≤ 2 * numBlocks) :
  length < 2 ^ 32
  := by
  have fits := (le_blocksFor_mul length).trans (Nat.mul_le_mul_right blockSize h)
  exact fits.trans_lt (by decide)

/-- A content is put over the blocks of a chain, and the others are cut. -/
theorem faultless_put (first : Nat) {content : Bytes} {all : List Nat}
    (inside : ∀ block ∈ all, block < numBlocks) (h : blocksFor content.length ≤ 2 * numBlocks) :
  Faultless (do
      ((all.take (blocksFor content.length)).zipIdx).forM
        fun (block, i) => Guarded.OpenFile.putChunk content block i
      if blocksFor content.length < all.length then
        Guarded.Allocation.truncate first (blocksFor content.length))
    (do
      ((all.take (blocksFor content.length)).zip
        (toBlocks (blocksFor content.length) content)).forM
          fun (block, data) => DiskM.writeBlock block data
      if blocksFor content.length < all.length then
        Allocation.truncate first (blocksFor content.length))
    fun _ => content.length < 2 ^ 32
  := by
  have short : (all.take (blocksFor content.length)).length ≤ blocksFor content.length :=
    List.length_take_le _ _
  rw [zip_toBlocks short, List.forM_eq_forM, List.forM_eq_forM, List.forM_map]
  apply (faultless_forM _).bind
  · intro _ _
    have small := length_lt_of_blocksFor_le h
    apply faultless_ite
    · exact fun _ => (Allocation.faultless_truncate first _).mono fun _ _ => small
    · exact fun _ => faultless_pure small
  · rintro ⟨block, i⟩ hplace
    obtain ⟨hlt, hblock⟩ := List.mem_zipIdx' hplace
    have hmem : block ∈ all := hblock ▸ List.mem_of_mem_take (List.getElem_mem hlt)
    exact faultless_putChunk (inside block hmem) (by omega)

/-- A chain of any length takes any content, unless too few blocks are free. -/
theorem faultless_store (first : Nat) (content : Bytes) :
  Faultless (Guarded.OpenFile.store first content) (store first content)
    fun _ => content.length < 2 ^ 32
  := by
  apply (Allocation.faultless_chain first).bind
  intro blocks listed
  have short := listed.length_le
  have put (h : blocksFor content.length ≤ 2 * numBlocks) :=
    (faultless_grow _ (blocksFor content.length) first rfl listed.length_pos listed.lt).bind
      fun _ inside => faultless_put first inside h
  dsimp only
  by_cases few : blocks.length < blocksFor content.length
  · rw [if_pos few, if_pos (Nat.sub_pos_of_lt few)]
    apply Allocation.faultless_countFree.bind
    intro free hfree
    apply Faultless.guard (sub_eq few.le)
    apply faultless_unless
    intro enough
    exact put (by omega)
  · rw [if_neg few, if_neg (by omega)]
    exact put (by omega)

theorem faultless_write (file : OpenFile) {new : Bytes} (hnew : new.length < 2 ^ 63)
    (mode : WriteMode) :
  Faultless (Guarded.OpenFile.write file new mode) (file.write new mode) fun file' =>
    file'.cursor < 2 ^ wordSize
  := by
  have small : file.record.length.toNat < 2 ^ 32 := file.record.length.toNat_lt
  apply faultless_unless
  intro _
  apply (faultless_readRange _ small 0 _).bind
  intro old hold
  apply Faultless.guard (WriteMode.apply_guarded mode file.cursor (by omega) hnew)
  dsimp only
  apply (faultless_store _ _).bind
  intro _ hlength
  apply (faultless_lift (returns_true _)).bind
  intro _ _
  apply Faultless.guard (narrow_eq hlength)
  apply faultless_pure
  exact (mode.apply_position_le old new file.cursor).trans_lt (hlength.trans (by decide))

end OpenFile

end FatVolume
