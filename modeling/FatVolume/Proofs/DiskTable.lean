import FatVolume.Proofs.Execution
import FatVolume.Proofs.FirstFit
import FatVolume.Proofs.Ownership

/-!
# The table of an image

`Image.table` is the consulted copy of the allocation table of an image and `Image.mirror` the
other one.  `Image.Retabled` says that both copies were edited alike and that no block outside
them was touched; every action on the table is such an edit, and its execution is given by the
edit.
-/

namespace FatVolume

open Allocation

/-! ### Copies of the table -/

/-- A word is written in two bytes, the lower one first. -/
theorem Bytes.exists_bytes_of_word (word : UInt16) :
  ∃ low high : UInt8, littleEndian entrySize word.toNat = [low, high]
    ∧ low.toNat + 256 * high.toNat = word.toNat
  := by
  refine ⟨_, _, rfl, ?_⟩
  have value : value (littleEndian entrySize word.toNat) = word.toNat :=
    value_littleEndian_of_lt word.toNat_lt
  simpa only [littleEndian, Bytes.value, Nat.mul_zero, Nat.add_zero] using value

namespace Table

/-- Two bytes put over those of an entry replace the entry. -/
theorem ofBytes_replace {bytes : Bytes} {i : Nat} (h : 2 * i + 2 ≤ bytes.length)
    (low high : UInt8) :
  ofBytes (bytes.take (2 * i) ++ [low, high] ++ bytes.drop (2 * i + 2))
    = (ofBytes bytes).set i (FatEntry.ofWord (UInt16.ofNat (low.toNat + 256 * high.toNat)))
  := by
  have even : (bytes.take (2 * i)).length % 2 = 0 := by
    simp
    omega
  have place : (ofBytes (bytes.take (2 * i))).length = i := by
    rw [length_ofBytes, List.length_take]
    omega
  obtain ⟨a, b, split⟩ : ∃ a b, bytes = bytes.take (2 * i) ++ ([a, b] ++ bytes.drop (2 * i + 2)) := by
    use bytes[2 * i], bytes[2 * i + 1]
    conv_lhs => rw [← List.take_append_drop (2 * i) bytes]
    rw [List.drop_eq_getElem_cons (by omega), List.drop_eq_getElem_cons (by omega)]
    rfl
  conv_rhs => rw [split]
  rw [List.append_assoc, ofBytes_append _ even, ofBytes_append _ even]
  simp only [List.cons_append, List.nil_append, ofBytes]
  rw [List.set_append_right _ _ (by omega), place, Nat.sub_self]
  rfl

/-- The table with the given blocks free. -/
def release (blocks : List Nat) (table : Table) : Table :=
  blocks.foldl (fun table b => table.set b .free) table

/-- The table with the `count` blocks from `first` on in one chain. -/
def linkRun (first count : Nat) (table : Table) : Table :=
  ((List.range' first (count - 1)).foldl
    (fun table b => table.set b (.next (UInt16.ofNat (b + 1)))) table).set (first + count - 1) .last

/-- The table in which `fresh` follows `final` and ends the chain. -/
def extend (final fresh : Nat) (table : Table) : Table :=
  (table.set fresh .last).set final (.next (UInt16.ofNat fresh))

/-- The table in which a chain ends at `final` and the given blocks are free. -/
def cut (final : Nat) (rest : List Nat) (table : Table) : Table :=
  release rest (table.set final .last)

theorem length_foldl_set (entry : Nat → FatEntry) (blocks : List Nat) (table : Table) :
  (blocks.foldl (fun table b => table.set b (entry b)) table).length = table.length
  := by
  induction blocks generalizing table with
  | nil => rfl
  | cons b blocks ih => rw [List.foldl_cons, ih, List.length_set]

/-- Entries given to several blocks are found at each of them. -/
theorem getElem?_foldl_set (entry : Nat → FatEntry) (blocks : List Nat) (table : Table) (c : Nat) :
  (blocks.foldl (fun table b => table.set b (entry b)) table)[c]?
    = if c ∈ blocks ∧ c < table.length then some (entry c) else table[c]?
  := by
  induction blocks generalizing table with
  | nil => simp
  | cons b blocks ih =>
      rw [List.foldl_cons, ih]
      by_cases hbc : b = c
      · subst hbc
        by_cases hb : b < table.length <;> simp [hb]
      · simp [List.getElem?_set_ne hbc, Ne.symm hbc]

theorem getElem?_release (blocks : List Nat) (table : Table) (c : Nat) :
  (release blocks table)[c]?
    = if c ∈ blocks ∧ c < table.length then some .free else table[c]?
  := getElem?_foldl_set (fun _ => .free) blocks table c

theorem getElem?_release_of_mem {blocks : List Nat} {table : Table} {c : Nat} (hc : c ∈ blocks)
    (hlt : c < table.length) :
  (release blocks table)[c]? = some .free
  := by
  rw [getElem?_release, if_pos ⟨hc, hlt⟩]

theorem getElem?_release_of_notMem {blocks : List Nat} {table : Table} {c : Nat}
    (hc : c ∉ blocks) :
  (release blocks table)[c]? = table[c]?
  := by
  rw [getElem?_release, if_neg]
  intro h
  apply hc h.1

end Table

namespace Image

/-- The copy of the table that starts at a block. -/
def tableAt (image : Image) (start : Nat) : Table :=
  Table.ofBytes ((image.block start).toList ++ (image.block (start + 1)).toList)

/-- The copy of the table that is consulted. -/
def table (image : Image) : Table :=
  image.tableAt tableStart

/-- The copy of the table that mirrors it. -/
def mirror (image : Image) : Table :=
  image.tableAt mirrorStart

@[simp]
theorem length_tableAt (image : Image) (start : Nat) :
  (image.tableAt start).length = numBlocks
  := by
  simp [tableAt, Table.length_ofBytes, blockSize, numBlocks]

@[simp]
theorem length_table (image : Image) :
  image.table.length = numBlocks
  := image.length_tableAt tableStart

/-- The image with an entry in the copy of the table that starts at a block. -/
def withEntryIn (image : Image) (start b : Nat) (entry : FatEntry) : Image :=
  image.setIfInBounds (entryBlock start b)
    ((image.block (entryBlock start b)).splice (entryOffset b)
      (Bytes.littleEndian entrySize entry.toWord.toNat))

/-- The image with an entry in both copies of the table. -/
def withEntry (image : Image) (b : Nat) (entry : FatEntry) : Image :=
  (image.withEntryIn tableStart b entry).withEntryIn mirrorStart b entry

/-- An entry stands in one of the two blocks of a copy. -/
theorem entryBlock_cases (start : Nat) {b : Nat} (hb : b < numBlocks) :
  entryBlock start b = start ∧ entryOffset b = 2 * b ∧ 2 * b + 2 ≤ blockSize
    ∨ entryBlock start b = start + 1 ∧ entryOffset b + blockSize = 2 * b
        ∧ entryOffset b + 2 ≤ blockSize
  := by
  unfold entryBlock entryOffset
  unfold numBlocks at hb
  unfold blockSize entrySize
  omega

theorem tableAt_withEntryIn (image : Image) {start b : Nat} (hstart : start + 1 < numBlocks)
    (hb : b < numBlocks) (entry : FatEntry) :
  (image.withEntryIn start b entry).tableAt start
    = (image.tableAt start).set b (FatEntry.ofWord entry.toWord)
  := by
  let bytes := (image.block start).toList ++ (image.block (start + 1)).toList
  obtain ⟨low, high, hword, value⟩ := Bytes.exists_bytes_of_word entry.toWord
  have word : UInt16.ofNat (low.toNat + 256 * high.toNat) = entry.toWord := by
    rw [value, UInt16.ofNat_toNat]
  have replaced : ((image.withEntryIn start b entry).block start).toList
      ++ ((image.withEntryIn start b entry).block (start + 1)).toList
      = bytes.take (2 * b) ++ [low, high] ++ bytes.drop (2 * b + 2) := by
    have length_block : ∀ c : Block, c.toList.length = blockSize := fun c => by simp
    rcases entryBlock_cases start hb with ⟨place, offset, fits⟩ | ⟨place, offset, fits⟩
    · rw [withEntryIn, hword, place, offset, block_setIfInBounds_self _ (by omega),
        block_setIfInBounds_of_ne _ (by omega), Block.toList_splice (by simpa using fits)]
      simp only [bytes]
      rw [List.take_append_of_le_length (by rw [length_block]; omega),
        List.drop_append_of_le_length (by rw [length_block]; omega)]
      simp
    · rw [withEntryIn, hword, place, block_setIfInBounds_self _ hstart,
        block_setIfInBounds_of_ne _ (by omega), Block.toList_splice (by simpa using fits)]
      simp only [bytes]
      rw [List.take_append, List.drop_append, length_block,
        List.take_of_length_le (i := 2 * b) (by rw [length_block]; omega),
        List.drop_eq_nil_of_le (i := 2 * b + 2) (by rw [length_block]; omega),
        show 2 * b - blockSize = entryOffset b by omega,
        show 2 * b + 2 - blockSize = entryOffset b + 2 by omega]
      simp
  rw [tableAt, replaced, Table.ofBytes_replace, word]
  · rfl
  · simp only [bytes, List.length_append, Vector.length_toList]
    unfold numBlocks at hb
    unfold blockSize
    omega

theorem block_withEntryIn_of_ne (image : Image) {start b c : Nat} (hb : b < numBlocks)
    (entry : FatEntry) (hc : c ≠ start) (hc' : c ≠ start + 1) :
  (image.withEntryIn start b entry).block c = image.block c
  := by
  apply block_setIfInBounds_of_ne
  rcases entryBlock_cases start hb with ⟨place, -⟩ | ⟨place, -⟩ <;> omega

theorem tableAt_congr (image : Image) {other : Image} {start : Nat}
    (low : other.block start = image.block start)
    (high : other.block (start + 1) = image.block (start + 1)) :
  other.tableAt start = image.tableAt start
  := by
  rw [tableAt, tableAt, low, high]

/-- The copies of the table stand before the root directory. -/
theorem table_congr {image after : Image} (h : ∀ b < rootStart, after.block b = image.block b) :
  after.table = image.table ∧ after.mirror = image.mirror
  := by
  constructor
  · apply tableAt_congr image (h _ (by decide)) (h _ (by decide))
  · apply tableAt_congr image (h _ (by decide)) (h _ (by decide))

theorem table_setIfInBounds (image : Image) {b : Nat} (hb : rootStart ≤ b) (data : Block) :
  Image.table (image.setIfInBounds b data) = image.table
    ∧ Image.mirror (image.setIfInBounds b data) = image.mirror
  := by
  apply table_congr
  intro c hc
  apply block_setIfInBounds_of_ne
  omega

/-! ### Edits -/

/-- The copies of the table end before the root directory. -/
theorem notTable_of_le {b : Nat} (h : rootStart ≤ b) :
  ¬(tableStart ≤ b ∧ b < rootStart)
  := fun inside => Nat.not_lt.mpr h inside.2

/-- The superblock stands before the root directory. -/
theorem superblockAt_ne {b : Nat} (h : rootStart ≤ b) :
  superblockAt ≠ b
  := by
  rintro rfl
  exact absurd h (by decide)

/-- Both copies of the table were edited alike, and no block outside of them was touched. -/
structure Retabled (image after : Image) (edit : Table → Table) : Prop where
  table : after.table = edit image.table
  mirror : after.mirror = edit image.mirror
  block : ∀ b, ¬(tableStart ≤ b ∧ b < rootStart) → after.block b = image.block b

namespace Retabled

variable {image middle after : Image} {edit edit' : Table → Table}

theorem refl (image : Image) :
  Retabled image image id
  := ⟨rfl, rfl, fun _ _ => rfl⟩

/-- One edit after another is an edit. -/
theorem trans (h : Retabled image middle edit) (h' : Retabled middle after edit') :
  Retabled image after (edit' ∘ edit)
  := by
  constructor
  · rw [h'.table, h.table, Function.comp]
  · rw [h'.mirror, h.mirror, Function.comp]
  · intro b hb
    rw [h'.block b hb, h.block b hb]

/-- Copies that are the same stay the same. -/
theorem mirrored (h : Retabled image after edit) (hm : image.mirror = image.table) :
  after.mirror = after.table
  := by
  rw [h.mirror, h.table, hm]

theorem block_of_le (h : Retabled image after edit) {b : Nat} (hb : rootStart ≤ b) :
  after.block b = image.block b
  := h.block b (notTable_of_le hb)

end Retabled

/-- The entry of a block is replaced in both copies, by what is read back from the word that was
written. -/
theorem retabled_withEntry_word (image : Image) {b : Nat} (hb : b < numBlocks)
    (entry : FatEntry) :
  Retabled image (image.withEntry b entry) (·.set b (FatEntry.ofWord entry.toWord))
  := by
  constructor
  · rw [withEntry, table, tableAt_congr (image.withEntryIn tableStart b entry),
      tableAt_withEntryIn _ (by decide) hb]
    · rfl
    · apply block_withEntryIn_of_ne _ hb _ (by decide) (by decide)
    · apply block_withEntryIn_of_ne _ hb _ (by decide) (by decide)
  · rw [withEntry, mirror, tableAt_withEntryIn _ (by decide) hb, tableAt_congr image]
    · rfl
    · apply block_withEntryIn_of_ne _ hb _ (by decide) (by decide)
    · apply block_withEntryIn_of_ne _ hb _ (by decide) (by decide)
  · intro c hc
    obtain ⟨h1, h2, h3, h4⟩ : c ≠ 1 ∧ c ≠ 2 ∧ c ≠ 3 ∧ c ≠ 4 := by
      unfold tableStart rootStart at hc
      omega
    rw [withEntry, block_withEntryIn_of_ne _ hb _ h3 h4, block_withEntryIn_of_ne _ hb _ h1 h2]

/-- An entry that is read back as it was written is replaced in both copies. -/
theorem retabled_withEntry (image : Image) {b : Nat} (hb : b < numBlocks) (entry : FatEntry)
    (hentry : FatEntry.ofWord entry.toWord = entry) :
  Retabled image (image.withEntry b entry) (·.set b entry)
  := by
  have edit := retabled_withEntry_word image hb entry
  rwa [hentry] at edit

/-- A block with the entry of a last block is a chain by itself. -/
theorem isChain_withEntry_last (image : Image) {b : Nat} (hb : b < numBlocks) :
  (image.withEntry b .last).table.IsChain b [b]
  := by
  apply Table.IsChain.last
  rw [(image.retabled_withEntry hb .last rfl).table, List.getElem?_set_self]
  rwa [length_table]

/-- Entries replaced one after the other. -/
theorem retabled_foldl_withEntry {blocks : List Nat} (entry : Nat → FatEntry)
    (hb : ∀ b ∈ blocks, b < numBlocks)
    (hentry : ∀ b ∈ blocks, FatEntry.ofWord (entry b).toWord = entry b) (image : Image) :
  Retabled image (blocks.foldl (fun image b => image.withEntry b (entry b)) image)
    (blocks.foldl fun table b => table.set b (entry b))
  := by
  induction blocks generalizing image with
  | nil => apply Retabled.refl
  | cons b blocks ih =>
      have first := retabled_withEntry image (hb b (by simp)) (entry b) (hentry b (by simp))
      have rest := ih (fun c hc => hb c (List.mem_cons_of_mem _ hc))
        (fun c hc => hentry c (List.mem_cons_of_mem _ hc)) (image.withEntry b (entry b))
      apply first.trans rest

/-! ### Reading -/

/-- The chain that starts at a block. -/
def chain (image : Image) (first : Nat) : Except Error (List Nat) :=
  if first < numBlocks then image.table.walk first else .error (.invalidBlock first)

theorem chain_eq_ok_iff {image : Image} {first : Nat} {blocks : List Nat} :
  image.chain first = .ok blocks ↔ image.table.IsChain first blocks
  := by
  unfold chain
  split_ifs with hfirst
  · apply Table.walk_eq_ok_iff
  · simp only [false_iff]
    intro h
    have := h.lt_length h.first_mem
    rw [length_table] at this
    omega

/-- The blocks of the chain that starts at a block, none if there is no such chain. -/
def blocksOf (image : Image) (first : Nat) : List Nat :=
  (image.chain first).toOption.getD []

theorem blocksOf_eq {image : Image} {first : Nat} {blocks : List Nat}
    (h : image.table.IsChain first blocks) :
  image.blocksOf first = blocks
  := by
  rw [blocksOf, chain_eq_ok_iff.mpr h]
  rfl

theorem blocksOf_congr {image after : Image} (table : after.table = image.table) (first : Nat) :
  after.blocksOf first = image.blocksOf first
  := by
  rw [blocksOf, blocksOf, chain, chain, table]

/-- What has blocks has a chain. -/
theorem isChain_blocksOf {image : Image} {first : Nat} (h : image.blocksOf first ≠ []) :
  image.table.IsChain first (image.blocksOf first)
  := by
  unfold blocksOf at h ⊢
  cases hchain : image.chain first with
  | error e => simp [hchain, Except.toOption] at h
  | ok blocks => apply chain_eq_ok_iff.mp hchain

theorem lt_of_mem_blocksOf {image : Image} {first b : Nat} (hb : b ∈ image.blocksOf first) :
  b < numBlocks
  := by
  have hchain := isChain_blocksOf (List.ne_nil_of_mem hb)
  have := hchain.lt_length hb
  rwa [length_table] at this

theorem nodup_blocksOf (image : Image) (first : Nat) :
  (image.blocksOf first).Nodup
  := by
  by_cases h : image.blocksOf first = []
  · simp [h]
  · apply (isChain_blocksOf h).nodup

end Image

namespace Allocation

open DiskM

variable {image : Image}

@[simp]
theorem exec_checkBlock {b : Nat} (hb : b < numBlocks) :
  (checkBlock b).exec image = (.ok (), image)
  := by
  rw [checkBlock, if_pos hb]
  rfl

theorem exec_readTable {start : Nat} (hstart : start + 1 < numBlocks) :
  (readTable start).exec image = (.ok (image.tableAt start), image)
  := by
  rw [readTable, exec_bind_of_ok (exec_readBlock image (by omega)),
    exec_bind_of_ok (exec_readBlock image hstart)]
  rfl

/-- The consulted table is what reading it gives. -/
theorem exec_readTable_tableStart :
  (readTable tableStart).exec image = (.ok image.table, image)
  := exec_readTable (by decide)

theorem exec_mirrorsMatch :
  mirrorsMatch.exec image = (.ok (image.table == image.mirror), image)
  := by
  rw [mirrorsMatch, exec_bind_of_ok exec_readTable_tableStart,
    exec_bind_of_ok (exec_readTable (by decide))]
  rfl

theorem exec_chain (image : Image) (first : Nat) :
  (chain first).exec image = (image.chain first, image)
  := by
  unfold chain Image.chain
  split_ifs with hfirst
  · rw [exec_bind_of_ok (exec_checkBlock hfirst), exec_bind_of_ok exec_readTable_tableStart]
    rfl
  · rw [checkBlock, if_neg hfirst]
    rfl

theorem exec_chain_of_isChain {first : Nat} {blocks : List Nat}
    (h : image.table.IsChain first blocks) :
  (chain first).exec image = (.ok blocks, image)
  := by
  rw [exec_chain, Image.chain_eq_ok_iff.mpr h]

theorem exec_countFree :
  countFree.exec image = (.ok image.table.countFree, image)
  := by
  rw [countFree, exec_bind_of_ok exec_readTable_tableStart]
  rfl

theorem exec_findRun (count : Nat) :
  (findRun count).exec image = (.ok (image.table.firstFit count), image)
  := by
  rw [findRun, exec_bind_of_ok exec_readTable_tableStart]
  rfl

/-! ### Writing -/

/-- The number of a block other than the first is read back from an entry. -/
theorem ofWord_next {b : Nat} (hpos : 0 < b) (hb : b < numBlocks) :
  FatEntry.ofWord (FatEntry.next (UInt16.ofNat b)).toWord = .next (UInt16.ofNat b)
  := by
  have value : (UInt16.ofNat b).toNat = b := by
    apply UInt16.toNat_ofNat_of_lt
    apply Nat.lt_trans hb (by decide)
  unfold numBlocks at hb
  apply FatEntry.ofWord_toWord
  constructor <;> intro h <;> have := congrArg UInt16.toNat (FatEntry.next.inj h) <;>
    rw [value] at this <;> simp [FatEntry.freeWord, FatEntry.lastWord] at this <;> omega

theorem exec_setEntryIn {start b : Nat} (hstart : start + 1 < numBlocks) (hb : b < numBlocks)
    (entry : FatEntry) :
  (setEntryIn start b entry).exec image = (.ok (), image.withEntryIn start b entry)
  := by
  have inside : entryBlock start b < numBlocks := by
    rcases Image.entryBlock_cases start hb with ⟨place, -⟩ | ⟨place, -⟩ <;> omega
  rw [setEntryIn, exec_bind_of_ok (exec_readBlock image inside), exec_writeBlock image inside]
  rfl

theorem exec_setEntry {b : Nat} (hb : b < numBlocks) (entry : FatEntry) :
  (setEntry b entry).exec image = (.ok (), image.withEntry b entry)
  := by
  rw [setEntry, exec_bind_of_ok (exec_checkBlock hb),
    exec_bind_of_ok (exec_setEntryIn (by decide) hb entry),
    exec_bind_of_ok (exec_setEntryIn (by decide) hb entry), exec_log]
  rfl

/-- Making a run one chain links its blocks in both copies. -/
theorem exec_allocate {first count : Nat} (hcount : 0 < count)
    (hfirst : first + count ≤ numBlocks) :
  ∃ after, (allocate (.ofNat first) (.ofNat count)).exec image = (.ok (), after)
    ∧ image.Retabled after (Table.linkRun first count)
  := by
  have inside : ∀ b ∈ List.range' first (count - 1), b < numBlocks := by
    intro b hb
    have := List.mem_range'_1.mp hb
    omega
  have links : ∀ b ∈ List.range' first (count - 1),
      FatEntry.ofWord (FatEntry.next (UInt16.ofNat (b + 1))).toWord
        = .next (UInt16.ofNat (b + 1)) := by
    intro b hb
    have hb' := List.mem_range'_1.mp hb
    apply ofWord_next (by omega) (by omega)
  have linked := exec_forM (fun image b => image.withEntry b (.next (UInt16.ofNat (b + 1))))
    (fun b hb image => exec_setEntry (inside b hb) _) image
  have final : first + count - 1 < numBlocks := by omega
  refine ⟨_, ?_, (Image.retabled_foldl_withEntry _ inside links image).trans
    (Image.retabled_withEntry _ final .last rfl)⟩
  rw [allocate_eq hcount hfirst, exec_bind_of_ok linked, exec_bind_of_ok (exec_setEntry final _),
    exec_log]

/-- The first free block is the one that follows. -/
theorem exec_append_of_some {final fresh : Nat} (hfinal : final < numBlocks)
    (h : image.table.firstFit 1 = some fresh) (hfresh : 0 < fresh) :
  ∃ after, (append final).exec image = (.ok fresh, after)
    ∧ image.Retabled after (Table.extend final fresh)
  := by
  have inside : fresh < numBlocks := by
    have := (List.getElem?_eq_some_iff.mp (Table.free_of_firstFit_one h)).1
    rwa [Image.length_table] at this
  refine ⟨_, ?_, (Image.retabled_withEntry image inside .last rfl).trans
    (Image.retabled_withEntry _ hfinal _ (ofWord_next hfresh inside))⟩
  rw [append, exec_bind_of_ok (exec_findRun 1), h]
  dsimp only
  rw [exec_bind_of_ok (exec_setEntry inside _), exec_bind_of_ok (exec_setEntry hfinal _),
    exec_bind_of_ok (exec_log _ _ _ _), exec_pure]

theorem exec_forM_release {blocks : List Nat} (inside : ∀ b ∈ blocks, b < numBlocks)
    (image : Image) :
  ∃ after, (blocks.forM (setEntry · .free)).exec image = (.ok (), after)
    ∧ image.Retabled after (Table.release blocks)
  := by
  refine ⟨_, exec_forM (fun image b => image.withEntry b .free)
    (fun b hb image => exec_setEntry (inside b hb) _) image, ?_⟩
  apply Image.retabled_foldl_withEntry (fun _ => .free) inside
  intro b hb
  rfl

/-- Freeing a chain frees its blocks. -/
theorem exec_free {first : Nat} {blocks : List Nat} (h : image.table.IsChain first blocks) :
  ∃ after, (free first).exec image = (.ok (), after)
    ∧ image.Retabled after (Table.release blocks)
  := by
  have inside : ∀ b ∈ blocks, b < numBlocks := by
    intro b hb
    have := h.lt_length hb
    rwa [Image.length_table] at this
  obtain ⟨after, hexec, hedit⟩ := exec_forM_release inside image
  refine ⟨after, ?_, hedit⟩
  rw [free, exec_bind_of_ok (exec_chain_of_isChain h), exec_bind_of_ok hexec, exec_log]

/-- Truncating a chain ends it at the last block that is kept and frees the others. -/
theorem exec_truncate {first keep final : Nat} {blocks : List Nat}
    (h : image.table.IsChain first blocks) (hkeep : 0 < keep ∧ keep < blocks.length)
    (hfinal : (blocks.take keep).getLast? = some final) :
  ∃ after, (truncate first keep).exec image = (.ok (), after)
    ∧ image.Retabled after (Table.cut final (blocks.drop keep))
  := by
  have inside : ∀ b ∈ blocks, b < numBlocks := by
    intro b hb
    have := h.lt_length hb
    rwa [Image.length_table] at this
  have final_eq : blocks[keep - 1] = final := by
    rw [List.getLast?_take, if_neg (by omega)] at hfinal
    simpa [List.getElem?_eq_getElem (show keep - 1 < blocks.length by omega)] using hfinal
  have hlt : final < numBlocks := by
    rw [← final_eq]
    apply inside
    apply List.getElem_mem
  have dropped : ∀ b ∈ blocks.drop keep, b < numBlocks :=
    fun b hb => inside b (List.mem_of_mem_drop hb)
  obtain ⟨after, hexec, hedit⟩ := exec_forM_release dropped (image.withEntry final .last)
  refine ⟨after, ?_, (Image.retabled_withEntry image hlt .last rfl).trans hedit⟩
  rw [truncate, exec_bind_of_ok (exec_chain_of_isChain h), dif_pos hkeep]
  rw [final_eq, exec_bind_of_ok (exec_setEntry hlt _), exec_bind_of_ok hexec, exec_log]

end Allocation

end FatVolume
