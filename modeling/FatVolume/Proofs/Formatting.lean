import FatVolume.Proofs.Creation

/-!
# Formatting

Formatting makes a fresh volume of any disk: its superblock is valid, the image is sound, and the
root directory lists nothing.
-/

namespace FatVolume

open DiskM

/-! ### The superblock -/

/-- The first block of the root directory. -/
abbrev rootBlock : UInt16 :=
  UInt16.ofNat rootStart

namespace Superblock

/-- The numbers of a superblock are read back from its block. -/
theorem ofBlock_toBlock (s : Superblock) :
  ofBlock s.toBlock = { s with information := (ofBlock s.toBlock).information }
  := by
  have bytes : s.toBlock.toList
      = s.toBytes ++ List.replicate (FatVolume.blockSize - s.toBytes.length) 0 := by
    rw [toBlock, Block.ofBytes, Bytes.toList_padded, List.take_of_length_le]
    rw [length_toBytes]
    decide
  unfold ofBlock ofBytes
  rw [bytes]
  simp only [mk.injEq, true_and]
  refine ⟨?root, ?dataStart, ?magic, ?blockSize, ?numBlocks⟩
  case root => simp [toBytes, informationSize]
  case dataStart => simp [toBytes, informationSize, List.drop_append, List.drop_eq_nil_of_le]
  case magic => simp [toBytes, informationSize, List.drop_append, List.drop_eq_nil_of_le]
  case blockSize => simp [toBytes, informationSize, List.drop_append, List.drop_eq_nil_of_le]
  case numBlocks => simp [toBytes, informationSize, List.drop_append, List.drop_eq_nil_of_le]

/-- A valid superblock has the root directory where the layout has it. -/
theorem root_of_isValid {s : Superblock} (h : s.isValid = true) :
  s.root = rootBlock
  := by
  simp only [isValid, Bool.and_eq_true, beq_iff_eq] at h
  apply h.1.2

theorem toNat_root_lt {s : Superblock} (h : s.isValid = true) :
  s.root.toNat < FatVolume.numBlocks
  := by
  rw [root_of_isValid h]
  decide

theorem isValid_ofBlock_toBlock_standard :
  (ofBlock standard.toBlock).isValid = true
  := by
  rw [ofBlock_toBlock]
  decide

end Superblock

/-! ### The table of a fresh volume -/

namespace Table

/-- Zeros are free entries. -/
theorem ofBytes_replicate_zero (n : Nat) :
  ofBytes (List.replicate (2 * n) 0) = List.replicate n .free
  := by
  induction n with
  | zero => rfl
  | succ n ih =>
      rw [Nat.mul_succ, List.replicate_succ, List.replicate_succ, ofBytes, ih,
        List.replicate_succ]
      rfl

/-- The table in which only the blocks of the volume itself are taken. -/
def reserved : Table :=
  (List.range reservedSpan).foldl (fun table b => table.set b .last)
    (List.replicate numBlocks .free)

theorem getElem?_reserved (b : Nat) :
  reserved[b]? = if b < reservedSpan then some .last
    else if b < numBlocks then some .free else none
  := by
  rw [reserved, getElem?_foldl_set]
  simp only [List.mem_range, List.length_replicate, List.getElem?_replicate]
  unfold reservedSpan rootStart numBlocks
  split_ifs <;> first | rfl | omega

/-- The first two free blocks in a row come right after those of the volume itself. -/
theorem firstFit_reserved :
  reserved.firstFit rootSpan = some rootStart
  := by
  apply firstFit_eq_some (by decide)
  · intro b hb hb'
    rw [getElem?_reserved, if_neg (Nat.not_lt.mpr hb), if_pos (Nat.lt_trans hb' (by decide))]
  · intro b hb hrun
    have := hrun b (Nat.le_refl b) (Nat.lt_add_of_pos_right (by decide))
    rw [getElem?_reserved, if_pos hb] at this
    simp at this

/-- The table of a volume that was just formatted. -/
def fresh : Table :=
  linkRun rootStart rootSpan reserved

/-- The blocks of the volume itself are taken, the root directory is a chain, and all other blocks
are free. -/
theorem getElem?_fresh (b : Nat) :
  fresh[b]? = if b < reservedSpan then some .last
    else if b = rootStart then some (.next (UInt16.ofNat (rootStart + 1)))
    else if b = rootStart + 1 then some .last
    else if b < numBlocks then some .free else none
  := by
  have length : reserved.length = numBlocks := by
    rw [reserved, length_foldl_set, List.length_replicate]
  have links : fresh
      = (reserved.set rootStart (.next (UInt16.ofNat (rootStart + 1)))).set (rootStart + 1)
          .last := rfl
  rw [links, List.getElem?_set, List.getElem?_set, getElem?_reserved, List.length_set, length]
  unfold reservedSpan rootStart numBlocks
  split_ifs <;> first | rfl | omega

/-- The blocks up to the end of the root directory are taken. -/
theorem countP_fresh :
  fresh.countP (· ≠ .free) = dataStart
  := by
  decide +kernel

end Table

/-! ### The image of a fresh volume -/

/-- Zeros written to several blocks stand in each of them. -/
theorem Image.block_foldl_zero {blocks : List Nat} (inside : ∀ b ∈ blocks, b < numBlocks)
    (image : Image) (c : Nat) :
  (blocks.foldl (fun image b => image.setIfInBounds b .zero) image).block c
    = if c ∈ blocks then .zero else image.block c
  := by
  induction blocks generalizing image with
  | nil => simp
  | cons b blocks ih =>
      obtain ⟨hb, inside⟩ := List.forall_mem_cons.mp inside
      rw [List.foldl_cons, ih inside, block_setIfInBounds _ hb]
      by_cases later : c ∈ blocks
      · simp [later]
      · simp [later, eq_comm]

/-- What formatting makes of a disk. -/
structure Image.Fresh (image : Image) : Prop where
  superblock : image.block superblockAt = Superblock.standard.toBlock
  table : image.table = Table.fresh
  mirror : image.mirror = Table.fresh
  self : (image.entryAt ⟨rootStart, 0⟩).StandsFor Name.dot rootBlock
  up : (image.entryAt ⟨rootStart, 1⟩).StandsFor Name.dotdot rootBlock
  unused : ∀ place : Location, place.block = rootStart ∨ place.block = rootStart + 1 →
    place ≠ ⟨rootStart, 0⟩ → place ≠ ⟨rootStart, 1⟩ →
    (image.entryAt place).record.occupied = false

/-- What formatting makes of a disk before the root directory gets its first two entries. -/
structure Image.Prepared (image : Image) : Prop where
  superblock : image.block superblockAt = Superblock.standard.toBlock
  table : image.table = Table.fresh
  mirror : image.mirror = Table.fresh
  root : image.block rootStart = .zero ∧ image.block (rootStart + 1) = .zero

/-- The image whose root directory has its first two entries. -/
def Image.withRoot (image : Image) (now : Timestamp) : Image :=
  image.withDots rootStart
    (Record.made Name.dot.toList [] .directory rootBlock (UInt32.ofNat Volume.rootLength) now)
    (Record.made Name.dotdot.toList [] .directory rootBlock (UInt32.ofNat Volume.rootLength) now)

/-- A prepared disk becomes a fresh volume when its root directory gets its first two entries. -/
theorem Image.Prepared.fresh {image : Image} (h : image.Prepared) (now : Timestamp) :
  (image.withRoot now).Fresh
  := by
  have inside : rootStart < numBlocks := by decide
  have kept := image.table_withDots
    (Record.made Name.dot.toList [] .directory rootBlock (UInt32.ofNat Volume.rootLength) now)
    (Record.made Name.dotdot.toList [] .directory rootBlock (UInt32.ofNat Volume.rootLength) now)
    (Nat.le_refl rootStart)
  have entries := image.entryAt_withDots inside
    (Record.made Name.dot.toList [] .directory rootBlock (UInt32.ofNat Volume.rootLength) now)
    (Record.made Name.dotdot.toList [] .directory rootBlock (UInt32.ofNat Volume.rootLength) now)
  unfold withRoot
  constructor
  · rw [block_withDots_of_ne _ _ _ (by decide), h.superblock]
  · rw [kept.1, h.table]
  · rw [kept.2, h.mirror]
  · unfold Entry.StandsFor
    rw [entries 0]
    exact ⟨rfl, rfl, Record.baseName_made_dot _ _ _ (.inl rfl), rfl⟩
  · unfold Entry.StandsFor
    rw [entries 1]
    exact ⟨rfl, rfl, Record.baseName_made_dot _ _ _ (.inr rfl), rfl⟩
  · rintro ⟨b, slot⟩ hb notSelf notUp
    rcases hb with rfl | rfl
    · rw [entries slot, if_neg, if_neg]
      · change (Directory.recordIn (image.block rootStart) slot).occupied = false
        rw [h.root.1, Directory.occupied_recordIn_zero]
      · rintro rfl
        apply notUp rfl
      · rintro rfl
        apply notSelf rfl
    · rw [entryAt_congr (block_withDots_of_ne _ _ _ (show rootStart + 1 ≠ rootStart by decide))]
      change (Directory.recordIn (image.block (rootStart + 1)) slot).occupied = false
      rw [h.root.2, Directory.occupied_recordIn_zero]

namespace Allocation

/-- Formatting the table makes all blocks free and touches no block outside of the copies. -/
theorem exec_format (image : Image) :
  ∃ after, format.exec image = (.ok (), after)
    ∧ image.Retabled after fun _ => List.replicate numBlocks .free
  := by
  have clear (i : Nat) (hi : i ∈ List.range tableSpan) (image : Image) :
      (do
        writeBlock (tableStart + i) .zero
        writeBlock (mirrorStart + i) .zero : DiskM Unit).exec image
      = (.ok (), (image.setIfInBounds (tableStart + i) .zero).setIfInBounds (mirrorStart + i)
          .zero) := by
    have bound : i < tableSpan := List.mem_range.mp hi
    rw [exec_bind_of_ok (exec_writeBlock image _ _), exec_writeBlock]
    · unfold mirrorStart numBlocks
      unfold tableSpan at bound
      omega
    · unfold tableStart numBlocks
      unfold tableSpan at bound
      omega
  have blocks (c : Nat) : ((List.range tableSpan).foldl (fun image i =>
        (image.setIfInBounds (tableStart + i) .zero).setIfInBounds (mirrorStart + i) .zero)
          image).block c
      = if mirrorStart + 1 = c then .zero else if tableStart + 1 = c then .zero
        else if mirrorStart + 0 = c then .zero else if tableStart + 0 = c then .zero
        else image.block c := by
    rw [show List.range tableSpan = [0, 1] from rfl, List.foldl_cons, List.foldl_cons,
      List.foldl_nil, Image.block_setIfInBounds _ (by decide),
      Image.block_setIfInBounds _ (by decide), Image.block_setIfInBounds _ (by decide),
      Image.block_setIfInBounds _ (by decide)]
  have zeros : Table.ofBytes (Block.zero.toList ++ Block.zero.toList)
      = List.replicate numBlocks .free := by
    rw [Block.zero, Vector.toList_replicate, List.replicate_append_replicate]
    apply Table.ofBytes_replicate_zero numBlocks
  refine ⟨_, exec_forM _ clear image, ?_, ?_, ?_⟩
  · rw [← zeros, Image.table, Image.tableAt, blocks, blocks]
    rfl
  · rw [← zeros, Image.mirror, Image.tableAt, blocks, blocks]
    rfl
  · intro c hc
    unfold tableStart rootStart at hc
    unfold mirrorStart tableStart at blocks
    rw [blocks, if_neg (by omega), if_neg (by omega), if_neg (by omega), if_neg (by omega)]

end Allocation

namespace Volume

/-- The blocks of the volume itself are taken one after the other. -/
theorem exec_reserve (image : Image) :
  ∃ taken, ((List.range reservedSpan).forM fun block =>
      Allocation.allocate (UInt16.ofNat block) 1).exec image = (.ok (), taken)
    ∧ image.Retabled taken ((List.range reservedSpan).foldl fun table b => table.set b .last)
  := by
  have reserve (b : Nat) (hb : b ∈ List.range reservedSpan) (image : Image) :
      (Allocation.allocate (UInt16.ofNat b) 1).exec image = (.ok (), image.withEntry b .last) := by
    apply Allocation.exec_allocate_one
    have := List.mem_range.mp hb
    exact Nat.lt_trans this (by decide)
  refine ⟨_, exec_forM _ reserve image, ?_⟩
  exact Image.retabled_foldl_withEntry (fun _ => .last)
    (show ∀ b ∈ List.range reservedSpan, b < numBlocks by decide) (by decide) image

/-- The blocks of the root directory are filled with zeros, and no other block is touched. -/
theorem exec_clearRoot (image : Image) :
  ∃ cleared : Image,
    ((List.range' rootStart rootSpan).forM (writeBlock · .zero)).exec image = (.ok (), cleared)
    ∧ (cleared.block rootStart = .zero ∧ cleared.block (rootStart + 1) = .zero)
    ∧ ∀ b, b < rootStart ∨ dataStart ≤ b → cleared.block b = image.block b
  := by
  have clear (b : Nat) (hb : b ∈ List.range' rootStart rootSpan) (image : Image) :
      (writeBlock b .zero).exec image = (.ok (), image.setIfInBounds b .zero) := by
    apply exec_writeBlock
    have := (List.mem_range'_1.mp hb).2
    exact Nat.lt_trans this (by decide)
  have zeros := Image.block_foldl_zero
    (show ∀ b ∈ List.range' rootStart rootSpan, b < numBlocks by decide) image
  refine ⟨_, exec_forM _ clear image, ?_, ?_⟩
  · rw [zeros, zeros, if_pos (by decide), if_pos (by decide)]
    exact ⟨rfl, rfl⟩
  · intro b hb
    rw [zeros, if_neg]
    rw [List.mem_range'_1, not_and_or]
    exact hb.imp Nat.not_le.mpr Nat.not_lt.mpr

/-- Formatting prepares a disk and puts the first two entries into the root directory.  No block
after the root directory is touched. -/
theorem exec_format_prepared (now : Timestamp) (image : Image) :
  ∃ prepared : Image, prepared.Prepared
    ∧ (∀ b, dataStart ≤ b → prepared.block b = image.block b)
    ∧ (format now).exec image = (.ok (), prepared.withRoot now)
  := by
  have hsuper := exec_writeBlock image (show superblockAt < numBlocks by decide)
    Superblock.standard.toBlock
  obtain ⟨cleared, hclear, clearing⟩ := Allocation.exec_format
    (image.setIfInBounds superblockAt Superblock.standard.toBlock)
  obtain ⟨taken, hreserve, taking⟩ := exec_reserve cleared
  have run : taken.table.firstFit rootSpan = some rootStart := by
    rw [taking.table, clearing.table]
    apply Table.firstFit_reserved
  obtain ⟨linked, hlink, links⟩ :
      ∃ linked, (Allocation.allocate (UInt16.ofNat rootStart) (UInt64.ofNat rootSpan)).exec taken
          = (.ok (), linked)
        ∧ taken.Retabled linked (Table.linkRun rootStart rootSpan) :=
    Allocation.exec_allocate (by decide) (by decide)
  obtain ⟨prepared, hroot, zeros, kept⟩ := exec_clearRoot linked
  have inside : (UInt16.ofNat rootStart).toNat < numBlocks := by decide
  have tables := Image.table_congr fun b hb => kept b (.inl hb)
  refine ⟨prepared, ⟨?superblock, ?table, ?mirror, zeros⟩, ?kept, ?exec⟩
  case superblock =>
    rw [kept _ (.inl (by decide)), links.block _ (by decide), taking.block _ (by decide),
      clearing.block _ (by decide), Image.block_setIfInBounds_self _ (by decide)]
  case table =>
    rw [tables.1, links.table, taking.table, clearing.table]
    rfl
  case mirror =>
    rw [tables.2, links.mirror, taking.mirror, clearing.mirror]
    rfl
  case kept =>
    intro b hb
    have above : rootStart ≤ b := Nat.le_of_add_right_le hb
    rw [kept b (.inr hb), links.block_of_le above, taking.block_of_le above,
      clearing.block_of_le above, Image.block_setIfInBounds_of_ne _ (Image.superblockAt_ne above)]
  case exec =>
    rw [format, writeSuperblock, exec_bind_of_ok hsuper, exec_bind_of_ok hclear,
      exec_bind_of_ok hreserve, exec_bind_of_ok (Allocation.exec_findRun _), run]
    dsimp only
    rw [if_neg (by simp), exec_bind_of_ok hlink, exec_bind_of_ok hroot,
      Record.new_of_dot _ _ _ (.inl rfl), exec_bind_of_ok (exec_ofExcept _ _),
      exec_bind_of_ok (Directory.exec_begin _ _ _ inside), exec_log]
    rfl

/-- Formatting succeeds on every disk. -/
theorem exec_format (now : Timestamp) (image : Image) :
  ∃ after, (format now).exec image = (.ok (), after) ∧ after.Fresh
  := by
  obtain ⟨prepared, hprepared, -, hexec⟩ := exec_format_prepared now image
  exact ⟨_, hexec, hprepared.fresh now⟩

end Volume

namespace Image.Fresh

variable {image : Image} (h : image.Fresh)
include h

/-- The root directory has two blocks. -/
theorem isChain_root :
  image.table.IsChain rootStart [rootStart, rootStart + 1]
  := by
  have entry (b : Nat) := h.table ▸ Table.getElem?_fresh b
  apply Table.IsChain.next
  · rw [entry]
    rfl
  · apply Table.IsChain.last
    rw [entry]
    rfl

theorem blocksOf_root :
  image.blocksOf rootStart = [rootStart, rootStart + 1]
  := blocksOf_eq h.isChain_root

/-- The root directory lists nothing. -/
theorem listed_root :
  image.listed rootStart = []
  := by
  apply List.eq_nil_iff_forall_not_mem.mpr
  intro e he
  obtain ⟨hplace, hentry, occupied⟩ := mem_listed_iff.mp he
  rw [h.blocksOf_root] at hplace
  obtain ⟨self, up⟩ :
      ⟨rootStart, 0⟩ ∉ (Directory.places [rootStart, rootStart + 1]).drop 2
        ∧ ⟨rootStart, 1⟩ ∉ (Directory.places [rootStart, rootStart + 1]).drop 2 :=
    notMem_drop_places (by decide) ⟨_, rfl⟩
  have hblock := (Directory.mem_places.mp (List.mem_of_mem_drop hplace)).1
  rw [← hentry, h.unused] at occupied
  · simp at occupied
  · simpa using hblock
  · rintro same
    apply self (same ▸ hplace)
  · rintro same
    apply up (same ▸ hplace)

/-- The third slot of the root directory is the first that is free. -/
theorem freeSlot_root :
  image.freeSlot rootStart = some ⟨rootStart, 2⟩
  := by
  have slots : image.slots rootStart = image.entryAt ⟨rootStart, 0⟩
      :: image.entryAt ⟨rootStart, 1⟩ :: image.entryAt ⟨rootStart, 2⟩
      :: ((Directory.places [rootStart, rootStart + 1]).drop 3).map image.entryAt := by
    rw [Image.slots, h.blocksOf_root]
    rfl
  have unused := h.unused ⟨rootStart, 2⟩ (.inl rfl) (by decide) (by decide)
  rw [freeSlot, slots]
  simp [h.self.1, h.up.1, unused]

theorem hasDots_root :
  image.HasDots rootBlock rootBlock
  := by
  apply hasDots_iff.mpr
  refine ⟨?_, h.self, h.up⟩
  have := h.isChain_root
  rw [← h.blocksOf_root] at this
  apply this

/-- Only the empty path can be followed. -/
theorem find?_eq_some_iff {names : List String} {e : Entry} :
  image.find? rootBlock names = some e ↔ names = [] ∧ e = image.entryAt ⟨rootStart, 0⟩
  := by
  induction names using List.reverseRecOn generalizing e with
  | nil =>
      rw [find?_nil]
      simp [eq_comm]
      rfl
  | append_singleton names name ih =>
      constructor
      · intro he
        obtain ⟨d, hd, -, hchild⟩ := find?_concat_eq_some.mp he
        obtain ⟨rfl, rfl⟩ := ih.mp hd
        rw [h.self.2.2.2] at hchild
        have hmem : e ∈ image.listed rootStart := mem_listed_of_child? hchild
        simp [h.listed_root] at hmem
      · simp

/-- The directory that the empty path leads to is the root. -/
theorem first_of_find? {names : List String} {e : Entry}
    (he : image.find? rootBlock names = some e) :
  e.record.first.toNat = rootStart
  := by
  obtain ⟨-, rfl⟩ := h.find?_eq_some_iff.mp he
  rw [h.self.2.2.2]
  rfl

/-- Only the empty path owns blocks. -/
theorem owner_eq_some_iff {names : List String} {blocks : List Nat} :
  image.owner rootBlock names = some blocks
    ↔ names = [] ∧ blocks = [rootStart, rootStart + 1]
  := by
  rw [owner_eq_some]
  constructor
  · rintro ⟨e, he, rfl⟩
    rw [h.first_of_find? he, h.blocksOf_root]
    exact ⟨(h.find?_eq_some_iff.mp he).1, rfl⟩
  · rintro ⟨rfl, rfl⟩
    have hroot := find?_nil image rootBlock
    refine ⟨_, hroot, ?_⟩
    rw [h.first_of_find? hroot, h.blocksOf_root]

/-- All blocks that are neither reserved nor in the root directory are free. -/
theorem partitioned :
  image.table.Partitioned (image.owner rootBlock)
  := by
  have entry (b : Nat) := h.table ▸ Table.getElem?_fresh b
  constructor
  case reserved =>
    intro b hb
    rw [entry, if_pos hb]
  case chained =>
    intro names blocks howner
    obtain ⟨-, rfl⟩ := h.owner_eq_some_iff.mp howner
    exact ⟨_, h.isChain_root⟩
  case above =>
    intro names blocks howner b hb
    obtain ⟨-, rfl⟩ := h.owner_eq_some_iff.mp howner
    revert b
    decide
  case disjoint =>
    intro names names' blocks blocks' hne howner howner'
    obtain ⟨rfl, -⟩ := h.owner_eq_some_iff.mp howner
    obtain ⟨rfl, -⟩ := h.owner_eq_some_iff.mp howner'
    exact (hne rfl).elim
  case covered =>
    intro b found hb taken
    by_cases low : b < reservedSpan
    · exact .inl low
    right
    refine ⟨[], _, h.owner_eq_some_iff.mpr ⟨rfl, rfl⟩, ?_⟩
    by_contra notMem
    simp only [List.mem_cons, List.not_mem_nil, or_false, not_or] at notMem
    rw [entry, if_neg low, if_neg notMem.1, if_neg notMem.2] at hb
    split_ifs at hb
    apply taken (Option.some.inj hb).symm

/-- A fresh volume is sound. -/
theorem sound :
  image.Sound rootBlock fun _ => none
  := by
  have listed {names : List String} {d : Entry} (hd : image.find? rootBlock names = some d) :
      image.listed d.record.first.toNat = [] := by
    rw [h.first_of_find? hd, h.listed_root]
  have nothing {names : List String} {name : String} {e : Entry}
      (he : image.find? rootBlock (names ++ [name]) = some e) : False := by
    simpa using (h.find?_eq_some_iff.mp he).1
  constructor
  case mirrored => rw [h.mirror, h.table]
  case partitioned => exact h.partitioned
  case root_span =>
    change (image.blocksOf rootStart).length = rootSpan
    rw [h.blocksOf_root]
    rfl
  case root_dots => exact h.hasDots_root
  case named =>
    intro names d hd _
    simp [listed hd]
  case distinct =>
    intro names d hd _
    simp [listed hd]
  case spans =>
    intro names name e he
    exact (nothing he).elim
  case dots =>
    intro names name d e _ he
    exact (nothing he).elim

end Image.Fresh

end FatVolume
