import FatVolume.Proofs.FirstFit
import FatVolume.Proofs.Reading
import FatVolume.Proofs.Replacement

/-!
# Storing contents

`OpenFile.store` lets a chain grow block by block where it is too short, puts a content over its
blocks and cuts what is left.  It fails only when too few blocks are free, and then the image is
what it was.
-/

namespace FatVolume

open DiskM

variable {image after : Image} {first final : Nat} {blocks : List Nat}

/-! ### Growing a chain -/

namespace Table

variable {table : Table} {fresh : Nat}

theorem getElem?_extend_of_ne {b : Nat} (hfinal : b ≠ final) (hfresh : b ≠ fresh) :
  (extend final fresh table)[b]? = table[b]?
  := by
  rw [extend, List.getElem?_set_ne hfinal.symm, List.getElem?_set_ne hfresh.symm]

/-- The block that follows is not free any more. -/
theorem countFree_extend (hfinal : ∃ entry, table[final]? = some entry ∧ entry ≠ .free)
    (hfresh : table[fresh]? = some .free) :
  (extend final fresh table).countFree = table.countFree - 1
  := by
  obtain ⟨entry, hentry, taken⟩ := hfinal
  obtain ⟨inside, hfree⟩ := List.getElem?_eq_some_iff.mp hfresh
  obtain ⟨inside', hentry⟩ := List.getElem?_eq_some_iff.mp hentry
  have apart : final ≠ fresh := by
    rintro rfl
    apply taken
    rw [← hentry, hfree]
  rw [extend, countFree, countFree, List.count_set (by simpa using inside'),
    List.count_set inside, List.getElem_set_ne apart.symm, hfree, hentry]
  simp [taken]

/-- A chain grows by a block that was free when that block follows the last one. -/
theorem IsChain.extend (h : table.IsChain first blocks) (hfinal : blocks.getLast? = some final)
    (hfresh : table[fresh]? = some .free) (fits : fresh < UInt16.size) :
  (Table.extend final fresh table).IsChain first (blocks ++ [fresh])
  := by
  have final_mem := List.mem_of_getLast? hfinal
  have apart : final ≠ fresh := fun same => h.ne_free final_mem (same ▸ hfresh)
  have back : (UInt16.ofNat fresh).toNat = fresh := UInt16.toNat_ofNat_of_lt fits
  have chain : (Table.extend final fresh table).IsChain first
      (blocks ++ [(UInt16.ofNat fresh).toNat]) := by
    apply h.append hfinal
    · exact List.getElem?_set_self (by simpa using h.lt_length final_mem)
    · rw [back, Table.extend, List.getElem?_set_ne apart, List.getElem?_set_self]
      exact (List.getElem?_eq_some_iff.mp hfresh).1
    · intro b hb other
      apply getElem?_extend_of_ne other
      rintro rfl
      exact h.ne_free hb hfresh
  rwa [back] at chain

end Table

/-- A chain with blocks `blocks` grew by the blocks `new`, which were free. -/
structure Image.Grown (image after : Image) (first : Nat) (blocks new : List Nat) : Prop where
  isChain : after.table.IsChain first (blocks ++ new)
  fresh : ∀ b ∈ new, image.table[b]? = some .free
  untouched : ∀ b, b ∉ blocks → b ∉ new → after.table[b]? = image.table[b]?
  mirrored : after.mirror = after.table
  content : ∀ b, ¬(tableStart ≤ b ∧ b < rootStart) → after.block b = image.block b

/-- Nothing that is free in a grown image was taken before. -/
theorem Image.Grown.free {new : List Nat} (h : image.Grown after first blocks new) {b : Nat}
    (hb : after.table[b]? = some .free) :
  image.table[b]? = some .free
  := by
  rw [← h.untouched b, hb]
  · exact fun hmem => h.isChain.ne_free (List.mem_append_left _ hmem) hb
  · exact fun hmem => h.isChain.ne_free (List.mem_append_right _ hmem) hb

/-- A chain that grew by a block and then by others grew by all of them. -/
theorem Image.Grown.trans {middle : Image} {fresh : Nat} {new : List Nat}
    (h : image.Grown middle first blocks [fresh])
    (h' : middle.Grown after first (blocks ++ [fresh]) new) :
  image.Grown after first blocks (fresh :: new)
  := by
  constructor
  · simpa using h'.isChain
  · intro b hb
    rcases List.mem_cons.mp hb with rfl | hb
    · exact h.fresh b (by simp)
    · exact h.free (h'.fresh b hb)
  · intro b hb hb'
    simp only [List.mem_cons, not_or] at hb'
    rw [h'.untouched b (by simp [hb, hb'.1]) hb'.2, h.untouched b hb (by simp [hb'.1])]
  · exact h'.mirrored
  · intro b hb
    rw [h'.content b hb, h.content b hb]

namespace Allocation

/-- A chain grows by a block when one is free. -/
theorem exec_append {fresh : Nat} (hchain : image.table.IsChain first blocks)
    (hfinal : blocks.getLast? = some final) (mirrored : image.mirror = image.table)
    (above : ∀ b, image.table[b]? = some .free → reservedSpan ≤ b)
    (hfresh : image.table.firstFit 1 = some fresh) :
  ∃ after, (append final).exec image = (.ok fresh, after)
    ∧ image.Grown after first blocks [fresh]
    ∧ after.table.countFree = image.table.countFree - 1
  := by
  have free := Table.free_of_firstFit_one hfresh
  have low := above fresh free
  have inside : fresh < numBlocks := by
    have := (List.getElem?_eq_some_iff.mp free).1
    rwa [Image.length_table] at this
  have final_mem := List.mem_of_getLast? hfinal
  have final_inside := hchain.lt_length final_mem
  rw [Image.length_table] at final_inside
  obtain ⟨after, hexec, edit⟩ := exec_append_of_some final_inside hfresh
    (Nat.lt_of_lt_of_le (by decide) low)
  have isChain : after.table.IsChain first (blocks ++ [fresh]) := by
    rw [edit.table]
    exact hchain.extend hfinal free (Nat.lt_trans inside (by decide))
  refine ⟨after, hexec, ⟨isChain, ?_, ?_, edit.mirrored mirrored, ?_⟩, ?_⟩
  · simpa using free
  · intro b hb hb'
    rw [edit.table, Table.getElem?_extend_of_ne _ (by simpa using hb')]
    rintro rfl
    exact hb final_mem
  · exact edit.block
  · rw [edit.table, Table.countFree_extend (hchain.exists_entry final_mem) free]

end Allocation

namespace OpenFile

/-- Growing succeeds when enough blocks are free. -/
theorem exec_grow {count : Nat} (hchain : image.table.IsChain first blocks)
    (hfinal : blocks.getLast? = some final) (mirrored : image.mirror = image.table)
    (above : ∀ b, image.table[b]? = some .free → reservedSpan ≤ b)
    (enough : count ≤ image.table.countFree) :
  ∃ after new, (grow blocks final count).exec image = (.ok (blocks ++ new), after)
    ∧ new.length = count ∧ image.Grown after first blocks new
  := by
  induction count generalizing image blocks final with
  | zero =>
      refine ⟨image, [], by simp [grow], rfl, ?_, by simp, fun _ _ _ => rfl, mirrored,
        fun _ _ => rfl⟩
      simpa using hchain
  | succ count ih =>
      have some_free : image.table.firstFit 1 ≠ none := by
        rw [Ne, Table.firstFit_one_eq_none_iff]
        omega
      obtain ⟨fresh, hfresh⟩ := Option.ne_none_iff_exists'.mp some_free
      obtain ⟨middle, happend, longer, fewer⟩ :=
        Allocation.exec_append hchain hfinal mirrored above hfresh
      obtain ⟨after, new, hgrow, length, grown⟩ := ih longer.isChain List.getLast?_concat
        longer.mirrored (fun b hb => above b (longer.free hb)) (by omega)
      refine ⟨after, fresh :: new, ?_, by simp [length], longer.trans grown⟩
      rw [grow, exec_bind_of_ok happend, hgrow, List.append_assoc]
      rfl

end OpenFile

/-! ### Shortening a chain -/

/-- A chain that ends at the last of its first blocks, with the others free, has those. -/
theorem Table.IsChain.cut {table : Table} {kept rest : List Nat}
    (h : table.IsChain first (kept ++ rest)) (hfinal : kept.getLast? = some final) :
  (Table.cut final rest table).IsChain first kept
  := by
  have apart := List.disjoint_of_nodup_append h.nodup
  have final_mem := List.mem_of_getLast? hfinal
  have inside := h.lt_length (List.mem_append_left _ final_mem)
  apply h.truncate hfinal
  · rw [Table.cut, Table.getElem?_release_of_notMem (apart final_mem), List.getElem?_set_self inside]
  · intro b hb hne
    rw [Table.cut, Table.getElem?_release_of_notMem (apart hb), List.getElem?_set_ne hne.symm]

/-- A chain with blocks `blocks` was cut to the first `keep` of them. -/
structure Image.Shortened (image after : Image) (first : Nat) (blocks : List Nat) (keep : Nat) :
    Prop where
  isChain : after.table.IsChain first (blocks.take keep)
  released : ∀ b ∈ blocks.drop keep, after.table[b]? = some .free
  untouched : ∀ b, b ∉ blocks → after.table[b]? = image.table[b]?
  mirrored : after.mirror = after.table
  content : ∀ b, ¬(tableStart ≤ b ∧ b < rootStart) → after.block b = image.block b

namespace Allocation

/-- Shortening a chain that is not too long does nothing. -/
theorem exec_shorten {keep : Nat} (hchain : image.table.IsChain first blocks)
    (mirrored : image.mirror = image.table) (hkeep : 0 < keep) :
  ∃ after, (if keep < blocks.length then truncate first keep else pure ()).exec image
      = (.ok (), after)
    ∧ image.Shortened after first blocks keep
  := by
  by_cases longer : keep < blocks.length
  · have nonempty : blocks.take keep ≠ [] := by
      apply List.ne_nil_of_length_pos
      rw [List.length_take]
      omega
    obtain ⟨final, hfinal⟩ := Option.ne_none_iff_exists'.mp
      (mt List.getLast?_eq_none_iff.mp nonempty)
    obtain ⟨after, hexec, edit⟩ := exec_truncate hchain ⟨hkeep, longer⟩ hfinal
    refine ⟨after, by rw [if_pos longer, hexec], ?_, ?_, ?_, edit.mirrored mirrored, ?_⟩
    · rw [edit.table]
      apply Table.IsChain.cut _ hfinal
      rwa [List.take_append_drop]
    · intro b hb
      rw [edit.table, Table.cut, Table.getElem?_release_of_mem hb]
      rw [List.length_set]
      apply hchain.lt_length (List.mem_of_mem_drop hb)
    · intro b hb
      have final_mem := List.mem_of_mem_take (List.mem_of_getLast? hfinal)
      rw [edit.table, Table.cut, Table.getElem?_release_of_notMem, List.getElem?_set_ne]
      · rintro rfl
        exact hb final_mem
      · exact fun h => hb (List.mem_of_mem_drop h)
    · exact edit.block
  · have all : blocks.length ≤ keep := Nat.not_lt.mp longer
    refine ⟨image, by rw [if_neg longer, exec_pure], ?_, ?_, fun _ _ => rfl, mirrored,
      fun _ _ => rfl⟩
    · rwa [List.take_of_length_le all]
    · simp [List.drop_eq_nil_of_le all]

end Allocation

/-! ### Putting blocks in place -/

namespace Image

/-- The image with the given contents in the given blocks. -/
def withBlocks (image : Image) (writes : List (Nat × Block)) : Image :=
  writes.foldl (fun image w => image.setIfInBounds w.1 w.2) image

theorem withBlocks_cons (image : Image) (w : Nat × Block) (writes : List (Nat × Block)) :
  image.withBlocks (w :: writes) = Image.withBlocks (image.setIfInBounds w.1 w.2) writes
  := rfl

theorem block_withBlocks_of_notMem {writes : List (Nat × Block)} {b : Nat}
    (hb : b ∉ writes.map Prod.fst) :
  (image.withBlocks writes).block b = image.block b
  := by
  induction writes generalizing image with
  | nil => rfl
  | cons w rest ih =>
      simp only [List.map_cons, List.mem_cons, not_or] at hb
      rw [withBlocks_cons, ih hb.2, block_setIfInBounds_of_ne _ (Ne.symm hb.1)]

/-- Different blocks hold what was put into each of them. -/
theorem map_block_withBlocks (image : Image) {data : List Block} (nodup : blocks.Nodup)
    (inside : ∀ b ∈ blocks, b < numBlocks) (length : blocks.length = data.length) :
  blocks.map (image.withBlocks (blocks.zip data)).block = data
  := by
  induction blocks generalizing image data with
  | nil => simpa using length.symm
  | cons b rest ih =>
      obtain ⟨content, data, rfl⟩ := List.exists_cons_of_length_eq_add_one length.symm
      have ⟨notMem, nodup⟩ := List.nodup_cons.mp nodup
      have ⟨inside, rest_inside⟩ := List.forall_mem_cons.mp inside
      have length : rest.length = data.length := by simpa using length
      rw [List.zip_cons_cons, withBlocks_cons, List.map_cons, ih _ nodup rest_inside length,
        block_withBlocks_of_notMem, block_setIfInBounds_self _ inside]
      rwa [List.map_fst_zip length.le]

end Image

theorem DiskM.exec_forM_writeBlock {writes : List (Nat × Block)}
    (inside : ∀ b ∈ writes.map Prod.fst, b < numBlocks) (image : Image) :
  (writes.forM fun (block, data) => writeBlock block data).exec image
    = (.ok (), image.withBlocks writes)
  := by
  apply exec_forM
  intro w hw image
  apply exec_writeBlock image (inside w.1 (List.mem_map_of_mem hw))

/-- A chain with blocks `old` became one with the blocks `new`, which hold a content. -/
structure Image.Stored (image after : Image) (first : Nat) (old new : List Nat)
    (content : Bytes) : Prop where
  isChain : after.table.IsChain first new
  length : new.length = blocksFor content.length
  /-- Blocks are gained and lost at the end. -/
  comparable : new <+: old ∨ old <+: new
  fresh : ∀ b ∈ new, b ∉ old → image.table[b]? = some .free
  released : ∀ b ∈ old, b ∉ new → after.table[b]? = some .free
  untouched : ∀ b, b ∉ old → b ∉ new → after.table[b]? = image.table[b]?
  mirrored : after.mirror = after.table
  blocks : new.map after.block = OpenFile.toBlocks (blocksFor content.length) content
  content : ∀ b, ¬(tableStart ≤ b ∧ b < rootStart) → b ∉ new → after.block b = image.block b

/-- Storing in the grown chain is storing in the chain, if the blocks by which it grew are
used. -/
theorem Image.Grown.stored {middle : Image} {added new : List Nat} {content : Bytes}
    (h : image.Grown middle first blocks added)
    (h' : middle.Stored after first (blocks ++ added) new content) (used : ∀ b ∈ added, b ∈ new) :
  image.Stored after first blocks new content
  := by
  constructor
  · exact h'.isChain
  · exact h'.length
  · have old := List.prefix_append blocks added
    rcases h'.comparable with shorter | longer
    · exact List.prefix_or_prefix_of_prefix shorter old
    · exact .inr (old.trans longer)
  · intro b hb hb'
    by_cases hadded : b ∈ added
    · exact h.fresh b hadded
    · exact h.free (h'.fresh b hb (by simp [hb', hadded]))
  · intro b hb hb'
    exact h'.released b (by simp [hb]) hb'
  · intro b hb hb'
    have hadded : b ∉ added := fun hadded => hb' (used b hadded)
    rw [h'.untouched b (by simp [hb, hadded]) hb', h.untouched b hb hadded]
  · exact h'.mirrored
  · exact h'.blocks
  · intro b hb hb'
    rw [h'.content b hb hb', h.content b hb]

namespace OpenFile

section Store

variable (hchain : image.table.IsChain first blocks) (mirrored : image.mirror = image.table)
  (low : ∀ b ∈ blocks, reservedSpan ≤ b) (content : Bytes)
include hchain

include low in
/-- Putting a content into the first blocks of a chain that is long enough touches no other block,
and no table. -/
theorem exec_putBlocks (enough : blocksFor content.length ≤ blocks.length) :
  ∃ middle : Image, (((blocks.take (blocksFor content.length)).zip
        (toBlocks (blocksFor content.length) content)).forM fun (block, data) =>
          writeBlock block data).exec image = (.ok (), middle)
    ∧ middle.table = image.table ∧ middle.mirror = image.mirror
    ∧ (blocks.take (blocksFor content.length)).map middle.block
      = toBlocks (blocksFor content.length) content
    ∧ ∀ b ∉ blocks.take (blocksFor content.length), middle.block b = image.block b
  := by
  have inside : ∀ b ∈ blocks.take (blocksFor content.length), b < numBlocks := by
    intro b hb
    have := hchain.lt_length (List.mem_of_mem_take hb)
    rwa [Image.length_table] at this
  have length : (blocks.take (blocksFor content.length)).length
      = (toBlocks (blocksFor content.length) content).length := by
    rw [List.length_take, Nat.min_eq_left enough, length_toBlocks]
  have targets := List.map_fst_zip length.le
  have kept (b : Nat) (hb : b ∉ blocks.take (blocksFor content.length)) :
      (image.withBlocks ((blocks.take (blocksFor content.length)).zip
        (toBlocks (blocksFor content.length) content))).block b = image.block b := by
    apply Image.block_withBlocks_of_notMem
    rwa [targets]
  have ⟨table, mirror⟩ := Image.table_congr fun b hb => kept b fun hmem =>
    Nat.not_le.mpr hb (low b (List.mem_of_mem_take hmem))
  have filled := Image.map_block_withBlocks image
    (hchain.nodup.sublist (List.take_sublist _ _)) inside length
  exact ⟨_, exec_forM_writeBlock (by rwa [targets]) image, table, mirror, filled, kept⟩

include mirrored low in
/-- A content is put over the first blocks of a chain that is long enough, and the others are
cut. -/
theorem exec_put (enough : blocksFor content.length ≤ blocks.length) :
  ∃ after, (do
      ((blocks.take (blocksFor content.length)).zip
          (toBlocks (blocksFor content.length) content)).forM fun (block, data) =>
        writeBlock block data
      if blocksFor content.length < blocks.length then
        Allocation.truncate first (blocksFor content.length)
      else pure ()).exec image = (.ok (), after)
    ∧ image.Stored after first blocks (blocks.take (blocksFor content.length)) content
  := by
  obtain ⟨middle, hwrites, table, mirror, filled, kept⟩ := exec_putBlocks hchain low content enough
  rw [exec_bind_of_ok hwrites]
  rw [← table] at hchain
  obtain ⟨after, hexec, short⟩ := Allocation.exec_shorten hchain
    (by rw [mirror, table, mirrored]) (blocksFor_pos content.length)
  have used_length : (blocks.take (blocksFor content.length)).length
      = blocksFor content.length := by
    rw [List.length_take, Nat.min_eq_left enough]
  refine ⟨after, hexec, short.isChain, used_length, .inl (List.take_prefix _ _), ?_, ?_, ?_,
    short.mirrored, ?_, ?_⟩
  · intro b hb hb'
    exact (hb' (List.mem_of_mem_take hb)).elim
  · intro b hb hb'
    apply short.released
    rw [← List.take_append_drop (blocksFor content.length) blocks] at hb
    exact (List.mem_append.mp hb).resolve_left hb'
  · intro b hb hb'
    rw [short.untouched b hb, table]
  · rw [← filled]
    apply List.map_congr_left
    intro b hb
    apply short.content b (Image.notTable_of_le (low b (List.mem_of_mem_take hb)))
  · intro b hb hb'
    rw [short.content b hb, kept b hb']

/-- Nothing is written when too few blocks are free. -/
theorem exec_store_of_lt
    (lack : image.table.countFree < blocksFor content.length - blocks.length) :
  (store first content).exec image = (.error .outOfSpace, image)
  := by
  have some_missing : 0 < blocksFor content.length - blocks.length := by omega
  rw [store, exec_bind_of_ok (Allocation.exec_chain_of_isChain hchain)]
  dsimp only
  rw [if_pos some_missing, exec_bind_of_ok Allocation.exec_countFree, if_pos lack,
    exec_bind_of_error (exec_throw _ _)]

include mirrored low in
/-- A content is stored when enough blocks are free. -/
theorem exec_store (above : ∀ b, image.table[b]? = some .free → reservedSpan ≤ b)
    (enough : blocksFor content.length - blocks.length ≤ image.table.countFree) :
  ∃ after new, (store first content).exec image = (.ok (), after)
    ∧ image.Stored after first blocks new content
  := by
  obtain ⟨final, hfinal⟩ := Option.ne_none_iff_exists'.mp
    (mt List.getLast?_eq_none_iff.mp hchain.ne_nil)
  obtain ⟨middle, added, hgrow, length, grown⟩ := exec_grow hchain hfinal mirrored above enough
  have total : (blocks ++ added).length
      = blocks.length + (blocksFor content.length - blocks.length) := by
    rw [List.length_append, length]
  have low_grown : ∀ b ∈ blocks ++ added, reservedSpan ≤ b := by
    intro b hb
    rcases List.mem_append.mp hb with hb | hb
    · exact low b hb
    · exact above b (grown.fresh b hb)
  obtain ⟨after, hput, stored⟩ := exec_put grown.isChain grown.mirrored low_grown content (by omega)
  refine ⟨after, _, ?_, grown.stored stored ?_⟩
  · have guarded (rest : DiskM Unit) :
        (if 0 < blocksFor content.length - blocks.length then do
          if (← Allocation.countFree) < blocksFor content.length - blocks.length then
            throw .outOfSpace
          rest
        else rest).exec image = rest.exec image := by
      split
      · rw [exec_bind_of_ok Allocation.exec_countFree, if_neg (Nat.not_lt.mpr enough)]
      · rfl
    have last : blocks.getLastD first = final := by
      rw [List.getLastD_eq_getLast?, hfinal, Option.getD_some]
    rw [store, exec_bind_of_ok (Allocation.exec_chain_of_isChain hchain)]
    dsimp only
    rw [guarded, last, exec_bind_of_ok hgrow]
    exact hput
  · -- The chain grew only if all its blocks are needed.
    intro b hb
    have := List.length_pos_of_mem hb
    rw [List.take_of_length_le (by omega)]
    exact List.mem_append_right _ hb

end Store

/-! ### Writing -/

/-- A length that fits the disk fits a record. -/
theorem toNat_ofNat_of_blocksFor_le {length : Nat} (h : blocksFor length ≤ numBlocks) :
  (UInt32.ofNat length).toNat = length
  := by
  have fits := Nat.le_trans (le_blocksFor_mul length) (Nat.mul_le_mul_right blockSize h)
  rw [UInt32.toNat_ofNat']
  apply Nat.mod_eq_of_lt (Nat.lt_of_le_of_lt fits (by decide))

variable {file : OpenFile}

theorem exec_write_of_isDirectory {new : Bytes} {mode : WriteMode}
    (hdir : file.record.isDirectory = true) :
  (file.write new mode).exec image = (.error .notFile, image)
  := by
  rw [write, if_pos hdir, exec_bind_of_error (exec_throw _ _)]

/-- Writing stores some content and makes its length the length of the file, or it fails and
changes nothing. -/
theorem exec_write (new : Bytes) (mode : WriteMode)
    (hchain : image.table.IsChain file.record.first.toNat blocks)
    (mirrored : image.mirror = image.table) (low : ∀ b ∈ blocks, reservedSpan ≤ b)
    (above : ∀ b, image.table[b]? = some .free → reservedSpan ≤ b) :
  (∃ e, (file.write new mode).exec image = (.error e, image))
    ∨ ∃ after stored content position, file.record.isDirectory = false
      ∧ position ≤ content.length
      ∧ (file.write new mode).exec image
        = (.ok { file with
            record := { file.record with length := UInt32.ofNat content.length }
            cursor := position
            dirty := true }, after)
      ∧ image.Stored after file.record.first.toNat blocks stored content
  := by
  by_cases hdir : file.record.isDirectory = true
  · exact .inl ⟨_, exec_write_of_isDirectory hdir⟩
  rw [write, if_neg hdir]
  have reading := (uses_readRange (Set.mem_singleton _) file.record.first.toNat
    file.record.length.toNat 0 file.record.length.toNat).readOnly.exec_eq image
  generalize ((readRange file.record.first.toNat file.record.length.toNat 0
    file.record.length.toNat).exec image).1 = result at reading
  cases result with
  | error e => exact .inl ⟨e, exec_bind_of_error reading⟩
  | ok old =>
      rw [exec_bind_of_ok reading]
      dsimp only
      have within := mode.apply_position_le old new file.cursor
      generalize mode.apply old new file.cursor = outcome at within ⊢
      obtain ⟨content, position⟩ := outcome
      by_cases enough : blocksFor content.length - blocks.length ≤ image.table.countFree
      · obtain ⟨after, stored, hstore, hstored⟩ :=
          exec_store hchain mirrored low content above enough
        refine .inr ⟨after, stored, content, position, by simpa using hdir, within, ?_, hstored⟩
        rw [exec_bind_of_ok hstore, exec_bind_of_ok (exec_log _ _ _ _), exec_pure]
      · have := exec_store_of_lt hchain content (Nat.not_le.mp enough)
        exact .inl ⟨_, exec_bind_of_error this⟩

end OpenFile

/-! ### The image after writing -/

namespace Image.Stored

variable {root : UInt16} {lengths : List String → Option Nat} {names : List String}
  {name : String} {e : Entry} {new : List Nat} {content : Bytes}
  (h : image.Stored after e.record.first.toNat (image.blocksOf e.record.first.toNat) new content)
  (sound : image.Sound root lengths) (he : image.find? root (names ++ [name]) = some e)
include h sound he

/-- The block in which the entry of the file stands stays as it is. -/
theorem block_location :
  after.block e.location.block = image.block e.location.block
  := by
  obtain ⟨d, hd, -, hchild⟩ := find?_concat_eq_some.mp he
  have hblock := block_mem_of_mem_listed (mem_listed_of_child? hchild)
  have notOld : e.location.block ∉ image.blocksOf e.record.first.toNat := by
    intro hmem
    apply ne_concat names name (sound.path_unique hd he hblock hmem)
  apply h.content _ (notTable_of_le (sound.above hd _ hblock))
  intro hmem
  exact (sound.isChain hd).ne_free hblock (h.fresh _ hmem notOld)

/-- Storing a content in a file replaces nothing but the chain of the file. -/
theorem replaced (hfile : e.record.isDirectory = false) {d : Entry}
    (hd : image.find? root names = some d) :
  image.Replaced after root names name d e.location (some e)
  := by
  obtain ⟨d', hd', -, hchild⟩ := find?_concat_eq_some.mp he
  obtain rfl := Option.some.inj (hd.symm.trans hd')
  obtain ⟨-, hentry, occupied⟩ := mem_listed_iff.mp (mem_listed_of_child? hchild)
  have new_eq : after.blocksOf e.record.first.toNat = new := blocksOf_eq h.isChain
  have place_same := h.block_location sound he
  apply Replaced.of_file sound hd he hfile rfl rfl rfl
  case holds => exact ⟨(entryAt_congr place_same).trans hentry, occupied⟩
  case chained =>
    rw [new_eq]
    exact h.isChain
  case mirrored => exact h.mirrored
  case superblock =>
    apply h.content superblockAt (by decide)
    intro hmem
    by_cases old : superblockAt ∈ image.blocksOf e.record.first.toNat
    · exact absurd (sound.above he _ old) (by decide)
    · have := sound.partitioned.reservedSpan_le_of_free (h.fresh _ hmem old)
      exact absurd this (by decide)
  case untouched =>
    rw [new_eq]
    exact h.untouched
  case fresh =>
    rw [new_eq]
    exact h.fresh
  case released =>
    rw [new_eq]
    exact h.released
  case content =>
    rw [new_eq]
    intro b hb _ hb' _
    exact h.content b (notTable_of_le hb) hb'
  case slots =>
    intro other hother _
    apply entryAt_congr
    rw [hother, place_same]

end Image.Stored

end FatVolume
