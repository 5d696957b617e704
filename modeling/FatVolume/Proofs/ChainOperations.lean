import FatVolume.Proofs.FreshVolumes
import FatVolume.Proofs.Storage

/-!
# Chains apart from each other

Chains live in one table, and each action on a chain edits that table entry by entry.
`Image.EditedAt image after involved` says that such an action left alone all but the entries of
the blocks `involved`, so that every chain apart from them is what it was.  `Image.ChainsApart`
says of each action what it does to the chain it is about and which blocks it involves.
-/

namespace FatVolume

open DiskM

variable {image middle after : Image}

/-! ### Edits of some blocks -/

/-- Nothing was edited but the entries of the given blocks, in both copies of the table. -/
structure Image.EditedAt (image after : Image) (involved : List Nat) : Prop where
  table : ∀ b, b ∉ involved → after.table[b]? = image.table[b]?
  mirror : ∀ b, b ∉ involved → after.mirror[b]? = image.mirror[b]?
  block : ∀ b, ¬(tableStart ≤ b ∧ b < rootStart) → after.block b = image.block b
  chain : ∀ first blocks, (Allocation.chain first).exec image = (.ok blocks, image) →
    blocks.Disjoint involved → (Allocation.chain first).exec after = (.ok blocks, after)

namespace Allocation

/-- Reading a chain gives the blocks through which the entries lead. -/
theorem exec_chain_eq_ok_iff {first : Nat} {blocks : List Nat} :
  (chain first).exec image = (.ok blocks, image) ↔ image.table.IsChain first blocks
  := by
  rw [exec_chain, Prod.mk.injEq, and_iff_left rfl, Image.chain_eq_ok_iff]

end Allocation

namespace Image

/-- An edit of both copies that keeps the entries of all other blocks. -/
theorem Retabled.editedAt {edit : Table → Table} {involved : List Nat}
    (h : image.Retabled after edit)
    (kept : ∀ (table : Table) (b : Nat), b ∉ involved → (edit table)[b]? = table[b]?) :
  image.EditedAt after involved
  := by
  have table (b : Nat) (hb : b ∉ involved) : after.table[b]? = image.table[b]? := by
    rw [h.table, kept _ b hb]
  refine ⟨table, ?_, h.block, ?_⟩
  · intro b hb
    rw [h.mirror, kept _ b hb]
  · intro first blocks hchain apart
    have hchain := Allocation.exec_chain_eq_ok_iff.mp hchain
    apply Allocation.exec_chain_of_isChain
    apply hchain.congr
    intro b hb
    exact table b (apart hb)

/-- Two edits of the same blocks, one after the other. -/
theorem EditedAt.trans {involved : List Nat} (h : image.EditedAt middle involved)
    (h' : middle.EditedAt after involved) :
  image.EditedAt after involved
  := by
  constructor
  · intro b hb
    rw [h'.table b hb, h.table b hb]
  · intro b hb
    rw [h'.mirror b hb, h.mirror b hb]
  · intro b hb
    rw [h'.block b hb, h.block b hb]
  · intro first blocks hchain apart
    apply h'.chain first blocks (h.chain first blocks hchain apart) apart

end Image

/-! ### Runs -/

namespace Table

variable {table : Table} {first count : Nat}

theorem getElem?_linkRun_of_notMem (hcount : 0 < count) {b : Nat}
    (hb : b ∉ List.range' first count) :
  (linkRun first count table)[b]? = table[b]?
  := by
  rw [List.mem_range'_1] at hb
  rw [linkRun, List.getElem?_set_ne (by omega), getElem?_foldl_set, if_neg]
  rw [List.mem_range'_1]
  omega

/-- A chain of a run follows from the entries of its blocks. -/
theorem isChain_range' (inside : first + count < UInt16.size)
    (links : ∀ b, first ≤ b → b < first + count →
      table[b]? = some (.next (UInt16.ofNat (b + 1))))
    (final : table[first + count]? = some .last) :
  table.IsChain first (List.range' first (count + 1))
  := by
  induction count generalizing first with
  | zero => exact .last final
  | succ count ih =>
      have back : (UInt16.ofNat (first + 1)).toNat = first + 1 :=
        UInt16.toNat_ofNat_of_lt (by omega)
      rw [List.range'_succ]
      apply IsChain.next (links first (Nat.le_refl _) (by omega))
      rw [back]
      apply ih (by omega)
      · intro b hb hb'
        apply links b (by omega) (by omega)
      · rwa [Nat.add_right_comm]

/-- Linking the blocks of a run makes it one chain. -/
theorem isChain_linkRun (hcount : 0 < count) (hfirst : first + count ≤ table.length)
    (fits : table.length ≤ UInt16.size) :
  (linkRun first count table).IsChain first (List.range' first count)
  := by
  obtain ⟨count, rfl⟩ := Nat.exists_eq_add_one.mpr hcount
  have length := length_foldl_set (fun b => .next (UInt16.ofNat (b + 1)))
    (List.range' first count) table
  apply isChain_range' (by omega)
  · intro b hb hb'
    rw [linkRun, List.getElem?_set_ne (by omega), Nat.add_sub_cancel, getElem?_foldl_set,
      if_pos ⟨List.mem_range'_1.mpr ⟨hb, hb'⟩, by omega⟩]
  · exact List.getElem?_set_self (by rw [Nat.add_sub_cancel, length]; omega)

/-- Freeing a run that was free before it was linked gives the table back. -/
theorem release_linkRun (hcount : 0 < count) (run : table.FreeRun first count) :
  release (List.range' first count) (linkRun first count table) = table
  := by
  apply List.ext_getElem?
  intro b
  by_cases hb : b ∈ List.range' first count
  · have ⟨low, high⟩ := List.mem_range'_1.mp hb
    have inside := run.le_length hcount
    rw [run b low high, getElem?_release_of_mem hb]
    rw [linkRun, List.length_set, length_foldl_set]
    omega
  · rw [getElem?_release_of_notMem hb, getElem?_linkRun_of_notMem hcount hb]

end Table

/-! ### Actions on chains -/

namespace Allocation

variable {first : Nat} {blocks : List Nat}

/-- Freeing a chain edits the entries of its blocks. -/
theorem editedAt_free (h : image.table.IsChain first blocks) :
  ∃ after, (free first).exec image = (.ok (), after)
    ∧ (∀ b ∈ blocks, after.table[b]? = some .free) ∧ image.EditedAt after blocks
  := by
  obtain ⟨after, hexec, edit⟩ := exec_free h
  refine ⟨after, hexec, ?_, edit.editedAt fun table b => Table.getElem?_release_of_notMem⟩
  intro b hb
  rw [edit.table, Table.getElem?_release_of_mem hb (h.lt_length hb)]

/-- Cutting a chain edits the entries of the block that ends it and of those after. -/
theorem editedAt_truncate {keep : Nat} (h : image.table.IsChain first blocks)
    (hkeep : 0 < keep) (longer : keep < blocks.length) :
  ∃ after, (truncate first keep).exec image = (.ok (), after)
    ∧ after.table.IsChain first (blocks.take keep)
    ∧ (∀ b ∈ blocks.drop keep, after.table[b]? = some .free)
    ∧ image.EditedAt after (blocks.drop (keep - 1))
  := by
  have place : keep - 1 < blocks.length := by omega
  have hfinal : (blocks.take keep).getLast? = some blocks[keep - 1] := by
    rw [List.getLast?_take, if_neg (by omega), List.getElem?_eq_getElem place, Option.some_or]
  have involved : blocks.drop (keep - 1) = blocks[keep - 1] :: blocks.drop keep := by
    rw [List.drop_eq_getElem_cons place, Nat.sub_add_cancel hkeep]
  obtain ⟨after, hexec, edit⟩ := exec_truncate h ⟨hkeep, longer⟩ hfinal
  refine ⟨after, hexec, ?_, ?_, ?_⟩
  · rw [edit.table]
    apply Table.IsChain.cut _ hfinal
    rwa [List.take_append_drop]
  · intro b hb
    rw [edit.table, Table.cut, Table.getElem?_release_of_mem hb]
    rw [List.length_set]
    exact h.lt_length (List.mem_of_mem_drop hb)
  · rw [involved]
    apply edit.editedAt
    intro table b hb
    rw [List.mem_cons, not_or] at hb
    rw [Table.cut, Table.getElem?_release_of_notMem hb.2, List.getElem?_set_ne (Ne.symm hb.1)]

/-- Truncating to nothing or to what is there already changes nothing. -/
theorem exec_truncate_of_not {keep : Nat} (h : image.table.IsChain first blocks)
    (hkeep : keep = 0 ∨ blocks.length ≤ keep) :
  (truncate first keep).exec image = (.ok (), image)
  := by
  rw [truncate, exec_bind_of_ok (exec_chain_of_isChain h), dif_neg (by omega), exec_pure]

/-- Without a free block no block follows. -/
theorem exec_append_of_none {final : Nat} (full : ∀ b : Nat, image.table[b]? ≠ some .free) :
  (append final).exec image = (.error .outOfSpace, image)
  := by
  have none_free : image.table.firstFit 1 = none := by
    rw [Table.firstFit_one_eq_none_iff, Table.countFree, List.count_eq_zero]
    intro hmem
    obtain ⟨b, hb⟩ := List.getElem?_of_mem hmem
    exact full b hb
  rw [append, exec_bind_of_ok (exec_findRun 1), none_free]
  rfl

/-- With a free block the chain grows by the lowest one; the entries of this block and of the one
before it are edited.  The first block of the disk must be taken: no entry can name it. -/
theorem editedAt_append {final : Nat} (taken : image.table[0]? ≠ some .free)
    (h : image.table.IsChain first blocks) (hfinal : blocks.getLast? = some final)
    (room : ∃ b : Nat, image.table[b]? = some .free) :
  ∃ fresh after, image.table[fresh]? = some .free
    ∧ (∀ b < fresh, image.table[b]? ≠ some .free)
    ∧ (append final).exec image = (.ok fresh, after)
    ∧ after.table.IsChain first (blocks ++ [fresh])
    ∧ image.EditedAt after [final, fresh]
  := by
  obtain ⟨fresh, hfresh⟩ : ∃ fresh, image.table.firstFit 1 = some fresh := by
    apply Option.ne_none_iff_exists'.mp
    rw [Ne, Table.firstFit_one_eq_none_iff, Table.countFree, List.count_eq_zero, not_not]
    exact room.elim fun b hb => List.mem_of_getElem? hb
  have hfree := Table.free_of_firstFit_one hfresh
  have lowest : ∀ b < fresh, image.table[b]? ≠ some .free := by
    intro b hb free
    apply (Table.freeRun_of_firstFit Nat.one_pos hfresh).2 b hb
    intro c low high
    rwa [Nat.le_antisymm (Nat.lt_add_one_iff.mp high) low]
  have positive : 0 < fresh := by
    apply Nat.pos_of_ne_zero
    rintro rfl
    exact taken hfree
  have final_mem := List.mem_of_getLast? hfinal
  have final_inside := h.lt_length final_mem
  rw [Image.length_table] at final_inside
  have inside : fresh < numBlocks := by
    rw [← image.length_table]
    exact (List.getElem?_eq_some_iff.mp hfree).1
  obtain ⟨after, hexec, edit⟩ := exec_append_of_some final_inside hfresh positive
  refine ⟨fresh, after, hfree, lowest, hexec, ?_, ?_⟩
  · rw [edit.table]
    exact h.extend hfinal hfree (Nat.lt_trans inside (by decide))
  · apply edit.editedAt
    intro table b hb
    simp only [List.mem_cons, List.not_mem_nil, or_false, not_or] at hb
    exact Table.getElem?_extend_of_ne hb.1 hb.2

/-- Making a run that was found one chain edits the entries of the run, and freeing the chain gives
the table back. -/
theorem editedAt_allocate {count : Nat} (h : image.table.firstFit count = some first) :
  ∃ after, (allocate (.ofNat first) (.ofNat count)).exec image = (.ok (), after)
    ∧ after.table.IsChain first (List.range' first count)
    ∧ image.EditedAt after (List.range' first count)
    ∧ ∃ restored, (free first).exec after = (.ok (), restored) ∧ restored.table = image.table
      ∧ image.EditedAt restored (List.range' first count)
  := by
  have hcount := Table.pos_of_firstFit h
  have run := (Table.freeRun_of_firstFit hcount h).1
  have bound := run.le_length hcount
  obtain ⟨after, hexec, edit⟩ := exec_allocate hcount (by rwa [image.length_table] at bound)
  have isChain : after.table.IsChain first (List.range' first count) := by
    rw [edit.table]
    exact Table.isChain_linkRun hcount bound (by rw [image.length_table]; decide)
  have edited : image.EditedAt after (List.range' first count) :=
    edit.editedAt fun table b => Table.getElem?_linkRun_of_notMem hcount
  obtain ⟨restored, hfree, released⟩ := exec_free isChain
  refine ⟨after, hexec, isChain, edited, restored, hfree, ?_, ?_⟩
  · rw [released.table, edit.table, Table.release_linkRun hcount run]
  · exact edited.trans (released.editedAt fun table b => Table.getElem?_release_of_notMem)

end Allocation

/-! ### All of them -/

/-- What each action does to the chain it is about, and which blocks it involves at most. -/
structure Image.ChainsApart (image : Image) : Prop where
  free : ∀ first blocks, (Allocation.chain first).exec image = (.ok blocks, image) →
    ∃ after, (Allocation.free first).exec image = (.ok (), after)
      ∧ (∀ b ∈ blocks, after.table[b]? = some .free)
      ∧ image.EditedAt after blocks
  truncate : ∀ first blocks, (Allocation.chain first).exec image = (.ok blocks, image) →
    ∀ keep, 1 ≤ keep → keep < blocks.length →
    ∃ after, (Allocation.truncate first keep).exec image = (.ok (), after)
      ∧ (Allocation.chain first).exec after = (.ok (blocks.take keep), after)
      ∧ (∀ b ∈ blocks.drop keep, after.table[b]? = some .free)
      ∧ image.EditedAt after (blocks.drop (keep - 1))
  truncate_nothing : ∀ first blocks, (Allocation.chain first).exec image = (.ok blocks, image) →
    ∀ keep, keep = 0 ∨ blocks.length ≤ keep →
    (Allocation.truncate first keep).exec image = (.ok (), image)
  append_full : ∀ first blocks, (Allocation.chain first).exec image = (.ok blocks, image) →
    ∀ final, blocks.getLast? = some final → (∀ b : Nat, image.table[b]? ≠ some .free) →
    (Allocation.append final).exec image = (.error .outOfSpace, image)
  append : ∀ first blocks, (Allocation.chain first).exec image = (.ok blocks, image) →
    ∀ final, blocks.getLast? = some final → (∃ b : Nat, image.table[b]? = some .free) →
    ∃ fresh after, image.table[fresh]? = some .free
      ∧ (∀ b < fresh, image.table[b]? ≠ some .free)
      ∧ (Allocation.append final).exec image = (.ok fresh, after)
      ∧ (Allocation.chain first).exec after = (.ok (blocks ++ [fresh]), after)
      ∧ image.EditedAt after [final, fresh]
  allocate : ∀ first count, (Allocation.findRun count).exec image = (.ok (some first), image) →
    ∃ after, (Allocation.allocate (.ofNat first) (.ofNat count)).exec image = (.ok (), after)
      ∧ (Allocation.chain first).exec after = (.ok (List.range' first count), after)
      ∧ image.EditedAt after (List.range' first count)
      ∧ ∃ restored, (Allocation.free first).exec after = (.ok (), restored)
        ∧ restored.table = image.table
        ∧ image.EditedAt restored (List.range' first count)

/-- In every image whose first block is taken, the actions on chains do to their own chain what they
are for, and nothing to a chain apart from the blocks they involve. -/
theorem Image.chainsApart (image : Image) (taken : image.table[0]? ≠ some .free) :
  image.ChainsApart
  := by
  open Allocation in
  constructor
  · intro first blocks hchain
    exact editedAt_free (exec_chain_eq_ok_iff.mp hchain)
  · intro first blocks hchain keep hkeep longer
    simp only [exec_chain_eq_ok_iff] at hchain ⊢
    exact editedAt_truncate hchain hkeep longer
  · intro first blocks hchain keep hkeep
    exact exec_truncate_of_not (exec_chain_eq_ok_iff.mp hchain) hkeep
  · intro first blocks _ final _ full
    exact exec_append_of_none full
  · intro first blocks hchain final hfinal room
    simp only [exec_chain_eq_ok_iff] at hchain ⊢
    exact editedAt_append taken hchain hfinal room
  · intro first count hrun
    rw [exec_findRun, Prod.mk.injEq, and_iff_left rfl, Except.ok.injEq] at hrun
    simp only [exec_chain_eq_ok_iff]
    exact editedAt_allocate hrun

/-- A volume that was just formatted has its first block taken, and a chain of two blocks. -/
theorem Image.exists_chainsApart :
  ∃ image, (Volume.format default).exec .zero = (.ok (), image)
    ∧ image.table[0]? ≠ some .free
    ∧ (Allocation.chain rootStart).exec image = (.ok [rootStart, rootStart + 1], image)
    ∧ image.ChainsApart
  := by
  obtain ⟨image, hformat, fresh⟩ := Volume.exec_format default .zero
  have taken : image.table[0]? ≠ some .free := by
    rw [fresh.table, Table.getElem?_fresh]
    decide
  exact ⟨image, hformat, taken, Allocation.exec_chain_of_isChain fresh.isChain_root,
    image.chainsApart taken⟩

end FatVolume
