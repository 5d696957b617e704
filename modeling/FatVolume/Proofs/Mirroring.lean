import FatVolume.Proofs.FailedCreation
import FatVolume.Proofs.RecordEncoding

/-!
# The copies of the table keep in step

The entry of a block has two bytes in each copy of the table.  Reading one entry and reading the
whole table find the same there, and setting an entry changes these bytes and no others.  Actions on
the table are made of such steps: whatever they are asked to do and wherever they fail, copies that
were the same stay the same, and every block outside of the copies stays as it was.
-/

namespace FatVolume

open DiskM Allocation

/-! ### Entries in place -/

/-- What was put over a stretch stands there, and every other byte is kept. -/
theorem Block.getElem_splice {b : Block} {start i : Nat} {bytes : Bytes}
    (h : start + bytes.length ≤ blockSize) (hi : i < blockSize) :
  (b.splice start bytes)[i]
    = if start ≤ i ∧ i < start + bytes.length then bytes.getD (i - start) 0 else b[i]
  := by
  have length : (b.toList.take start).length = start := by
    rw [List.length_take, Vector.length_toList]
    omega
  apply Option.some.inj
  rw [← Vector.getElem?_eq_getElem hi, ← Vector.getElem?_toList, toList_splice h,
    List.append_assoc, List.getElem?_append, length]
  by_cases before : i < start
  · rw [if_pos before, if_neg (by omega), List.getElem?_take_of_lt before, Vector.getElem?_toList,
      Vector.getElem?_eq_getElem hi]
  · rw [if_neg before, List.getElem?_append]
    by_cases within : i - start < bytes.length
    · rw [if_pos within, if_pos (by omega), List.getElem?_eq_getElem within,
        List.getD_eq_getElem _ _ within]
    · rw [if_neg within, if_neg (by omega), List.getElem?_drop, Vector.getElem?_toList,
        show start + bytes.length + (i - start - bytes.length) = i by omega,
        Vector.getElem?_eq_getElem hi]

/-- An entry is read from the pair of bytes at its place. -/
theorem Table.getElem?_ofBytes {bytes : Bytes} {i : Nat} (h : 2 * i + 2 ≤ bytes.length) :
  (ofBytes bytes)[i]?
    = some (FatEntry.ofWord (UInt16.ofNat (Bytes.value ((bytes.drop (2 * i)).take 2))))
  := by
  fun_induction ofBytes bytes generalizing i with
  | case1 low high rest ih =>
      simp only [List.length_cons] at h
      cases i with
      | zero => simp [Bytes.value]
      | succ i =>
          rw [List.getElem?_cons_succ, ih (by omega), Nat.mul_succ, List.drop_succ_cons,
            List.drop_succ_cons]
  | case2 bytes notPair =>
      obtain - | ⟨low, - | ⟨high, rest⟩⟩ := bytes
      · simp at h
      · simp at h
      · exact absurd rfl (notPair low high rest)

namespace Allocation

variable {image : Image}

/-- Getting an entry gives the one in the consulted copy. -/
theorem exec_getEntry {b : Nat} (hb : b < numBlocks) :
  ∃ entry, image.table[b]? = some entry ∧ (getEntry b).exec image = (.ok entry, image)
  := by
  have inside : entryBlock tableStart b < numBlocks := by
    rcases Image.entryBlock_cases tableStart hb with ⟨place, -⟩ | ⟨place, -⟩
    · rw [place]
      decide
    · rw [place]
      decide
  have length (c : Block) : c.toList.length = blockSize := Vector.length_toList
  have stretch : (((image.block tableStart).toList
        ++ (image.block (tableStart + 1)).toList).drop (2 * b)).take 2
      = (image.block (entryBlock tableStart b)).slice (entryOffset b) entrySize := by
    rcases Image.entryBlock_cases tableStart hb with ⟨place, offset, fits⟩ | ⟨place, offset, fits⟩
    · rw [place, offset, Block.slice, List.drop_append_of_le_length (by rw [length]; omega),
        List.take_append_of_le_length (by rw [List.length_drop, length]; omega)]
    · rw [place, Block.slice, List.drop_append, length,
        List.drop_eq_nil_of_le (by rw [length]; omega), List.nil_append,
        show 2 * b - blockSize = entryOffset b by omega]
  have fits : 2 * b + 2 ≤ ((image.block tableStart).toList
      ++ (image.block (tableStart + 1)).toList).length := by
    rw [List.length_append, length, length]
    unfold numBlocks at hb
    unfold blockSize
    omega
  refine ⟨_, Table.getElem?_ofBytes fits, ?_⟩
  rw [getEntry, exec_bind_of_ok (exec_checkBlock hb), exec_bind_of_ok (exec_readBlock image inside),
    stretch]
  rfl

/-- The mirror is what reading it gives. -/
theorem exec_readTable_mirrorStart :
  (readTable mirrorStart).exec image = (.ok image.mirror, image)
  := exec_readTable (by decide)

theorem exec_checkBlock_of_le {b : Nat} (hb : numBlocks ≤ b) :
  (checkBlock b).exec image = (.error (.invalidBlock b), image)
  := by
  rw [checkBlock, if_neg (Nat.not_lt.mpr hb), exec_throw]

theorem exec_getEntry_of_le {b : Nat} (hb : numBlocks ≤ b) :
  (getEntry b).exec image = (.error (.invalidBlock b), image)
  := by
  rw [getEntry, exec_bind_of_error (exec_checkBlock_of_le hb)]

theorem exec_setEntry_of_le {b : Nat} (hb : numBlocks ≤ b) (entry : FatEntry) :
  (setEntry b entry).exec image = (.error (.invalidBlock b), image)
  := by
  rw [setEntry, exec_bind_of_error (exec_checkBlock_of_le hb)]

end Allocation

namespace Image

/-- The place in an image of the first byte of an entry, in the copy of the table that starts at a
block. -/
def entryAddress (start b : Nat) : Nat :=
  start * blockSize + b * entrySize

/-- A byte stands at a place of an entry exactly if it does so in the block of the entry. -/
theorem address_eq_iff (start c d : Nat) {b i : Nat} (hd : entryOffset b + d < blockSize)
    (hi : i < blockSize) :
  c * blockSize + i = entryAddress start b + d ↔ c = entryBlock start b ∧ i = entryOffset b + d
  := by
  have address : entryAddress start b = entryBlock start b * blockSize + entryOffset b := by
    unfold entryAddress entryBlock entryOffset
    rw [Nat.add_mul, Nat.add_assoc, Nat.mul_comm (_ / _), Nat.div_add_mod]
  rw [address]
  unfold blockSize at *
  omega

theorem getElem_withEntryIn (image : Image) {start b : Nat} (hstart : start + 1 < numBlocks)
    (hb : b < numBlocks) (entry : FatEntry) {low high : UInt8}
    (word : Bytes.littleEndian entrySize entry.toWord.toNat = [low, high]) {c i : Nat}
    (hc : c < numBlocks) (hi : i < blockSize) :
  (image.withEntryIn start b entry)[c][i]
    = if c * blockSize + i = entryAddress start b then low
      else if c * blockSize + i = entryAddress start b + 1 then high
      else image[c][i]
  := by
  have inside : entryBlock start b < numBlocks ∧ entryOffset b + 2 ≤ blockSize := by
    rcases entryBlock_cases start hb with ⟨place, offset, fits⟩ | ⟨place, offset, fits⟩ <;> omega
  have atLow := address_eq_iff start c 0 (Nat.lt_of_succ_lt inside.2) hi
  have atHigh := address_eq_iff start c 1 inside.2 hi
  simp only [Nat.add_zero] at atLow
  simp only [atLow, atHigh]
  rw [getElem_eq_block _ hc, getElem_eq_block _ hc, withEntryIn, word,
    block_setIfInBounds _ inside.1]
  by_cases place : entryBlock start b = c
  · rw [if_pos place, Block.getElem_splice inside.2 hi, place]
    have within : entryOffset b ≤ i ∧ i < entryOffset b + [low, high].length
        ↔ i = entryOffset b ∨ i = entryOffset b + 1 := by
      rw [List.length_cons, List.length_singleton]
      omega
    rw [if_congr within rfl rfl]
    by_cases first : i = entryOffset b
    · simp [first]
    · by_cases second : i = entryOffset b + 1 <;> simp [first, second]
  · rw [if_neg place, if_neg (fun h => place h.1.symm), if_neg (fun h => place h.1.symm)]

/-- Only the two bytes of the entry change in each copy. -/
theorem getElem_withEntry (image : Image) {b : Nat} (hb : b < numBlocks) (entry : FatEntry)
    {low high : UInt8}
    (word : Bytes.littleEndian entrySize entry.toWord.toNat = [low, high]) {c i : Nat}
    (hc : c < numBlocks) (hi : i < blockSize) :
  (image.withEntry b entry)[c][i]
    = if c * blockSize + i = entryAddress tableStart b
        ∨ c * blockSize + i = entryAddress mirrorStart b then low
      else if c * blockSize + i = entryAddress tableStart b + 1
        ∨ c * blockSize + i = entryAddress mirrorStart b + 1 then high
      else image[c][i]
  := by
  rw [withEntry, getElem_withEntryIn _ (by decide) hb entry word hc hi,
    getElem_withEntryIn _ (by decide) hb entry word hc hi]
  have apart : entryAddress mirrorStart b = entryAddress tableStart b + 2 * blockSize := by
    unfold entryAddress mirrorStart tableStart
    omega
  unfold blockSize at apart
  split_ifs <;> first | rfl | omega

end Image

/-! ### Actions that edit the table -/

namespace DiskM

variable {α β : Type} {action : DiskM α} {next : α → DiskM β}

/-- Whether it succeeds or fails, the action edits both copies of the table alike and touches no
block outside of them. -/
def Retables (action : DiskM α) : Prop :=
  ∀ image : Image, ∃ edit, image.Retabled (action.exec image).2 edit

theorem ReadOnly.retables (h : action.ReadOnly) :
  action.Retables
  := by
  intro image
  rw [h image]
  exact ⟨id, .refl image⟩

theorem Uses.retables (uses : action.Uses {.read}) :
  action.Retables
  := uses.readOnly.retables

/-- One edit after another is an edit, also where the first action fails. -/
theorem Retables.bind (h : action.Retables) (h' : ∀ a, (next a).Retables) :
  (action >>= next).Retables
  := by
  intro image
  obtain ⟨edit, first⟩ := h image
  rw [exec_bind]
  rcases hexec : action.exec image with ⟨result, middle⟩
  rw [hexec] at first
  cases result with
  | error e => exact ⟨edit, first⟩
  | ok a =>
      obtain ⟨edit', second⟩ := h' a middle
      exact ⟨_, first.trans second⟩

theorem Retables.unless {p : Prop} [Decidable p] {rest : DiskM α} {refusal : DiskM PUnit}
    (h : rest.Retables) (h' : refusal.Retables) :
  (if p then refusal >>= fun _ => rest else rest).Retables
  := by
  split
  · exact h'.bind fun _ => h
  · exact h

theorem retables_forM {action : α → DiskM Unit} (h : ∀ a, (action a).Retables) (list : List α) :
  (list.forM action).Retables
  := by
  induction list with
  | nil => exact (Uses.pure ()).retables
  | cons a rest ih =>
      rw [List.forM_eq_forM, List.forM_cons]
      exact (h a).bind fun _ => ih

end DiskM

namespace Allocation

theorem retables_log (level : Level) (source : Component) (message : String) :
  (liftM (Program.log level source message) : DiskM Unit).Retables
  := (Uses.log level source message).retables

theorem retables_format :
  format.Retables
  := by
  intro image
  obtain ⟨after, hexec, edit⟩ := exec_format image
  rw [hexec]
  exact ⟨_, edit⟩

theorem retables_setEntry (b : Nat) (entry : FatEntry) :
  (setEntry b entry).Retables
  := by
  intro image
  by_cases hb : b < numBlocks
  · rw [exec_setEntry hb]
    exact ⟨_, image.retabled_withEntry_word hb entry⟩
  · rw [exec_setEntry_of_le (Nat.not_lt.mp hb)]
    exact ⟨id, .refl image⟩

theorem retables_allocate (first : UInt16) (count : UInt64) :
  (allocate first count).Retables
  := by
  refine Retables.unless ?_ (Uses.throw _).retables
  apply (retables_forM (fun block => retables_setEntry block _) _).bind
  intro _
  exact (retables_setEntry _ _).bind fun _ => retables_log _ _ _

/-- A run whose end wraps around to a block of the disk is not refused.  Its last block comes before
the first one, so that no block is linked and only the last one is marked. -/
theorem exec_allocate_of_wraps {first : UInt16} {count : UInt64}
    (wraps : 2 ^ 64 < first.toNat + count.toNat)
    (inside : first.toNat + count.toNat - 2 ^ 64 ≤ numBlocks) (image : Image) :
  (allocate first count).exec image
    = (.ok (), image.withEntry (first.toNat + count.toNat - 2 ^ 64 - 1) .last)
  := by
  have first_lt := first.toNat_lt
  have count_lt := count.toNat_lt
  have small : first.toNat + count.toNat - 2 ^ 64 ≤ 1024 := inside
  have stop : (first.toUInt64 + count).toNat = first.toNat + count.toNat - 2 ^ 64 := by
    rw [UInt64.toNat_add, UInt16.toNat_toUInt64]
    omega
  have final : (first + count.toUInt16 - 1).toNat
      = first.toNat + count.toNat - 2 ^ 64 - 1 := by
    rw [UInt16.toNat_sub, UInt16.toNat_add, UInt64.toNat_toUInt16]
    change (2 ^ 16 - 1 + _) % 2 ^ 16 = _
    omega
  have positive : count ≠ 0 := by
    rintro rfl
    change 2 ^ 64 < first.toNat + 0 at wraps
    omega
  have before : first.toNat + count.toNat - 2 ^ 64 - 1 - first.toNat = 0 := by omega
  have links {link : Nat → DiskM Unit} :
      ((List.range' first.toNat 0).forM link).exec image = (.ok (), image) := rfl
  unfold allocate
  dsimp only
  rw [stop, final, before, if_neg (not_or.mpr ⟨positive, Nat.not_lt.mpr inside⟩),
    exec_bind_of_ok links, exec_bind_of_ok (exec_setEntry (by unfold numBlocks; omega) _), exec_log]

theorem retables_append (final : Nat) :
  (append final).Retables
  := by
  apply (uses_findRun (Set.mem_singleton _) 1).retables.bind
  intro found
  cases found with
  | none => exact (Uses.throw _).retables
  | some fresh =>
      apply (retables_setEntry _ _).bind
      intro _
      apply (retables_setEntry _ _).bind
      intro _
      exact (retables_log _ _ _).bind fun _ => (Uses.pure _).retables

theorem retables_free (first : Nat) :
  (free first).Retables
  := by
  apply (uses_chain (Set.mem_singleton _) first).retables.bind
  intro blocks
  apply (retables_forM (fun block => retables_setEntry block _) _).bind
  exact fun _ => retables_log _ _ _

theorem retables_truncate (first keep : Nat) :
  (truncate first keep).Retables
  := by
  apply (uses_chain (Set.mem_singleton _) first).retables.bind
  intro blocks
  split
  · apply (retables_setEntry _ _).bind
    intro _
    apply (retables_forM (fun block => retables_setEntry block _) _).bind
    exact fun _ => retables_log _ _ _
  · exact (Uses.pure _).retables

/-- A call of an action that edits the table. -/
inductive Call where
  | format
  | setEntry (block : Nat) (entry : FatEntry)
  | allocate (first : UInt16) (count : UInt64)
  | append (final : Nat)
  | free (first : Nat)
  | truncate (first keep : Nat)

namespace Call

/-- The action that is called. -/
def action : Call → DiskM Unit
  | format => Allocation.format
  | setEntry block entry => Allocation.setEntry block entry
  | allocate first count => Allocation.allocate first count
  | append final => do let _ ← Allocation.append final
  | free first => Allocation.free first
  | truncate first keep => Allocation.truncate first keep

/-- The image that calls leave, one after the other; a call that fails does not end the run. -/
def run (calls : List Call) (image : Image) : Image :=
  calls.foldl (fun image call => (call.action.exec image).2) image

theorem retables_action (call : Call) :
  call.action.Retables
  := by
  cases call with
  | format => exact retables_format
  | setEntry block entry => exact retables_setEntry block entry
  | allocate first count => exact retables_allocate first count
  | append final => exact (retables_append final).bind fun _ => (Uses.pure _).retables
  | free first => exact retables_free first
  | truncate first keep => exact retables_truncate first keep

/-- Calls one after the other edit both copies alike.  By induction on the calls, one edit for
each. -/
theorem retabled_run (calls : List Call) (image : Image) :
  ∃ edit, image.Retabled (run calls image) edit
  := by
  induction calls generalizing image with
  | nil => exact ⟨id, .refl image⟩
  | cons call calls ih =>
      obtain ⟨edit, first⟩ := call.retables_action image
      obtain ⟨edit', rest⟩ := ih (call.action.exec image).2
      exact ⟨_, first.trans rest⟩

end Call

end Allocation

/-! ### Both together -/

/-- How actions on the table find and change its copies in an image. -/
structure Image.EditsInStep (image : Image) : Prop where
  /-- Getting one entry and reading the whole table agree. -/
  getEntry : ∃ table, (readTable tableStart).exec image = (.ok table, image)
    ∧ ∀ b < numBlocks, ∃ entry, table[b]? = some entry
      ∧ (getEntry b).exec image = (.ok entry, image)
  /-- Setting an entry puts the two bytes of its word at the place of the entry in each copy, keeps
  every other byte, and replaces the entry in what is read of the copy. -/
  setEntry : ∀ b < numBlocks, ∀ entry : FatEntry, ∃ (after : Image) (low high : UInt8),
    (setEntry b entry).exec image = (.ok (), after)
    ∧ low.toNat + 256 * high.toNat = entry.toWord.toNat
    ∧ (∀ c i (_ : c < numBlocks) (_ : i < blockSize), after[c][i]
      = if c * blockSize + i = entryAddress tableStart b
          ∨ c * blockSize + i = entryAddress mirrorStart b then low
        else if c * blockSize + i = entryAddress tableStart b + 1
          ∨ c * blockSize + i = entryAddress mirrorStart b + 1 then high
        else image[c][i])
    ∧ ∀ start, start = tableStart ∨ start = mirrorStart →
      ∃ table, (readTable start).exec image = (.ok table, image)
        ∧ (readTable start).exec after = (.ok (table.set b (.ofWord entry.toWord)), after)
  /-- An entry that no block of the disk has is neither found nor set. -/
  refused : ∀ b, numBlocks ≤ b →
    (Allocation.getEntry b).exec image = (.error (.invalidBlock b), image)
    ∧ ∀ entry, (Allocation.setEntry b entry).exec image = (.error (.invalidBlock b), image)
  /-- Copies that are the same stay the same through all calls, those that fail included. -/
  matching : ∀ calls, mirrorsMatch.exec image = (.ok true, image) →
    mirrorsMatch.exec (Call.run calls image) = (.ok true, Call.run calls image)
  /-- Calls change no block outside of the copies. -/
  untouched : ∀ calls b, ¬(tableStart ≤ b ∧ b < rootStart) →
    (Call.run calls image).block b = image.block b

/-- In every image, whatever it holds, the copies of the table are edited in step. -/
theorem Image.edits_in_step (image : Image) :
  image.EditsInStep
  := by
  constructor
  case getEntry =>
    exact ⟨image.table, exec_readTable_tableStart, fun b hb => exec_getEntry hb⟩
  case setEntry =>
    intro b hb entry
    obtain ⟨low, high, bytes, value⟩ := Bytes.exists_bytes_of_word entry.toWord
    have edit := image.retabled_withEntry_word hb entry
    refine ⟨_, low, high, exec_setEntry hb entry, value,
      fun c i hc hi => image.getElem_withEntry hb entry bytes hc hi, ?_⟩
    rintro start (rfl | rfl)
    · refine ⟨_, exec_readTable_tableStart, ?_⟩
      rw [exec_readTable_tableStart, edit.table]
    · refine ⟨_, exec_readTable_mirrorStart, ?_⟩
      rw [exec_readTable_mirrorStart, edit.mirror]
  case refused => exact fun b hb => ⟨exec_getEntry_of_le hb, exec_setEntry_of_le hb⟩
  case matching =>
    intro calls same
    obtain ⟨edit, edited⟩ := Call.retabled_run calls image
    rw [exec_mirrorsMatch] at same ⊢
    have mirrored : image.table = image.mirror := by simpa using same
    rw [edited.mirrored mirrored.symm, beq_self_eq_true]
  case untouched =>
    intro calls
    obtain ⟨edit, edited⟩ := Call.retabled_run calls image
    exact edited.block

/-- On a disk of zeros a block is appended to one that the disk does not have, and a chain is made
of a run whose end wraps around.  The first call marks a block before it fails, the second marks a
block that does not belong to the run, and both do so in both copies. -/
theorem Image.edits_in_step_of_wrapped :
  ∃ marked after : Image, (append numBlocks).exec .zero = (.error (.invalidBlock numBlocks), marked)
    ∧ (allocate 5 0xFFFFFFFFFFFFFFFF).exec marked = (.ok (), after)
    ∧ Call.run [.append numBlocks, .allocate 5 0xFFFFFFFFFFFFFFFF] .zero = after
    ∧ after.table[0]? = some .last ∧ after.table[3]? = some .last ∧ after.table[5]? = some .free
    ∧ mirrorsMatch.exec after = (.ok true, after)
    ∧ ∀ b, ¬(tableStart ≤ b ∧ b < rootStart) → after.block b = .zero
  := by
  let marked := Image.zero.withEntry 0 .last
  let after := marked.withEntry 3 .last
  have run : (findRun 1).exec .zero = (.ok (some 0), .zero) := by
    rw [exec_findRun, table_zero]
    rfl
  have refused : (append numBlocks).exec .zero
      = (.error (.invalidBlock numBlocks), marked) := by
    rw [append, exec_bind_of_ok run]
    dsimp only
    rw [exec_bind_of_ok (exec_setEntry (by decide) _),
      exec_bind_of_error (exec_setEntry_of_le (Nat.le_refl _) _)]
  have wrapped : (allocate 5 0xFFFFFFFFFFFFFFFF).exec marked = (.ok (), after) :=
    exec_allocate_of_wraps (by decide) (by decide) marked
  have left : Call.run [.append numBlocks, .allocate 5 0xFFFFFFFFFFFFFFFF] .zero = after := by
    rw [Call.run, List.foldl_cons, List.foldl_cons, List.foldl_nil, Call.action, Call.action,
      exec_bind_of_error refused]
    dsimp only
    rw [wrapped]
  have table : after.table = ((List.replicate numBlocks .free).set 0 .last).set 3 .last := by
    rw [(marked.retabled_withEntry (by decide) .last rfl).table,
      (Image.zero.retabled_withEntry (by decide) .last rfl).table, table_zero]
  have same : mirrorsMatch.exec .zero = (.ok true, .zero) := by
    rw [exec_mirrorsMatch, table_zero, mirror, tableAt_zero, beq_self_eq_true]
  have kept := Image.zero.edits_in_step.matching [.append numBlocks, .allocate 5 0xFFFFFFFFFFFFFFFF]
    same
  have outside := Image.zero.edits_in_step.untouched
    [.append numBlocks, .allocate 5 0xFFFFFFFFFFFFFFFF]
  rw [left] at kept outside
  refine ⟨marked, after, refused, wrapped, left, ?_, ?_, ?_, kept, ?_⟩
  · rw [table]
    rfl
  · rw [table]
    rfl
  · rw [table]
    rfl
  · intro b hb
    rw [outside b hb, block_zero]

end FatVolume
