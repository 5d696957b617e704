import FatVolume.Allocation.Chain
import FatVolume.Proofs.Chain
import FatVolume.Proofs.Faults
import FatVolume.Proofs.FirstFit

/-!
# Guarded allocation

The allocation table with guards, and that they always hold.  Nothing is assumed of the blocks that
are read: what is read of the table bounds what is done with it.  A search in words finds the first
run of free entries in every table that has a place in memory.
-/

namespace FatVolume

/-! ### The table with guards -/

namespace Guarded.Table

/-- The entry in a pair of bytes. -/
def entryOf (pair : Bytes) : Except Fault FatEntry := do
  let low ← item pair 0
  let high ← item pair 1
  return .ofWord (UInt16.ofNat (low.toNat + 256 * high.toNat))

/-- The first run of `count` free entries in the part of a table from `index` on.  Right before it
stand `run` free entries, the first of them at `start`. -/
def firstFitFrom (count : Nat) : (index start run : Nat) → Table → Except Fault (Option Nat)
  | _, _, _, [] => return none
  | index, start, run, entry :: rest =>
      if entry = .free then do
        let start := if run = 0 then index else start
        let run ← add wordSize run 1
        if run = count then return some start
        else firstFitFrom count (index + 1) start run rest
      else firstFitFrom count (index + 1) start 0 rest

/-- The least index at which `count` free entries stand in a row. -/
def firstFit (table : Table) (count : Nat) : Except Fault (Option Nat) :=
  if count = 0 ∨ table.length < count then return none
  else firstFitFrom count 0 0 0 table

end Guarded.Table

namespace Guarded.Allocation

open FatVolume.Allocation (checkBlock)

/-- Where the entry of a block stands in the copy of the table that begins at `start`: a block and a
place in it. -/
def entryPosition (start block : Nat) : Except Fault (Nat × Nat) := do
  let byte ← mul wordSize block entrySize
  return (← add wordSize start (byte / blockSize), byte % blockSize)

/-- Puts the entry of a block into the copy of the table that begins at `start`. -/
def setEntryIn (start block : Nat) (entry : FatEntry) : GuardedDisk Unit := do
  let (place, offset) ← entryPosition start block
  let content ← readBlock place
  let stop ← add wordSize offset entrySize
  writeBlock place
    (← copyOver content.toList offset stop (Bytes.littleEndian entrySize entry.toWord.toNat))

/-- Puts the entry of a block into both copies. -/
def setEntry (block : Nat) (entry : FatEntry) : GuardedDisk Unit := do
  checkBlock block
  setEntryIn tableStart block entry
  setEntryIn mirrorStart block entry
  Program.log .trace .table s!"fat[{block}] = {entry.describe}"

/-- The copy of the table that begins at `start`. -/
def readTable (start : Nat) : GuardedDisk Table := do
  let low ← readBlock (← add wordSize start 0)
  let high ← readBlock (← add wordSize start 1)
  let pairs := Bytes.chunks entrySize numBlocks (low.toList ++ high.toList)
  let table : Except Fault Table := pairs.mapM Table.entryOf
  table

/-- Marks every block as free, in both copies. -/
def format : GuardedDisk Unit :=
  (List.range tableSpan).forM fun i => do
    writeBlock (← add wordSize tableStart i) (List.replicate blockSize 0)
    writeBlock (← add wordSize mirrorStart i) (List.replicate blockSize 0)

/-- The number of free blocks. -/
def countFree : GuardedDisk Nat := do
  return (← readTable tableStart).countFree

/-- The first of the first `count` free blocks in a row. -/
def findRun (count : Nat) : GuardedDisk (Option Nat) := do
  match ← Table.firstFit (← readTable tableStart) count with
  | some index => return some (← narrow 16 index)
  | none => return none

/-- The blocks of the chain that starts at `first`, in order. -/
def chain (first : Nat) : GuardedDisk (List Nat) := do
  checkBlock first
  let table ← readTable tableStart
  (DiskM.ofExcept (table.walk first) : DiskM (List Nat))

/-- Makes the `count` blocks from `first` on, which are free, into one chain. -/
def allocate (first : UInt16) (count : UInt64) : GuardedDisk Unit := do
  let stop ← add wordSize first.toNat count.toNat
  if count = 0 ∨ numBlocks < stop then
    throwThe Error (.invalidBlock stop)
  let final ← sub (← add 16 first.toNat (← narrow 16 count.toNat)) 1
  (List.range' first.toNat (final - first.toNat)).forM fun block => do
    setEntry block (.next (UInt16.ofNat (← add 16 block 1)))
  setEntry final .last
  Program.log .debug .table s!"allocated chain {first.toNat}..={final}"

/-- Lets a free block follow `final`, the last block of a chain, and returns it. -/
def append (final : Nat) : GuardedDisk Nat := do
  let some fresh ← findRun 1 | throwThe Error .outOfSpace
  setEntry fresh .last
  setEntry final (.next (UInt16.ofNat fresh))
  Program.log .debug .table s!"appended block {fresh} after {final}"
  return fresh

/-- Frees every block of the chain that starts at `first`. -/
def free (first : Nat) : GuardedDisk Unit := do
  let blocks ← chain first
  blocks.forM (setEntry · .free)
  Program.log .debug .table s!"freed chain from {first} ({blocks.length} blocks)"

/-- Ends the chain that starts at `first` after `keep` blocks and frees the others. -/
def truncate (first keep : Nat) : GuardedDisk Unit := do
  let blocks ← chain first
  if keep = 0 ∨ blocks.length ≤ keep then return
  setEntry (← item blocks (← sub keep 1)) .last
  (← stretch blocks keep blocks.length).forM (setEntry · .free)
  Program.log .debug .table s!"truncated chain from {first} to {keep} blocks"

end Guarded.Allocation

/-! ### The guards hold -/

namespace Table

open Guarded

/-- The entries of a table are read pair by pair. -/
theorem mapM_entryOf (n : Nat) {bytes : Bytes} (h : bytes.length = entrySize * n) :
  (Bytes.chunks entrySize n bytes).mapM Guarded.Table.entryOf = .ok (ofBytes bytes)
  := by
  induction n generalizing bytes with
  | zero =>
      obtain rfl : bytes = [] := List.eq_nil_of_length_eq_zero h
      rfl
  | succ n ih =>
      match bytes with
      | [] | [b] =>
          simp only [List.length_cons, List.length_nil, entrySize] at h
          omega
      | low :: high :: rest =>
          simp only [List.length_cons, entrySize] at h
          have others := ih (by unfold entrySize; omega : rest.length = entrySize * n)
          have step : (Bytes.chunks entrySize (n + 1) (low :: high :: rest)).mapM
                Guarded.Table.entryOf
              = (Bytes.chunks entrySize n rest).mapM Guarded.Table.entryOf >>= fun entries =>
                .ok (.ofWord (UInt16.ofNat (low.toNat + 256 * high.toNat)) :: entries) := by
            rw [Bytes.chunks, List.mapM_cons]
            rfl
          rw [step, others]
          rfl

/-- The two passes over a table agree: one keeps where the run before it begins, the other how long
it is. -/
theorem firstFitFrom_guarded {count index start run : Nat} {table : Table}
    (begins : 0 < run → start = index - run) (within : run ≤ index)
    (small : index + table.length < 2 ^ wordSize) :
  Guarded.Table.firstFitFrom count index start run table
    = .ok (firstFitFrom count index run table)
  := by
  induction table generalizing index start run with
  | nil => rfl
  | cons entry rest ih =>
      rw [List.length_cons] at small
      rw [Guarded.Table.firstFitFrom, firstFitFrom]
      by_cases hfree : entry = .free
      · have first : (if run = 0 then index else start) = index - run := by
          split_ifs with empty
          · rw [empty, Nat.sub_zero]
          · exact begins (by omega)
        rw [if_pos hfree, if_pos hfree, add_eq (by omega), first]
        show (if run + 1 = count then pure (some (index - run)) else _) = _
        split_ifs
        · rfl
        · exact ih (by omega) (by omega) (by omega)
      · rw [if_neg hfree, if_neg hfree]
        exact ih (by omega) (by omega) (by omega)

/-- The guarded search finds what the search does. -/
theorem firstFit_guarded {table : Table} (small : table.length < 2 ^ wordSize) (count : Nat) :
  Guarded.Table.firstFit table count = .ok (table.firstFit count)
  := by
  rw [Guarded.Table.firstFit]
  split_ifs with outside
  · have none : table.firstFit count = none := by
      rw [firstFit_eq_none_iff]
      rintro i ⟨positive, run⟩
      have := run.le_length positive
      omega
    rw [none]
    rfl
  · exact firstFitFrom_guarded (by omega) (by omega) (by omega)

/-- A search finds the least place at which a run starts, and nothing exactly if there is no run; a
run has at least one block and no more than the table.  With guards, in words, it finds the same. -/
theorem finds_first_run (table : Table) (count : Nat) :
  (∀ i, table.firstFit count = some i ↔ IsLeast {i | 1 ≤ count ∧ FreeRun table i count} i)
    ∧ (table.firstFit count = none ↔ ¬∃ i, 1 ≤ count ∧ FreeRun table i count)
    ∧ (count = 0 ∨ table.length < count → table.firstFit count = none)
    ∧ (table.length < 2 ^ wordSize →
      Guarded.Table.firstFit table count = .ok (table.firstFit count))
  := by
  refine ⟨fun i => firstFit_eq_some_iff, ?_, fun outside => ?_, fun small =>
    firstFit_guarded small count⟩
  · rw [firstFit_eq_none_iff, not_exists]
  · rw [firstFit_eq_none_iff]
    rintro i ⟨positive, run⟩
    have := run.le_length positive
    omega

/-- Of three runs, the last of which ends the table, only this one has three blocks; none has
four. -/
theorem finds_first_run_of_three :
  ∃ table : Table, table = [.last, .free, .last, .free, .free, .last, .free, .free, .free]
    ∧ IsLeast {i | 1 ≤ 3 ∧ FreeRun table i 3} 6
    ∧ Guarded.Table.firstFit table 3 = .ok (some 6)
    ∧ (¬∃ i, 1 ≤ 4 ∧ FreeRun table i 4) ∧ table.firstFit 10 = none
  := by
  let table : Table := [.last, .free, .last, .free, .free, .last, .free, .free, .free]
  have found : table.firstFit 3 = some 6 := rfl
  obtain ⟨least, -, -, guarded⟩ := finds_first_run table 3
  obtain ⟨-, absent, -, -⟩ := finds_first_run table 4
  obtain ⟨-, -, outside, -⟩ := finds_first_run table 10
  refine ⟨table, rfl, (least 6).mp found, ?_, absent.mp rfl, outside (.inr (by decide))⟩
  rw [guarded (by decide), found]

end Table

namespace Allocation

open DiskM Guarded

theorem faultless_readTable {start : Nat} (h : start + 1 < numBlocks) :
  Faultless (Guarded.Allocation.readTable start) (readTable start) fun table =>
    table.length = numBlocks
  := by
  unfold numBlocks at h
  apply Faultless.guard (add_word (by omega))
  apply (faultless_readBlock (by unfold numBlocks; omega)).bind
  intro low _
  apply Faultless.guard (add_word (by omega))
  apply (faultless_readBlock h).bind
  intro high _
  have length : (low.toList ++ high.toList).length = entrySize * numBlocks := by
    rw [List.length_append, Vector.length_toList, Vector.length_toList]
    rfl
  dsimp only
  rw [Table.mapM_entryOf numBlocks length]
  apply faultless_pure
  rw [Table.length_ofBytes, length]
  rfl

/-- An entry stands in a block of the disk, all of it. -/
theorem entryPosition_guarded {start block : Nat} (hstart : start + 1 < numBlocks)
    (hblock : block < numBlocks) :
  Guarded.Allocation.entryPosition start block
      = .ok (entryBlock start block, entryOffset block)
    ∧ entryBlock start block < numBlocks ∧ entryOffset block + entrySize ≤ blockSize
  := by
  unfold numBlocks at hstart hblock
  unfold entryBlock entryOffset numBlocks entrySize blockSize
  refine ⟨?_, by omega, by omega⟩
  rw [Guarded.Allocation.entryPosition, mul_word (by unfold entrySize; omega)]
  have place : add wordSize start (block * entrySize / blockSize)
      = .ok (start + block * entrySize / blockSize) :=
    add_word (by unfold entrySize blockSize; omega)
  exact congrArg (· >>= fun place => .ok (place, block * entrySize % blockSize)) place

theorem faultless_setEntryIn {start block : Nat} (hstart : start + 1 < numBlocks)
    (hblock : block < numBlocks) (entry : FatEntry) :
  Faultless (Guarded.Allocation.setEntryIn start block entry) (setEntryIn start block entry)
    fun _ => True
  := by
  obtain ⟨position, inside, fits⟩ := entryPosition_guarded hstart hblock
  apply Faultless.guard position
  apply (faultless_readBlock inside).bind
  intro content _
  apply Faultless.guard (add_word (fits.trans_lt (by decide)))
  exact faultless_splice inside (by rw [Bytes.length_littleEndian]) fits

theorem returns_checkBlock (block : Nat) :
  (checkBlock block).Returns fun _ => block < numBlocks
  := by
  unfold checkBlock
  split_ifs with h
  · exact returns_pure h
  · exact returns_throw _

theorem faultless_setEntry (block : Nat) (entry : FatEntry) :
  Faultless (Guarded.Allocation.setEntry block entry) (setEntry block entry) fun _ => True
  := by
  apply (faultless_lift (returns_checkBlock block)).bind
  intro _ inside
  apply (faultless_setEntryIn (by decide) inside entry).bind
  intro _ _
  apply (faultless_setEntryIn (by decide) inside entry).bind
  intro _ _
  exact faultless_lift (returns_true _)

theorem faultless_format :
  Faultless Guarded.Allocation.format format fun _ => True
  := by
  have zeros (start i : Nat) (hstart : start + 1 < numBlocks) (hi : i < tableSpan) :
      add wordSize start i = .ok (start + i)
        ∧ Faultless (Guarded.writeBlock (start + i) (List.replicate blockSize 0))
          (writeBlock (start + i) .zero) fun _ => True := by
    unfold numBlocks at hstart
    unfold tableSpan at hi
    have inside : start + i < numBlocks := by
      unfold numBlocks
      omega
    exact ⟨add_word (by omega), faultless_writeBlock_zero inside⟩
  apply faultless_forM
  intro i hi
  obtain ⟨place, written⟩ := zeros tableStart i (by decide) (List.mem_range.mp hi)
  obtain ⟨place', written'⟩ := zeros mirrorStart i (by decide) (List.mem_range.mp hi)
  apply Faultless.guard place
  apply written.bind
  intro _ _
  apply Faultless.guard place'
  exact written'

theorem faultless_countFree :
  Faultless Guarded.Allocation.countFree countFree fun free => free ≤ numBlocks
  := by
  apply (faultless_readTable (by decide)).bind
  intro table length
  apply faultless_pure
  rw [← length]
  exact List.count_le_length

theorem faultless_findRun {count : Nat} (positive : 0 < count) :
  Faultless (Guarded.Allocation.findRun count) (findRun count) fun found =>
    ∀ first, found = some first → first + count ≤ numBlocks
  := by
  apply (faultless_readTable (by decide)).bind
  intro table length
  apply Faultless.guard (Table.firstFit_guarded (by rw [length]; decide) count)
  cases hfit : table.firstFit count with
  | none => exact faultless_pure (by simp)
  | some i =>
      have inside := (Table.freeRun_of_firstFit positive hfit).1.le_length positive
      rw [length] at inside
      apply Faultless.guard (narrow_eq (by unfold numBlocks at inside; omega))
      exact faultless_pure (by simpa using inside)

/-- What is known of the blocks of any chain that is read. -/
structure Listed (blocks : List Nat) : Prop where
  length_pos : 0 < blocks.length
  length_le : blocks.length ≤ numBlocks
  lt : ∀ block ∈ blocks, block < numBlocks

theorem faultless_chain (first : Nat) :
  Faultless (Guarded.Allocation.chain first) (chain first) Listed
  := by
  apply (faultless_lift (returns_true _)).bind
  intro _ _
  apply (faultless_readTable (by decide)).bind
  intro table length
  apply faultless_lift
  apply returns_ofExcept
  intro blocks hwalk
  have isChain := Table.walk_eq_ok_iff.mp hwalk
  exact ⟨isChain.length_pos, length ▸ isChain.length_le, fun b hb => length ▸ isChain.lt_length hb⟩

/-- Nothing can go wrong with a run whose end is held by a word: one that is not on the disk is
refused. -/
theorem faultless_allocate {first : UInt16} {count : UInt64}
    (small : first.toNat + count.toNat < 2 ^ wordSize) :
  Faultless (Guarded.Allocation.allocate first count) (allocate first count) fun _ => True
  := by
  apply Faultless.guard (add_eq small)
  unfold allocate
  dsimp only
  rw [toNat_stop small]
  apply faultless_unless
  intro onDisk
  obtain ⟨positive, inside⟩ := not_or.mp onDisk
  have positive : 0 < count.toNat :=
    Nat.pos_of_ne_zero fun none => positive (UInt64.toNat_inj.mp none)
  have inside : first.toNat + count.toNat ≤ 1024 := Nat.not_lt.mp inside
  rw [toNat_final positive (Nat.lt_of_le_of_lt inside (by decide))]
  apply Faultless.guard (narrow_eq (by omega))
  apply Faultless.guard (add_eq (by omega))
  apply Faultless.guard (sub_eq (by omega))
  apply (faultless_forM _).bind
  · intro _ _
    apply (faultless_setEntry _ _).bind
    intro _ _
    exact faultless_lift (returns_true _)
  · intro block hblock
    have := List.mem_range'_1.mp hblock
    apply Faultless.guard (add_eq (by omega))
    apply faultless_setEntry

theorem faultless_append (final : Nat) :
  Faultless (Guarded.Allocation.append final) (append final) fun fresh => fresh < numBlocks
  := by
  apply (faultless_findRun Nat.one_pos).bind
  intro found inside
  cases found with
  | none => apply faultless_throw
  | some fresh =>
      apply (faultless_setEntry _ _).bind
      intro _ _
      apply (faultless_setEntry _ _).bind
      intro _ _
      apply (faultless_lift (returns_true _)).bind
      intro _ _
      exact faultless_pure (inside fresh rfl)

theorem faultless_free (first : Nat) :
  Faultless (Guarded.Allocation.free first) (free first) fun _ => True
  := by
  apply (faultless_chain first).bind
  intro blocks _
  apply (faultless_forM fun block _ => faultless_setEntry block .free).bind
  intro _ _
  exact faultless_lift (returns_true _)

theorem faultless_truncate (first keep : Nat) :
  Faultless (Guarded.Allocation.truncate first keep) (truncate first keep) fun _ => True
  := by
  apply (faultless_chain first).bind
  intro blocks _
  by_cases cut : 0 < keep ∧ keep < blocks.length
  · rw [if_neg (by omega), dif_pos cut]
    apply Faultless.guard (sub_eq cut.1)
    apply Faultless.guard (item_eq (by omega))
    apply (faultless_setEntry _ _).bind
    intro _ _
    apply Faultless.guard (stretch_eq cut.2.le le_rfl)
    have rest : (blocks.drop keep).take (blocks.length - keep) = blocks.drop keep :=
      List.take_of_length_le (by simp)
    rw [rest]
    apply (faultless_forM fun block _ => faultless_setEntry block .free).bind
    intro _ _
    exact faultless_lift (returns_true _)
  · rw [if_pos (by omega), dif_neg cut]
    exact faultless_pure trivial

end Allocation

end FatVolume
