import FatVolume.Allocation.Mirrored

/-!
# Chains on disk

A file or directory owns the blocks of a chain.  Chains are made from runs of free blocks,
grow by single blocks taken from anywhere, and are cut or given up as a whole.
-/

namespace FatVolume.Allocation

/-- The blocks of the chain that starts at `first`, in order. -/
def chain (first : Nat) : DiskM (List Nat) := do
  checkBlock first
  let table ← readTable tableStart
  DiskM.ofExcept (table.walk first)

/-- Makes the `count` blocks from `first` on, which are free, into one chain.  The end of the run is
computed in words of 64 bits and its last block in words of 16, and both wrap around. -/
def allocate (first : UInt16) (count : UInt64) : DiskM Unit := do
  let stop := first.toUInt64 + count
  if count = 0 ∨ numBlocks < stop.toNat then
    throw (.invalidBlock stop.toNat)
  let final := first + count.toUInt16 - 1
  (List.range' first.toNat (final.toNat - first.toNat)).forM fun block =>
    setEntry block (.next (UInt16.ofNat (block + 1)))
  setEntry final.toNat .last
  Program.log .debug .table s!"allocated chain {first.toNat}..={final.toNat}"

/-- The end of a run is its sum where words of 64 bits hold it. -/
theorem toNat_stop {first : UInt16} {count : UInt64} (h : first.toNat + count.toNat < UInt64.size) :
  (first.toUInt64 + count).toNat = first.toNat + count.toNat
  := by
  rw [UInt64.toNat_add, UInt16.toNat_toUInt64]
  exact Nat.mod_eq_of_lt h

/-- The last block of a run comes before its end where words of 16 bits hold it. -/
theorem toNat_final {first : UInt16} {count : UInt64} (positive : 0 < count.toNat)
    (h : first.toNat + count.toNat < UInt16.size) :
  (first + count.toUInt16 - 1).toNat = first.toNat + count.toNat - 1
  := by
  rw [UInt16.toNat_sub, UInt16.toNat_add, UInt64.toNat_toUInt16]
  change (2 ^ 16 - 1 + _) % 2 ^ 16 = _
  unfold UInt16.size at h
  omega

/-- On the disk nothing wraps around. -/
theorem allocate_eq {first count : Nat} (hcount : 0 < count) (hfirst : first + count ≤ numBlocks) :
  allocate (.ofNat first) (.ofNat count) = (do
    (List.range' first (count - 1)).forM fun block =>
      setEntry block (.next (UInt16.ofNat (block + 1)))
    setEntry (first + count - 1) .last
    Program.log .debug .table s!"allocated chain {first}..={first + count - 1}")
  := by
  have small : first + count ≤ 1024 := hfirst
  have start : (UInt16.ofNat first).toNat = first :=
    UInt16.toNat_ofNat_of_lt' (by unfold UInt16.size; omega)
  have length : (UInt64.ofNat count).toNat = count :=
    UInt64.toNat_ofNat_of_lt' (by unfold UInt64.size; omega)
  have positive : UInt64.ofNat count ≠ 0 := by
    rintro none
    rw [none] at length
    exact Nat.ne_of_lt hcount length
  have span : first + count - 1 - first = count - 1 := by omega
  unfold allocate
  dsimp only
  rw [toNat_stop (by unfold UInt64.size; omega),
    toNat_final (by omega) (by unfold UInt16.size; omega), start, length, span,
    if_neg (not_or.mpr ⟨positive, Nat.not_lt.mpr hfirst⟩)]

/-- Lets a free block follow `final`, the last block of a chain, and returns it. -/
def append (final : Nat) : DiskM Nat := do
  let some fresh ← findRun 1 | throw .outOfSpace
  setEntry fresh .last
  setEntry final (.next (UInt16.ofNat fresh))
  Program.log .debug .table s!"appended block {fresh} after {final}"
  return fresh

/-- Frees every block of the chain that starts at `first`. -/
def free (first : Nat) : DiskM Unit := do
  let blocks ← chain first
  blocks.forM (setEntry · .free)
  Program.log .debug .table s!"freed chain from {first} ({blocks.length} blocks)"

/-- Ends the chain that starts at `first` after `keep` blocks and frees the others.  Nothing
happens if `keep` is zero or no block would be freed. -/
def truncate (first keep : Nat) : DiskM Unit := do
  let blocks ← chain first
  if h : 0 < keep ∧ keep < blocks.length then
    setEntry blocks[keep - 1] .last
    (blocks.drop keep).forM (setEntry · .free)
    Program.log .debug .table s!"truncated chain from {first} to {keep} blocks"

end FatVolume.Allocation
