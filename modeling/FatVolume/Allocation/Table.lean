import FatVolume.Allocation.FatEntry
import FatVolume.Bytes
import FatVolume.Error

/-!
# Allocation tables

A table gives every block its entry.  `Table.walk` follows the chain that starts at a block
to its end, and `Table.firstFit` finds the first run of free blocks of a given length.
-/

namespace FatVolume

/-- The entries of the blocks of a disk, in the order of the blocks. -/
abbrev Table : Type := List FatEntry

namespace Table

/-- The entries in the given bytes, two bytes for each. -/
def ofBytes : Bytes → Table
  | low :: high :: rest =>
      FatEntry.ofWord (UInt16.ofNat (low.toNat + 256 * high.toNat)) :: ofBytes rest
  | _ => []

/-- The blocks of a chain from `current` to its end, if at most `fuel` blocks are left of it.
Errors name the first block of the whole chain. -/
def walkFrom (table : Table) (first : Nat) : (fuel current : Nat) → Except Error (List Nat)
  | 0, _ => .error (.corrupted (.chainLoops first))
  | fuel + 1, current =>
      match table[current]? with
      | none => .error (.corrupted (.chainLeavesDisk first))
      | some .free => .error (.corrupted (.chainReachesFree first current))
      | some .last => .ok [current]
      | some (.next block) => do
          let rest ← walkFrom table first fuel block.toNat
          return current :: rest

/-- The blocks of the chain that starts at `first`, in order.  A chain with more blocks than
the table has entries holds some block twice. -/
def walk (table : Table) (first : Nat) : Except Error (List Nat) :=
  walkFrom table first table.length first

/-- The first run of `count` free entries in the part of a table from `index` on, when
`before` free entries stand right before it. -/
def firstFitFrom (count : Nat) : (index before : Nat) → Table → Option Nat
  | _, _, [] => none
  | index, before, entry :: rest =>
      if entry = .free then
        if before + 1 = count then some (index - before)
        else firstFitFrom count (index + 1) (before + 1) rest
      else firstFitFrom count (index + 1) 0 rest

/-- The least index at which `count` free entries stand in a row. -/
def firstFit (table : Table) (count : Nat) : Option Nat :=
  firstFitFrom count 0 0 table

/-- The number of free entries. -/
def countFree (table : Table) : Nat :=
  table.count .free

theorem ofBytes_append {bytes : Bytes} (more : Bytes) (h : bytes.length % 2 = 0) :
  ofBytes (bytes ++ more) = ofBytes bytes ++ ofBytes more
  := by
  fun_induction ofBytes bytes with
  | case1 low high rest ih =>
      simp only [List.cons_append, ofBytes, List.cons.injEq, true_and]
      apply ih
      simp only [List.length_cons] at h
      omega
  | case2 bytes notPair =>
      match bytes with
      | [] => rfl
      | [b] => simp at h
      | low :: high :: rest => exact absurd rfl (notPair low high rest)

theorem length_ofBytes (bytes : Bytes) :
  (ofBytes bytes).length = bytes.length / 2
  := by
  fun_induction ofBytes bytes with
  | case1 low high rest ih =>
      simp only [List.length_cons, ih]
      omega
  | case2 bytes notPair =>
      match bytes with
      | [] => rfl
      | [b] => simp
      | low :: high :: rest => exact absurd rfl (notPair low high rest)

end Table

end FatVolume
