import FatVolume.Proofs.ActionParts
import FatVolume.Proofs.DeviceCalls

/-!
# Actions that read

Looking up, listing, reading and checking make no device calls but to read, whether they succeed
or fail and whatever is on the disk.
-/

namespace FatVolume

open DiskM

variable {calls : Set DeviceCall} (reads : .read ∈ calls)
include reads

/-! ### Tables and directories -/

namespace Allocation

theorem uses_readTable (start : Nat) :
  (readTable start).Uses calls
  := (Uses.read reads _).bind fun _ => (Uses.read reads _).bind fun _ => Uses.pure _

theorem uses_chain (first : Nat) :
  (chain first).Uses calls
  := by
  apply Uses.bind
  · exact uses_ite (Uses.pure _) (Uses.throw _)
  · exact fun _ => (uses_readTable reads _).bind fun _ => uses_ofExcept _

theorem uses_countFree :
  countFree.Uses calls
  := (uses_readTable reads _).bind fun _ => Uses.pure _

theorem uses_findRun (count : Nat) :
  (findRun count).Uses calls
  := (uses_readTable reads _).bind fun _ => Uses.pure _

theorem uses_mirrorsMatch :
  mirrorsMatch.Uses calls
  := (uses_readTable reads _).bind fun _ => (uses_readTable reads _).bind fun _ => Uses.pure _

end Allocation

namespace Directory

theorem uses_readRecord (place : Location) :
  (readRecord place).Uses calls
  := by
  apply Uses.bind
  · exact uses_ite (Uses.pure _) (Uses.throw _)
  · exact fun _ => (Uses.read reads _).bind fun _ => Uses.pure _

theorem uses_slots (first : Nat) :
  (slots first).Uses calls
  := by
  apply (Allocation.uses_chain reads first).bind
  intro blocks
  apply Uses.bind
  · apply uses_mapM
    exact fun b => (Uses.read reads b).bind fun _ => Uses.pure _
  · exact fun _ => Uses.pure _

theorem uses_entries (first : Nat) :
  (entries first).Uses calls
  := (uses_slots reads first).bind fun _ => Uses.pure _

theorem uses_lookup (first : Nat) (name : String) :
  (lookup first name).Uses calls
  := by
  apply (Uses.log _ _ _).bind
  intro _
  apply (uses_entries reads first).bind
  intro all
  split
  · apply Uses.pure
  · apply Uses.throw

theorem uses_isEmpty (first : Nat) :
  (isEmpty first).Uses calls
  := (uses_entries reads first).bind fun _ => Uses.pure _

end Directory

theorem Path.uses_lookup (root : Nat) (path : String) :
  (Path.lookup root path).Uses calls
  := by
  apply (Directory.uses_readRecord reads _).bind
  intro _
  apply uses_foldlM
  intro reached segment
  exact uses_ite (Directory.uses_lookup reads _ _) (Uses.throw _)

/-! ### Contents -/

namespace OpenFile

theorem uses_readRange (first length offset count : Nat) :
  (readRange first length offset count).Uses calls
  := by
  apply uses_ite (Uses.pure _)
  apply (Allocation.uses_chain reads first).bind
  intro blocks
  apply (uses_mapM (Uses.read reads) _).bind
  intro parts
  exact (Uses.pure _).unless (Uses.throw _)

theorem uses_read (file : OpenFile) (count : Nat) :
  (file.read count).Uses calls
  := by
  refine Uses.unless ?_ (Uses.throw _)
  exact (uses_readRange reads _ _ _ _).bind fun _ => Uses.pure _

end OpenFile

/-! ### Checking -/

namespace Check

omit reads in
theorem uses_fail {α : Type} (cause : Corruption) :
  (fail cause : DiskM α).Uses calls
  := (Uses.log _ _ _).bind fun _ => Uses.throw _

theorem uses_claim (owned : Owned) (first : Nat) (owner : String) :
  (claim owned first owner).Uses calls
  := by
  apply (Allocation.uses_chain reads first).bind
  intro blocks
  split
  · apply uses_fail
  · apply Uses.pure

omit reads in
theorem uses_checkDots (slots : List Entry) (path : String) (first parent : UInt16) :
  (checkDots slots path first parent).Uses calls
  := by
  unfold checkDots
  split
  · exact uses_ite (uses_fail _) (uses_ite (uses_fail _) (Uses.pure _))
  · apply uses_fail

theorem uses_checkEntry (owned : Owned) (names : List String) (path : String)
    (record : Record) :
  (checkEntry owned names path record).Uses calls
  := by
  refine Uses.unless ?_ (uses_fail _)
  refine Uses.unless ?_ (uses_fail _)
  apply (uses_claim reads _ _ _).bind
  intro claimed
  exact (Uses.pure _).unless (uses_fail _)

theorem uses_checkDirectory (depth : Nat) (owned : Owned) (path : String)
    (first parent : UInt16) :
  (checkDirectory depth owned path first parent).Uses calls
  := by
  induction depth generalizing owned path first parent with
  | zero => apply uses_fail
  | succ depth ih =>
      apply (Directory.uses_slots reads _).bind
      intro slots
      apply (uses_checkDots _ _ _ _).bind
      intro _
      apply Uses.bind _ fun _ => Uses.pure _
      apply uses_foldlM
      intro state record
      apply (uses_checkEntry reads _ _ _ _).bind
      intro owned
      apply uses_ite
      · exact (ih _ _ _ _).bind fun _ => Uses.pure _
      · exact Uses.pure _

theorem uses_counting (table : Table) (root : UInt16) :
  (counting table root).Uses calls
  := by
  apply (uses_claim reads _ _ _).bind
  intro claimed
  refine Uses.unless ?_ (uses_fail _)
  apply (uses_checkDirectory reads _ _ _ _ _).bind
  intro owned
  refine Uses.unless ?_ (uses_fail _)
  exact (Uses.log _ _ _).bind fun _ => Uses.pure _

/-- A check only reads, also when it fails. -/
theorem uses_run (root : UInt16) :
  (run root).Uses calls
  := by
  rw [run_eq]
  apply (Allocation.uses_mirrorsMatch reads).bind
  intro same
  refine Uses.unless ?_ (uses_fail _)
  apply (Allocation.uses_readTable reads _).bind
  intro table
  dsimp only
  split
  · exact (uses_fail _).bind fun _ => uses_counting reads table root
  · exact uses_counting reads table root

end Check

end FatVolume
