import FatVolume.Bytes

/-!
# What writing means

Writing replaces the content of a file, covers the bytes from the cursor on, or goes on
after the end.  `WriteMode.apply` is the effect on the content.
-/

namespace FatVolume

/-- How new content relates to the old. -/
inductive WriteMode where
  /-- It takes the place of all content. -/
  | overwrite
  /-- It takes the place of the bytes from the cursor on, as far as it reaches. -/
  | cover
  /-- It follows the old content. -/
  | append
  deriving DecidableEq, Repr

namespace WriteMode

/-- The name of a mode in messages. -/
def describe : WriteMode → String
  | overwrite => "Overwrite"
  | cover => "Cover"
  | append => "Append"

/-- The content after writing, and the position after the last byte written.  A cursor past
the end counts as the end. -/
def apply (mode : WriteMode) (old new : Bytes) (cursor : Nat) : Bytes × Nat :=
  match mode with
  | overwrite => (new, new.length)
  | cover =>
      let start := min cursor old.length
      (old.take start ++ new ++ old.drop (start + new.length), start + new.length)
  | append => (old ++ new, old.length + new.length)

/-- The position after writing lies within the content. -/
theorem apply_position_le (mode : WriteMode) (old new : Bytes) (cursor : Nat) :
  (mode.apply old new cursor).2 ≤ (mode.apply old new cursor).1.length
  := by
  cases mode <;> simp [apply]

/-- What lies before the position after writing ends in what was written. -/
theorem isSuffixOf_take_apply (mode : WriteMode) (old new : Bytes) (cursor : Nat) :
  new <:+ (mode.apply old new cursor).1.take (mode.apply old new cursor).2
  := by
  cases mode with
  | overwrite => simp [apply]
  | cover =>
      refine ⟨old.take (min cursor old.length), ?_⟩
      exact (List.take_left' (by simp [apply])).symm
  | append =>
      refine ⟨old, ?_⟩
      exact (List.take_of_length_le (by simp [apply])).symm

end WriteMode

end FatVolume
