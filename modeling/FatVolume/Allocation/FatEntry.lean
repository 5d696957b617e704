/-!
# Entries of the allocation table

Each block has an entry: the block is free, it is the last of a chain, or another block
follows it.
-/

namespace FatVolume

/-- The entry of a block in the allocation table. -/
inductive FatEntry where
  | free
  | next (block : UInt16)
  | last
  deriving DecidableEq, Repr, Inhabited

namespace FatEntry

/-- The word of a free block. -/
def freeWord : UInt16 := 0x0000

/-- The word of the last block of a chain. -/
def lastWord : UInt16 := 0xFFFF

/-- The entry that a word of the table stands for. -/
def ofWord (word : UInt16) : FatEntry :=
  if word = freeWord then .free
  else if word = lastWord then .last
  else .next word

/-- The word of an entry. -/
def toWord : FatEntry → UInt16
  | free => freeWord
  | next block => block
  | last => lastWord

/-- The name of an entry in messages. -/
def describe : FatEntry → String
  | free => "Free"
  | next block => s!"Next({block.toNat})"
  | last => "End"

@[simp]
theorem toWord_ofWord (word : UInt16) :
  (ofWord word).toWord = word
  := by
  unfold ofWord
  split
  · simp_all [toWord]
  · split
    · simp_all [toWord]
    · rfl

/-- An entry is read back unless it names a block by one of the two reserved words. -/
theorem ofWord_toWord {entry : FatEntry}
    (h : entry ≠ .next freeWord ∧ entry ≠ .next lastWord) :
  ofWord entry.toWord = entry
  := by
  cases entry with
  | free => rfl
  | last => rfl
  | next block =>
      have hfree : block ≠ freeWord := fun e => h.1 (e ▸ rfl)
      have hlast : block ≠ lastWord := fun e => h.2 (e ▸ rfl)
      simp [ofWord, toWord, hfree, hlast]

end FatEntry

end FatVolume
