import FatVolume.Proofs.Chain

/-!
# Ownership of blocks

`Table.Partitioned table owner` says that the allocated blocks of a table are divided between
the volume itself, which has the reserved ones, and the owners, each of which has the blocks of
one chain.  When one owner's chain is replaced by another, made of blocks of the old chain and
of free ones, and what is left over is freed, the division remains one.
-/

namespace FatVolume.Table

variable {ι : Type} {table table' : Table} {owner : ι → Option (List Nat)}

/-- Each allocated block is reserved or belongs to exactly one owner, and what an owner has is
a chain. -/
structure Partitioned (table : Table) (owner : ι → Option (List Nat)) : Prop where
  /-- The blocks of the volume itself are one-block chains. -/
  reserved : ∀ b < reservedSpan, table[b]? = some .last
  chained : ∀ {i blocks}, owner i = some blocks → ∃ first, IsChain table first blocks
  /-- No owner has a reserved block. -/
  above : ∀ {i blocks}, owner i = some blocks → ∀ b ∈ blocks, reservedSpan ≤ b
  disjoint : ∀ {i j blocks blocks'}, i ≠ j → owner i = some blocks → owner j = some blocks' →
    blocks.Disjoint blocks'
  covered : ∀ {b entry}, table[b]? = some entry → entry ≠ .free →
    b < reservedSpan ∨ ∃ i blocks, owner i = some blocks ∧ b ∈ blocks

namespace Partitioned

/-- An owner has no free block. -/
theorem ne_free (h : Partitioned table owner) {i : ι} {blocks : List Nat}
    (hi : owner i = some blocks) {b : Nat} (hb : b ∈ blocks) :
  table[b]? ≠ some .free
  := by
  obtain ⟨first, hchain⟩ := h.chained hi
  apply hchain.ne_free hb

/-- A free block is not reserved. -/
theorem reservedSpan_le_of_free (h : Partitioned table owner) {b : Nat}
    (hb : table[b]? = some .free) :
  reservedSpan ≤ b
  := by
  by_contra below
  have := h.reserved b (by omega)
  simp [hb] at this

/-- Two owners have no block in common. -/
theorem notMem_getD (h : Partitioned table owner) {i j : ι} {blocks : List Nat} (hij : j ≠ i)
    (hj : owner j = some blocks) {b : Nat} (hb : b ∈ blocks) :
  b ∉ (owner i).getD []
  := by
  intro hb'
  cases hi : owner i with
  | none => simp [hi] at hb'
  | some blocks' =>
      apply h.disjoint hij hj hi hb
      simpa [hi] using hb'

/-- What an owner has is not reserved. -/
theorem reservedSpan_le (h : Partitioned table owner) {i : ι} {b : Nat}
    (hb : b ∈ (owner i).getD []) :
  reservedSpan ≤ b
  := by
  cases hi : owner i with
  | none => simp [hi] at hb
  | some blocks => apply h.above hi b (by simpa [hi] using hb)

variable [DecidableEq ι]

/-- The division after the chain of one owner was replaced.  The new blocks are old ones of
this owner or were free, and the old ones that are not kept are free. -/
theorem update (h : Partitioned table owner) {i : ι} {old new : Option (List Nat)}
    (hold : owner i = old)
    (untouched : ∀ b, b ∉ old.getD [] → b ∉ new.getD [] → table'[b]? = table[b]?)
    (fresh : ∀ b ∈ new.getD [], b ∉ old.getD [] → table[b]? = some .free)
    (released : ∀ b ∈ old.getD [], b ∉ new.getD [] → table'[b]? = some .free)
    (chained : ∀ blocks, new = some blocks → ∃ first, IsChain table' first blocks) :
  Partitioned table' (Function.update owner i new)
  := by
  subst hold
  have new_above : ∀ b ∈ new.getD [], reservedSpan ≤ b := by
    intro b hb
    by_cases hkept : b ∈ (owner i).getD []
    · apply h.reservedSpan_le hkept
    · apply h.reservedSpan_le_of_free (fresh b hb hkept)
  -- The other owners have no block of the new chain either.
  have apart_new : ∀ {j blocks}, j ≠ i → owner j = some blocks →
      ∀ b ∈ blocks, b ∉ new.getD [] := by
    intro j blocks hj hblocks b hb hb'
    apply h.ne_free hblocks hb
    apply fresh b hb' (h.notMem_getD hj hblocks hb)
  constructor
  case reserved =>
    intro b hb
    rw [untouched b, h.reserved b hb]
    · intro hb'
      have := h.reservedSpan_le hb'
      omega
    · intro hb'
      have := new_above b hb'
      omega
  case chained =>
    intro j blocks hj
    by_cases hji : j = i
    · subst hji
      apply chained
      simpa using hj
    · rw [Function.update_of_ne hji] at hj
      obtain ⟨first, hchain⟩ := h.chained hj
      use first
      apply hchain.congr
      intro b hb
      apply untouched b (h.notMem_getD hji hj hb) (apart_new hji hj b hb)
  case above =>
    intro j blocks hj b hb
    by_cases hji : j = i
    · subst hji
      rw [Function.update_self] at hj
      apply new_above
      simpa [hj] using hb
    · rw [Function.update_of_ne hji] at hj
      apply h.above hj b hb
  case disjoint =>
    intro j k blocks blocks' hjk hj hk b hb hb'
    by_cases hji : j = i
    · subst hji
      rw [Function.update_self] at hj
      rw [Function.update_of_ne hjk.symm] at hk
      apply apart_new hjk.symm hk b hb'
      simpa [hj] using hb
    · rw [Function.update_of_ne hji] at hj
      by_cases hki : k = i
      · subst hki
        rw [Function.update_self] at hk
        apply apart_new hji hj b hb
        simpa [hk] using hb'
      · rw [Function.update_of_ne hki] at hk
        apply h.disjoint hjk hj hk hb hb'
  case covered =>
    intro b entry hentry hfree
    by_cases hnew : b ∈ new.getD []
    · right
      cases hn : new with
      | none => simp [hn] at hnew
      | some blocks => exact ⟨i, blocks, by simp, by simpa [hn] using hnew⟩
    · by_cases hb : b ∈ (owner i).getD []
      · have := released b hb hnew
        simp_all
      · rw [untouched b hb hnew] at hentry
        rcases h.covered hentry hfree with below | ⟨j, blocks, hj, hbj⟩
        · left
          apply below
        · right
          use j, blocks
          rw [Function.update_of_ne]
          · exact ⟨hj, hbj⟩
          · rintro rfl
            apply hb
            simpa [hj] using hbj

end Partitioned

end FatVolume.Table
