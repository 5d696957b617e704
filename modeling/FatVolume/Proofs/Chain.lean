import Mathlib
import FatVolume.Allocation.Table
import FatVolume.Layout

/-!
# Chains of a table

`Table.IsChain table first blocks` says that the entries of `table` lead from `first` through
`blocks`, in this order, to an entry that ends the chain.  Walking along a table finds exactly
the chains.  A chain is determined by its first block, holds no block twice, and is the same in
every table that has the same entries at its blocks.
-/

namespace FatVolume.Table

/-- The blocks of a chain in the order in which the entries lead through them. -/
inductive IsChain (table : Table) : (first : Nat) → (blocks : List Nat) → Prop
  | last {b : Nat} (h : table[b]? = some .last) : IsChain table b [b]
  | next {b : Nat} {c : UInt16} {rest : List Nat} (h : table[b]? = some (.next c))
      (hrest : IsChain table c.toNat rest) : IsChain table b (b :: rest)

namespace IsChain

variable {table table' : Table} {first : Nat} {blocks blocks' : List Nat}

/-- A chain starts with its first block. -/
theorem eq_cons (h : IsChain table first blocks) :
  ∃ rest, blocks = first :: rest
  := by
  cases h with
  | last _ => exact ⟨[], rfl⟩
  | next _ hrest => exact ⟨_, rfl⟩

theorem ne_nil (h : IsChain table first blocks) :
  blocks ≠ []
  := by
  obtain ⟨rest, rfl⟩ := h.eq_cons
  simp

theorem length_pos (h : IsChain table first blocks) :
  0 < blocks.length
  := List.length_pos_of_ne_nil h.ne_nil

theorem first_mem (h : IsChain table first blocks) :
  first ∈ blocks
  := by
  obtain ⟨rest, rfl⟩ := h.eq_cons
  simp

/-- A table has at most one chain from a block. -/
theorem unique (h : IsChain table first blocks) (h' : IsChain table first blocks') :
  blocks = blocks'
  := by
  induction h generalizing blocks' with
  | last hb =>
      cases h' with
      | last _ => rfl
      | next hb' _ => simp [hb] at hb'
  | next hb _ ih =>
      cases h' with
      | last hb' => simp [hb] at hb'
      | next hb' hrest' =>
          obtain rfl : _ = _ := by simpa [hb] using hb'
          rw [ih hrest']

/-- Tables with the same chain have the same entries at its blocks. -/
theorem getElem?_eq (h : IsChain table first blocks) (h' : IsChain table' first blocks) :
  ∀ b ∈ blocks, table'[b]? = table[b]?
  := by
  induction h with
  | last hlast =>
      intro b hb
      obtain rfl := List.mem_singleton.mp hb
      cases h' with
      | last hlast' => rw [hlast, hlast']
      | next _ hrest' => exact (hrest'.ne_nil rfl).elim
  | next hnext hrest ih =>
      cases h' with
      | last _ => exact (hrest.ne_nil rfl).elim
      | next hnext' hrest' =>
          -- The rest begins with the block to which the entry points.
          obtain ⟨more, hmore⟩ := hrest.eq_cons
          obtain ⟨more', hmore'⟩ := hrest'.eq_cons
          have target := (List.cons.inj (hmore'.symm.trans hmore)).1
          rw [UInt16.toNat_inj] at target
          subst target
          intro b hb
          rcases List.mem_cons.mp hb with rfl | hb
          · rw [hnext, hnext']
          · exact ih hrest' b hb

/-- The blocks of a chain lie in the table and are not free. -/
theorem exists_entry (h : IsChain table first blocks) {b : Nat} (hb : b ∈ blocks) :
  ∃ entry, table[b]? = some entry ∧ entry ≠ .free
  := by
  induction h with
  | last hlast =>
      obtain rfl := List.mem_singleton.mp hb
      exact ⟨_, hlast, by simp⟩
  | next hnext _ ih =>
      rcases List.mem_cons.mp hb with rfl | hb
      · exact ⟨_, hnext, by simp⟩
      · apply ih hb

theorem lt_length (h : IsChain table first blocks) {b : Nat} (hb : b ∈ blocks) :
  b < table.length
  := by
  obtain ⟨entry, he, -⟩ := h.exists_entry hb
  apply (List.getElem?_eq_some_iff.mp he).1

theorem ne_free (h : IsChain table first blocks) {b : Nat} (hb : b ∈ blocks) :
  table[b]? ≠ some .free
  := by
  obtain ⟨entry, he, hfree⟩ := h.exists_entry hb
  simp [he, hfree]

/-- From each of its blocks on a chain is a chain. -/
theorem exists_suffix (h : IsChain table first blocks) {b : Nat} (hb : b ∈ blocks) :
  ∃ rest, rest <:+ blocks ∧ IsChain table b rest
  := by
  induction h with
  | last hlast =>
      obtain rfl := List.mem_singleton.mp hb
      exact ⟨_, List.suffix_rfl, .last hlast⟩
  | next hnext hrest ih =>
      rcases List.mem_cons.mp hb with rfl | hb
      · exact ⟨_, List.suffix_rfl, .next hnext hrest⟩
      · obtain ⟨rest, hs, hc⟩ := ih hb
        exact ⟨rest, hs.trans (List.suffix_cons _ _), hc⟩

/-- No block occurs twice: the two chains from it would be one and of different lengths. -/
theorem nodup (h : IsChain table first blocks) :
  blocks.Nodup
  := by
  induction h with
  | last _ => simp
  | next hnext hrest ih =>
      apply List.nodup_cons.mpr ⟨_, ih⟩
      intro hb
      obtain ⟨suffix, hs, hc⟩ := hrest.exists_suffix hb
      have same := hc.unique (.next hnext hrest)
      have shorter := hs.length_le
      rw [same] at shorter
      simp at shorter

/-- A chain has at most as many blocks as the table has entries. -/
theorem length_le (h : IsChain table first blocks) :
  blocks.length ≤ table.length
  := by
  have inside : blocks ⊆ List.range table.length := by
    intro b hb
    apply List.mem_range.mpr (h.lt_length hb)
  have bound := (h.nodup.subperm inside).length_le
  rwa [List.length_range] at bound

/-- A table with the same entries at the blocks of a chain has the chain. -/
theorem congr (h : IsChain table first blocks)
    (same : ∀ b ∈ blocks, table'[b]? = table[b]?) :
  IsChain table' first blocks
  := by
  induction h with
  | last hlast =>
      apply IsChain.last
      rw [same _ (by simp), hlast]
  | next hnext hrest ih =>
      apply IsChain.next
      · rw [same _ (by simp), hnext]
      · apply ih
        intro b hb
        apply same b (List.mem_cons_of_mem _ hb)

/-- Letting a block follow the final block of a chain lengthens the chain by it. -/
theorem append {final : Nat} {fresh : UInt16} (h : IsChain table first blocks)
    (hfinal : blocks.getLast? = some final)
    (hlink : table'[final]? = some (.next fresh))
    (hend : table'[fresh.toNat]? = some .last)
    (same : ∀ b ∈ blocks, b ≠ final → table'[b]? = table[b]?) :
  IsChain table' first (blocks ++ [fresh.toNat])
  := by
  have distinct := h.nodup
  induction h with
  | last hlast =>
      obtain rfl := by simpa using hfinal
      exact .next hlink (.last hend)
  | next hnext hrest ih =>
      obtain ⟨tail, rfl⟩ := hrest.eq_cons
      rw [List.getLast?_cons_cons] at hfinal
      have apart := List.nodup_cons.mp distinct
      apply IsChain.next
      · rw [same _ (by simp), hnext]
        rintro rfl
        apply apart.1 (List.mem_of_getLast? hfinal)
      · apply ih hfinal _ apart.2
        intro b hb
        apply same b (List.mem_cons_of_mem _ hb)

/-- Ending a chain at the last of its first blocks leaves those. -/
theorem truncate {kept rest : List Nat} {final : Nat}
    (h : IsChain table first (kept ++ rest)) (hfinal : kept.getLast? = some final)
    (hend : table'[final]? = some .last)
    (same : ∀ b ∈ kept, b ≠ final → table'[b]? = table[b]?) :
  IsChain table' first kept
  := by
  induction kept generalizing first with
  | nil => simp at hfinal
  | cons b kept ih =>
      have distinct := h.nodup
      obtain ⟨_, heads⟩ := h.eq_cons
      obtain rfl : b = first := (List.cons.inj heads).1
      cases kept with
      | nil =>
          obtain rfl : b = final := by simpa using hfinal
          exact .last hend
      | cons c kept =>
          rw [List.getLast?_cons_cons] at hfinal
          have apart := (List.nodup_cons.mp (List.nodup_append.mp distinct).1).1
          cases h with
          | next hnext hrest =>
              apply IsChain.next
              · rw [same b (by simp), hnext]
                rintro rfl
                apply apart (List.mem_of_getLast? hfinal)
              · apply ih hrest hfinal
                intro d hd
                apply same d (List.mem_cons_of_mem _ hd)

end IsChain

/-! ### Walking -/

variable {table : Table} {first : Nat} {blocks : List Nat}

theorem walkFrom_eq_ok_iff {start fuel current : Nat} :
  table.walkFrom start fuel current = .ok blocks
    ↔ IsChain table current blocks ∧ blocks.length ≤ fuel
  := by
  induction fuel generalizing current blocks with
  | zero =>
      simp only [walkFrom, reduceCtorEq, false_iff, not_and]
      intro h
      have := h.length_pos
      omega
  | succ fuel ih =>
      rw [walkFrom]
      split
      · next hnone =>
          simp only [reduceCtorEq, false_iff, not_and]
          intro h
          obtain ⟨entry, he, -⟩ := h.exists_entry h.first_mem
          simp [hnone] at he
      · next hfree =>
          simp only [reduceCtorEq, false_iff, not_and]
          intro h
          apply absurd hfree (h.ne_free h.first_mem)
      · next hlast =>
          constructor
          · rintro ⟨⟩
            exact ⟨.last hlast, by simp⟩
          · rintro ⟨h, -⟩
            rw [h.unique (.last hlast)]
      · next c hnext =>
          constructor
          · intro h
            cases hwalk : table.walkFrom start fuel c.toNat with
            | error e => simp [hwalk, bind, Except.bind] at h
            | ok rest =>
                obtain rfl : current :: rest = blocks := by
                  simpa [hwalk, bind, Except.bind, pure, Except.pure] using h
                obtain ⟨hrest, bound⟩ := ih.mp hwalk
                exact ⟨.next hnext hrest, by simpa using bound⟩
          · rintro ⟨h, bound⟩
            cases h with
            | last hlast => simp [hnext] at hlast
            | next hnext' hrest =>
                obtain rfl : _ = _ := by simpa [hnext] using hnext'
                rw [ih.mpr ⟨hrest, by simpa using bound⟩]
                rfl

/-- Walking finds the chain from a block, and fails if there is none. -/
theorem walk_eq_ok_iff :
  table.walk first = .ok blocks ↔ IsChain table first blocks
  := by
  rw [walk, walkFrom_eq_ok_iff]
  constructor
  · intro h
    apply h.1
  · intro h
    exact ⟨h, h.length_le⟩

end FatVolume.Table
