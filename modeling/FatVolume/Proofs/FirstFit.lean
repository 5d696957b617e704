import Mathlib
import FatVolume.Allocation.Table

/-!
# First fit

`Table.FreeRun table i count` says that `count` free entries stand in a row from `i` on.  The
search for a run scans a table once and keeps the number of free entries right before the place
it has come to; it finds the first run, and fails exactly if there is none.
-/

namespace FatVolume.Table

/-- The `count` entries from `i` on lie in the table and are free. -/
def FreeRun (table : Table) (i count : Nat) : Prop :=
  ∀ j, i ≤ j → j < i + count → table[j]? = some .free

variable {table : Table}

/-- A run ends inside the table. -/
theorem FreeRun.le_length {i count : Nat} (h : FreeRun table i count) (hcount : 0 < count) :
  i + count ≤ table.length
  := by
  have := (List.getElem?_eq_some_iff.mp (h (i + count - 1) (by omega) (by omega))).1
  omega

theorem FreeRun.succ {i count : Nat} (h : FreeRun table i count)
    (hfree : table[i + count]? = some .free) :
  FreeRun table i (count + 1)
  := by
  intro j hij hj
  by_cases hlast : j = i + count
  · rw [hlast, hfree]
  · apply h j hij (by omega)

/-- What the search finds in the part of a table from `index` on, when `before` free entries
stand right before it and no run starts before those, is the first run in the table. -/
theorem firstFitFrom_spec {count index before : Nat} {rest : Table}
    (hrest : table.drop index = rest) (hbefore : before ≤ index) (hcount : before < count)
    (hrun : FreeRun table (index - before) before)
    (hnone : ∀ i < index - before, ¬ FreeRun table i count) :
  match firstFitFrom count index before rest with
  | some i => FreeRun table i count ∧ ∀ j < i, ¬ FreeRun table j count
  | none => ∀ j, ¬ FreeRun table j count
  := by
  induction rest generalizing index before with
  | nil =>
      have past : table.length ≤ index := List.drop_eq_nil_iff.mp hrest
      intro j hj
      have := hj.le_length (by omega)
      apply hnone j (by omega) hj
  | cons entry rest ih =>
      have here : table[index]? = some entry := by
        rw [← List.head?_drop, hrest, List.head?_cons]
      have after : table.drop (index + 1) = rest := by
        rw [← List.tail_drop, hrest, List.tail_cons]
      rw [firstFitFrom]
      by_cases hfree : entry = .free
      · have longer : FreeRun table (index - before) (before + 1) := by
          apply hrun.succ
          rw [Nat.sub_add_cancel hbefore, here, hfree]
        rw [if_pos hfree]
        split_ifs with hfound
        · exact ⟨hfound ▸ longer, hnone⟩
        · apply ih after (by omega) (by omega)
          · rwa [Nat.add_sub_add_right]
          · rwa [Nat.add_sub_add_right]
      · rw [if_neg hfree]
        apply ih after (by omega) (by omega)
        · intro j _ _
          omega
        · -- A run that starts before or here would contain this entry.
          intro i hi hj
          by_cases hbeforei : i < index - before
          · apply hnone i hbeforei hj
          · have := hj index (by omega) (by omega)
            simp_all

theorem firstFit_spec (table : Table) {count : Nat} (hcount : 0 < count) :
  match table.firstFit count with
  | some i => FreeRun table i count ∧ ∀ j < i, ¬ FreeRun table j count
  | none => ∀ j, ¬ FreeRun table j count
  := by
  apply firstFitFrom_spec (by simp) (Nat.zero_le _) hcount
  · intro j _ _
    omega
  · intro i hi
    omega

/-- The run that is found is free and no earlier one is. -/
theorem freeRun_of_firstFit {count i : Nat} (hcount : 0 < count)
    (h : table.firstFit count = some i) :
  FreeRun table i count ∧ ∀ j < i, ¬ FreeRun table j count
  := by
  have := firstFit_spec table hcount
  rwa [h] at this

/-- A run at a place before which none starts is found. -/
theorem firstFit_eq_some {count i : Nat} (hcount : 0 < count) (hi : FreeRun table i count)
    (hleast : ∀ j < i, ¬ FreeRun table j count) :
  table.firstFit count = some i
  := by
  have := firstFit_spec table hcount
  split at this
  · next k hk =>
      rcases Nat.lt_trichotomy i k with lt | rfl | lt
      · apply absurd hi (this.2 i lt)
      · apply hk
      · apply absurd this.1 (hleast k lt)
  · apply absurd hi (this i)

/-- A run that is found has a block: the count is compared only after a free entry was counted. -/
theorem pos_of_firstFit {count i : Nat} (h : table.firstFit count = some i) :
  0 < count
  := by
  suffices never : ∀ index before, table.firstFitFrom 0 index before = none by
    apply Nat.pos_of_ne_zero
    rintro rfl
    rw [firstFit, never] at h
    cases h
  clear h
  induction table with
  | nil => exact fun _ _ => rfl
  | cons entry rest ih =>
      intro index before
      rw [firstFitFrom, if_neg (Nat.succ_ne_zero before)]
      split_ifs <;> apply ih

/-- What is found is the least place at which a run of at least one block starts. -/
theorem firstFit_eq_some_iff {count i : Nat} :
  table.firstFit count = some i ↔ IsLeast {i | 1 ≤ count ∧ FreeRun table i count} i
  := by
  constructor
  · intro h
    have hcount := pos_of_firstFit h
    obtain ⟨run, least⟩ := freeRun_of_firstFit hcount h
    refine ⟨⟨hcount, run⟩, ?_⟩
    rintro j ⟨-, hj⟩
    by_contra earlier
    exact least j (Nat.lt_of_not_le earlier) hj
  · rintro ⟨⟨hcount, run⟩, least⟩
    apply firstFit_eq_some hcount run
    intro j hj hrun
    exact Nat.not_le.mpr hj (least ⟨hcount, hrun⟩)

theorem firstFit_eq_none_iff {count : Nat} :
  table.firstFit count = none ↔ ∀ i, ¬(1 ≤ count ∧ FreeRun table i count)
  := by
  constructor
  · rintro h i ⟨hcount, run⟩
    have spec := firstFit_spec table hcount
    rw [h] at spec
    exact spec i run
  · intro none
    apply Option.eq_none_iff_forall_ne_some.mpr
    intro i h
    exact none i (firstFit_eq_some_iff.mp h).1

/-- One block is found exactly if one is free. -/
theorem firstFit_one_eq_none_iff :
  table.firstFit 1 = none ↔ table.countFree = 0
  := by
  have spec := firstFit_spec table Nat.one_pos
  rw [countFree, List.count_eq_zero]
  constructor
  · intro h hmem
    rw [h] at spec
    obtain ⟨i, hi, hfree⟩ := List.mem_iff_getElem.mp hmem
    apply spec i
    intro j hij hj
    obtain rfl : j = i := by omega
    rw [List.getElem?_eq_getElem hi, hfree]
  · intro h
    split at spec
    · next i hi =>
        apply absurd _ h
        apply List.mem_of_getElem? (spec.1 i (by omega) (by omega))
    · next hnone => apply hnone

theorem free_of_firstFit_one {i : Nat} (h : table.firstFit 1 = some i) :
  table[i]? = some .free
  := (freeRun_of_firstFit (by decide) h).1 i (by omega) (by omega)

end FatVolume.Table
