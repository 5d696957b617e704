import FatVolume.Proofs.ActionParts
import FatVolume.Proofs.Consistency

/-!
# The steps of a check

What each step of `Check.run` accepts, in terms of the image.  A check only reads, and a step
that succeeds gives the blocks of what it looked at to an owner.
-/

namespace FatVolume

/-! ### Counting -/

/-- The blocks whose entries are not free. -/
def Table.allocated (table : Table) : List Nat :=
  (List.range table.length).filter fun b => table[b]? ≠ some .free

namespace Table

variable {table : Table}

theorem mem_allocated {b : Nat} :
  b ∈ table.allocated ↔ ∃ entry, table[b]? = some entry ∧ entry ≠ .free
  := by
  simp only [allocated, List.mem_filter, List.mem_range, decide_eq_true_eq]
  constructor
  · rintro ⟨hb, hfree⟩
    refine ⟨table[b], by simp, ?_⟩
    intro h
    apply hfree
    simp [hb, h]
  · rintro ⟨entry, he, hfree⟩
    refine ⟨(List.getElem?_eq_some_iff.mp he).1, ?_⟩
    simp [he, hfree]

theorem nodup_allocated (table : Table) :
  table.allocated.Nodup
  := List.nodup_range.filter _

/-- The blocks that are not free are as many as the entries that are not free. -/
theorem length_allocated (table : Table) :
  table.allocated.length = table.countP (· ≠ .free)
  := by
  have whole : (List.range table.length).map (fun b => table[b]?.getD .free) = table := by
    apply List.ext_getElem (by simp)
    intro b h h'
    simp [List.getElem?_eq_getElem h']
  conv_rhs => rw [← whole]
  rw [List.countP_map, allocated, ← List.countP_eq_length_filter]
  apply List.countP_congr
  intro b hb
  have hb := List.mem_range.mp hb
  simp [hb]

theorem countP_add_countFree (table : Table) :
  table.countP (· ≠ .free) + table.countFree = table.length
  := by
  rw [countFree, List.count, List.length_eq_countP_add_countP (· ≠ FatEntry.free)]
  congr 1
  apply List.countP_congr
  simp

theorem length_sub_countFree (table : Table) :
  table.length - table.countFree = table.countP (· ≠ .free)
  := Nat.sub_eq_of_eq_add table.countP_add_countFree.symm

end Table

/-! ### Steps -/

namespace Check

open DiskM

variable {image after : Image}

theorem exec_fail {α : Type} (cause : Corruption) (image : Image) :
  (fail cause : DiskM α).exec image = (.error (.corrupted cause), image)
  := rfl

/-- A chain is claimed exactly when none of its blocks is owned yet. -/
theorem exec_claim_eq_ok {owned : Owned} {first : Nat} {owner : String} {result : Owned × Nat} :
  (claim owned first owner).exec image = (.ok result, after)
    ↔ after = image ∧ image.table.IsChain first (image.blocksOf first)
      ∧ (image.blocksOf first).Disjoint owned
      ∧ result = (image.blocksOf first ++ owned, (image.blocksOf first).length)
  := by
  unfold claim
  rw [exec_bind_eq_ok]
  simp only [Allocation.exec_chain, Prod.mk.injEq]
  constructor
  · rintro ⟨blocks, _, ⟨hchain, rfl⟩, hrest⟩
    have ischain := Image.chain_eq_ok_iff.mp hchain
    rw [Image.blocksOf_eq ischain]
    split at hrest
    · rw [exec_fail] at hrest
      simp at hrest
    · next hfind =>
        obtain ⟨hresult, rfl⟩ := Prod.mk.inj hrest
        refine ⟨rfl, ischain, ?_, (Except.ok.inj hresult).symm⟩
        intro b hb
        simpa using List.find?_eq_none.mp hfind b hb
  · rintro ⟨rfl, ischain, apart, rfl⟩
    refine ⟨_, _, ⟨Image.chain_eq_ok_iff.mpr ischain, rfl⟩, ?_⟩
    have hfind : (after.blocksOf first).find? owned.contains = none := by
      apply List.find?_eq_none.mpr
      intro b hb
      simpa using apart hb
    rw [hfind]
    rfl

theorem isDotEntry_iff {e : Entry} {name : String} {target : UInt16} :
  isDotEntry e name target = true ↔ e.StandsFor name target
  := by
  simp [isDotEntry, Entry.StandsFor, and_assoc]

theorem exec_checkDots_eq_ok {slots : List Entry} {path : String} {first parent : UInt16} :
  (checkDots slots path first parent).exec image = (.ok (), after)
    ↔ after = image ∧ ∃ self up rest, slots = self :: up :: rest
      ∧ self.StandsFor Name.dot first ∧ up.StandsFor Name.dotdot parent
  := by
  unfold checkDots
  split
  · next self up rest =>
      simp only [← isDotEntry_iff, exec_ite, exec_fail, exec_pure, List.cons.injEq]
      cases hself : isDotEntry self Name.dot first with
      | false =>
          simp only [Bool.not_false, if_true, Prod.mk.injEq, reduceCtorEq, false_and, false_iff]
          rintro ⟨-, _, _, _, ⟨rfl, rfl, rfl⟩, hdot, -⟩
          simp [hself] at hdot
      | true =>
          cases hup : isDotEntry up Name.dotdot parent with
          | false =>
              simp only [Bool.not_false, Bool.not_true, Bool.false_eq_true, if_true, if_false,
                Prod.mk.injEq, reduceCtorEq, false_and, false_iff]
              rintro ⟨-, _, _, _, ⟨rfl, rfl, rfl⟩, -, hdot⟩
              simp [hup] at hdot
          | true =>
              simp only [Bool.not_true, Bool.false_eq_true, if_false, Prod.mk.injEq, true_and]
              constructor
              · rintro rfl
                exact ⟨rfl, self, up, rest, ⟨rfl, rfl, rfl⟩, hself, hup⟩
              · rintro ⟨rfl, -⟩
                rfl
  · next short =>
      rw [exec_fail]
      simp only [Prod.mk.injEq, reduceCtorEq, false_and, false_iff]
      rintro ⟨-, self, up, rest, rfl, -⟩
      apply short self up rest rfl

/-- What `checkEntry` accepts: a record with a name of its own and a chain that fits its length
and has no owner yet. -/
structure Admits (image : Image) (owned : Owned) (names : List String) (record : Record) :
    Prop where
  named : record.isDot = false
  unused : record.fullName ∉ names
  spans : image.Spans record.first.toNat (blocksFor record.length.toNat)
  unowned : (image.blocksOf record.first.toNat).Disjoint owned

theorem exec_checkEntry_eq_ok {owned result : Owned} {names : List String} {path : String}
    {record : Record} :
  (checkEntry owned names path record).exec image = (.ok result, after)
    ↔ after = image ∧ Admits image owned names record
      ∧ result = image.blocksOf record.first.toNat ++ owned
  := by
  unfold checkEntry
  dsimp only
  by_cases dot : record.isDot = true
  · rw [if_pos dot, exec_bind_of_error (exec_fail _ _)]
    simp only [Prod.mk.injEq, reduceCtorEq, false_and, false_iff]
    rintro ⟨-, admits, -⟩
    simp [admits.named] at dot
  rw [if_neg dot]
  by_cases used : names.contains record.fullName = true
  · rw [if_pos used, exec_bind_of_error (exec_fail _ _)]
    simp only [Prod.mk.injEq, reduceCtorEq, false_and, false_iff]
    rintro ⟨-, admits, -⟩
    apply admits.unused
    simpa using used
  rw [if_neg used, exec_bind_eq_ok]
  constructor
  · rintro ⟨claimed, middle, hclaim, hrest⟩
    obtain ⟨rfl, ischain, apart, rfl⟩ := exec_claim_eq_ok.mp hclaim
    by_cases wrong : (middle.blocksOf record.first.toNat).length ≠ blocksFor record.length.toNat
    · rw [if_pos wrong, exec_bind_of_error (exec_fail _ _)] at hrest
      simp at hrest
    · rw [if_neg wrong] at hrest
      obtain ⟨same, rfl⟩ := Prod.mk.inj hrest
      refine ⟨rfl, ⟨by simpa using dot, by simpa using used, ?_, apart⟩, ?_⟩
      · exact ⟨_, ischain, not_not.mp wrong⟩
      · apply (Except.ok.inj same).symm
  · rintro ⟨rfl, admits, rfl⟩
    refine ⟨_, _, exec_claim_eq_ok.mpr ⟨rfl, admits.spans.isChain, admits.unowned, rfl⟩, ?_⟩
    rw [if_neg (not_not.mpr admits.spans.length_blocksOf)]
    rfl

/-- The records of the entries that a directory lists. -/
theorem map_record_listed (image : Image) (first : Nat) :
  (((image.slots first).drop 2).map Entry.record).filter Record.occupied
    = (image.listed first).map Entry.record
  := by
  rw [List.filter_map]
  rfl

/-- A directory is accepted exactly when its first two slots are right and the loop over its
entries succeeds. -/
theorem exec_checkDirectory_succ_eq_ok {depth : Nat} {owned result : Owned} {path : String}
    {first parent : UInt16} :
  (checkDirectory (depth + 1) owned path first parent).exec image = (.ok result, after)
    ↔ image.HasDots first parent
      ∧ ∃ names, (((image.listed first.toNat).map Entry.record).foldlM (step depth path first)
          (owned, [])).exec image = (.ok (result, names), after)
  := by
  rw [checkDirectory_succ, exec_bind_eq_ok]
  constructor
  · rintro ⟨slots, _, hslots, hrest⟩
    obtain ⟨rfl, -, rfl⟩ := Directory.exec_slots_eq_ok.mp hslots
    obtain ⟨_, _, hdots, hrest⟩ := exec_bind_eq_ok.mp hrest
    obtain ⟨rfl, hdots⟩ := exec_checkDots_eq_ok.mp hdots
    obtain ⟨⟨final, names⟩, _, hloop, hfinal⟩ := exec_bind_eq_ok.mp hrest
    rw [map_record_listed] at hloop
    obtain ⟨same, rfl⟩ := Prod.mk.inj hfinal
    obtain rfl := Except.ok.inj same
    exact ⟨hdots, names, hloop⟩
  · rintro ⟨hdots, names, hloop⟩
    obtain ⟨self, up, rest, hslots, -⟩ := id hdots
    have hchain : image.table.IsChain first.toNat (image.blocksOf first.toNat) := by
      apply Image.isChain_of_mem_slots
      rw [hslots]
      apply List.mem_cons_self
    refine ⟨_, _, Directory.exec_slots_eq_ok.mpr ⟨rfl, hchain, rfl⟩, ?_⟩
    rw [exec_bind_of_ok (exec_checkDots_eq_ok.mpr ⟨rfl, hdots⟩)]
    dsimp only
    rw [map_record_listed, exec_bind_of_ok hloop]
    rfl

/-- A record is accepted by a step. -/
theorem exec_step_eq_ok {depth : Nat} {owned owned' : Owned} {names names' : List String}
    {path : String} {first : UInt16} {record : Record} :
  (step depth path first (owned, names) record).exec image = (.ok (owned', names'), after)
    ↔ Admits image owned names record ∧ names' = record.fullName :: names
      ∧ if record.isDirectory then
          (checkDirectory depth (image.blocksOf record.first.toNat ++ owned)
            (childPath path record.fullName) record.first first).exec image = (.ok owned', after)
        else owned' = image.blocksOf record.first.toNat ++ owned ∧ after = image
  := by
  unfold step
  dsimp only
  rw [exec_bind_eq_ok]
  constructor
  · rintro ⟨claimed, _, hentry, hrest⟩
    obtain ⟨rfl, admits, rfl⟩ := exec_checkEntry_eq_ok.mp hentry
    split_ifs at hrest ⊢ with hdir
    · obtain ⟨final, _, hbelow, hfinal⟩ := exec_bind_eq_ok.mp hrest
      obtain ⟨same, rfl⟩ := Prod.mk.inj hfinal
      obtain ⟨rfl, rfl⟩ := Prod.mk.inj (Except.ok.inj same)
      exact ⟨admits, rfl, hbelow⟩
    · obtain ⟨same, rfl⟩ := Prod.mk.inj hrest
      obtain ⟨rfl, rfl⟩ := Prod.mk.inj (Except.ok.inj same)
      exact ⟨admits, rfl, rfl, rfl⟩
  · rintro ⟨admits, rfl, hrest⟩
    refine ⟨_, _, exec_checkEntry_eq_ok.mpr ⟨rfl, admits, rfl⟩, ?_⟩
    split_ifs at hrest ⊢ with hdir
    · rw [exec_bind_of_ok hrest]
      rfl
    · obtain ⟨rfl, rfl⟩ := hrest
      rfl

/-- No reserved block is found not to be the last of its chain if each of them is. -/
theorem find?_reserved_eq_none_iff {table : Table} :
  (List.range reservedSpan).find? (table[·]? ≠ some .last) = none
    ↔ ∀ b < reservedSpan, table[b]? = some .last
  := by
  simp [List.find?_eq_none]

/-- What is counted once the table has been read, apart from what the check of the root directory
does. -/
theorem exec_counting_eq_ok {root : UInt16} {usage : Usage} :
  (counting image.table root).exec image = (.ok usage, after)
    ↔ image.Spans root.toNat rootSpan
      ∧ (image.blocksOf root.toNat).Disjoint (List.range reservedSpan)
      ∧ ∃ owned, (checkDirectory (numBlocks + 1)
            (image.blocksOf root.toNat ++ List.range reservedSpan) Path.root root root).exec image
          = (.ok owned, after)
        ∧ image.table.countP (· ≠ .free) = owned.length
        ∧ usage = ⟨numBlocks, owned.length, numBlocks - owned.length⟩
  := by
  unfold counting
  dsimp only
  rw [image.table.length_sub_countFree]
  constructor
  · intro h
    obtain ⟨claimed, middle, hclaim, h⟩ := exec_bind_eq_ok.mp h
    obtain ⟨rfl, ischain, apart, rfl⟩ := exec_claim_eq_ok.mp hclaim
    by_cases span : (middle.blocksOf root.toNat).length ≠ rootSpan
    · rw [if_pos span, exec_bind_of_error (exec_fail _ _)] at h
      simp at h
    rw [if_neg span] at h
    obtain ⟨owned, _, hdirectory, h⟩ := exec_bind_eq_ok.mp h
    split_ifs at h with count
    · rw [exec_bind_of_error (exec_fail _ _)] at h
      simp at h
    rw [exec_bind_of_ok (exec_log _ _ _ _)] at h
    obtain ⟨same, rfl⟩ := Prod.mk.inj h
    obtain rfl := Except.ok.inj same
    have count := not_not.mp count
    refine ⟨⟨_, ischain, not_not.mp span⟩, apart, owned, hdirectory, count, ?_⟩
    rw [← count]
  · rintro ⟨spans, apart, owned, hdirectory, count, rfl⟩
    have hclaim : (claim (List.range reservedSpan) root.toNat Path.root).exec image = _ :=
      exec_claim_eq_ok.mpr ⟨rfl, spans.isChain, apart, rfl⟩
    rw [exec_bind_of_ok hclaim, if_neg (not_not.mpr spans.length_blocksOf),
      exec_bind_of_ok hdirectory, if_neg (not_not.mpr count), exec_bind_of_ok (exec_log _ _ _ _),
      count]
    rfl

/-- What `Check.run` accepts apart from what the check of the root directory does. -/
theorem exec_run_eq_ok {root : UInt16} {usage : Usage} :
  (run root).exec image = (.ok usage, after)
    ↔ image.mirror = image.table ∧ (∀ b < reservedSpan, image.table[b]? = some .last)
      ∧ image.Spans root.toNat rootSpan
      ∧ (image.blocksOf root.toNat).Disjoint (List.range reservedSpan)
      ∧ ∃ owned, (checkDirectory (numBlocks + 1)
            (image.blocksOf root.toNat ++ List.range reservedSpan) Path.root root root).exec image
          = (.ok owned, after)
        ∧ image.table.countP (· ≠ .free) = owned.length
        ∧ usage = ⟨numBlocks, owned.length, numBlocks - owned.length⟩
  := by
  rw [run_eq, exec_bind_of_ok Allocation.exec_mirrorsMatch]
  by_cases mirrored : image.mirror = image.table
  swap
  · have differ : (!(image.table == image.mirror)) = true := by
      simpa using Ne.symm mirrored
    rw [if_pos differ, exec_bind_of_error (exec_fail _ _)]
    simp [mirrored]
  have agree : ¬(!(image.table == image.mirror)) = true := by
    simp [mirrored]
  rw [if_neg agree, exec_bind_of_ok Allocation.exec_readTable_tableStart]
  rw [← find?_reserved_eq_none_iff]
  dsimp only
  cases hfind : (List.range reservedSpan).find? (image.table[·]? ≠ some .last) with
  | some block =>
      dsimp only
      rw [exec_bind_of_error (exec_fail _ _)]
      simp
  | none =>
      dsimp only
      rw [exec_counting_eq_ok, and_iff_right mirrored, and_iff_right rfl]

end Check

end FatVolume
