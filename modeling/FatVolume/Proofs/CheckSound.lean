import FatVolume.Proofs.CheckSteps

/-!
# What a successful check has seen

A check that succeeds has seen every entry below the root once, and has given each of its
blocks to it alone.  By the count at its end no allocated block is left without an owner, so
the image is consistent.
-/

namespace FatVolume.Check

open DiskM

variable {image after : Image}

/-- The blocks of the chain of an entry. -/
def blocksOf (image : Image) (e : Entry) : List Nat :=
  image.blocksOf e.record.first.toNat

/-- An entry is the given one or lies below it. -/
def Within (image : Image) (e x : Entry) : Prop :=
  x = e ∨ e.record.isDirectory = true ∧ image.HasEntry e.record.first x

/-- The blocks of exactly the given entries have got an owner, each block for the first time. -/
structure Collects (image : Image) (entries : Entry → Prop) (owned owned' : Owned) : Prop where
  nodup : owned.Nodup → owned'.Nodup
  collected : ∃ found : List Entry, owned'.Perm (found.flatMap (blocksOf image) ++ owned)
    ∧ ∀ x, x ∈ found ↔ entries x

namespace Collects

variable {entries entries' : Entry → Prop} {owned middle owned' : Owned}

theorem none (owned : Owned) :
  Collects image (fun _ => False) owned owned
  := by
  refine ⟨id, [], List.Perm.refl _, ?_⟩
  simp

theorem congr (h : Collects image entries owned owned') (same : ∀ x, entries x ↔ entries' x) :
  Collects image entries' owned owned'
  := by
  obtain ⟨nodup, found, perm, mem⟩ := h
  refine ⟨nodup, found, perm, ?_⟩
  intro x
  rw [mem, same]

/-- The blocks of one entry are claimed. -/
theorem single {e : Entry} (h : (blocksOf image e).Disjoint owned) :
  Collects image (· = e) owned (blocksOf image e ++ owned)
  := by
  refine ⟨?_, [e], ?_, ?_⟩
  · intro nodup
    apply (image.nodup_blocksOf _).append nodup h
  · simp
  · simp

theorem trans (h : Collects image entries owned middle)
    (h' : Collects image entries' middle owned') :
  Collects image (fun x => entries x ∨ entries' x) owned owned'
  := by
  obtain ⟨nodup, found, perm, mem⟩ := h
  obtain ⟨nodup', found', perm', mem'⟩ := h'
  refine ⟨nodup' ∘ nodup, found' ++ found, ?_, ?_⟩
  · rw [List.flatMap_append, List.append_assoc]
    apply perm'.trans (perm.append_left _)
  · intro x
    rw [List.mem_append, mem, mem', or_comm]

theorem length_le (h : Collects image entries owned owned') :
  owned.length ≤ owned'.length
  := by
  obtain ⟨-, found, perm, -⟩ := h
  rw [perm.length_eq, List.length_append]
  omega

/-- A block has an owner afterwards if it had one or belongs to one of the entries. -/
theorem mem_iff (h : Collects image entries owned owned') {b : Nat} :
  b ∈ owned' ↔ b ∈ owned ∨ ∃ e, entries e ∧ b ∈ blocksOf image e
  := by
  obtain ⟨-, found, perm, mem⟩ := h
  rw [perm.mem_iff, List.mem_append, List.mem_flatMap, or_comm]
  simp only [mem]

/-- A block that had an owner belongs to none of the entries. -/
theorem disjoint (h : Collects image entries owned owned') (nodup : owned.Nodup) {e : Entry}
    (he : entries e) :
  (blocksOf image e).Disjoint owned
  := by
  have nodup' := h.nodup nodup
  obtain ⟨-, found, perm, mem⟩ := h
  rw [perm.nodup_iff] at nodup'
  intro b hb hb'
  apply List.disjoint_of_nodup_append nodup' _ hb'
  exact List.mem_flatMap.mpr ⟨e, (mem e).mpr he, hb⟩

/-- No block belongs to two of the entries. -/
theorem pairwise (h : Collects image entries owned owned') (nodup : owned.Nodup) {e e' : Entry}
    (he : entries e) (he' : entries e') (hne : e ≠ e') :
  (blocksOf image e).Disjoint (blocksOf image e')
  := by
  have nodup' := h.nodup nodup
  obtain ⟨-, found, perm, mem⟩ := h
  rw [perm.nodup_iff] at nodup'
  have apart := (List.nodup_flatMap.mp (List.Nodup.of_append_left nodup')).2
  have : Std.Symm (Function.onFun List.Disjoint (blocksOf image)) := ⟨fun _ _ h => h.symm⟩
  apply apart.forall ((mem e).mpr he) ((mem e').mpr he') hne

end Collects

/-- What is known of a directory of which all that lies below it was accepted. -/
structure Accepts (image : Image) (owned owned' : Owned) (first parent : UInt16) : Prop where
  dots : image.HasDots first parent
  orderly : ∀ a, image.Reaches first a → image.Orderly a
  collects : Collects image (image.HasEntry first) owned owned'

/-- What is known after a loop over entries of a directory. -/
structure AcceptsAll (image : Image) (owned owned' : Owned) (names : List String)
    (first : UInt16) (entries : List Entry) : Prop where
  named : ∀ e ∈ entries, e.record.isDot = false
  distinct : (entries.map (·.record.fullName)).Nodup
  unused : ∀ e ∈ entries, e.record.fullName ∉ names
  spans : ∀ e ∈ entries, image.Spans e.record.first.toNat (blocksFor e.record.length.toNat)
  below : ∀ e ∈ entries, e.record.isDirectory = true → image.HasDots e.record.first first
    ∧ ∀ a, image.Reaches e.record.first a → image.Orderly a
  collects : Collects image (fun x => ∃ e ∈ entries, Within image e x) owned owned'

section Loop

variable {depth : Nat} {path : String} {first : UInt16}
  (below : ∀ {owned owned' path first parent after},
    (checkDirectory depth owned path first parent).exec image = (.ok owned', after) →
      after = image ∧ Accepts image owned owned' first parent)
include below

/-- Whatever the kind of an entry, a step gives it and all below it their blocks. -/
theorem accepts_of_step {e : Entry} {owned claimed : Owned} {names names' : List String}
    (h : (step depth path first (owned, names) e.record).exec image
      = (.ok (claimed, names'), after)) :
  after = image ∧ Admits image owned names e.record ∧ names' = e.record.fullName :: names
    ∧ Collects image (Within image e) owned claimed
    ∧ (e.record.isDirectory = true → image.HasDots e.record.first first
      ∧ ∀ a, image.Reaches e.record.first a → image.Orderly a)
  := by
  obtain ⟨admits, rfl, hbelow⟩ := exec_step_eq_ok.mp h
  split_ifs at hbelow with hdir
  · obtain ⟨rfl, dots, orderly, collects⟩ := below hbelow
    refine ⟨rfl, admits, rfl, ?_, fun _ => ⟨dots, orderly⟩⟩
    apply ((Collects.single admits.unowned).trans collects).congr
    intro x
    simp [Within, hdir]
  · obtain ⟨rfl, rfl⟩ := hbelow
    refine ⟨rfl, admits, rfl, ?_, fun h => absurd h hdir⟩
    apply (Collects.single admits.unowned).congr
    intro x
    simp [Within, hdir]

/-- A loop accepts all entries. -/
theorem acceptsAll_of_loop {entries : List Entry} {owned owned' : Owned} {names names' : List String}
    (h : ((entries.map Entry.record).foldlM (step depth path first) (owned, names)).exec image
      = (.ok (owned', names'), after)) :
  after = image ∧ AcceptsAll image owned owned' names first entries
  := by
  induction entries generalizing owned names with
  | nil =>
      obtain ⟨same, rfl⟩ := Prod.mk.inj h
      obtain ⟨rfl, rfl⟩ := Prod.mk.inj (Except.ok.inj same)
      refine ⟨rfl, by simp, by simp, by simp, by simp, by simp, ?_⟩
      apply (Collects.none owned).congr
      simp
  | cons e entries ih =>
      rw [List.map_cons, List.foldlM_cons] at h
      obtain ⟨⟨claimed, used⟩, middle, hstep, hrest⟩ := exec_bind_eq_ok.mp h
      obtain ⟨rfl, admits, rfl, collects, dots⟩ := accepts_of_step below hstep
      obtain ⟨rfl, rest⟩ := ih hrest
      refine ⟨rfl, ?_, ?_, ?_, ?_, ?_, ?_⟩
      · rw [List.forall_mem_cons]
        exact ⟨admits.named, rest.named⟩
      · rw [List.map_cons, List.nodup_cons]
        refine ⟨?_, rest.distinct⟩
        intro hmem
        obtain ⟨e', he', same⟩ := List.mem_map.mp hmem
        apply rest.unused e' he'
        rw [same]
        apply List.mem_cons_self
      · rw [List.forall_mem_cons]
        refine ⟨admits.unused, ?_⟩
        intro e' he' hmem
        apply rest.unused e' he' (List.mem_cons_of_mem _ hmem)
      · rw [List.forall_mem_cons]
        exact ⟨admits.spans, rest.spans⟩
      · rw [List.forall_mem_cons]
        exact ⟨dots, rest.below⟩
      · apply (collects.trans rest.collects).congr
        simp

end Loop

/-- A check of a directory that succeeds accepts the directory and all below it. -/
theorem accepts_of_checkDirectory {depth : Nat} {owned owned' : Owned} {path : String}
    {first parent : UInt16}
    (h : (checkDirectory depth owned path first parent).exec image = (.ok owned', after)) :
  after = image ∧ Accepts image owned owned' first parent
  := by
  induction depth generalizing owned owned' path first parent after with
  | zero => simp [checkDirectory, exec_fail] at h
  | succ depth ih =>
      obtain ⟨dots, names, hloop⟩ := exec_checkDirectory_succ_eq_ok.mp h
      obtain ⟨rfl, all⟩ := acceptsAll_of_loop ih hloop
      refine ⟨rfl, dots, ?_, ?_⟩
      · intro a reached
        rcases Relation.ReflTransGen.cases_head reached with rfl | ⟨b, ⟨e, he, hdir, rfl⟩, rest⟩
        · refine ⟨?_, all.distinct, all.spans, ?_⟩
          · intro e he
            have := mt e.record.isDot_iff.mpr (by simp [all.named e he])
            rwa [not_or] at this
          · intro e he hdir
            apply (all.below e he hdir).1
        · apply (all.below e he hdir).2 a rest
      · apply all.collects.congr
        intro x
        rw [Image.hasEntry_iff]
        constructor
        · rintro ⟨e, he, rfl | ⟨hdir, hx⟩⟩
          · exact .inl he
          · exact .inr ⟨e, he, hdir, hx⟩
        · rintro (hx | ⟨e, he, hdir, hx⟩)
          · exact ⟨x, hx, .inl rfl⟩
          · exact ⟨e, he, .inr ⟨hdir, hx⟩⟩

/-- What has an owner at the end of a check is allocated. -/
theorem Accepts.subset_allocated {owned : Owned} {first parent : UInt16}
    (accepts : Accepts image (image.blocksOf first.toNat ++ List.range reservedSpan) owned
      first parent)
    (reserved : ∀ b < reservedSpan, image.table[b]? = some .last) :
  owned ⊆ image.table.allocated
  := by
  intro b hb
  rw [Table.mem_allocated]
  rcases accepts.collects.mem_iff.mp hb with hb | ⟨e, ⟨a, reached, he⟩, hb⟩
  · rcases List.mem_append.mp hb with hb | hb
    · apply (Image.isChain_blocksOf (List.ne_nil_of_mem hb)).exists_entry hb
    · exact ⟨_, reserved b (List.mem_range.mp hb), by simp⟩
  · apply ((accepts.orderly a reached).spans e he).isChain.exists_entry hb

/-- An image on which a check succeeds is consistent. -/
theorem consistent_of_run {root : UInt16} {usage : Usage}
    (h : (run root).exec image = (.ok usage, after)) :
  image.Consistent root
  := by
  obtain ⟨mirrored, reserved, spans, apart, owned, hdirectory, count, rfl⟩ := exec_run_eq_ok.mp h
  obtain ⟨rfl, accepts⟩ := accepts_of_checkDirectory hdirectory
  have ⟨dots, orderly, collects⟩ := accepts
  have before : (after.blocksOf root.toNat ++ List.range reservedSpan).Nodup :=
    (after.nodup_blocksOf _).append List.nodup_range apart
  have outside : ∀ e, after.HasEntry root e → ∀ b ∈ blocksOf after e,
      b ∉ after.blocksOf root.toNat ∧ reservedSpan ≤ b := by
    intro e he b hb
    have := collects.disjoint before he hb
    simpa using this
  have owned_eq : owned.Perm after.table.allocated := by
    apply List.Subperm.perm_of_length_le
    · apply (collects.nodup before).subperm (accepts.subset_allocated reserved)
    · rw [Table.length_allocated, count]
  constructor
  · apply mirrored
  · apply reserved
  · apply spans
  · apply dots
  · apply orderly
  · intro b hb
    simpa using apart hb
  · intro e he b hb
    apply (outside e he b hb).2
  · intro e he b hb hb'
    apply (outside e he b hb').1 hb
  · intro e e' he he' hne
    apply collects.pairwise before he he'
    rintro rfl
    apply hne rfl
  · intro b entry hentry hfree
    have := owned_eq.mem_iff.mpr (Table.mem_allocated.mpr ⟨entry, hentry, hfree⟩)
    rcases collects.mem_iff.mp this with hb | ⟨e, he, hb⟩
    · rcases List.mem_append.mp hb with hb | hb
      · exact .inr (.inl hb)
      · exact .inl (List.mem_range.mp hb)
    · exact .inr (.inr ⟨e, he, hb⟩)

end FatVolume.Check
