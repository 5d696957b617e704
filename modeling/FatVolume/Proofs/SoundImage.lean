import FatVolume.Proofs.Namespace

/-!
# Sound images

`Image.Sound` restates consistency along paths, which is how the operations of a session reach
what they change: the chains of different paths are disjoint.  It allows that the record of an
entry on disk is out of date, with the true length given apart.
-/

namespace FatVolume.Image

variable {image : Image} {root : UInt16} {lengths : List String → Option Nat}

/-- The image is consistent when the lengths that are given replace those of the records. -/
structure Sound (image : Image) (root : UInt16) (lengths : List String → Option Nat) : Prop where
  mirrored : image.mirror = image.table
  /-- Each path that can be followed owns its chain. -/
  partitioned : image.table.Partitioned (image.owner root)
  root_span : (image.blocksOf root.toNat).length = rootSpan
  root_dots : image.HasDots root root
  named : ∀ {names d}, image.find? root names = some d → d.record.isDirectory = true →
    ∀ e ∈ image.listed d.record.first.toNat, e.record.isDot = false
  distinct : ∀ {names d}, image.find? root names = some d → d.record.isDirectory = true →
    ((image.listed d.record.first.toNat).map (·.record.fullName)).Nodup
  spans : ∀ {names name e}, image.find? root (names ++ [name]) = some e →
    (image.blocksOf e.record.first.toNat).length
      = blocksFor ((lengths (names ++ [name])).getD e.record.length.toNat)
  dots : ∀ {names name d e}, image.find? root names = some d →
    image.find? root (names ++ [name]) = some e → e.record.isDirectory = true →
    image.HasDots e.record.first d.record.first

/-! ### Paths of a consistent image -/

namespace Consistent

theorem standsFor_root (h : image.Consistent root) {d : Entry}
    (hd : image.find? root [] = some d) :
  d.StandsFor Name.dot root
  := standsFor_of_find?_nil h.root_dots hd

theorem reaches (h : image.Consistent root) {names : List String} {d : Entry}
    (hd : image.find? root names = some d) (hdir : d.record.isDirectory = true) :
  image.Reaches root d.record.first
  := reaches_of_find? h.root_dots hd hdir

theorem hasEntry (h : image.Consistent root) {names : List String} {name : String} {e : Entry}
    (he : image.find? root (names ++ [name]) = some e) :
  image.HasEntry root e
  := hasEntry_of_find? h.root_dots he

/-- Each entry below the root has a path. -/
theorem exists_find? (h : image.Consistent root) {e : Entry} (he : image.HasEntry root e) :
  ∃ names name, image.find? root (names ++ [name]) = some e
  := exists_find?_of_hasEntry h.root_dots
    (fun hd hdir => (h.orderly _ (h.reaches hd hdir)).distinct) he

theorem isChain (h : image.Consistent root) {names : List String} {e : Entry}
    (he : image.find? root names = some e) :
  image.table.IsChain e.record.first.toNat (image.blocksOf e.record.first.toNat)
  := by
  induction names using List.reverseRecOn with
  | nil =>
      rw [(h.standsFor_root he).2.2.2]
      apply h.root_spans.isChain
  | append_singleton names name _ =>
      obtain ⟨a, reached, hlisted⟩ := h.hasEntry he
      apply ((h.orderly a reached).spans e hlisted).isChain

/-- Two paths to chains with a common block are the same: a block shows the entry that owns it,
and the entry the block in which it stands. -/
theorem path_unique (h : image.Consistent root) {names names' : List String} {e e' : Entry}
    (he : image.find? root names = some e) (he' : image.find? root names' = some e') {b : Nat}
    (hb : b ∈ image.blocksOf e.record.first.toNat)
    (hb' : b ∈ image.blocksOf e'.record.first.toNat) :
  names = names'
  := by
  induction names using List.reverseRecOn generalizing names' e e' b with
  | nil =>
      rw [(h.standsFor_root he).2.2.2] at hb
      cases names' using List.reverseRecOn with
      | nil => rfl
      | append_singleton names' name' => exact (h.root_disjoint e' (h.hasEntry he') hb hb').elim
  | append_singleton names name ih =>
      cases names' using List.reverseRecOn with
      | nil =>
          rw [(h.standsFor_root he').2.2.2] at hb'
          exact (h.root_disjoint e (h.hasEntry he) hb' hb).elim
      | append_singleton names' name' =>
          have same : e.location = e'.location := by
            by_contra hne
            apply h.disjoint e e' (h.hasEntry he) (h.hasEntry he') hne hb hb'
          obtain ⟨d, hd, -, hchild⟩ := find?_concat_eq_some.mp he
          obtain ⟨d', hd', -, hchild'⟩ := find?_concat_eq_some.mp he'
          have hmem := mem_listed_of_child? hchild
          have hmem' := mem_listed_of_child? hchild'
          obtain rfl : e = e' :=
            eq_of_location_eq (mem_slots_of_mem_listed hmem) (mem_slots_of_mem_listed hmem') same
          rw [ih hd hd' (block_mem_of_mem_listed hmem) (block_mem_of_mem_listed hmem'),
            ← fullName_of_child? hchild, ← fullName_of_child? hchild']

end Consistent

theorem Consistent.sound (h : image.Consistent root) :
  image.Sound root fun _ => none
  := by
  constructor
  · exact h.mirrored
  · constructor
    · exact h.reserved
    · intro names blocks hblocks
      obtain ⟨e, he, rfl⟩ := owner_eq_some.mp hblocks
      exact ⟨_, h.isChain he⟩
    · intro names blocks hblocks
      obtain ⟨e, he, rfl⟩ := owner_eq_some.mp hblocks
      cases names using List.reverseRecOn with
      | nil =>
          rw [(h.standsFor_root he).2.2.2]
          apply h.root_above
      | append_singleton names name => apply h.above e (h.hasEntry he)
    · intro names names' blocks blocks' hne hblocks hblocks' b hb hb'
      obtain ⟨e, he, rfl⟩ := owner_eq_some.mp hblocks
      obtain ⟨e', he', rfl⟩ := owner_eq_some.mp hblocks'
      apply hne (h.path_unique he he' hb hb')
    · intro b entry hentry hfree
      rcases h.covered b entry hentry hfree with hb | hb | ⟨e, he, hb⟩
      · exact .inl hb
      · right
        refine ⟨[], _, owner_of_find? (find?_nil image root), ?_⟩
        rwa [h.root_dots.entryAt.2.2.2]
      · right
        obtain ⟨names, name, hfind⟩ := h.exists_find? he
        exact ⟨_, _, owner_of_find? hfind, hb⟩
  · exact h.root_spans.length_blocksOf
  · exact h.root_dots
  · intro names d hd hdir e he
    apply Bool.eq_false_iff.mpr
    rw [Ne, e.record.isDot_iff, not_or]
    apply (h.orderly _ (h.reaches hd hdir)).named e he
  · intro names d hd hdir
    apply (h.orderly _ (h.reaches hd hdir)).distinct
  · intro names name e he
    obtain ⟨a, reached, hlisted⟩ := h.hasEntry he
    apply ((h.orderly a reached).spans e hlisted).length_blocksOf
  · intro names name d e hd he hdir
    obtain ⟨d', hd', hdir', hchild⟩ := find?_concat_eq_some.mp he
    obtain rfl : d = d' := by simpa [hd] using hd'
    apply (h.orderly _ (h.reaches hd hdir')).dots e (mem_listed_of_child? hchild) hdir

/-! ### Paths of a sound image -/

namespace Sound

theorem standsFor_root (h : image.Sound root lengths) {d : Entry}
    (hd : image.find? root [] = some d) :
  d.StandsFor Name.dot root
  := standsFor_of_find?_nil h.root_dots hd

/-- What a path leads to has a chain. -/
theorem isChain (h : image.Sound root lengths) {names : List String} {e : Entry}
    (he : image.find? root names = some e) :
  image.table.IsChain e.record.first.toNat (image.blocksOf e.record.first.toNat)
  := by
  obtain ⟨first, hchain⟩ := h.partitioned.chained (owner_of_find? he)
  apply isChain_blocksOf hchain.ne_nil

/-- The chains of different paths have no block in common. -/
theorem path_unique (h : image.Sound root lengths) {names names' : List String} {e e' : Entry}
    (he : image.find? root names = some e) (he' : image.find? root names' = some e') {b : Nat}
    (hb : b ∈ image.blocksOf e.record.first.toNat)
    (hb' : b ∈ image.blocksOf e'.record.first.toNat) :
  names = names'
  := by
  by_contra hne
  apply h.partitioned.disjoint hne (owner_of_find? he) (owner_of_find? he') hb hb'

/-- An entry of a directory that a path leads to is found by its name. -/
theorem find?_of_mem (h : image.Sound root lengths) {names : List String} {d e : Entry}
    (hd : image.find? root names = some d) (hdir : d.record.isDirectory = true)
    (he : e ∈ image.listed d.record.first.toNat) :
  image.find? root (names ++ [e.record.fullName]) = some e
  := find?_concat_eq_some.mpr ⟨d, hd, hdir, child?_of_mem (h.distinct hd hdir) he⟩

/-- No block of what a path leads to is one of the volume itself. -/
theorem above (h : image.Sound root lengths) {names : List String} {e : Entry}
    (he : image.find? root names = some e) :
  ∀ b ∈ image.blocksOf e.record.first.toNat, reservedSpan ≤ b
  := h.partitioned.above (owner_of_find? he)

/-- Soundness depends on the lengths of what paths lead to only. -/
theorem of_lengths {lengths' : List String → Option Nat} (h : image.Sound root lengths)
    (same : ∀ {names e}, image.find? root names = some e →
      (lengths' names).getD e.record.length.toNat = (lengths names).getD e.record.length.toNat) :
  image.Sound root lengths'
  := by
  refine { h with spans := ?_ }
  intro names name e he
  rw [same he, h.spans he]

end Sound

/-- A sound image whose records are up to date is consistent. -/
theorem Sound.consistent (h : image.Sound root fun _ => none) :
  image.Consistent root
  := by
  have dot := h.root_dots.entryAt
  have hroot := find?_nil image root
  constructor
  · exact h.mirrored
  · exact h.partitioned.reserved
  · apply spans_of_length (by decide) h.root_span
  · exact h.root_dots
  · intro a reached
    rw [← dot.2.2.2] at reached
    obtain ⟨names, d, hd, hdir, rfl⟩ := exists_find?_of_reaches h.distinct hroot dot.2.1 reached
    constructor
    · intro e he
      rw [← not_or, ← e.record.isDot_iff, h.named hd hdir e he]
      simp
    · exact h.distinct hd hdir
    · intro e he
      apply spans_of_length (blocksFor_pos _)
      apply h.spans (h.find?_of_mem hd hdir he)
    · intro e he hedir
      apply h.dots hd (h.find?_of_mem hd hdir he) hedir
  · have := h.above hroot
    rwa [dot.2.2.2] at this
  · intro e he
    obtain ⟨names, name, hfind⟩ := exists_find?_of_hasEntry h.root_dots h.distinct he
    apply h.above hfind
  · intro e he b hb hb'
    obtain ⟨names, name, hfind⟩ := exists_find?_of_hasEntry h.root_dots h.distinct he
    rw [← dot.2.2.2] at hb
    have := h.path_unique hroot hfind hb hb'
    simp at this
  · intro e e' he he' hne b hb hb'
    obtain ⟨names, name, hfind⟩ := exists_find?_of_hasEntry h.root_dots h.distinct he
    obtain ⟨names', name', hfind'⟩ := exists_find?_of_hasEntry h.root_dots h.distinct he'
    have := h.path_unique hfind hfind' hb hb'
    rw [this, hfind'] at hfind
    apply hne
    rw [Option.some.inj hfind]
  · intro b entry hentry hfree
    rcases h.partitioned.covered hentry hfree with hb | ⟨names, blocks, howner, hb⟩
    · exact .inl hb
    · right
      obtain ⟨e, he, rfl⟩ := owner_eq_some.mp howner
      cases names using List.reverseRecOn with
      | nil =>
          left
          rwa [(h.standsFor_root he).2.2.2] at hb
      | append_singleton names name => exact .inr ⟨e, hasEntry_of_find? h.root_dots he, hb⟩

end FatVolume.Image
