import FatVolume.Proofs.Consistency

/-!
# The namespace of an image

`Image.find?` follows names from the root directory down, each to the entry of that name.  The
names that lead to an entry are its path.  Where names are unique in every directory, the paths
that can be followed are those of the entries below the root.
-/

namespace FatVolume.Image

variable {image : Image} {root : UInt16}

/-! ### Directories -/

/-- The entry of a name in the directory that starts at a block. -/
def child? (image : Image) (first : Nat) (name : String) : Option Entry :=
  (image.listed first).find? (·.record.fullName == name)

/-- The entry of a name in a directory, none in a file. -/
def descend? (image : Image) (e : Entry) (name : String) : Option Entry :=
  if e.record.isDirectory then image.child? e.record.first.toNat name else none

theorem mem_listed_of_child? {first : Nat} {name : String} {e : Entry}
    (h : image.child? first name = some e) :
  e ∈ image.listed first
  := List.mem_of_find?_eq_some h

theorem fullName_of_child? {first : Nat} {name : String} {e : Entry}
    (h : image.child? first name = some e) :
  e.record.fullName = name
  := by
  simpa using List.find?_some h

/-- An entry of a directory in which names are unique is found by its name. -/
theorem child?_of_mem {first : Nat} {e : Entry}
    (distinct : ((image.listed first).map (·.record.fullName)).Nodup)
    (he : e ∈ image.listed first) :
  image.child? first e.record.fullName = some e
  := by
  cases hfound : image.child? first e.record.fullName with
  | none =>
      have := List.find?_eq_none.mp hfound e he
      simp at this
  | some found =>
      congr 1
      apply List.inj_on_of_nodup_map distinct (mem_listed_of_child? hfound) he
      apply fullName_of_child? hfound

theorem child?_eq_some_iff {first : Nat} {name : String} {e : Entry}
    (distinct : ((image.listed first).map (·.record.fullName)).Nodup) :
  image.child? first name = some e ↔ e ∈ image.listed first ∧ e.record.fullName = name
  := by
  constructor
  · intro h
    exact ⟨mem_listed_of_child? h, fullName_of_child? h⟩
  · rintro ⟨he, rfl⟩
    apply child?_of_mem distinct he

/-! ### Paths -/

/-- The entry that names lead to from the root directory, which is found as its own first
entry. -/
def find? (image : Image) (root : UInt16) (names : List String) : Option Entry :=
  names.foldlM image.descend? (image.entryAt ⟨root.toNat, 0⟩)

theorem find?_nil (image : Image) (root : UInt16) :
  image.find? root [] = some (image.entryAt ⟨root.toNat, 0⟩)
  := rfl

theorem find?_concat (image : Image) (root : UInt16) (names : List String) (name : String) :
  image.find? root (names ++ [name])
    = (image.find? root names).bind (image.descend? · name)
  := by
  simp [find?, List.foldlM_append]

/-- Nothing lies below a path that leads nowhere. -/
theorem find?_append_of_eq_none {names : List String} (h : image.find? root names = none)
    (more : List String) :
  image.find? root (names ++ more) = none
  := by
  rw [find?] at h
  rw [find?, List.foldlM_append, h]
  rfl

/-- A path that can be followed goes through a directory. -/
theorem find?_concat_eq_some {names : List String} {name : String} {e : Entry} :
  image.find? root (names ++ [name]) = some e
    ↔ ∃ d, image.find? root names = some d ∧ d.record.isDirectory = true
        ∧ image.child? d.record.first.toNat name = some e
  := by
  simp [find?_concat, descend?, Option.bind_eq_some_iff]

/-- What a path leads to stands at its place. -/
theorem entryAt_of_find? {names : List String} {e : Entry} (he : image.find? root names = some e) :
  image.entryAt e.location = e
  := by
  cases names using List.reverseRecOn with
  | nil =>
      rw [find?_nil] at he
      obtain rfl := Option.some.inj he
      rfl
  | append_singleton names name =>
      obtain ⟨d, -, -, hchild⟩ := find?_concat_eq_some.mp he
      exact entryAt_of_mem_slots (mem_slots_of_mem_listed (mem_listed_of_child? hchild))

/-- An entry with a name stands in a slot of its directory. -/
theorem place_of_find? {names : List String} {name : String} {e : Entry}
    (he : image.find? root (names ++ [name]) = some e) :
  ∃ d, image.find? root names = some d
    ∧ e.location.block ∈ image.blocksOf d.record.first.toNat ∧ e.location.slot < slotsPerBlock
  := by
  obtain ⟨d, hd, -, hchild⟩ := find?_concat_eq_some.mp he
  obtain ⟨hblock, hslot, -⟩ := mem_slots.mp (mem_slots_of_mem_listed (mem_listed_of_child? hchild))
  exact ⟨d, hd, hblock, hslot⟩

/-- The first entry of a directory is the one for itself. -/
theorem HasDots.entryAt {first parent : UInt16} (h : image.HasDots first parent) :
  (image.entryAt ⟨first.toNat, 0⟩).StandsFor Name.dot first
  := (hasDots_iff.mp h).2.1

/-! ### What lies below -/

/-- Where names are unique, paths lead to all directories that are reached. -/
theorem exists_find?_of_reaches
    (distinct : ∀ {names d}, image.find? root names = some d → d.record.isDirectory = true →
      ((image.listed d.record.first.toNat).map (·.record.fullName)).Nodup)
    {names : List String} {d : Entry} (hd : image.find? root names = some d)
    (hdir : d.record.isDirectory = true) {a : UInt16}
    (reached : image.Reaches d.record.first a) :
  ∃ more d', image.find? root (names ++ more) = some d' ∧ d'.record.isDirectory = true
    ∧ d'.record.first = a
  := by
  induction reached with
  | refl => exact ⟨[], d, by simpa using hd, hdir, rfl⟩
  | tail _ step ih =>
      obtain ⟨more, d', hd', hdir', rfl⟩ := ih
      obtain ⟨e, he, hedir, rfl⟩ := step
      refine ⟨more ++ [e.record.fullName], e, ?_, hedir, rfl⟩
      rw [← List.append_assoc]
      exact find?_concat_eq_some.mpr ⟨d', hd', hdir', child?_of_mem (distinct hd' hdir') he⟩

section Root

variable (dots : image.HasDots root root)
include dots

theorem standsFor_of_find?_nil {d : Entry} (hd : image.find? root [] = some d) :
  d.StandsFor Name.dot root
  := by
  rw [find?_nil] at hd
  obtain rfl := Option.some.inj hd
  apply dots.entryAt

/-- The directories that paths lead to are reached from the root. -/
theorem reaches_of_find? {names : List String} {d : Entry} (hd : image.find? root names = some d)
    (hdir : d.record.isDirectory = true) :
  image.Reaches root d.record.first
  := by
  induction names using List.reverseRecOn generalizing d with
  | nil =>
      rw [(standsFor_of_find?_nil dots hd).2.2.2]
      apply Relation.ReflTransGen.refl
  | append_singleton names name ih =>
      obtain ⟨parent, hparent, hpdir, hchild⟩ := find?_concat_eq_some.mp hd
      apply Relation.ReflTransGen.tail (ih hparent hpdir)
      exact ⟨d, mem_listed_of_child? hchild, hdir, rfl⟩

theorem hasEntry_of_find? {names : List String} {name : String} {e : Entry}
    (he : image.find? root (names ++ [name]) = some e) :
  image.HasEntry root e
  := by
  obtain ⟨d, hd, hdir, hchild⟩ := find?_concat_eq_some.mp he
  exact ⟨_, reaches_of_find? dots hd hdir, mem_listed_of_child? hchild⟩

variable (distinct : ∀ {names d}, image.find? root names = some d →
  d.record.isDirectory = true →
    ((image.listed d.record.first.toNat).map (·.record.fullName)).Nodup)
include distinct

/-- Where names are unique, paths lead to all entries below the root. -/
theorem exists_find?_of_hasEntry {e : Entry} (he : image.HasEntry root e) :
  ∃ names name, image.find? root (names ++ [name]) = some e
  := by
  have dot := dots.entryAt
  obtain ⟨a, reached, he⟩ := he
  rw [← dot.2.2.2] at reached
  obtain ⟨names, d, hd, hdir, rfl⟩ :=
    exists_find?_of_reaches distinct (find?_nil image root) dot.2.1 reached
  refine ⟨names, e.record.fullName, ?_⟩
  exact find?_concat_eq_some.mpr ⟨d, hd, hdir, child?_of_mem (distinct hd hdir) he⟩

end Root

/-! ### Chains of paths -/

/-- The chain that a path leads to. -/
def owner (image : Image) (root : UInt16) (names : List String) : Option (List Nat) :=
  (image.find? root names).map fun e => image.blocksOf e.record.first.toNat

theorem owner_eq_some {names : List String} {blocks : List Nat} :
  image.owner root names = some blocks
    ↔ ∃ e, image.find? root names = some e ∧ image.blocksOf e.record.first.toNat = blocks
  := Option.map_eq_some_iff

theorem owner_of_find? {names : List String} {e : Entry} (h : image.find? root names = some e) :
  image.owner root names = some (image.blocksOf e.record.first.toNat)
  := by
  rw [owner, h]
  rfl

end FatVolume.Image
