import FatVolume.Proofs.Slots
import FatVolume.Proofs.RecordNames

/-!
# Consistent images

The directories below a directory are those reached from it through entries.  An image is
consistent when both copies of its table agree, every directory reached from the root is
orderly, and the allocated blocks are divided between the volume itself, the root directory
and the entries of the directories reached: no block has two owners and none has no owner.
-/

namespace FatVolume

/-- The entry is the one that a directory has for itself or its parent: a directory of the given
name that starts at the given block. -/
def Entry.StandsFor (e : Entry) (name : String) (target : UInt16) : Prop :=
  e.record.occupied = true ∧ e.record.isDirectory = true ∧ e.record.baseName = name
    ∧ e.record.first = target

namespace Image

variable {image : Image}

/-- A directory has an entry for a directory that starts at block `b`. -/
def Contains (image : Image) (a b : UInt16) : Prop :=
  ∃ e ∈ image.listed a.toNat, e.record.isDirectory = true ∧ e.record.first = b

/-- A directory is the given one or lies below it. -/
def Reaches (image : Image) : UInt16 → UInt16 → Prop :=
  Relation.ReflTransGen image.Contains

/-- An entry of a directory or of one below it. -/
def HasEntry (image : Image) (top : UInt16) (e : Entry) : Prop :=
  ∃ a, image.Reaches top a ∧ e ∈ image.listed a.toNat

/-- The first two slots of a directory are for itself and for its parent. -/
def HasDots (image : Image) (first parent : UInt16) : Prop :=
  ∃ self up rest, image.slots first.toNat = self :: up :: rest
    ∧ self.StandsFor Name.dot first ∧ up.StandsFor Name.dotdot parent

/-- A block starts a chain of `count` blocks. -/
def Spans (image : Image) (first count : Nat) : Prop :=
  ∃ blocks, image.table.IsChain first blocks ∧ blocks.length = count

/-- What the entries of a directory satisfy one by one and together. -/
structure Orderly (image : Image) (a : UInt16) : Prop where
  named : ∀ e ∈ image.listed a.toNat,
    e.record.baseName ≠ Name.dot ∧ e.record.baseName ≠ Name.dotdot
  distinct : ((image.listed a.toNat).map (·.record.fullName)).Nodup
  spans : ∀ e ∈ image.listed a.toNat,
    image.Spans e.record.first.toNat (blocksFor e.record.length.toNat)
  dots : ∀ e ∈ image.listed a.toNat, e.record.isDirectory = true →
    image.HasDots e.record.first a

/-- The volume whose root directory starts at block `root` is consistent. -/
structure Consistent (image : Image) (root : UInt16) : Prop where
  mirrored : image.mirror = image.table
  reserved : ∀ b < reservedSpan, image.table[b]? = some .last
  root_spans : image.Spans root.toNat rootSpan
  root_dots : image.HasDots root root
  orderly : ∀ a, image.Reaches root a → image.Orderly a
  root_above : ∀ b ∈ image.blocksOf root.toNat, reservedSpan ≤ b
  above : ∀ e, image.HasEntry root e → ∀ b ∈ image.blocksOf e.record.first.toNat,
    reservedSpan ≤ b
  root_disjoint : ∀ e, image.HasEntry root e →
    (image.blocksOf root.toNat).Disjoint (image.blocksOf e.record.first.toNat)
  /-- Two entries at different places have no block in common. -/
  disjoint : ∀ e e', image.HasEntry root e → image.HasEntry root e' →
    e.location ≠ e'.location →
    (image.blocksOf e.record.first.toNat).Disjoint (image.blocksOf e'.record.first.toNat)
  covered : ∀ b entry, image.table[b]? = some entry → entry ≠ .free →
    b < reservedSpan ∨ b ∈ image.blocksOf root.toNat
      ∨ ∃ e, image.HasEntry root e ∧ b ∈ image.blocksOf e.record.first.toNat

/-! ### The tree -/

theorem Spans.isChain {first count : Nat} (h : image.Spans first count) :
  image.table.IsChain first (image.blocksOf first)
  := by
  obtain ⟨blocks, hchain, -⟩ := h
  rwa [blocksOf_eq hchain]

theorem Spans.length_blocksOf {first count : Nat} (h : image.Spans first count) :
  (image.blocksOf first).length = count
  := by
  obtain ⟨blocks, hchain, rfl⟩ := h
  rw [blocksOf_eq hchain]

theorem spans_of_length {first count : Nat} (hpos : 0 < count)
    (h : (image.blocksOf first).length = count) :
  image.Spans first count
  := by
  refine ⟨image.blocksOf first, isChain_blocksOf ?_, h⟩
  apply List.ne_nil_of_length_pos
  omega

theorem HasDots.isChain {first parent : UInt16} (h : image.HasDots first parent) :
  image.table.IsChain first.toNat (image.blocksOf first.toNat)
  := by
  obtain ⟨self, up, rest, hslots, -, -⟩ := h
  apply isChain_of_mem_slots
  rw [hslots]
  apply List.mem_cons_self

/-- The first two slots of a directory stand in its first block. -/
theorem hasDots_iff {first parent : UInt16} :
  image.HasDots first parent
    ↔ image.table.IsChain first.toNat (image.blocksOf first.toNat)
      ∧ (image.entryAt ⟨first.toNat, 0⟩).StandsFor Name.dot first
      ∧ (image.entryAt ⟨first.toNat, 1⟩).StandsFor Name.dotdot parent
  := by
  have head (h : image.table.IsChain first.toNat (image.blocksOf first.toNat)) :
      ∃ rest, image.slots first.toNat
        = image.entryAt ⟨first.toNat, 0⟩ :: image.entryAt ⟨first.toNat, 1⟩ :: rest := by
    obtain ⟨blocks, hblocks⟩ := h.eq_cons
    obtain ⟨more, hmore⟩ := Directory.places_cons first.toNat blocks
    rw [slots, hblocks, hmore]
    exact ⟨_, rfl⟩
  constructor
  · intro h
    obtain ⟨rest, hrest⟩ := head h.isChain
    obtain ⟨self, up, rest', hslots, hself, hup⟩ := id h
    rw [hrest] at hslots
    obtain ⟨rfl, rfl, -⟩ : _ ∧ _ ∧ _ := by simpa using hslots
    exact ⟨h.isChain, hself, hup⟩
  · rintro ⟨hchain, hself, hup⟩
    obtain ⟨rest, hrest⟩ := head hchain
    exact ⟨_, _, rest, hrest, hself, hup⟩

/-- An entry below a directory is one of its own or lies below one of its directories. -/
theorem hasEntry_iff {top : UInt16} {e : Entry} :
  image.HasEntry top e
    ↔ e ∈ image.listed top.toNat
      ∨ ∃ d ∈ image.listed top.toNat, d.record.isDirectory = true
          ∧ image.HasEntry d.record.first e
  := by
  constructor
  · rintro ⟨a, reached, he⟩
    rcases Relation.ReflTransGen.cases_head reached with rfl | ⟨b, ⟨d, hd, hdir, rfl⟩, rest⟩
    · left
      apply he
    · right
      exact ⟨d, hd, hdir, a, rest, he⟩
  · rintro (he | ⟨d, hd, hdir, a, reached, he⟩)
    · exact ⟨top, .refl, he⟩
    · exact ⟨a, .head ⟨d, hd, hdir, rfl⟩ reached, he⟩

end Image

end FatVolume
