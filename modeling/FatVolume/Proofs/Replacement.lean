import FatVolume.Proofs.SoundImage

/-!
# Replacing what a path leads to

An operation that creates, removes or changes an entry replaces what one path leads to.
`Image.Replaced` collects what such an operation does to the image: it rewrites one slot of the
directory of the path, the chain of the entry and the table entries of the blocks that this
chain loses or gains.  All other paths lead to what they led to before, their chains are the
same, and the image stays sound.
-/

namespace FatVolume.Image

open Directory

/-- The blocks of an entry, none if there is no entry. -/
def blocksOf? (image : Image) (e : Option Entry) : List Nat :=
  (e.map fun e => image.blocksOf e.record.first.toNat).getD []

@[simp]
theorem blocksOf?_some (image : Image) (e : Entry) :
  image.blocksOf? (some e) = image.blocksOf e.record.first.toNat
  := rfl

@[simp]
theorem blocksOf?_none (image : Image) :
  image.blocksOf? none = []
  := rfl

/-- The slot `place` holds the given entry, or none. -/
def HoldsAt (image : Image) (place : Location) (e : Option Entry) : Prop :=
  match e with
  | some e => image.entryAt place = e ∧ e.record.occupied = true
  | none => (image.entryAt place).record.occupied = false

/-- What `names ++ [name]` leads to was replaced by `new`, in the slot `place` of the directory
`d` that `names` lead to. -/
structure Replaced (image after : Image) (root : UInt16) (names : List String) (name : String)
    (d : Entry) (place : Location) (new : Option Entry) : Prop where
  parent : image.find? root names = some d
  directory : d.record.isDirectory = true
  place_mem : place ∈ (places (image.blocksOf d.record.first.toNat)).drop 2
  holds_old : image.HoldsAt place (image.find? root (names ++ [name]))
  holds_new : after.HoldsAt place new
  /-- The new entry has the name of the path, and nothing stands below it or the old one. -/
  fullName : ∀ e, new = some e → e.record.fullName = name ∧ e.record.isDot = false
  childless_old : ∀ e, image.find? root (names ++ [name]) = some e →
    e.record.isDirectory = true → image.listed e.record.first.toNat = []
  childless_new : ∀ e, new = some e → e.record.isDirectory = true →
    after.listed e.record.first.toNat = []
  dots : ∀ e, new = some e → e.record.isDirectory = true →
    after.HasDots e.record.first d.record.first
  chained : ∀ e, new = some e →
    after.table.IsChain e.record.first.toNat (after.blocksOf e.record.first.toNat)
  mirrored : after.mirror = after.table
  superblock : after.block superblockAt = image.block superblockAt
  /-- The table changes at the blocks that are lost or gained only. -/
  untouched : ∀ b, b ∉ image.blocksOf? (image.find? root (names ++ [name])) →
    b ∉ after.blocksOf? new → after.table[b]? = image.table[b]?
  fresh : ∀ b ∈ after.blocksOf? new, b ∉ image.blocksOf? (image.find? root (names ++ [name])) →
    image.table[b]? = some .free
  released : ∀ b ∈ image.blocksOf? (image.find? root (names ++ [name])),
    b ∉ after.blocksOf? new → after.table[b]? = some .free
  /-- The content changes in the blocks of the entry and at `place` only. -/
  content : ∀ b, reservedSpan ≤ b → b ∉ image.blocksOf? (image.find? root (names ++ [name])) →
    b ∉ after.blocksOf? new → b ≠ place.block → after.block b = image.block b
  slots : ∀ other, other.block = place.block → other ≠ place →
    after.entryAt other = image.entryAt other

variable {image after : Image} {root : UInt16} {lengths lengths' : List String → Option Nat}
  {names : List String} {name : String} {d : Entry} {place : Location} {new : Option Entry}

/-- The first two places of a directory come before those of its entries. -/
theorem notMem_drop_places {first : Nat} {blocks : List Nat} (nodup : blocks.Nodup)
    (h : ∃ rest, blocks = first :: rest) :
  ⟨first, 0⟩ ∉ (places blocks).drop 2 ∧ ⟨first, 1⟩ ∉ (places blocks).drop 2
  := by
  obtain ⟨rest, rfl⟩ := h
  have distinct := nodup_places nodup
  obtain ⟨more, hmore⟩ := places_cons first rest
  rw [hmore] at distinct ⊢
  simp only [List.nodup_cons, List.mem_cons, not_or] at distinct
  exact ⟨distinct.1.2, distinct.2.1⟩

theorem ne_concat (names : List String) (name : String) :
  names ≠ names ++ [name]
  := by
  simp

/-- Nothing stands below a path that leads to no entry, to a file or to an empty directory. -/
theorem bind_descend?_eq_none {found : Option Entry}
    (childless : ∀ e, found = some e → e.record.isDirectory = true →
      image.listed e.record.first.toNat = []) (m : String) :
  (found.bind (image.descend? · m)) = none
  := by
  apply Option.bind_eq_none_iff.mpr
  intro e he
  rw [descend?]
  split_ifs with hdir
  · simp [child?, childless e he hdir]
  · rfl

namespace Replaced

/-- A file is replaced by a file of the same name.  What is left to show is about its slot, its
chain and the table. -/
theorem of_file {e e' : Entry} (sound : image.Sound root lengths)
    (hd : image.find? root names = some d) (he : image.find? root (names ++ [name]) = some e)
    (hfile : e.record.isDirectory = false) (kind : e'.record.isDirectory = e.record.isDirectory)
    (fullName : e'.record.fullName = e.record.fullName)
    (isDot : e'.record.isDot = e.record.isDot) (holds : after.HoldsAt e.location (some e'))
    (chained : after.table.IsChain e'.record.first.toNat
      (after.blocksOf e'.record.first.toNat))
    (mirrored : after.mirror = after.table)
    (superblock : after.block superblockAt = image.block superblockAt)
    (untouched : ∀ b, b ∉ image.blocksOf e.record.first.toNat →
      b ∉ after.blocksOf e'.record.first.toNat → after.table[b]? = image.table[b]?)
    (fresh : ∀ b ∈ after.blocksOf e'.record.first.toNat,
      b ∉ image.blocksOf e.record.first.toNat → image.table[b]? = some .free)
    (released : ∀ b ∈ image.blocksOf e.record.first.toNat,
      b ∉ after.blocksOf e'.record.first.toNat → after.table[b]? = some .free)
    (content : ∀ b, reservedSpan ≤ b → b ∉ image.blocksOf e.record.first.toNat →
      b ∉ after.blocksOf e'.record.first.toNat → b ≠ e.location.block →
      after.block b = image.block b)
    (slots : ∀ other, other.block = e.location.block → other ≠ e.location →
      after.entryAt other = image.entryAt other) :
  image.Replaced after root names name d e.location (some e')
  := by
  obtain ⟨d', hd', hdir, hchild⟩ := find?_concat_eq_some.mp he
  obtain rfl := Option.some.inj (hd.symm.trans hd')
  have hlisted := mem_listed_of_child? hchild
  obtain ⟨hplace, hentry, occupied⟩ := mem_listed_iff.mp hlisted
  have hfile' := kind.trans hfile
  constructor
  case parent => exact hd
  case directory => exact hdir
  case place_mem => exact hplace
  case holds_old =>
    rw [he]
    exact ⟨hentry, occupied⟩
  case holds_new => exact holds
  case fullName =>
    rintro _ ⟨⟩
    rw [fullName, isDot]
    exact ⟨fullName_of_child? hchild, sound.named hd hdir e hlisted⟩
  case childless_old =>
    intro _ hold hdir'
    obtain rfl := Option.some.inj (he.symm.trans hold)
    simp [hfile] at hdir'
  case childless_new =>
    rintro _ ⟨⟩ hdir'
    simp [hfile'] at hdir'
  case dots =>
    rintro _ ⟨⟩ hdir'
    simp [hfile'] at hdir'
  case chained =>
    rintro _ ⟨⟩
    exact chained
  case mirrored => exact mirrored
  case superblock => exact superblock
  case untouched => simpa only [he, blocksOf?_some] using untouched
  case fresh => simpa only [he, blocksOf?_some] using fresh
  case released => simpa only [he, blocksOf?_some] using released
  case content => simpa only [he, blocksOf?_some] using content
  case slots => exact slots

theorem block_mem (h : Replaced image after root names name d place new) :
  place.block ∈ image.blocksOf d.record.first.toNat
  := (mem_places.mp (List.mem_of_mem_drop h.place_mem)).1

variable (h : Replaced image after root names name d place new)
  (sound : image.Sound root lengths)
include h sound

/-- The blocks of what another path leads to are not concerned. -/
theorem notMem {path : List String} (hpath : path ≠ names ++ [name]) {e : Entry}
    (he : image.find? root path = some e) {b : Nat}
    (hb : b ∈ image.blocksOf e.record.first.toNat) :
  b ∉ image.blocksOf? (image.find? root (names ++ [name])) ∧ b ∉ after.blocksOf? new
  := by
  have apart : b ∉ image.blocksOf? (image.find? root (names ++ [name])) := by
    intro hb'
    cases hold : image.find? root (names ++ [name]) with
    | none => simp [hold] at hb'
    | some old =>
        rw [hold] at hb'
        apply hpath (sound.path_unique he hold hb hb')
  refine ⟨apart, ?_⟩
  intro hb'
  apply (sound.isChain he).ne_free hb (h.fresh b hb' apart)

/-- The chain of what another path leads to is the same. -/
theorem isChain {path : List String} (hpath : path ≠ names ++ [name]) {e : Entry}
    (he : image.find? root path = some e) :
  after.table.IsChain e.record.first.toNat (image.blocksOf e.record.first.toNat)
  := by
  apply (sound.isChain he).congr
  intro b hb
  have ⟨notOld, notNew⟩ := h.notMem sound hpath he hb
  apply h.untouched b notOld notNew

theorem blocksOf_eq {path : List String} (hpath : path ≠ names ++ [name]) {e : Entry}
    (he : image.find? root path = some e) :
  after.blocksOf e.record.first.toNat = image.blocksOf e.record.first.toNat
  := Image.blocksOf_eq (h.isChain sound hpath he)

/-- The content of what another path leads to is the same, unless that is the directory with
the slot. -/
theorem block_eq {path : List String} (hpath : path ≠ names ++ [name]) (hparent : path ≠ names)
    {e : Entry} (he : image.find? root path = some e) {b : Nat}
    (hb : b ∈ image.blocksOf e.record.first.toNat) :
  after.block b = image.block b
  := by
  have ⟨notOld, notNew⟩ := h.notMem sound hpath he hb
  apply h.content b (sound.above he b hb) notOld notNew
  rintro rfl
  apply hparent (sound.path_unique he h.parent hb h.block_mem)

/-- The other slots of what other paths lead to are the same. -/
theorem entryAt_eq {path : List String} (hpath : path ≠ names ++ [name]) {e : Entry}
    (he : image.find? root path = some e) {other : Location}
    (hb : other.block ∈ image.blocksOf e.record.first.toNat) (hne : other ≠ place) :
  after.entryAt other = image.entryAt other
  := by
  by_cases same : other.block = place.block
  · apply h.slots other same hne
  · have ⟨notOld, notNew⟩ := h.notMem sound hpath he hb
    apply entryAt_congr
    apply h.content _ (sound.above he _ hb) notOld notNew same

/-! ### Directories -/

/-- The other directories list the same entries. -/
theorem listed_eq {path : List String} (hpath : path ≠ names ++ [name]) (hparent : path ≠ names)
    {e : Entry} (he : image.find? root path = some e) :
  after.listed e.record.first.toNat = image.listed e.record.first.toNat
  := by
  apply listed_congr
  apply slots_congr_block (h.blocksOf_eq sound hpath he)
  intro b hb
  apply h.block_eq sound hpath hparent he hb

/-- The directory with the slot lists the entries that stand in other slots, and the new one. -/
theorem mem_listed_iff {e : Entry} :
  e ∈ after.listed d.record.first.toNat
    ↔ e ∈ image.listed d.record.first.toNat ∧ e.location ≠ place ∨ new = some e
  := by
  have hne := ne_concat names name
  rw [Image.mem_listed_iff, Image.mem_listed_iff, h.blocksOf_eq sound hne h.parent]
  by_cases at_place : e.location = place
  · have holds := h.holds_new
    constructor
    · rintro ⟨-, he, occupied⟩
      right
      rw [at_place] at he
      cases new with
      | none => simp [HoldsAt, he, occupied] at holds
      | some e' => rw [← he, ← holds.1]
    · rintro (⟨-, absurd⟩ | rfl)
      · exact (absurd at_place).elim
      · rw [at_place]
        exact ⟨h.place_mem, holds.1, holds.2⟩
  · constructor
    · rintro ⟨hplace, he, occupied⟩
      left
      refine ⟨⟨hplace, ?_, occupied⟩, at_place⟩
      rw [← h.entryAt_eq sound hne h.parent _ at_place, he]
      exact (mem_places.mp (List.mem_of_mem_drop hplace)).1
    · rintro (⟨⟨hplace, he, occupied⟩, -⟩ | rfl)
      · refine ⟨hplace, ?_, occupied⟩
        rw [h.entryAt_eq sound hne h.parent _ at_place, he]
        exact (mem_places.mp (List.mem_of_mem_drop hplace)).1
      · exact (at_place (congrArg Entry.location h.holds_new.1).symm).elim

/-- No entry in another slot of the directory has the name of the path. -/
theorem fullName_ne {e : Entry} (he : e ∈ image.listed d.record.first.toNat)
    (hne : e.location ≠ place) :
  e.record.fullName ≠ name
  := by
  rintro rfl
  have hfind := sound.find?_of_mem h.parent h.directory he
  have holds := h.holds_old
  rw [hfind] at holds
  apply hne (congrArg Entry.location holds.1).symm

/-- The slots of directories for themselves and their parents are other slots. -/
theorem dot_ne_place {path : List String} {e : Entry} (he : image.find? root path = some e) :
  ⟨e.record.first.toNat, 0⟩ ≠ place ∧ ⟨e.record.first.toNat, 1⟩ ≠ place
  := by
  have hchain := sound.isChain he
  have same_path (slot : Nat) (at_place : ⟨e.record.first.toNat, slot⟩ = place) : e = d := by
    have hb := h.block_mem
    rw [← at_place] at hb
    obtain rfl := sound.path_unique he h.parent hchain.first_mem hb
    apply Option.some.inj (he.symm.trans h.parent)
  have ⟨self, up⟩ := notMem_drop_places hchain.nodup hchain.eq_cons
  constructor
  · intro at_place
    obtain rfl := same_path 0 at_place
    apply self
    rw [at_place]
    apply h.place_mem
  · intro at_place
    obtain rfl := same_path 1 at_place
    apply up
    rw [at_place]
    apply h.place_mem

/-- The entries of directories for themselves and their parents are the same. -/
theorem dotEntries_eq {path : List String} (hpath : path ≠ names ++ [name]) {e : Entry}
    (he : image.find? root path = some e) :
  after.entryAt ⟨e.record.first.toNat, 0⟩ = image.entryAt ⟨e.record.first.toNat, 0⟩
    ∧ after.entryAt ⟨e.record.first.toNat, 1⟩ = image.entryAt ⟨e.record.first.toNat, 1⟩
  := by
  have ⟨self, up⟩ := h.dot_ne_place sound he
  have first_mem := (sound.isChain he).first_mem
  constructor
  · apply h.entryAt_eq sound hpath he first_mem self
  · apply h.entryAt_eq sound hpath he first_mem up

theorem hasDots {path : List String} (hpath : path ≠ names ++ [name]) {e : Entry}
    (he : image.find? root path = some e) {parent : UInt16}
    (hdots : image.HasDots e.record.first parent) :
  after.HasDots e.record.first parent
  := by
  have ⟨self, up⟩ := h.dotEntries_eq sound hpath he
  obtain ⟨-, hself, hup⟩ := hasDots_iff.mp hdots
  apply hasDots_iff.mpr
  rw [self, up, h.blocksOf_eq sound hpath he]
  exact ⟨h.isChain sound hpath he, hself, hup⟩

/-- Names stay unique in the directory with the slot. -/
theorem distinct :
  ((after.listed d.record.first.toNat).map (·.record.fullName)).Nodup
  := by
  have before := (List.nodup_map_iff_inj_on (image.nodup_listed _)).mp
    (sound.distinct h.parent h.directory)
  apply (List.nodup_map_iff_inj_on (after.nodup_listed _)).mpr
  intro e he e' he' same
  rcases (h.mem_listed_iff sound).mp he with ⟨he, hne⟩ | he
  · rcases (h.mem_listed_iff sound).mp he' with ⟨he', -⟩ | he'
    · apply before e he e' he' same
    · exact (h.fullName_ne sound he hne (same.trans (h.fullName e' he').1)).elim
  · rcases (h.mem_listed_iff sound).mp he' with ⟨he', hne'⟩ | he'
    · exact (h.fullName_ne sound he' hne' (same.symm.trans (h.fullName e he).1)).elim
    · rw [he] at he'
      apply Option.some.inj he'

/-- In the directory with the slot one name was given another meaning. -/
theorem child?_eq (m : String) :
  after.child? d.record.first.toNat m
    = if m = name then new else image.child? d.record.first.toNat m
  := by
  apply Option.ext
  intro e
  rw [child?_eq_some_iff (h.distinct sound), h.mem_listed_iff sound]
  split_ifs with hm
  · subst hm
    constructor
    · rintro ⟨⟨he, hne⟩ | he, same⟩
      · exact (h.fullName_ne sound he hne same).elim
      · exact he
    · intro he
      exact ⟨.inr he, (h.fullName e he).1⟩
  · rw [child?_eq_some_iff (sound.distinct h.parent h.directory)]
    constructor
    · rintro ⟨⟨he, -⟩ | he, rfl⟩
      · exact ⟨he, rfl⟩
      · exact (hm (h.fullName e he).1).elim
    · rintro ⟨he, rfl⟩
      refine ⟨.inl ⟨he, ?_⟩, rfl⟩
      intro at_place
      have holds := h.holds_old
      have hfind := (Image.mem_listed_iff.mp he).2
      rw [at_place] at hfind
      cases hold : image.find? root (names ++ [name]) with
      | none => simp [hold, HoldsAt, hfind] at holds
      | some old =>
          rw [hold] at holds
          obtain ⟨d', hd', -, hchild⟩ := find?_concat_eq_some.mp hold
          have : e = old := by rw [← hfind.1, ← holds.1]
          apply hm
          rw [this, fullName_of_child? hchild]

/-! ### Paths -/

/-- One path was given another meaning. -/
theorem find?_eq :
  after.find? root = Function.update (image.find? root) (names ++ [name]) new
  := by
  funext path
  induction path using List.reverseRecOn with
  | nil =>
      rw [Function.update_of_ne (by simp), find?_nil, find?_nil]
      have hroot := find?_nil image root
      have hdots := sound.standsFor_root hroot
      have := (h.dotEntries_eq sound (by simp) hroot).1
      rw [hdots.2.2.2] at this
      rw [this]
  | append_singleton path m ih =>
      rw [find?_concat, ih]
      by_cases below : path = names ++ [name]
      · -- Nothing stands below the path, before or afterwards.
        subst below
        rw [Function.update_self, Function.update_of_ne (by simp), find?_concat,
          bind_descend?_eq_none h.childless_old m, bind_descend?_eq_none h.childless_new m]
      rw [Function.update_of_ne below]
      by_cases parent : path = names
      · subst parent
        rw [h.parent, Option.bind_some, descend?, if_pos h.directory, h.child?_eq sound]
        split_ifs with hm
        · rw [hm, Function.update_self]
        · rw [Function.update_of_ne (by simpa using hm), find?_concat, h.parent, Option.bind_some,
            descend?, if_pos h.directory]
      · rw [Function.update_of_ne (by simp [parent]), find?_concat]
        cases hfound : image.find? root path with
        | none => rfl
        | some e =>
            rw [Option.bind_some, Option.bind_some, descend?, descend?, child?, child?,
              h.listed_eq sound below parent hfound]

theorem find?_of_ne {path : List String} (hpath : path ≠ names ++ [name]) :
  after.find? root path = image.find? root path
  := by
  rw [h.find?_eq sound, Function.update_of_ne hpath]

theorem find?_self :
  after.find? root (names ++ [name]) = new
  := by
  rw [h.find?_eq sound, Function.update_self]

/-- The chains of paths change with what the paths lead to. -/
theorem owner_eq :
  after.owner root
    = Function.update (image.owner root) (names ++ [name])
        (new.map fun e => after.blocksOf e.record.first.toNat)
  := by
  funext path
  by_cases hpath : path = names ++ [name]
  · subst hpath
    rw [Function.update_self, owner, h.find?_self sound]
  · rw [Function.update_of_ne hpath, owner, owner, h.find?_of_ne sound hpath]
    cases hfound : image.find? root path with
    | none => rfl
    | some e => simp [h.blocksOf_eq sound hpath hfound]

/-- A directory that a path leads to afterwards has no entries, is the one with the slot, or lists
what it listed before. -/
theorem listed_cases {path : List String} {x : Entry} (hx : after.find? root path = some x)
    (hdir : x.record.isDirectory = true) :
  after.listed x.record.first.toNat = [] ∨ x = d
    ∨ image.find? root path = some x
      ∧ after.listed x.record.first.toNat = image.listed x.record.first.toNat
  := by
  by_cases hpath : path = names ++ [name]
  · subst hpath
    rw [h.find?_self sound] at hx
    exact .inl (h.childless_new x hx hdir)
  · rw [h.find?_of_ne sound hpath] at hx
    by_cases hparent : path = names
    · subst hparent
      exact .inr (.inl (Option.some.inj (hx.symm.trans h.parent)))
    · exact .inr (.inr ⟨hx, h.listed_eq sound hpath hparent hx⟩)

/-- The image stays sound, if the length that is given for the path fits its new chain and those
given for other paths are the same. -/
theorem sound_after
    (length : ∀ e, new = some e → (after.blocksOf e.record.first.toNat).length
      = blocksFor ((lengths' (names ++ [name])).getD e.record.length.toNat))
    (others : ∀ path e, path ≠ names ++ [name] → image.find? root path = some e →
      (lengths' path).getD e.record.length.toNat = (lengths path).getD e.record.length.toNat) :
  after.Sound root lengths'
  := by
  have hroot := find?_nil image root
  have dot := sound.standsFor_root hroot
  constructor
  case mirrored => exact h.mirrored
  case partitioned =>
    rw [h.owner_eq sound]
    apply sound.partitioned.update rfl
    · exact h.untouched
    · exact h.fresh
    · exact h.released
    · intro blocks hblocks
      obtain ⟨e, he, rfl⟩ := Option.map_eq_some_iff.mp hblocks
      exact ⟨_, h.chained e he⟩
  case root_span =>
    have := h.blocksOf_eq sound (by simp) hroot
    rw [dot.2.2.2] at this
    rw [this, sound.root_span]
  case root_dots =>
    have := h.hasDots sound (by simp) hroot (dot.2.2.2.symm ▸ sound.root_dots)
    rwa [dot.2.2.2] at this
  case named =>
    intro path x hx hdir e he
    rcases h.listed_cases sound hx hdir with empty | rfl | ⟨hx, same⟩
    · simp [empty] at he
    · rcases (h.mem_listed_iff sound).mp he with ⟨he, -⟩ | he
      · apply sound.named h.parent hdir e he
      · apply (h.fullName e he).2
    · rw [same] at he
      apply sound.named hx hdir e he
  case distinct =>
    intro path x hx hdir
    rcases h.listed_cases sound hx hdir with empty | rfl | ⟨hx, same⟩
    · simp [empty]
    · apply h.distinct sound
    · rw [same]
      apply sound.distinct hx hdir
  case spans =>
    intro path m e he
    by_cases hpath : path ++ [m] = names ++ [name]
    · rw [hpath, h.find?_self sound] at he
      rw [hpath]
      apply length e he
    · rw [h.find?_of_ne sound hpath] at he
      rw [h.blocksOf_eq sound hpath he, others _ e hpath he, sound.spans he]
  case dots =>
    intro path m x e hx he hdir
    by_cases hpath : path ++ [m] = names ++ [name]
    · obtain ⟨rfl, rfl⟩ : path = names ∧ m = name := by simpa using hpath
      rw [h.find?_of_ne sound (ne_concat path m), h.parent] at hx
      obtain rfl := Option.some.inj hx
      rw [h.find?_self sound] at he
      apply h.dots e he hdir
    · rw [h.find?_of_ne sound hpath] at he
      have below : path ≠ names ++ [name] := by
        rintro rfl
        obtain ⟨old, hold, hdir', hchild⟩ := find?_concat_eq_some.mp he
        simp [child?, h.childless_old old hold hdir'] at hchild
      rw [h.find?_of_ne sound below] at hx
      apply h.hasDots sound hpath he (sound.dots hx he hdir)

end Replaced

end FatVolume.Image
