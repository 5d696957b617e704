import FatVolume.Proofs.CheckSound
import FatVolume.Proofs.Formatting

/-!
# A check of a consistent image succeeds

While a check walks over a sound image, the blocks of what it has not reached yet have no owner,
because the chains of different paths are disjoint.  Each level of nesting has got a block of
its own an owner, so the check does not run out of levels.
-/

namespace FatVolume.Check

open DiskM Image

variable {image : Image} {root : UInt16}

/-- No block of what lies properly below a path has an owner. -/
def Unclaimed (image : Image) (root : UInt16) (names : List String) (owned : Owned) : Prop :=
  ∀ name more e, image.find? root (names ++ name :: more) = some e →
    (blocksOf image e).Disjoint owned

/-- The owned blocks are blocks of the disk, each counted once. -/
structure Counted (owned : Owned) : Prop where
  nodup : owned.Nodup
  inside : ∀ b ∈ owned, b < numBlocks

theorem Counted.length_le {owned : Owned} (h : Counted owned) :
  owned.length ≤ numBlocks
  := by
  have bound := (h.nodup.subperm fun b hb => List.mem_range.mpr (h.inside b hb)).length_le
  rwa [List.length_range] at bound

theorem Counted.of_collects {entries : Entry → Prop} {owned owned' : Owned}
    (h : Counted owned) (collects : Collects image entries owned owned') :
  Counted owned'
  := by
  refine ⟨collects.nodup h.nodup, ?_⟩
  intro b hb
  rcases collects.mem_iff.mp hb with hb | ⟨e, -, hb⟩
  · apply h.inside b hb
  · apply lt_of_mem_blocksOf hb

/-- A check with `depth` levels to go succeeds on each directory below which nothing is claimed,
if enough blocks are owned already. -/
def Succeeds (image : Image) (root : UInt16) (depth : Nat) : Prop :=
  ∀ {names d owned} path {parent}, image.find? root names = some d →
    d.record.isDirectory = true → image.HasDots d.record.first parent →
    Unclaimed image root names owned → Counted owned → numBlocks < depth + owned.length →
    ∃ owned', (checkDirectory depth owned path d.record.first parent).exec image
      = (.ok owned', image)

section Sound

variable (sound : image.Sound root fun _ => none)
include sound

/-- What a block found below an entry tells about the path to it. -/
theorem prefix_of_mem {names more : List String} {d e x : Entry} {name : String}
    (hd : image.find? root names = some d) (hdir : d.record.isDirectory = true)
    (he : e ∈ image.listed d.record.first.toNat)
    (hx : image.find? root (names ++ name :: more) = some x) {b : Nat} (hb : b ∈ blocksOf image x)
    {y : Entry} (hy : Within image e y) (hb' : b ∈ blocksOf image y) :
  name = e.record.fullName
  := by
  have hfind := sound.find?_of_mem hd hdir he
  suffices ∃ rest, image.find? root (names ++ e.record.fullName :: rest) = some y by
    obtain ⟨rest, hpath⟩ := this
    have := List.append_cancel_left (sound.path_unique hx hpath hb hb')
    apply (List.cons.inj this).1
  rcases hy with rfl | ⟨hedir, a, reached, hlisted⟩
  · exact ⟨[], hfind⟩
  · obtain ⟨rest, d', hd', hdir', rfl⟩ := exists_find?_of_reaches sound.distinct hfind hedir reached
    refine ⟨rest ++ [y.record.fullName], ?_⟩
    have := sound.find?_of_mem hd' hdir' hlisted
    simpa using this

/-- A step of the loop succeeds: it gives blocks to one entry and to what lies below it only. -/
theorem step_succeeds {depth : Nat} (below : Succeeds image root depth) {names : List String}
    {d e : Entry} (hd : image.find? root names = some d) (hdir : d.record.isDirectory = true)
    (path : String) {owned : Owned} {used : List String}
    (he : e ∈ image.listed d.record.first.toNat) (unused : e.record.fullName ∉ used)
    (unclaimed : ∀ more x, image.find? root (names ++ e.record.fullName :: more) = some x →
      (blocksOf image x).Disjoint owned)
    (counted : Counted owned) (enough : numBlocks ≤ depth + owned.length) :
  ∃ claimed, (step depth path d.record.first (owned, used) e.record).exec image
    = (.ok (claimed, e.record.fullName :: used), image)
  := by
  have hfind := sound.find?_of_mem hd hdir he
  have ischain := sound.isChain hfind
  have admits : Admits image owned used e.record := by
    refine ⟨sound.named hd hdir e he, unused, ?_, ?_⟩
    · exact ⟨_, ischain, sound.spans hfind⟩
    · apply unclaimed [] e hfind
  by_cases hedir : e.record.isDirectory = true
  · have single : Collects image (· = e) owned (blocksOf image e ++ owned) :=
      Collects.single admits.unowned
    have grown : owned.length < (blocksOf image e ++ owned).length := by
      rw [List.length_append]
      have := ischain.length_pos
      unfold blocksOf
      omega
    have unclaimed' : Unclaimed image root (names ++ [e.record.fullName])
        (blocksOf image e ++ owned) := by
      intro name more x hx
      rw [List.disjoint_append_right]
      constructor
      · intro b hb hb'
        have := sound.path_unique hx hfind hb hb'
        simp at this
      · apply unclaimed (name :: more) x
        simpa using hx
    obtain ⟨claimed, hbelow⟩ := below (childPath path e.record.fullName) hfind hedir
      (sound.dots hd hfind hedir) unclaimed' (counted.of_collects single) (by omega)
    refine ⟨claimed, exec_step_eq_ok.mpr ⟨admits, rfl, ?_⟩⟩
    rw [if_pos hedir]
    apply hbelow
  · refine ⟨blocksOf image e ++ owned, exec_step_eq_ok.mpr ⟨admits, rfl, ?_⟩⟩
    rw [if_neg hedir]
    exact ⟨rfl, rfl⟩

/-- The loop over entries of a directory succeeds. -/
theorem loop_succeeds {depth : Nat} (below : Succeeds image root depth) {names : List String}
    {d : Entry} (hd : image.find? root names = some d) (hdir : d.record.isDirectory = true)
    (path : String) {entries : List Entry} {owned : Owned} {used : List String}
    (listed : ∀ e ∈ entries, e ∈ image.listed d.record.first.toNat)
    (distinct : (entries.map (·.record.fullName)).Nodup)
    (unused : ∀ e ∈ entries, e.record.fullName ∉ used)
    (unclaimed : ∀ e ∈ entries, ∀ more x,
      image.find? root (names ++ e.record.fullName :: more) = some x →
        (blocksOf image x).Disjoint owned)
    (counted : Counted owned) (enough : numBlocks ≤ depth + owned.length) :
  ∃ owned' used', ((entries.map Entry.record).foldlM (step depth path d.record.first)
    (owned, used)).exec image = (.ok (owned', used'), image)
  := by
  induction entries generalizing owned used with
  | nil => exact ⟨owned, used, rfl⟩
  | cons e entries ih =>
      have he := listed e List.mem_cons_self
      obtain ⟨claimed, hstep⟩ := step_succeeds sound below hd hdir path he
        (unused e List.mem_cons_self) (unclaimed e List.mem_cons_self) counted enough
      obtain ⟨-, -, -, collects, -⟩ := accepts_of_step accepts_of_checkDirectory hstep
      rw [List.map_cons, List.nodup_cons] at distinct
      have unused' : ∀ e' ∈ entries, e'.record.fullName ∉ e.record.fullName :: used := by
        intro e' he' hmem
        rcases List.mem_cons.mp hmem with same | hmem
        · apply distinct.1
          exact List.mem_map.mpr ⟨e', he', same⟩
        · apply unused e' (List.mem_cons_of_mem _ he') hmem
      have unclaimed' : ∀ e' ∈ entries, ∀ more x,
          image.find? root (names ++ e'.record.fullName :: more) = some x →
            (blocksOf image x).Disjoint claimed := by
        intro e' he' more x hx b hb hb'
        rcases collects.mem_iff.mp hb' with hb' | ⟨y, hy, hb'⟩
        · apply unclaimed e' (List.mem_cons_of_mem _ he') more x hx hb hb'
        · apply distinct.1
          exact List.mem_map.mpr ⟨e', he', prefix_of_mem sound hd hdir he hx hb hy hb'⟩
      have enough' : numBlocks ≤ depth + claimed.length := by
        have := collects.length_le
        omega
      obtain ⟨owned', used', hrest⟩ := ih (fun e' he' => listed e' (List.mem_cons_of_mem _ he'))
        distinct.2 unused' unclaimed' (counted.of_collects collects) enough'
      refine ⟨owned', used', ?_⟩
      rw [List.map_cons, List.foldlM_cons, exec_bind_of_ok hstep]
      apply hrest

theorem succeeds (depth : Nat) :
  Succeeds image root depth
  := by
  induction depth with
  | zero =>
      intro names d owned path parent _ _ _ _ counted enough
      have := counted.length_le
      omega
  | succ depth ih =>
      intro names d owned path parent hd hdir dots unclaimed counted enough
      have listed := sound.distinct hd hdir
      obtain ⟨owned', used, hloop⟩ := loop_succeeds sound ih hd hdir path (fun _ he => he) listed
        (fun _ _ => List.not_mem_nil) (fun e _ more x hx => unclaimed e.record.fullName more x hx)
        counted (by omega)
      exact ⟨owned', exec_checkDirectory_succ_eq_ok.mpr ⟨dots, used, hloop⟩⟩

theorem disjoint_root :
  (image.blocksOf root.toNat).Disjoint (List.range reservedSpan)
  := by
  intro b hb hb'
  rw [← sound.root_dots.entryAt.2.2.2] at hb
  have := sound.above (find?_nil image root) b hb
  have := List.mem_range.mp hb'
  omega

/-- The blocks that are owned when the root directory is checked are on the disk. -/
theorem counted_root :
  Counted (image.blocksOf root.toNat ++ List.range reservedSpan)
  := by
  refine ⟨(image.nodup_blocksOf _).append List.nodup_range (disjoint_root sound), ?_⟩
  intro b hb
  rcases List.mem_append.mp hb with hb | hb
  · apply lt_of_mem_blocksOf hb
  · apply Nat.lt_trans (List.mem_range.mp hb) (by decide)

/-- Nothing below the root directory is owned when this is checked. -/
theorem unclaimed_root :
  Unclaimed image root [] (image.blocksOf root.toNat ++ List.range reservedSpan)
  := by
  intro name more e he b hb hb'
  rcases List.mem_append.mp hb' with hb' | hb'
  · rw [← sound.root_dots.entryAt.2.2.2] at hb'
    have := sound.path_unique (find?_nil image root) he hb' hb
    simp at this
  · have := sound.above he b hb
    have := List.mem_range.mp hb'
    omega

/-- When the root directory has been checked, the blocks that are owned are those that are
allocated. -/
theorem length_owned {owned : Owned} {depth : Nat} {path : String}
    (hdirectory : (checkDirectory depth (image.blocksOf root.toNat ++ List.range reservedSpan)
      path root root).exec image = (.ok owned, image)) :
  owned.length = image.table.countP (· ≠ .free)
  := by
  obtain ⟨-, accepts⟩ := accepts_of_checkDirectory hdirectory
  have consistent := sound.consistent
  rw [← Table.length_allocated]
  apply List.Perm.length_eq
  apply (List.perm_ext_iff_of_nodup (accepts.collects.nodup (counted_root sound).nodup)
    image.table.nodup_allocated).mpr
  intro b
  constructor
  · apply accepts.subset_allocated consistent.reserved
  · intro hb
    obtain ⟨entry, hentry, hfree⟩ := Table.mem_allocated.mp hb
    rw [accepts.collects.mem_iff, List.mem_append, List.mem_range, or_assoc]
    rcases consistent.covered b entry hentry hfree with hb | hb | hb
    · exact .inr (.inl hb)
    · exact .inl hb
    · exact .inr (.inr hb)

/-- A check of a sound image whose records are up to date succeeds. -/
theorem run_of_sound :
  (run root).exec image = (.ok
    { total := numBlocks
      used := image.table.countP (· ≠ .free)
      free := numBlocks - image.table.countP (· ≠ .free) }, image)
  := by
  have dot := sound.root_dots.entryAt
  have hroot := find?_nil image root
  obtain ⟨owned, hdirectory⟩ := succeeds sound (numBlocks + 1) Path.root hroot dot.2.1
    (dot.2.2.2.symm ▸ sound.root_dots) (unclaimed_root sound) (counted_root sound) (by omega)
  rw [dot.2.2.2] at hdirectory
  have count := length_owned sound hdirectory
  have consistent := sound.consistent
  rw [← count]
  exact exec_run_eq_ok.mpr ⟨sound.mirrored, consistent.reserved, consistent.root_spans,
    disjoint_root sound, owned, hdirectory, count.symm, rfl⟩

end Sound

/-- A check decides consistency, and when it succeeds it reports how many entries are not
free. -/
theorem run_iff_consistent (image : Image) (root : UInt16) :
  ((∃ usage after, (run root).exec image = (.ok usage, after)) ↔ image.Consistent root)
    ∧ ∀ usage after, (run root).exec image = (.ok usage, after) →
        after = image ∧ usage.total = 1024 ∧ usage.used = image.table.countP (· ≠ .free)
          ∧ usage.used + usage.free = usage.total
  := by
  constructor
  · constructor
    · rintro ⟨usage, after, h⟩
      apply consistent_of_run h
    · intro h
      exact ⟨_, _, run_of_sound h.sound⟩
  · intro usage after h
    rw [run_of_sound (consistent_of_run h).sound] at h
    obtain ⟨same, rfl⟩ := Prod.mk.inj h
    obtain rfl := Except.ok.inj same
    refine ⟨rfl, rfl, rfl, ?_⟩
    have := image.table.countP_add_countFree
    rw [length_table] at this
    dsimp only
    omega

/-- The record of a file that has an empty name and a dot for its extension. -/
def dotFile : Record where
  name := Vector.replicate 8 0
  extension := #v[46, 0, 0]
  kind := .file
  occupied := true
  time := 0
  date := 33
  first := UInt16.ofNat dataStart
  length := 0

theorem fullName_dotFile :
  dotFile.fullName = Name.dotdot ∧ dotFile.isDot = false
  := by
  decide +kernel

/-- A check does not compare names with those of the entries that a directory has for itself and
its parent: it succeeds although two entries of the root directory have the same name. -/
theorem run_of_dotFile :
  ∃ (image : Image) (usage : Usage), (do
      Volume.format default
      Allocation.allocate (UInt16.ofNat dataStart) 1
      writeBlock dataStart .zero
      Directory.writeRecord ⟨rootStart, 2⟩ dotFile : DiskM Unit).exec .zero = (.ok (), image)
    ∧ (run rootBlock).exec image = (.ok usage, image)
    ∧ ∃ e ∈ image.listed rootStart, ∃ up ∈ image.slots rootStart, up.record.occupied = true
      ∧ up ≠ e ∧ up.record.fullName = e.record.fullName
  := by
  obtain ⟨image, hformat, fresh⟩ := Volume.exec_format default .zero
  have sound := fresh.sound
  have hroot := find?_nil image rootBlock
  have hplace : image.freeSlot (image.entryAt ⟨rootBlock.toNat, 0⟩).record.first.toNat
      = some ⟨rootStart, 2⟩ := by
    rw [(sound.standsFor_root hroot).2.2.2]
    apply fresh.freeSlot_root
  have free : image.table[dotFile.first.toNat]? = some .free := by
    rw [fresh.table, Table.getElem?_fresh]
    rfl
  have absent : image.find? rootBlock ([] ++ [Name.dotdot]) = none := by
    apply Option.eq_none_iff_forall_ne_some.mpr
    intro e he
    simpa using (fresh.find?_eq_some_iff.mp he).1
  have hdir := (sound.standsFor_root hroot).2.1
  have hchain := isChain_created sound hroot default hplace free
  have replaced := replaced_created sound hroot default hplace free hdir absent rfl
    fullName_dotFile
  generalize hafter : image.created default (image.entryAt ⟨rootBlock.toNat, 0⟩).record dotFile
    ⟨rootStart, 2⟩ = after at hchain replaced
  have sound' : after.Sound rootBlock fun _ => none := by
    apply replaced.sound_after sound
    · rintro _ ⟨⟩
      rw [blocksOf_eq hchain]
      apply (Directory.blocksFor_initialLength .file).symm
    · intro _ _ _ _
      rfl
  have hcheck := run_of_sound sound'
  generalize Usage.mk _ _ _ = usage at hcheck
  refine ⟨after, usage, ?_, hcheck, ?_⟩
  · have inside : dataStart < numBlocks := by decide
    rw [exec_bind_of_ok hformat, exec_bind_of_ok (Allocation.exec_allocate_one inside),
      exec_bind_of_ok (exec_writeBlock _ inside _),
      Directory.exec_writeRecord (show rootStart < numBlocks by decide)
        (show 2 < slotsPerBlock by decide), ← hafter, created]
    have number : dotFile.first.toNat = dataStart := by decide
    have isFile : dotFile.isDirectory = false := by decide
    rw [number, isFile, if_neg Bool.false_ne_true]
  · obtain ⟨self, up, rest, slots, -, hup⟩ := sound'.root_dots
    obtain ⟨d, hd, -, hchild⟩ := find?_concat_eq_some.mp (replaced.find?_self sound)
    have hlisted := mem_listed_of_child? hchild
    rw [(sound'.standsFor_root hd).2.2.2] at hlisted
    refine ⟨_, hlisted, up, ?_, hup.1, ?_, ?_⟩
    · change up ∈ after.slots rootBlock.toNat
      rw [slots]
      simp
    · rintro rfl
      exact absurd hup.2.1 (by decide)
    · rw [Record.fullName_of_isDirectory hup.2.1, hup.2.2.1, fullName_dotFile.1]

end FatVolume.Check
