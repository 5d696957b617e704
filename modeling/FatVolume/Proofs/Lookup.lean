import FatVolume.Proofs.NormalPaths
import FatVolume.Proofs.SoundImage

/-!
# Looking up normal paths

On a sound image `Path.lookup` gives what the names of a normal path lead to.  A plain name is
never that of a directory's entry for itself or its parent, so the lookup does not stop at
those.
-/

namespace FatVolume

open DiskM

variable {image : Image} {root : UInt16} {lengths : List String → Option Nat}

/-- The entry that a directory has for itself or its parent has no other name. -/
theorem Entry.StandsFor.isNamed {e : Entry} {name other : String} {target : UInt16}
    (h : e.StandsFor name target) (hne : other ≠ name) :
  e.record.isNamed other = false
  := by
  rw [Record.isNamed, Record.fullName_of_isDirectory h.2.1, h.2.2.1]
  simp [hne.symm]

namespace Image

/-- The occupied slots of a directory are its first two and the entries it lists. -/
theorem HasDots.filter_slots {first parent : UInt16} (h : image.HasDots first parent) :
  ∃ self up, self.StandsFor Name.dot first ∧ up.StandsFor Name.dotdot parent
    ∧ (image.slots first.toNat).filter (·.record.occupied)
      = self :: up :: image.listed first.toNat
  := by
  obtain ⟨self, up, rest, hslots, hself, hup⟩ := h
  refine ⟨self, up, hself, hup, ?_⟩
  simp [listed, hslots, hself.1, hup.1]

theorem find?_isNamed_listed (image : Image) (first : Nat) (name : String) :
  (image.listed first).find? (·.record.isNamed name) = image.child? first name
  := by
  apply List.find?_congr
  intro e he
  simp [Record.isNamed, occupied_of_mem_listed he]

/-- A plain name is found among all occupied slots as it is among the entries. -/
theorem HasDots.find?_isNamed {first parent : UInt16} (h : image.HasDots first parent)
    {name : String} (hname : Name.Plain name) :
  ((image.slots first.toNat).filter (·.record.occupied)).find? (·.record.isNamed name)
    = image.child? first.toNat name
  := by
  obtain ⟨self, up, hself, hup, hfilter⟩ := h.filter_slots
  obtain ⟨-, -, dot, dotdot⟩ := hname
  rw [hfilter, List.find?_cons_of_neg (by simp [hself.isNamed dot]),
    List.find?_cons_of_neg (by simp [hup.isNamed dotdot]), find?_isNamed_listed]

/-- Each directory that a path leads to has its first two entries. -/
theorem Sound.exists_hasDots (h : image.Sound root lengths) {names : List String} {d : Entry}
    (hd : image.find? root names = some d) (hdir : d.record.isDirectory = true) :
  ∃ parent, image.HasDots d.record.first parent
  := by
  cases names using List.reverseRecOn with
  | nil =>
      rw [(h.standsFor_root hd).2.2.2]
      exact ⟨root, h.root_dots⟩
  | append_singleton names name =>
      obtain ⟨parent, hparent, -, -⟩ := find?_concat_eq_some.mp hd
      exact ⟨_, h.dots hparent hd hdir⟩

end Image

/-! ### Execution -/

/-- The entry that was looked for, or the error that there is none. -/
def found (result : Option Entry) : Except Error Entry :=
  match result with
  | some e => .ok e
  | none => .error .notFound

theorem found_eq_ok {result : Option Entry} {e : Entry} :
  found result = .ok e ↔ result = some e
  := by
  cases result <;> simp [found]

namespace Directory

/-- The entries of a directory are its occupied slots. -/
theorem exec_entries {first : Nat} (h : image.table.IsChain first (image.blocksOf first)) :
  (entries first).exec image = (.ok ((image.slots first).filter (·.record.occupied)), image)
  := by
  rw [entries, exec_bind_of_ok (exec_slots_eq_ok.mpr ⟨rfl, h, rfl⟩)]
  rfl

/-- A record is put in the place of an entry with a name. -/
theorem exec_writeRecord_of_find? {names : List String} {name : String} {e : Entry}
    (he : image.find? root (names ++ [name]) = some e) (record : Record) :
  (writeRecord e.location record).exec image = (.ok (), image.withRecord e.location record)
  := by
  obtain ⟨_, _, hblock, hslot⟩ := Image.place_of_find? he
  exact exec_writeRecord (Image.lt_of_mem_blocksOf hblock) hslot record

theorem exec_lookup {first parent : UInt16} (h : image.HasDots first parent) {name : String}
    (hname : Name.Plain name) :
  (lookup first.toNat name).exec image = (found (image.child? first.toNat name), image)
  := by
  rw [lookup, exec_bind_of_ok (exec_log _ _ _ _), exec_bind_of_ok (exec_entries h.isChain),
    h.find?_isNamed hname]
  cases image.child? first.toNat name <;> rfl

end Directory

namespace Path

/-- A lookup descends as the names do. -/
theorem exec_foldlM_descend (sound : image.Sound root lengths) {names more : List String}
    (hnames : Normal more) {d : Entry} (hd : image.find? root names = some d) :
  (more.foldlM descend d).exec image = (found (image.find? root (names ++ more)), image)
  := by
  induction more generalizing names d with
  | nil =>
      rw [List.append_nil, hd]
      rfl
  | cons name more ih =>
      have ⟨plain, rest⟩ := List.forall_mem_cons.mp hnames
      have split : names ++ name :: more = (names ++ [name]) ++ more := by simp
      have descended : (descend d name).exec image
          = (found (image.find? root (names ++ [name])), image) := by
        rw [Image.find?_concat, hd, Option.bind_some, Image.descend?, descend]
        split_ifs with hdir
        · obtain ⟨parent, dots⟩ := sound.exists_hasDots hd hdir
          apply Directory.exec_lookup dots plain
        · rfl
      rw [List.foldlM_cons, split]
      cases hfound : image.find? root (names ++ [name]) with
      | none =>
          rw [hfound] at descended
          rw [exec_bind_of_error descended, Image.find?_append_of_eq_none hfound]
          rfl
      | some e =>
          rw [hfound] at descended
          rw [exec_bind_of_ok descended, ih rest hfound]

/-- Looking up a normal path gives what its names lead to. -/
theorem exec_lookup (sound : image.Sound root lengths) {names : List String}
    (hnames : Normal names) :
  (lookup root.toNat (render names)).exec image = (found (image.find? root names), image)
  := by
  have inside : root.toNat < numBlocks := by
    have := sound.root_dots.isChain
    apply Image.lt_of_mem_blocksOf this.first_mem
  have slot : 0 < slotsPerBlock := by decide
  have read : (Directory.readRecord ⟨root.toNat, 0⟩).exec image
      = (.ok (image.entryAt ⟨root.toNat, 0⟩).record, image) :=
    Directory.exec_readRecord inside slot
  rw [lookup, exec_bind_of_ok read, hnames.segments_render]
  apply exec_foldlM_descend sound hnames (Image.find?_nil image root)

end Path

end FatVolume
