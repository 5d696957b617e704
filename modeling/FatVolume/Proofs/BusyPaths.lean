import Mathlib.Logic.Relation
import FatVolume.Proofs.OpenFiles
import FatVolume.Proofs.PathLaws

/-!
# Busy paths

A path is not removed while it or something below it is open.  Whether this is so is decided on
the characters of the open paths.  For normal paths the answer is the one that the tree of
directories gives: an open path is reached from a busy one by going down, and going down appends
names to the segments.
-/

namespace FatVolume

namespace Path

variable {names : List String} {directory path other name : String}

/-! ### Going down -/

/-- The path is that of a name in the directory. -/
def IsParent (directory path : String) : Prop :=
  ∃ name, splitParent path = .ok (directory, name)

/-- The path is reached from the directory by going down at least one level. -/
def LiesBelow (directory path : String) : Prop :=
  Relation.TransGen IsParent directory path

theorem not_isParent_root :
  ¬IsParent directory root
  := by
  rintro ⟨name, split⟩
  exact absurd (splitParent_root.symm.trans split) (by simp)

theorem isParent_render_concat (h : Normal (names ++ [name])) :
  IsParent directory (render (names ++ [name])) ↔ directory = render names
  := by
  simp [IsParent, splitParent_render h, eq_comm]

/-- Going down from a path, its segments are kept and others are appended. -/
theorem segments_prefix_iff_reaches (h : IsNormal path) (h' : IsNormal other) :
  segments path <+: segments other ↔ Relation.ReflTransGen IsParent path other
  := by
  obtain ⟨names, normal, rfl⟩ := isNormal_iff_render.mp h
  obtain ⟨more, normal', rfl⟩ := isNormal_iff_render.mp h'
  rw [normal.segments_render, normal'.segments_render]
  -- Nothing is above the root, and a path is divided into the one above it and its last name.
  induction more using List.reverseRecOn with
  | nil =>
      rw [List.prefix_nil, Relation.ReflTransGen.cases_tail_iff, ← render_eq_root_iff normal]
      constructor
      · exact fun same => .inl same.symm
      · rintro (same | ⟨above, -, parent⟩)
        · exact same.symm
        · exact absurd parent not_isParent_root
  | append_singleton more name ih =>
      have above := (normal_concat.mp normal').1
      rw [Relation.ReflTransGen.cases_tail_iff, List.prefix_concat_iff,
        ih above above.isNormal_render]
      simp only [isParent_render_concat normal', exists_eq_right]
      apply or_congr_left
      constructor
      · rintro rfl
        rfl
      · exact fun same => normal.render_inj normal' same.symm

/-- A path is at or below another one when its segments begin with those of the other. -/
theorem segments_prefix_iff (h : IsNormal path) (h' : IsNormal other) :
  segments path <+: segments other ↔ other = path ∨ LiesBelow path other
  := by
  rw [segments_prefix_iff_reaches h h', Relation.reflTransGen_iff_eq_or_transGen]
  rfl

/-! ### Characters -/

/-- Read as characters, a path at or below one other than that of the root is the same or goes on
there with a slash. -/
theorem segments_prefix_iff_slash (h : IsNormal path) (h' : IsNormal other) (below : path ≠ root) :
  segments path <+: segments other
    ↔ other = path ∨ path.toList ++ ['/'] <+: other.toList
  := by
  obtain ⟨names, normal, rfl⟩ := isNormal_iff_render.mp h
  obtain ⟨more, normal', rfl⟩ := isNormal_iff_render.mp h'
  have nonempty : names ≠ [] := mt (render_eq_root_iff normal).mpr below
  rw [normal.segments_render, normal'.segments_render, ← beq_or_isBelow_render normal normal',
    Bool.or_eq_true, beq_iff_eq, isBelow_render_iff normal nonempty]

/-- A path that goes on after the characters of another one, but not with a slash, is not below
it. -/
theorem not_segments_prefix_of_append (h : IsNormal path) (h' : IsNormal other)
    (below : path ≠ root)
    (goesOn : path.toList <+: other.toList →
      ∃ c rest, other.toList = path.toList ++ c :: rest ∧ c ≠ '/') :
  ¬segments path <+: segments other
  := by
  rw [segments_prefix_iff_slash h h' below]
  rintro (rfl | ⟨after, hafter⟩)
  · obtain ⟨c, rest, longer, -⟩ := goesOn List.prefix_rfl
    simp at longer
  · rw [List.append_assoc, List.singleton_append] at hafter
    obtain ⟨c, rest, next, slash⟩ := goesOn ⟨_, hafter⟩
    have same := List.append_cancel_left (hafter.trans next)
    exact slash (List.cons.inj same).1.symm

end Path

namespace OpenTable

variable {table : OpenTable} {path : String}

/-- The paths of all open files are normal. -/
def HasNormalPaths (table : OpenTable) : Prop :=
  ∀ handle file, table.get? handle = some file → Path.IsNormal file.path

variable (normal : table.HasNormalPaths)
include normal

/-- A path is busy exactly if the segments of an open path begin with its own. -/
theorem isBusy_iff (h : Path.IsNormal path) :
  table.isBusy path = true ↔ ∃ handle file, table.get? handle = some file
    ∧ Path.segments path <+: Path.segments file.path
  := by
  obtain ⟨names, hnames, rfl⟩ := Path.isNormal_iff_render.mp h
  have idle := isBusy_eq_false_iff hnames fun handle file hfile =>
    Path.isNormal_iff_render.mp (normal handle file hfile)
  rw [← Bool.not_eq_false, idle, hnames.segments_render]
  push Not
  rfl

/-- A path is busy exactly if it or a path below it is open.  An open path that begins with the
same characters but goes on in the middle of a name does not count. -/
theorem busy_at_or_below (h : Path.IsNormal path) :
  (table.isBusy path = true ↔ ∃ handle file, table.get? handle = some file
    ∧ Path.segments path <+: Path.segments file.path)
  ∧ (∀ other, Path.IsNormal other →
      (Path.segments path <+: Path.segments other
        ↔ other = path ∨ Path.LiesBelow path other))
  ∧ (path ≠ Path.root →
      (∀ handle file, table.get? handle = some file → path.toList <+: file.path.toList →
        ∃ c rest, file.path.toList = path.toList ++ c :: rest ∧ c ≠ '/') →
      table.isBusy path = false)
  := by
  refine ⟨isBusy_iff normal h, fun other h' => Path.segments_prefix_iff h h',
    fun below goesOn => ?_⟩
  rw [← Bool.not_eq_true, isBusy_iff normal h]
  rintro ⟨handle, file, hfile, begins⟩
  exact Path.not_segments_prefix_of_append h (normal handle file hfile) below
    (goesOn handle file hfile) begins

omit normal in
/-- With `/docs/note` open, the paths `/` and `/docs` are busy and `/doc` is not. -/
theorem busy_at_or_below_of_note :
  let file (path : String) : OpenFile := { record := default, path }
  let table := (ofRoot (file "/")).set 1 (file "/docs/note")
  table.HasNormalPaths
    ∧ table.isBusy "/" = true ∧ table.isBusy "/docs" = true ∧ table.isBusy "/doc" = false
  := by
  intro file table
  have opened {handle : Handle} {held : OpenFile} (h : table.get? handle = some held) :
      held.path = "/" ∨ held.path = "/docs/note" := by
    rw [get?_set _ (by decide)] at h
    split_ifs at h
    · right
      rw [← Option.some.inj h]
    · left
      rw [(get?_ofRoot_eq_some.mp h).2]
  have normal : table.HasNormalPaths := by
    intro handle held h
    rcases opened h with same | same <;> rw [same] <;> decide
  have note : table.get? 1 = some (file "/docs/note") := get?_set_self _ (by decide) _
  have busy {path : String} (h : Path.IsNormal path)
      (begins : Path.segments path <+: Path.segments "/docs/note") :
      table.isBusy path = true :=
    (busy_at_or_below normal h).1.mpr ⟨1, _, note, begins⟩
  refine ⟨normal, busy (by decide) (by decide), busy (by decide) (by decide), ?_⟩
  apply (busy_at_or_below normal (by decide)).2.2 (by decide)
  intro handle held h begins
  rcases opened h with same | same
  · rw [same] at begins
    exact absurd begins (by decide)
  · exact ⟨'s', "/note".toList, by rw [same]; decide, by decide⟩

end OpenTable

end FatVolume
