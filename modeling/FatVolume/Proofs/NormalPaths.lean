import FatVolume.Proofs.RecordNames
import FatVolume.Session.OpenTable

/-!
# Normal paths

A path is normal when all its names are plain.  Normal paths are what `Path.resolve` gives, and
they correspond to the lists of their names: the names are read back from the rendered path,
the directory of a path and being below a path are taken on the lists.
-/

namespace FatVolume

namespace Text

/-- No field contains a separator. -/
theorem not_isSeparator_of_mem_splitFields {isSeparator : Char → Bool} {text field : List Char}
    (h : field = (splitFields isSeparator text).1 ∨ field ∈ (splitFields isSeparator text).2) :
  ∀ c ∈ field, isSeparator c = false
  := by
  induction text generalizing field with
  | nil =>
      have : field = [] := by simpa [splitFields] using h
      simp [this]
  | cons b text ih =>
      rw [splitFields_cons, extendFields] at h
      split_ifs at h with sep empty
      · rcases h with rfl | h
        · simp
        · apply ih (.inr h)
      · rcases h with rfl | h
        · simp
        · rcases List.mem_cons.mp h with rfl | h
          · apply ih (.inl rfl)
          · apply ih (.inr h)
      · rcases h with rfl | h
        · intro c hc
          rcases List.mem_cons.mp hc with rfl | hc
          · simpa using sep
          · apply ih (.inl rfl) c hc
        · apply ih (.inr h)

theorem not_isSeparator_of_mem_fields {isSeparator : Char → Bool} {text field : List Char}
    (h : field ∈ fields isSeparator text) :
  ∀ c ∈ field, isSeparator c = false
  := by
  apply not_isSeparator_of_mem_splitFields
  simp only [fields] at h
  split_ifs at h with empty
  · exact .inr h
  · apply List.mem_cons.mp h

end Text

namespace Path

/-- Each name is one by which a path can go on. -/
def Normal (names : List String) : Prop :=
  ∀ name ∈ names, Name.Plain name

instance (names : List String) : Decidable (Normal names) :=
  inferInstanceAs (Decidable (∀ name ∈ names, Name.Plain name))

variable {names more : List String} {name : String}

theorem Normal.nil :
  Normal []
  := by
  simp [Normal]

theorem normal_append :
  Normal (names ++ more) ↔ Normal names ∧ Normal more
  := List.forall_mem_append

theorem normal_concat :
  Normal (names ++ [name]) ↔ Normal names ∧ Name.Plain name
  := by
  rw [normal_append]
  simp [Normal]

/-! ### Rendering -/

/-- The names of a normal path are read back from it. -/
theorem Normal.segments_render (h : Normal names) :
  segments (render names) = names
  := by
  apply Path.segments_render
  intro name hname
  exact ⟨(h name hname).1, (h name hname).2.1⟩

theorem Normal.render_inj (h : Normal names) (h' : Normal more)
    (same : render names = render more) :
  names = more
  := by
  rw [← h.segments_render, ← h'.segments_render, same]

theorem render_eq_root_iff (h : Normal names) :
  render names = root ↔ names = []
  := by
  constructor
  · intro same
    apply h.render_inj Normal.nil same
  · rintro rfl
    rfl

theorem isAbsolute_render (names : List String) :
  isAbsolute (render names) = true
  := by
  by_cases empty : names = []
  · subst empty
    decide
  · rw [isAbsolute, toList_render empty]
    obtain ⟨name, rest, rfl⟩ := List.exists_cons_of_ne_nil empty
    simp

theorem splitParent_root :
  splitParent (render []) = .error .invalidPath
  := rfl

theorem splitParent_render (h : Normal (names ++ [name])) :
  splitParent (render (names ++ [name])) = .ok (render names, name)
  := by
  rw [splitParent, h.segments_render]
  simp

/-! ### Resolving -/

/-- The names of the absolute path that a path means in a directory. -/
def resolved (cwd : List String) (path : String) : List String :=
  (segments path).foldl follow (if isAbsolute path then [] else cwd)

theorem resolve_render (h : Normal names) (path : String) :
  resolve (render names) path = render (resolved names path)
  := by
  rw [resolve, h.segments_render]
  rfl

theorem normal_follow (h : Normal names) (nonempty : name ≠ "") (slash : '/' ∉ name.toList) :
  Normal (follow names name)
  := by
  unfold follow
  split_ifs with dot dotdot
  · apply h
  · intro other hother
    apply h other (List.mem_of_mem_dropLast hother)
  · apply normal_concat.mpr ⟨h, nonempty, slash, ?_, ?_⟩
    · simpa [Name.dot] using dot
    · simpa [Name.dotdot] using dotdot

theorem mem_segments {path : String} (h : name ∈ segments path) :
  name ≠ "" ∧ '/' ∉ name.toList
  := by
  obtain ⟨field, hfield, rfl⟩ := List.mem_map.mp h
  constructor
  · have := Text.ne_nil_of_mem_fields hfield
    simpa using this
  · intro slash
    have := Text.not_isSeparator_of_mem_fields hfield '/' (by simpa using slash)
    simp at this

/-- What a path means in a directory with a normal path is a normal path. -/
theorem normal_resolved (h : Normal names) (path : String) :
  Normal (resolved names path)
  := by
  have start : Normal (if isAbsolute path then [] else names) := by
    split_ifs
    · apply Normal.nil
    · apply h
  unfold resolved
  revert start
  generalize (if isAbsolute path then [] else names) = reached
  have ok : ∀ name ∈ segments path, name ≠ "" ∧ '/' ∉ name.toList := fun _ => mem_segments
  revert ok
  generalize segments path = rest
  intro ok start
  induction rest generalizing reached with
  | nil => exact start
  | cons name rest ih =>
      have ⟨nonempty, slash⟩ := ok name List.mem_cons_self
      apply ih _ (fun other hother => ok other (List.mem_cons_of_mem _ hother))
      apply normal_follow start nonempty slash

theorem foldl_follow (h : Normal more) (names : List String) :
  more.foldl follow names = names ++ more
  := by
  induction more generalizing names with
  | nil => simp
  | cons name more ih =>
      have ⟨⟨_, _, dot, dotdot⟩, rest⟩ := List.forall_mem_cons.mp h
      have step : follow names name = names ++ [name] := by
        unfold follow
        rw [if_neg (by simpa [Name.dot] using dot), if_neg (by simpa [Name.dotdot] using dotdot)]
      rw [List.foldl_cons, step, ih rest]
      simp

/-- A plain name is a path of one segment. -/
theorem segments_of_plain (h : Name.Plain name) :
  segments name = [name]
  := by
  have free : ∀ c ∈ name.toList, (c == '/') = false := by
    intro c hc
    apply beq_false_of_ne
    rintro rfl
    exact h.2.1 hc
  have split := Text.splitFields_append_of_forall free []
  rw [List.append_nil] at split
  rw [segments, Text.fields, split]
  simp [Text.splitFields, h.1]

/-- A plain name means the entry of this name in the directory. -/
theorem resolved_of_plain (h : Name.Plain name) (names : List String) :
  resolved names name = names ++ [name]
  := by
  have relative : isAbsolute name = false := by
    rw [isAbsolute]
    cases hchars : name.toList with
    | nil => rfl
    | cons c rest =>
        apply beq_false_of_ne
        intro same
        apply h.2.1
        rw [hchars, ← Option.some.inj same]
        exact List.mem_cons_self
  rw [resolved, segments_of_plain h, relative]
  exact foldl_follow (by simpa [Normal] using h) names

/-- A normal path means itself. -/
theorem resolved_render (h : Normal more) (names : List String) :
  resolved names (render more) = more
  := by
  rw [resolved, isAbsolute_render, if_pos rfl, h.segments_render, foldl_follow h]
  rfl

/-! ### Below a path -/

theorem fields_toList_render (h : Normal names) :
  Text.fields (· == '/') (render names).toList = names.map String.toList
  := by
  have read := congrArg (List.map String.toList) h.segments_render
  rw [segments, List.map_map] at read
  rw [← read]
  simp

/-- A path other than that of the root does not end in a slash. -/
theorem dropWhile_reverse_render (h : Normal names) (nonempty : names ≠ []) :
  (render names).toList.reverse.dropWhile (· == '/') = (render names).toList.reverse
  := by
  obtain ⟨front, name, rfl⟩ : ∃ front name, names = front ++ [name] :=
    ⟨_, _, (List.dropLast_append_getLast nonempty).symm⟩
  obtain ⟨empty, slash, -, -⟩ := h name (by simp)
  obtain ⟨init, c, hname⟩ : ∃ init c, name.toList = init ++ [c] := by
    have : name.toList ≠ [] := by simpa using empty
    exact ⟨_, _, (List.dropLast_append_getLast this).symm⟩
  have hc : (c == '/') = false := by
    apply beq_false_of_ne
    rintro rfl
    apply slash
    simp [hname]
  rw [toList_render nonempty, List.flatMap_append, List.flatMap_singleton, hname]
  simp [hc]

/-- A path is below one other than that of the root when it goes on there with a slash. -/
theorem isBelow_render_iff (h : Normal names) (nonempty : names ≠ []) {path : String} :
  OpenTable.isBelow (render names) path = true ↔ (render names).toList ++ ['/'] <+: path.toList
  := by
  rw [OpenTable.isBelow, dropWhile_reverse_render h nonempty, List.reverse_reverse,
    List.isPrefixOf_iff_prefix]

/-- A path is at or below another one when its names begin with those of the other. -/
theorem beq_or_isBelow_render (h : Normal names) (h' : Normal more) :
  (render more == render names || OpenTable.isBelow (render names) (render more)) = true
    ↔ names <+: more
  := by
  by_cases empty : names = []
  · subst empty
    have slash : ∃ rest, (render more).toList = '/' :: rest := by
      have := isAbsolute_render more
      rw [isAbsolute, beq_iff_eq] at this
      apply List.head?_eq_some_iff.mp this
    obtain ⟨rest, hrest⟩ := slash
    simp [OpenTable.isBelow, root, hrest]
  rw [Bool.or_eq_true, beq_iff_eq, isBelow_render_iff h empty]
  constructor
  · rintro (same | ⟨rest, hrest⟩)
    · rw [h'.render_inj h same]
    · have parts := congrArg (Text.fields (· == '/')) hrest
      rw [List.append_assoc, List.singleton_append, Text.fields_append_separator (by simp),
        fields_toList_render h, fields_toList_render h'] at parts
      have read := congrArg (List.map String.ofList) parts
      rw [List.map_append, List.map_map, List.map_map] at read
      simp only [Function.comp_def, String.ofList_toList, List.map_id'] at read
      exact ⟨_, read⟩
  · rintro ⟨rest, rfl⟩
    cases rest with
    | nil => exact .inl (by simp)
    | cons name rest =>
        right
        rw [toList_render empty, toList_render (by simp)]
        simp

end Path

end FatVolume
