import FatVolume.Proofs.NormalPaths

/-!
# Laws of resolving

A path is normal, as a string, when it is `/` or the join of plain names by slashes after a first
slash.  Resolving in a directory with a normal path gives a normal path, which means itself in
every directory.  Two paths are followed one after the other by resolving the second one where the
first one leads, or by resolving both as one path.  A normal path other than that of the root is
divided into a normal path and a name that lead back to it.
-/

namespace FatVolume.Path

variable {names more : List String} {path : String}

/-! ### Normal strings -/

/-- The absolute path is a join of plain names. -/
def IsNormal (path : String) : Prop :=
  ∃ names, Normal names ∧ path = "/" ++ "/".intercalate names

/-- A slash before each segment and a slash between two segments write the same path. -/
theorem render_eq_intercalate (names : List String) :
  render names = "/" ++ "/".intercalate names
  := by
  cases names with
  | nil => simp [root]
  | cons name rest =>
      rw [render, if_neg (by simp)]
      induction rest generalizing name with
      | nil => simp
      | cons second rest ih =>
          rw [List.map_cons, String.join_cons, ih, String.intercalate_cons_cons]
          simp only [String.append_assoc]

theorem isNormal_iff_render :
  IsNormal path ↔ ∃ names, Normal names ∧ path = render names
  := by
  simp only [IsNormal, render_eq_intercalate]

theorem Normal.isNormal_render (h : Normal names) :
  IsNormal (render names)
  := isNormal_iff_render.mpr ⟨names, h, rfl⟩

/-- A normal path is recognised by reading it and writing what was read. -/
theorem isNormal_iff :
  IsNormal path ↔ Normal (segments path) ∧ render (segments path) = path
  := by
  rw [isNormal_iff_render]
  constructor
  · rintro ⟨names, h, rfl⟩
    rw [h.segments_render]
    exact ⟨h, rfl⟩
  · rintro ⟨h, same⟩
    exact ⟨segments path, h, same.symm⟩

instance (path : String) : Decidable (IsNormal path) :=
  decidable_of_iff _ isNormal_iff.symm

/-! ### Segments -/

theorem mem_foldl_follow {name : String} (h : name ∈ more.foldl follow names) :
  name ∈ names ∨ name ∈ more
  := by
  induction more generalizing names with
  | nil => exact .inl h
  | cons next more ih =>
      rcases ih h with reached | later
      · unfold follow at reached
        split_ifs at reached with dot dotdot
        · exact .inl reached
        · exact .inl (List.mem_of_mem_dropLast reached)
        · rcases List.mem_append.mp reached with before | here
          · exact .inl before
          · exact .inr (by simp_all)
      · exact .inr (List.mem_cons_of_mem _ later)

/-- The segments of the path that another one means in a directory, whichever directory it is. -/
theorem segments_resolve (cwd path : String) :
  segments (resolve cwd path)
    = (segments path).foldl follow (if isAbsolute path then [] else segments cwd)
  := by
  unfold resolve
  apply segments_render
  intro name hname
  rcases mem_foldl_follow hname with start | followed
  · split_ifs at start
    · simp at start
    · exact mem_segments start
  · exact mem_segments followed

theorem segments_append_slash (path more : String) :
  segments (path ++ "/" ++ more) = segments path ++ segments more
  := by
  have joined : (path ++ "/" ++ more).toList = path.toList ++ '/' :: more.toList := by simp
  rw [segments, joined, Text.fields_append_separator (by simp), List.map_append]
  rfl

theorem isAbsolute_append (nonempty : path ≠ "") (more : String) :
  isAbsolute (path ++ more) = isAbsolute path
  := by
  obtain ⟨c, rest, hpath⟩ := List.exists_cons_of_ne_nil (l := path.toList) (by simpa using nonempty)
  simp [isAbsolute, hpath]

/-! ### Resolving -/

theorem IsNormal.resolve {cwd : String} (h : IsNormal cwd) (path : String) :
  IsNormal (resolve cwd path)
  := by
  obtain ⟨names, normal, rfl⟩ := isNormal_iff_render.mp h
  rw [resolve_render normal]
  exact (normal_resolved normal path).isNormal_render

/-- A normal path means itself in every directory. -/
theorem IsNormal.resolve_eq (h : IsNormal path) (cwd : String) :
  Path.resolve cwd path = path
  := by
  obtain ⟨names, normal, rfl⟩ := isNormal_iff_render.mp h
  rw [Path.resolve, isAbsolute_render, if_pos rfl, normal.segments_render, foldl_follow normal]
  rfl

/-- The last segment of a normal path is not the name of a directory for itself or its parent. -/
theorem IsNormal.endsInDot_eq_false (h : IsNormal path) :
  endsInDot path = false
  := by
  obtain ⟨names, normal, rfl⟩ := isNormal_iff_render.mp h
  rw [endsInDot, normal.segments_render]
  cases hlast : names.getLast? with
  | none => rfl
  | some name =>
      obtain ⟨-, -, dot, dotdot⟩ := normal name (List.mem_of_getLast? hlast)
      simpa using ⟨dot, dotdot⟩

/-- Following a relative path after another one is following both at once. -/
theorem resolve_resolve (cwd : String) (nonempty : path ≠ "") {more : String}
    (relative : isAbsolute more = false) :
  resolve (resolve cwd path) more = resolve cwd (path ++ "/" ++ more)
  := by
  conv_lhs => rw [resolve, relative, segments_resolve]
  rw [resolve, String.append_assoc, isAbsolute_append nonempty, ← String.append_assoc,
    segments_append_slash, List.foldl_append]
  rfl

/-- A normal path other than that of the root is the path of a name in a directory. -/
theorem IsNormal.splitParent (h : IsNormal path) (other : path ≠ root) :
  ∃ directory name, splitParent path = .ok (directory, name)
    ∧ IsNormal directory ∧ Name.Plain name ∧ Path.resolve directory name = path
  := by
  obtain ⟨names, normal, rfl⟩ := isNormal_iff_render.mp h
  have nonempty : names ≠ [] := mt (render_eq_root_iff normal).mpr other
  obtain ⟨above, name, rfl⟩ : ∃ above name, names = above ++ [name] :=
    ⟨_, _, (List.dropLast_append_getLast nonempty).symm⟩
  obtain ⟨habove, plain⟩ := normal_concat.mp normal
  refine ⟨_, _, splitParent_render normal, habove.isNormal_render, plain, ?_⟩
  rw [resolve_render habove, resolved_of_plain plain]

/-- Resolving gives normal paths, which are kept by resolving again and divided into a directory
and a name that resolve to them; paths are followed one after the other as one path. -/
theorem resolving_laws :
  (∀ cwd path, IsNormal cwd → IsNormal (resolve cwd path)
    ∧ ∀ other, resolve other (resolve cwd path) = resolve cwd path)
  ∧ (∀ cwd path more, path ≠ "" → more.toList.head? ≠ some '/' →
      resolve (resolve cwd path) more = resolve cwd (path ++ "/" ++ more))
  ∧ (∀ path, IsNormal path → path ≠ root →
      ∃ directory name, splitParent path = .ok (directory, name)
        ∧ IsNormal directory ∧ Name.Plain name ∧ segments name = [name]
        ∧ resolve directory name = path)
  ∧ splitParent root = .error .invalidPath
  := by
  refine ⟨fun cwd path h => ?_, fun cwd path more nonempty relative => ?_, fun path h other => ?_,
    splitParent_root⟩
  · have normal := h.resolve path
    exact ⟨normal, normal.resolve_eq⟩
  · apply resolve_resolve cwd nonempty
    exact beq_false_of_ne relative
  · obtain ⟨directory, name, split, normal, plain, back⟩ := h.splitParent other
    exact ⟨directory, name, split, normal, plain, segments_of_plain plain, back⟩

/-- In `/a/b` the path `../c//` means `/a/c`, which lies in `/a`; `..` from there leads to where
`../c///..` leads at once. -/
theorem resolving_laws_at :
  IsNormal "/a/b" ∧ resolve "/a/b" "../c//" = "/a/c" ∧ resolve "x" "/a/c" = "/a/c"
  ∧ resolve "/a/c" ".." = resolve "/a/b" "../c///.."
  ∧ ∃ directory name, splitParent "/a/c" = .ok (directory, name) ∧ resolve directory name = "/a/c"
  := by
  have start : IsNormal "/a/b" := by decide
  have reached : resolve "/a/b" "../c//" = "/a/c" := by decide
  obtain ⟨kept, joined, split, -⟩ := resolving_laws
  obtain ⟨normal, same⟩ := kept "/a/b" "../c//" start
  have up := joined "/a/b" "../c//" ".." (by decide) (by decide)
  rw [reached] at normal same up
  obtain ⟨directory, name, hsplit, -, -, -, back⟩ := split "/a/c" normal (by decide)
  exact ⟨start, reached, same "x", up, directory, name, hsplit, back⟩

end FatVolume.Path
