import FatVolume.Error
import FatVolume.Text.Fields

/-!
# Paths

A path is read as the sequence of its non-empty segments.  `Path.resolve` turns a path
given by the user into the absolute path it means in a current directory, in the one form
that `Path.render` writes; `Path.splitParent` divides an absolute path into the directory
and the name in it.
-/

namespace FatVolume.Path

/-- The path of the root directory. -/
def root : String := "/"

/-- The non-empty segments of a path. -/
def segments (path : String) : List String :=
  (Text.fields (· == '/') path.toList).map String.ofList

/-- Whether a path starts at the root. -/
def isAbsolute (path : String) : Bool :=
  path.toList.head? == some '/'

/-- The absolute path with the given segments. -/
def render (segments : List String) : String :=
  if segments.isEmpty then root else String.join (segments.map ("/" ++ ·))

/-- The segments reached by following one more segment: `.` stays, `..` goes up one level
and stops at the root. -/
def follow (reached : List String) (segment : String) : List String :=
  if segment == "." then reached
  else if segment == ".." then reached.dropLast
  else reached ++ [segment]

/-- The absolute path that `path` means in the directory `cwd`. -/
def resolve (cwd path : String) : String :=
  let start := if isAbsolute path then [] else segments cwd
  render ((segments path).foldl follow start)

/-- The directory and the name in it of an absolute path other than the root. -/
def splitParent (path : String) : Except Error (String × String) :=
  let all := segments path
  match all.getLast? with
  | none => .error .invalidPath
  | some name => .ok (render all.dropLast, name)

/-- Whether the last segment of a path is the name of a directory for itself or its
parent. -/
def endsInDot (path : String) : Bool :=
  match (segments path).getLast? with
  | some name => name == "." || name == ".."
  | none => false

@[simp]
theorem render_nil :
  render [] = root
  := rfl

/-- Each segment is written with a slash before it. -/
theorem toList_render {reached : List String} (h : reached ≠ []) :
  (render reached).toList = reached.flatMap fun segment => '/' :: segment.toList
  := by
  simp [render, h, List.flatMap_map]

theorem splitFields_flatMap {reached : List String}
    (h : ∀ segment ∈ reached, segment ≠ "" ∧ '/' ∉ segment.toList) :
  Text.splitFields (· == '/') (reached.flatMap fun segment => '/' :: segment.toList)
    = ([], reached.map String.toList)
  := by
  induction reached with
  | nil => rfl
  | cons segment rest ih =>
      have ⟨nonempty, free⟩ := h segment List.mem_cons_self
      have inside : ∀ c ∈ segment.toList, (c == '/') = false := by
        intro c hc
        apply beq_false_of_ne
        rintro rfl
        exact free hc
      rw [List.flatMap_cons, List.cons_append, Text.splitFields_cons,
        Text.splitFields_append_of_forall inside, ih fun s hs => h s (List.mem_cons_of_mem _ hs)]
      simp [Text.extendFields, nonempty]

/-- Segments that can stand in a path are read back from it. -/
theorem segments_render {reached : List String}
    (h : ∀ segment ∈ reached, segment ≠ "" ∧ '/' ∉ segment.toList) :
  segments (render reached) = reached
  := by
  by_cases empty : reached = []
  · subst empty
    rfl
  · rw [segments, toList_render empty, Text.fields, splitFields_flatMap h]
    simp

end FatVolume.Path
