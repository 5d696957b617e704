/-!
# Fields of a text

The fields of a text are its longest stretches without a separator.  The separators are
given by a predicate: a slash for the segments of a path, a blank for the words of a line.
`isBlank` is the Unicode property White_Space.
-/

namespace FatVolume.Text

/-- The field that starts at a place, possibly empty, and the fields after it, extended to
the left by one character. -/
def extendFields (isSeparator : Char → Bool) (c : Char) :
    List Char × List (List Char) → List Char × List (List Char)
  | (field, rest) =>
      if isSeparator c then ([], if field.isEmpty then rest else field :: rest)
      else (c :: field, rest)

/-- The field at the start of `text`, possibly empty, and the fields after it. -/
def splitFields (isSeparator : Char → Bool) (text : List Char) :
    List Char × List (List Char) :=
  text.foldr (extendFields isSeparator) ([], [])

/-- The longest stretches of `text` without a separator, in order. -/
def fields (isSeparator : Char → Bool) (text : List Char) : List (List Char) :=
  let split := splitFields isSeparator text
  if split.1.isEmpty then split.2 else split.1 :: split.2

/-- The characters with the Unicode property White_Space. -/
def isBlank (c : Char) : Bool :=
  (0x09 ≤ c.val && c.val ≤ 0x0D) || c.val == 0x20 || c.val == 0x85 || c.val == 0xA0
    || c.val == 0x1680 || (0x2000 ≤ c.val && c.val ≤ 0x200A) || c.val == 0x2028
    || c.val == 0x2029 || c.val == 0x202F || c.val == 0x205F || c.val == 0x3000

/-- The words of a line. -/
def words (line : String) : List String :=
  (fields isBlank line.toList).map String.ofList

/-- The text without the blanks at either end. -/
def trimBlanks (text : String) : String :=
  String.ofList (((text.toList.dropWhile isBlank).reverse.dropWhile isBlank).reverse)

theorem splitFields_cons (isSeparator : Char → Bool) (c : Char) (text : List Char) :
  splitFields isSeparator (c :: text) = extendFields isSeparator c (splitFields isSeparator text)
  := rfl

theorem ne_nil_of_mem_splitFields {isSeparator : Char → Bool} {text field : List Char}
    (h : field ∈ (splitFields isSeparator text).2) :
  field ≠ []
  := by
  induction text with
  | nil => simp [splitFields] at h
  | cons c text ih =>
      rw [splitFields_cons, extendFields] at h
      split at h
      · split at h
        · exact ih h
        · rcases List.mem_cons.mp h with rfl | h
          · intro empty
            simp_all
          · exact ih h
      · exact ih h

/-- No field is empty. -/
theorem ne_nil_of_mem_fields {isSeparator : Char → Bool} {text field : List Char}
    (h : field ∈ fields isSeparator text) :
  field ≠ []
  := by
  simp only [fields] at h
  split at h
  · exact ne_nil_of_mem_splitFields h
  · rcases List.mem_cons.mp h with rfl | h
    · intro empty
      simp_all
    · exact ne_nil_of_mem_splitFields h

/-- What stands after a separator is divided by itself. -/
theorem splitFields_append_separator {isSeparator : Char → Bool} {c : Char}
    (hc : isSeparator c = true) (text more : List Char) :
  splitFields isSeparator (text ++ c :: more)
    = ((splitFields isSeparator text).1,
        (splitFields isSeparator text).2 ++ fields isSeparator more)
  := by
  induction text with
  | nil => simp [extendFields, hc, splitFields, fields]
  | cons b text ih =>
      rw [List.cons_append, splitFields_cons, splitFields_cons, ih]
      by_cases hb : isSeparator b = true
      · by_cases empty : (splitFields isSeparator text).1.isEmpty = true <;>
          simp [extendFields, hb, empty]
      · simp [extendFields, hb]

/-- A separator divides the fields of a text into those before and those after it. -/
theorem fields_append_separator {isSeparator : Char → Bool} {c : Char}
    (hc : isSeparator c = true) (text more : List Char) :
  fields isSeparator (text ++ c :: more)
    = fields isSeparator text ++ fields isSeparator more
  := by
  rw [fields, splitFields_append_separator hc]
  by_cases empty : (splitFields isSeparator text).1.isEmpty = true <;>
    simp [fields, empty]

/-- A text without a separator lengthens the field after it. -/
theorem splitFields_append_of_forall {isSeparator : Char → Bool} {text : List Char}
    (h : ∀ c ∈ text, isSeparator c = false) (more : List Char) :
  splitFields isSeparator (text ++ more)
    = (text ++ (splitFields isSeparator more).1, (splitFields isSeparator more).2)
  := by
  induction text with
  | nil => rfl
  | cons c text ih =>
      rw [List.cons_append, splitFields_cons, ih fun d hd => h d (List.mem_cons_of_mem c hd)]
      simp [extendFields, h c List.mem_cons_self]

end FatVolume.Text
