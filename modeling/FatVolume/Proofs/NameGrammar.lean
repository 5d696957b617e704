import FatVolume.Proofs.RecordNames
import FatVolume.Proofs.Slots

/-!
# The grammar of names

A name is a base, for a file possibly with an extension after a dot.  `Name.split` accepts exactly
the texts that have this form and finds their parts.  Every accepted name comes back from the record
of an entry after it was stored, so that different names never become the same.
-/

namespace FatVolume

namespace Name

/-! ### Names and their parts -/

/-- A character of a base or of an extension. -/
def IsPartChar (c : Char) : Prop :=
  c.toNat < 0x80 ∧ c ≠ '\x00' ∧ c ∉ [' ', '\t', '\n', '\x0c', '\r'] ∧ c ≠ '/' ∧ c ≠ '.'

/-- A base or an extension of at most the given length. -/
structure IsPart (longest : Nat) (text : List Char) : Prop where
  length_pos : 0 < text.length
  length_le : text.length ≤ longest
  chars : ∀ c ∈ text, IsPartChar c

/-- The text is a name for entries of the given kind, with the given base and extension.  The
extension of a name that has none is empty. -/
inductive Spells : Kind → (text base extension : List Char) → Prop
  | plain {kind : Kind} {base : List Char} (hbase : IsPart 7 base) : Spells kind base base []
  | extended {base extension : List Char} (hbase : IsPart 7 base)
      (hextension : IsPart 3 extension) :
      Spells .file (base ++ '.' :: extension) base extension

/-- The text is a name for entries of the given kind. -/
def Grammatical (kind : Kind) (name : String) : Prop :=
  ∃ base extension, Spells kind name.toList base extension

theorem isPartChar_iff {c : Char} :
  IsPartChar c ↔ isNameChar c = true ∧ c ≠ '.'
  := by
  simp only [IsPartChar, isNameChar, Bool.and_eq_true, decide_eq_true_eq, bne_iff_ne,
    List.mem_cons, List.not_mem_nil, or_false, not_or, and_assoc]

variable {text base extension : List Char} {longest : Nat} {kind : Kind} {name : String}

theorem IsPart.dot_notMem (h : IsPart longest text) :
  '.' ∉ text
  := fun dot => (isPartChar_iff.mp (h.chars _ dot)).2 rfl

theorem IsPart.ne_nil (h : IsPart longest text) :
  text ≠ []
  := List.ne_nil_of_length_pos h.length_pos

/-! ### Splitting at the last dot -/

theorem dot_notMem_of_splitLastDot? (h : splitLastDot? text = some (base, extension)) :
  '.' ∉ extension
  := by
  unfold splitLastDot? at h
  rw [List.span_eq_takeWhile_dropWhile] at h
  split at h
  · next before stop after parts =>
      obtain ⟨rfl, -⟩ := Prod.mk.inj parts
      obtain ⟨-, rfl⟩ := Prod.mk.inj (Option.some.inj h)
      intro dot
      simpa using List.mem_takeWhile_imp (List.mem_reverse.mp dot)
  · cases h

theorem splitLastDot?_of_notMem (h : '.' ∉ text) :
  splitLastDot? text = none
  := by
  have all : ∀ c ∈ text.reverse, (c != '.') = true := by
    intro c hc
    apply bne_iff_ne.mpr
    rintro rfl
    exact h (List.mem_reverse.mp hc)
  rw [splitLastDot?, List.span_eq_takeWhile_dropWhile, List.dropWhile_eq_nil_iff.mpr all]

theorem splitLastDot?_append (h : '.' ∉ extension) :
  splitLastDot? (base ++ '.' :: extension) = some (base, extension)
  := by
  have before : ∀ c ∈ extension.reverse, (c != '.') = true := by
    intro c hc
    apply bne_iff_ne.mpr
    rintro rfl
    exact h (List.mem_reverse.mp hc)
  rw [splitLastDot?, List.span_eq_takeWhile_dropWhile, List.reverse_append, List.reverse_cons,
    List.append_assoc, List.takeWhile_append_of_pos before, List.dropWhile_append_of_pos before]
  simp

/-! ### Acceptance -/

theorem dot_notMem_of_split (h : split name kind = .ok (base, extension)) :
  '.' ∉ extension
  := by
  unfold split at h
  dsimp only at h
  split_ifs at h
  obtain ⟨-, rfl⟩ := Prod.mk.inj (Except.ok.inj h)
  cases kind with
  | directory => exact List.not_mem_nil
  | file =>
      dsimp only
      cases hlast : splitLastDot? name.toList with
      | none => exact List.not_mem_nil
      | some parts => exact dot_notMem_of_splitLastDot? hlast

/-- The parts that are found make up the name. -/
theorem spells_of_split (h : split name kind = .ok (base, extension)) :
  Spells kind name.toList base extension
  := by
  have accepted := accepted_of_split h
  have hbase : IsPart 7 base := by
    refine ⟨List.length_pos_of_ne_nil accepted.base_ne_nil, accepted.length_base, ?_⟩
    intro c hc
    apply isPartChar_iff.mpr ⟨accepted.chars c (accepted.mem_of_mem_base hc), ?_⟩
    rintro rfl
    exact accepted.dot_notMem hc
  have parts := accepted.parts
  by_cases none : extension = []
  · subst none
    rw [if_pos rfl] at parts
    rw [parts]
    exact .plain hbase
  · rw [if_neg none] at parts
    cases kind with
    | directory => exact absurd (accepted.extension_eq_nil rfl) none
    | file =>
        rw [parts]
        refine .extended hbase ⟨List.length_pos_of_ne_nil none, accepted.length_extension, ?_⟩
        intro c hc
        apply isPartChar_iff.mpr ⟨accepted.chars c (accepted.mem_of_mem_extension hc), ?_⟩
        rintro rfl
        exact dot_notMem_of_split h hc

/-- A name starts with a character of its base, so it is not one that a directory has for itself or
its parent. -/
theorem Spells.head?_ne (h : Spells kind text base extension) :
  text.head? ≠ some '.'
  := by
  have start (hbase : IsPart 7 base) : base.head? ≠ some '.' :=
    fun dot => hbase.dot_notMem (List.mem_of_head? dot)
  cases h with
  | plain hbase => exact start hbase
  | extended hbase _ =>
      rw [List.head?_append_of_ne_nil _ hbase.ne_nil]
      exact start hbase

/-- A name ends with a character of one of its parts. -/
theorem Spells.getLast?_ne (h : Spells kind text base extension) :
  text.getLast? ≠ some '.'
  := by
  cases h with
  | plain hbase => exact fun dot => hbase.dot_notMem (List.mem_of_getLast? dot)
  | extended _ hextension =>
      rw [List.getLast?_append_of_ne_nil _ (List.cons_ne_nil _ _), List.getLast?_cons_of_ne_nil
        hextension.ne_nil]
      exact fun dot => hextension.dot_notMem (List.mem_of_getLast? dot)

theorem Spells.chars (h : Spells kind text base extension) :
  ∀ c ∈ text, isNameChar c = true
  := by
  have part {longest : Nat} {text : List Char} (h : IsPart longest text) :
      ∀ c ∈ text, isNameChar c = true := fun c hc => (isPartChar_iff.mp (h.chars c hc)).1
  cases h with
  | plain hbase => exact part hbase
  | extended hbase hextension =>
      intro c hc
      rcases List.mem_append.mp hc with hc | hc
      · exact part hbase c hc
      · rcases List.mem_cons.mp hc with rfl | hc
        · decide
        · exact part hextension c hc

theorem Spells.isPart (h : Spells kind text base extension) :
  IsPart 7 base ∧ extension.length ≤ maxExtension
  := by
  cases h with
  | plain hbase => exact ⟨hbase, Nat.zero_le _⟩
  | extended hbase hextension => exact ⟨hbase, hextension.length_le⟩

/-- The last dot divides a name into its parts. -/
theorem Spells.splitLastDot? (h : Spells kind text base extension) :
  (kind = .directory → (text, []) = (base, extension))
    ∧ (kind = .file → (Name.splitLastDot? text).getD (text, []) = (base, extension))
  := by
  cases h with
  | plain hbase => simp [splitLastDot?_of_notMem hbase.dot_notMem]
  | extended _ hextension => simp [splitLastDot?_append hextension.dot_notMem]

/-- The parts of a name are found. -/
theorem split_of_spells (h : Spells kind name.toList base extension) :
  split name kind = .ok (base, extension)
  := by
  have special : ¬(name == dot || name == dotdot) = true := by
    simp only [Bool.or_eq_true, beq_iff_eq, not_or]
    constructor
    · rintro rfl
      exact h.head?_ne rfl
    · rintro rfl
      exact h.head?_ne rfl
  have chars : ¬(!name.toList.all isNameChar) = true := by
    simpa using h.chars
  have final : ¬(kind == .file && name.toList.getLast? == some '.') = true := by
    simpa using fun _ => h.getLast?_ne
  obtain ⟨hbase, short⟩ := h.isPart
  have nonempty : ¬(base.isEmpty || base.contains '.') = true := by
    simpa using ⟨hbase.ne_nil, hbase.dot_notMem⟩
  have fits : ¬(base.length > maxBase || extension.length > maxExtension) = true := by
    simpa using ⟨hbase.length_le, short⟩
  have parts := h.splitLastDot?
  unfold split
  dsimp only
  rw [if_neg special, if_neg chars, if_neg final]
  cases kind with
  | directory =>
      obtain ⟨rfl, rfl⟩ := Prod.mk.inj (parts.1 rfl)
      rw [if_neg nonempty, if_neg fits]
  | file =>
      dsimp only
      rw [parts.2 rfl, if_neg nonempty, if_neg fits]

/-- A text is accepted exactly if it is a name, and taken apart into its parts. -/
theorem split_eq_ok_iff :
  split name kind = .ok (base, extension) ↔ Spells kind name.toList base extension
  := ⟨spells_of_split, split_of_spells⟩

theorem exists_split_iff :
  (∃ parts, split name kind = .ok parts) ↔ Grammatical kind name
  := by
  simp only [Prod.exists, split_eq_ok_iff, Grammatical]

end Name

/-! ### Names of stored records -/

namespace Record

variable {name : String} {kind : Kind}

/-- The record of an entry with an accepted name has this name when it is read back. -/
theorem exists_new_of_grammatical (h : Name.Grammatical kind name) (first : UInt16)
    (length : UInt32) (created : Timestamp) :
  ∃ r, new name kind first length created = .ok r ∧ r.occupied = true ∧ r.isDot = false
    ∧ r.fullName = name
  := by
  obtain ⟨base, extension, spells⟩ := h
  have hsplit := Name.split_of_spells spells
  have accepted := Name.accepted_of_split hsplit
  exact ⟨_, new_of_split first length created hsplit, rfl, isDot_made first length created accepted,
    fullName_made first length created accepted⟩

end Record

/-- The names that are accepted are those of the grammar.  Each of them comes back from the record
of its entry after it was stored, so entries with different names have different names on disk. -/
theorem names_survive_storing :
  (∀ name kind, (∃ parts, Name.split name kind = .ok parts) ↔ Name.Grammatical kind name)
  ∧ (∀ name kind, Name.Grammatical kind name → ∀ first length created,
      ∃ r, Record.new name kind first length created = .ok r
        ∧ (Record.ofBytes r.toBytes).occupied = true
        ∧ (Record.ofBytes r.toBytes).isDot = false
        ∧ (Record.ofBytes r.toBytes).fullName = name
        ∧ ∀ other, (Record.ofBytes r.toBytes).isNamed other = true ↔ other = name)
  ∧ (∀ name kind, Name.Grammatical kind name → ∀ first length created r,
      Record.new name kind first length created = .ok r →
    ∀ name' kind', Name.Grammatical kind' name' → ∀ first' length' created' r',
      Record.new name' kind' first' length' created' = .ok r' →
    (Record.ofBytes r.toBytes).fullName = (Record.ofBytes r'.toBytes).fullName → name = name')
  := by
  have stored (r : Record) : Record.ofBytes r.toBytes = r := r.ofBytes_toBytes
  refine ⟨fun _ _ => Name.exists_split_iff, ?back, ?apart⟩
  case back =>
    intro name kind h first length created
    obtain ⟨r, hnew, occupied, plain, full⟩ :=
      Record.exists_new_of_grammatical h first length created
    refine ⟨r, hnew, ?_⟩
    rw [stored]
    refine ⟨occupied, plain, full, fun other => ?_⟩
    rw [Record.isNamed, occupied, full, Bool.true_and, beq_iff_eq, eq_comm]
  case apart =>
    intro name kind h first length created r hr name' kind' h' first' length' created' r' hr' same
    obtain ⟨made, hmade, -, -, full⟩ := Record.exists_new_of_grammatical h first length created
    obtain ⟨made', hmade', -, -, full'⟩ :=
      Record.exists_new_of_grammatical h' first' length' created'
    obtain rfl := Except.ok.inj (hr.symm.trans hmade)
    obtain rfl := Except.ok.inj (hr'.symm.trans hmade')
    rw [stored, stored, full, full'] at same
    exact same

/-- A file `notes.txt` can stand beside a directory `notes`: neither name becomes the other. -/
theorem names_survive_storing_beside :
  Name.Grammatical .file "notes.txt" ∧ Name.Grammatical .directory "notes"
  ∧ ¬Name.Grammatical .directory "notes.txt"
  ∧ ∃ r, Record.new "notes.txt" .file 7 0 default = .ok r
    ∧ (Record.ofBytes r.toBytes).isNamed "notes.txt" = true
    ∧ (Record.ofBytes r.toBytes).isNamed "notes" = false
  := by
  obtain ⟨accepts, back, -⟩ := names_survive_storing
  have file := (accepts "notes.txt" .file).mp ⟨(['n', 'o', 't', 'e', 's'], ['t', 'x', 't']), by decide⟩
  have directory := (accepts "notes" .directory).mp ⟨(['n', 'o', 't', 'e', 's'], []), by decide⟩
  have refused : ¬Name.Grammatical .directory "notes.txt" := by
    rw [← accepts]
    rintro ⟨parts, hparts⟩
    have error : Name.split "notes.txt" .directory = .error .invalidName := by decide
    cases error.symm.trans hparts
  obtain ⟨r, hnew, -, -, -, named⟩ := back "notes.txt" .file file 7 0 default
  refine ⟨file, directory, refused, r, hnew, (named _).mpr rfl, ?_⟩
  apply Bool.eq_false_iff.mpr
  exact mt (named _).mp (by decide)

end FatVolume
