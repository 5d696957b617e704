import FatVolume.Proofs.AsciiText
import FatVolume.Tree.Record

/-!
# The names of records

A name that is accepted for an entry comes back from the record of the entry, and it is one
that a path can be followed by: not empty, without a slash, and none of the two names that
a directory has for itself and its parent.
-/

namespace FatVolume

/-! ### Fields -/

namespace Bytes

/-- Zeros that follow are taken away with those at the end. -/
theorem trimZeros_append_replicate_zero (bytes : Bytes) (n : Nat) :
  trimZeros (bytes ++ List.replicate n 0) = trimZeros bytes
  := by
  rw [trimZeros, List.reverse_append, List.reverse_replicate,
    List.dropWhile_append_of_pos (by simp)]
  rfl

/-- Padding is taken off again from bytes that fit and are not zero. -/
theorem trimZeros_padded {n : Nat} {bytes : Bytes} (fits : bytes.length ≤ n)
    (nonzero : ∀ b ∈ bytes, b ≠ 0) :
  trimZeros (padded n bytes).toList = bytes
  := by
  rw [toList_padded, List.take_of_length_le fits, trimZeros_append_replicate_zero, trimZeros]
  have kept : bytes.reverse.dropWhile (· == 0) = bytes.reverse := by
    apply List.dropWhile_eq_self_iff.mpr
    intro h
    have mem := List.mem_reverse.mp (List.getElem_mem h)
    simpa using nonzero _ mem
  rw [kept, List.reverse_reverse]

end Bytes

/-! ### Accepted names -/

namespace Name

/-- A name by which a path can go on: neither empty nor divided by a slash, and not a name that
a directory has for itself or its parent. -/
def Plain (name : String) : Prop :=
  name ≠ "" ∧ '/' ∉ name.toList ∧ name ≠ dot ∧ name ≠ dotdot

instance (name : String) : Decidable (Plain name) :=
  inferInstanceAs (Decidable (_ ∧ _ ∧ _ ∧ _))

theorem eq_of_splitLastDot? {text base extension : List Char}
    (h : splitLastDot? text = some (base, extension)) :
  text = base ++ '.' :: extension
  := by
  unfold splitLastDot? at h
  have parts := congrArg List.reverse (List.takeWhile_append_dropWhile (p := (· != '.'))
    (l := text.reverse))
  rw [List.span_eq_takeWhile_dropWhile] at h
  split at h
  · next extension' stop base' hspan =>
      obtain ⟨hext, hbase⟩ := Prod.mk.inj hspan
      have dotted : (stop != '.') = false := by
        have := List.head?_dropWhile_not (· != '.') text.reverse
        rw [hbase] at this
        simpa using this
      obtain ⟨rfl, rfl⟩ := Prod.mk.inj (Option.some.inj h)
      rw [hext, hbase, List.reverse_append, List.reverse_reverse] at parts
      simp only [bne_eq_false_iff_eq] at dotted
      rw [← parts, dotted]
      simp
  · exact absurd h (by simp)

/-- What `Name.split` accepts: ASCII characters that can stand in a path, in a base of bounded
length without dots, and for a file possibly an extension after one more dot. -/
structure Accepted (name : String) (kind : Kind) (base extension : List Char) : Prop where
  chars : ∀ c ∈ name.toList, isNameChar c = true
  parts : name.toList = if extension = [] then base else base ++ '.' :: extension
  base_ne_nil : base ≠ []
  dot_notMem : '.' ∉ base
  length_base : base.length ≤ maxBase
  length_extension : extension.length ≤ maxExtension
  extension_eq_nil : kind = .directory → extension = []

theorem accepted_of_split {name : String} {kind : Kind} {base extension : List Char}
    (h : split name kind = .ok (base, extension)) :
  Accepted name kind base extension
  := by
  unfold split at h
  dsimp only at h
  split_ifs at h with special chars final baseWrong tooLong
  obtain ⟨rfl, rfl⟩ := Prod.mk.inj (Except.ok.inj h)
  simp only [Bool.or_eq_true, List.isEmpty_iff, List.contains_eq_mem, decide_eq_true_eq,
    not_or] at baseWrong tooLong
  constructor
  · simpa using chars
  · cases kind with
    | directory => rfl
    | file =>
        dsimp only
        cases hlast : splitLastDot? name.toList with
        | none => rfl
        | some parts =>
            obtain ⟨base, extension⟩ := parts
            have whole := eq_of_splitLastDot? hlast
            have : extension ≠ [] := by
              rintro rfl
              simp [whole] at final
            rw [Option.getD_some, if_neg this]
            apply whole
  · apply baseWrong.1
  · apply baseWrong.2
  · omega
  · omega
  · rintro rfl
    rfl

namespace Accepted

variable {name : String} {kind : Kind} {base extension : List Char}

theorem lt_of_mem (h : Accepted name kind base extension) {c : Char} (hc : c ∈ name.toList) :
  0 < c.toNat ∧ c.toNat < 0x80 ∧ c ≠ '/'
  := by
  have := h.chars c hc
  simp only [isNameChar, Bool.and_eq_true, decide_eq_true_eq, bne_iff_ne] at this
  refine ⟨?_, this.1.1.1.1.1.1.1, this.2⟩
  apply Nat.pos_of_ne_zero
  intro zero
  apply this.1.1.1.1.1.1.2
  apply Char.toNat_inj.mp zero

theorem mem_of_mem_base (h : Accepted name kind base extension) {c : Char} (hc : c ∈ base) :
  c ∈ name.toList
  := by
  rw [h.parts]
  split
  · exact hc
  · exact List.mem_append_left _ hc

theorem mem_of_mem_extension (h : Accepted name kind base extension) {c : Char}
    (hc : c ∈ extension) :
  c ∈ name.toList
  := by
  rw [h.parts, if_neg (List.ne_nil_of_mem hc)]
  apply List.mem_append_right _ (List.mem_cons_of_mem _ hc)

theorem ascii_base (h : Accepted name kind base extension) :
  ∀ c ∈ base, 0 < c.toNat ∧ c.toNat < 0x80
  := by
  intro c hc
  have := h.lt_of_mem (h.mem_of_mem_base hc)
  exact ⟨this.1, this.2.1⟩

theorem ascii_extension (h : Accepted name kind base extension) :
  ∀ c ∈ extension, 0 < c.toNat ∧ c.toNat < 0x80
  := by
  intro c hc
  have := h.lt_of_mem (h.mem_of_mem_extension hc)
  exact ⟨this.1, this.2.1⟩

/-- An accepted name begins with a character other than the dot. -/
theorem exists_cons (h : Accepted name kind base extension) :
  ∃ c rest, name.toList = c :: rest ∧ c ≠ '.'
  := by
  have parts := h.parts
  have dots := h.dot_notMem
  cases base with
  | nil => exact absurd rfl h.base_ne_nil
  | cons c base =>
      have hc : c ≠ '.' := by
        rintro rfl
        apply dots List.mem_cons_self
      split at parts
      · exact ⟨c, base, parts, hc⟩
      · exact ⟨c, _, parts, hc⟩

theorem plain (h : Accepted name kind base extension) :
  Plain name
  := by
  obtain ⟨c, rest, hname, hc⟩ := h.exists_cons
  refine ⟨?_, ?_, ?_, ?_⟩
  · rintro rfl
    simp at hname
  · intro slash
    apply (h.lt_of_mem slash).2.2 rfl
  · rintro rfl
    apply hc (List.cons.inj hname).1.symm
  · rintro rfl
    apply hc (List.cons.inj hname).1.symm

end Accepted

end Name

/-! ### Names of records -/

namespace Record

theorem eq_of_mem_dot {name : String} (h : name = Name.dot ∨ name = Name.dotdot) {c : Char}
    (hc : c ∈ name.toList) :
  c = '.'
  := by
  rcases h with rfl | rfl
  · simpa [Name.dot] using hc
  · simpa [Name.dotdot] using hc

theorem isAscii_of_dot {name : String} (h : name = Name.dot ∨ name = Name.dotdot) :
  Utf8.IsAscii name.toList
  := by
  intro c hc
  rw [eq_of_mem_dot h hc]
  decide

theorem baseName_eq_iff {text : List Char} (h : Utf8.IsAscii text) (r : Record) :
  r.baseName = String.ofList text
    ↔ Bytes.trimZeros r.name.toList = Utf8.encode (String.ofList text)
  := Utf8.decodeLossy_eq_iff h _

/-- The record of a directory for itself or its parent is recognised by its base name. -/
theorem isDot_iff (r : Record) :
  r.isDot = true ↔ r.baseName = Name.dot ∨ r.baseName = Name.dotdot
  := by
  have self := baseName_eq_iff (isAscii_of_dot (.inl rfl)) r
  have up := baseName_eq_iff (isAscii_of_dot (.inr rfl)) r
  rw [String.ofList_toList] at self up
  simp only [isDot, Bool.or_eq_true, beq_iff_eq, self, up]

/-- A directory has no extension in its name. -/
theorem fullName_of_isDirectory {r : Record} (h : r.isDirectory = true) :
  r.fullName = r.baseName
  := by
  simp [fullName, h]

theorem trimZeros_encode {n : Nat} {text : List Char}
    (ascii : ∀ c ∈ text, 0 < c.toNat ∧ c.toNat < 0x80) (fits : text.length ≤ n) :
  Bytes.trimZeros (Bytes.padded n (Utf8.encode (String.ofList text))).toList
    = Utf8.encode (String.ofList text)
  := by
  rw [Utf8.encode_of_isAscii fun c hc => (ascii c hc).2]
  apply Bytes.trimZeros_padded
  · simpa using fits
  · intro b hb zero
    obtain ⟨c, hc, rfl⟩ := List.mem_map.mp hb
    have := congrArg UInt8.toNat zero
    rw [UInt8.toNat_ofNat_of_lt' (Nat.lt_trans (ascii c hc).2 (by decide))] at this
    have := (ascii c hc).1
    simp_all

/-- The record with a base and an extension that `Record.new` makes. -/
def made (base extension : List Char) (kind : Kind) (first : UInt16) (length : UInt32)
    (created : Timestamp) : Record where
  name := Bytes.padded 8 (Utf8.encode (String.ofList base))
  extension := Bytes.padded 3 (Utf8.encode (String.ofList extension))
  kind
  occupied := true
  time := created.time.pack
  date := created.date.pack
  first
  length

section Made

variable {name : String} {kind : Kind} {base extension : List Char} (first : UInt16)
  (length : UInt32) (created : Timestamp)

theorem new_of_split (h : Name.split name kind = .ok (base, extension)) :
  new name kind first length created = .ok (made base extension kind first length created)
  := by
  have special : (name == Name.dot || name == Name.dotdot) = false := by
    obtain ⟨-, -, dot, dotdot⟩ := (Name.accepted_of_split h).plain
    simp [dot, dotdot]
  rw [new, special, if_neg (by simp), h]
  rfl

/-- The names of a directory for itself and its parent are taken as they are. -/
theorem new_of_dot (h : name = Name.dot ∨ name = Name.dotdot) :
  new name kind first length created = .ok (made name.toList [] kind first length created)
  := by
  have special : (name == Name.dot || name == Name.dotdot) = true := by
    simpa using h
  rw [new, special, if_pos rfl]
  rfl

theorem baseName_made (ascii : ∀ c ∈ base, 0 < c.toNat ∧ c.toNat < 0x80)
    (fits : base.length ≤ 8) :
  (made base extension kind first length created).baseName = String.ofList base
  := by
  rw [baseName_eq_iff fun c hc => (ascii c hc).2]
  apply trimZeros_encode ascii fits

theorem baseName_made_dot (h : name = Name.dot ∨ name = Name.dotdot) :
  (made name.toList [] kind first length created).baseName = name
  := by
  rw [baseName_made]
  · apply String.ofList_toList
  · intro c hc
    rw [eq_of_mem_dot h hc]
    decide
  · rcases h with rfl | rfl
    · simp [Name.dot]
    · simp [Name.dotdot]

variable (h : Name.Accepted name kind base extension)
include h

/-- The record of an entry with an accepted name has this name. -/
theorem fullName_made :
  (made base extension kind first length created).fullName = name
  := by
  have hbase : (made base extension kind first length created).baseName = String.ofList base :=
    baseName_made first length created h.ascii_base (Nat.le_succ_of_le h.length_base)
  have hextension := trimZeros_encode h.ascii_extension h.length_extension
  have parts := h.parts
  apply String.toList_inj.mp
  unfold fullName
  by_cases plain : extension = []
  · rw [if_pos plain] at parts
    subst plain
    have short : (Bytes.trimZeros
        (made base [] kind first length created).extension.toList).isEmpty = true := by
      rw [made, hextension]
      rfl
    rw [short, Bool.or_true, if_pos rfl, hbase, parts, String.toList_ofList]
  · rw [if_neg plain] at parts
    have file : (made base extension kind first length created).isDirectory = false := by
      cases kind with
      | directory => exact absurd (h.extension_eq_nil rfl) plain
      | file => rfl
    have long : (Bytes.trimZeros
        (made base extension kind first length created).extension.toList).isEmpty = false := by
      rw [made, hextension, Utf8.encode_of_isAscii fun c hc => (h.ascii_extension c hc).2]
      simpa using plain
    have extensionName :
        (made base extension kind first length created).extensionName = String.ofList extension := by
      apply (Utf8.decodeLossy_eq_iff (fun c hc => (h.ascii_extension c hc).2) _).mpr
      apply hextension
    rw [file, long, Bool.or_false, if_neg (by simp), hbase, extensionName, parts]
    change (String.ofList base ++ "." ++ String.ofList extension).toList = _
    simp

/-- An entry with an accepted name is not taken for that of a directory for itself or its
parent. -/
theorem isDot_made :
  (made base extension kind first length created).isDot = false
  := by
  apply Bool.eq_false_iff.mpr
  rw [Ne, isDot_iff, baseName_made first length created h.ascii_base (Nat.le_succ_of_le h.length_base)]
  intro dots
  obtain ⟨c, hc⟩ := List.exists_mem_of_ne_nil base h.base_ne_nil
  have : c = '.' := by
    apply eq_of_mem_dot dots
    rwa [String.toList_ofList]
  apply h.dot_notMem
  rwa [← this]

end Made

end Record

end FatVolume
