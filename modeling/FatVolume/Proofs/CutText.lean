import FatVolume.Bytes
import FatVolume.Proofs.AsciiText

/-!
# Cut text

A decoder reads every character back from its encoding.  The encoding of a text that is cut after a
number of bytes ends with whole characters or with the beginning of one; such a beginning is one
malformed stretch, however many of its bytes are left.  Zeros at the end of an encoded text are the
null characters at its end.
-/

namespace FatVolume.Utf8

/-! ### Characters of several bytes -/

/-- The bytes complete a pending character to the one with the given number. -/
inductive Pending.Completes : Pending → List UInt8 → Nat → Prop
  | last {p : Pending} {b : UInt8} {n : Nat} (missing : p.missing = 1) (low : p.low ≤ b)
      (high : b ≤ p.high) (number : p.bits * 64 + b.toNat % 64 = n) : p.Completes [b] n
  | next {p : Pending} {b : UInt8} {rest : List UInt8} {n : Nat} (missing : 1 < p.missing)
      (low : p.low ≤ b) (high : b ≤ p.high)
      (hrest : Completes ⟨p.missing - 1, 0x80, 0xBF, p.bits * 64 + b.toNat % 64⟩ rest n) :
      p.Completes (b :: rest) n

namespace Pending.Completes

variable {p : Pending} {bytes : List UInt8} {n : Nat}

theorem foldl_feed (h : p.Completes bytes n) (pieces : List (Option Char)) :
  bytes.foldl Decoder.feed ⟨pieces, some p⟩ = ⟨some (Char.ofNat n) :: pieces, none⟩
  := by
  induction h with
  | last missing low high number =>
      simp [Decoder.feed, low, high, missing, number]
  | next missing low high _ ih =>
      rw [List.foldl_cons, ← ih]
      simp [Decoder.feed, low, high, Nat.not_le.mpr missing]

/-- Before the last of its bytes a character stays pending. -/
theorem exists_pending (h : p.Completes bytes n) {count : Nat} (short : count < bytes.length)
    (pieces : List (Option Char)) :
  ∃ p', (bytes.take count).foldl Decoder.feed ⟨pieces, some p⟩ = ⟨pieces, some p'⟩
  := by
  induction h generalizing count with
  | last _ _ _ _ =>
      obtain rfl : count = 0 := by simpa using short
      exact ⟨_, rfl⟩
  | next missing low high _ ih =>
      cases count with
      | zero => exact ⟨_, rfl⟩
      | succ count =>
          obtain ⟨p', hp'⟩ := ih (Nat.lt_of_succ_lt_succ short)
          refine ⟨p', ?_⟩
          rw [List.take_succ_cons, List.foldl_cons, ← hp']
          simp [Decoder.feed, low, high, Nat.not_le.mpr missing]

end Pending.Completes

/-! The first byte of a character of two, three and four bytes. -/

theorem lead_two {n : Nat} (h : 2 ≤ n) (h' : n < 32) :
  lead (UInt8.ofNat (n + 0xC0)) = .multi ⟨1, 0x80, 0xBF, n⟩
  := by
  interval_cases n <;> rfl

theorem lead_three {n : Nat} (h : n < 16) :
  lead (UInt8.ofNat (n + 0xE0))
    = .multi ⟨2, if n = 0 then 0xA0 else 0x80, if n = 13 then 0x9F else 0xBF, n⟩
  := by
  interval_cases n <;> rfl

theorem lead_four {n : Nat} (h : n < 5) :
  lead (UInt8.ofNat (n + 0xF0))
    = .multi ⟨3, if n = 0 then 0x90 else 0x80, if n = 4 then 0x8F else 0xBF, n⟩
  := by
  interval_cases n <;> rfl

theorem toNat_continuation (n : Nat) :
  (UInt8.ofNat (n % 64 + 0x80)).toNat = n % 64 + 0x80
  := by
  apply UInt8.toNat_ofNat_of_lt'
  change n % 64 + 0x80 < 256
  omega

theorem toNat_continuation_mod (n : Nat) :
  (UInt8.ofNat (n % 64 + 0x80)).toNat % 64 = n % 64
  := by
  rw [toNat_continuation]
  omega

namespace Pending.Completes

variable {low high : UInt8} {bits n number missing : Nat} {rest : List UInt8}

/-- The lowest six bits come last. -/
theorem of_last (hlow : low.toNat ≤ n % 64 + 0x80) (hhigh : n % 64 + 0x80 ≤ high.toNat)
    (same : bits * 64 + n % 64 = number) :
  Completes ⟨1, low, high, bits⟩ [UInt8.ofNat (n % 64 + 0x80)] number
  := by
  apply last rfl
  · rwa [UInt8.le_iff_toNat_le, toNat_continuation]
  · rwa [UInt8.le_iff_toNat_le, toNat_continuation]
  · rw [toNat_continuation_mod, same]

theorem of_next (hlow : low.toNat ≤ n % 64 + 0x80) (hhigh : n % 64 + 0x80 ≤ high.toNat)
    (h : Completes ⟨missing + 1, 0x80, 0xBF, bits * 64 + n % 64⟩ rest number) :
  Completes ⟨missing + 2, low, high, bits⟩ (UInt8.ofNat (n % 64 + 0x80) :: rest) number
  := by
  apply next (Nat.lt_add_left missing (by decide))
  · rwa [UInt8.le_iff_toNat_le, toNat_continuation]
  · rwa [UInt8.le_iff_toNat_le, toNat_continuation]
  · rwa [toNat_continuation_mod]

end Pending.Completes

/-- The bytes after the first complete a character past the ASCII range. -/
theorem exists_completes {c : Char} (h : 0x80 ≤ c.toNat) :
  ∃ b rest p, String.utf8EncodeChar c = b :: rest ∧ lead b = .multi p ∧ p.Completes rest c.toNat
  := by
  have valid : c.toNat < 0xD800 ∨ 0xDFFF < c.toNat ∧ c.toNat < 0x110000 := c.valid
  have number : c.val.toNat = c.toNat := rfl
  have least (n : Nat) : (0x80 : UInt8).toNat ≤ n % 64 + 0x80 := Nat.le_add_left _ _
  have greatest (n : Nat) : n % 64 + 0x80 ≤ (0xBF : UInt8).toNat := by
    change n % 64 + 0x80 ≤ 0xBF
    omega
  unfold String.utf8EncodeChar
  simp only [number]
  generalize c.toNat = n at h valid
  rw [if_neg (by omega)]
  split_ifs with two three
  · rw [Nat.mod_eq_of_lt (by omega : n / 64 < 32)]
    refine ⟨_, _, _, rfl, lead_two (by omega) (by omega), ?_⟩
    exact .of_last (least n) (greatest n) (by omega)
  · rw [Nat.mod_eq_of_lt (by omega : n / 4096 < 16)]
    refine ⟨_, _, _, rfl, lead_three (by omega), ?_⟩
    apply Pending.Completes.of_next
    · split_ifs <;> simp only [UInt8.reduceToNat] <;> omega
    · split_ifs <;> simp only [UInt8.reduceToNat] <;> omega
    · exact .of_last (least n) (greatest n) (by omega)
  · rw [Nat.mod_eq_of_lt (by omega : n / 262144 < 8)]
    refine ⟨_, _, _, rfl, lead_four (by omega), ?_⟩
    apply Pending.Completes.of_next
    · split_ifs <;> simp only [UInt8.reduceToNat] <;> omega
    · split_ifs <;> simp only [UInt8.reduceToNat] <;> omega
    · apply Pending.Completes.of_next (least _) (greatest _)
      exact .of_last (least n) (greatest n) (by omega)

/-! ### Encoded text -/

/-- A character is read back from its encoding, whatever follows. -/
theorem pieces_encodeChar_append (c : Char) (more : List UInt8) :
  pieces (String.utf8EncodeChar c ++ more) = some c :: pieces more
  := by
  rcases Nat.lt_or_ge c.toNat 0x80 with ascii | past
  · have value : (UInt8.ofNat c.toNat).toNat = c.toNat :=
      UInt8.toNat_ofNat_of_lt' (Nat.lt_trans ascii (by decide))
    rw [utf8EncodeChar_of_lt ascii, List.singleton_append, pieces_cons_of_lt (by rwa [value]),
      value, Char.ofNat_toNat]
  · obtain ⟨b, rest, p, henc, hlead, completes⟩ := exists_completes past
    rw [henc, pieces, List.foldl_append, List.foldl_cons, Decoder.feed, Decoder.start, hlead]
    dsimp only
    rw [completes.foldl_feed, Decoder.finish_foldl_feed, Char.ofNat_toNat]
    rfl

theorem pieces_flatMap_append (text : List Char) (more : List UInt8) :
  pieces (text.flatMap String.utf8EncodeChar ++ more) = text.map some ++ pieces more
  := by
  induction text with
  | nil => rfl
  | cons c text ih =>
      rw [List.flatMap_cons, List.append_assoc, pieces_encodeChar_append, ih]
      rfl

/-- A text is read back from its encoding. -/
theorem decodeLossy_flatMap (text : List Char) :
  decodeLossy (text.flatMap String.utf8EncodeChar) = String.ofList text
  := by
  have read := pieces_flatMap_append text []
  rw [List.append_nil] at read
  rw [decodeLossy, read]
  simp [pieces, Decoder.finish]

/-! ### Cut characters -/

/-- The bytes are the beginning of the encoding of a character, neither empty nor all of it. -/
def IsCut (bytes : List UInt8) : Prop :=
  ∃ c count, 0 < count ∧ count < (String.utf8EncodeChar c).length
    ∧ bytes = (String.utf8EncodeChar c).take count

/-- The null character apart, no byte of a character is zero. -/
theorem ne_zero_of_mem_encodeChar {c : Char} (h : c ≠ '\x00') {b : UInt8}
    (hb : b ∈ String.utf8EncodeChar c) :
  b ≠ 0
  := by
  have positive : c.toNat ≠ 0 := fun zero => h (Char.toNat_inj.mp zero)
  have number : c.val.toNat = c.toNat := rfl
  have bound : c.toNat < 0x110000 := by
    have valid : c.toNat < 0xD800 ∨ 0xDFFF < c.toNat ∧ c.toNat < 0x110000 := c.valid
    omega
  have nonzero (n : Nat) (hn : n ≠ 0) (hlt : n < 256) : UInt8.ofNat n ≠ 0 := by
    intro zero
    apply hn
    rw [← UInt8.toNat_ofNat_of_lt' hlt, zero]
    rfl
  unfold String.utf8EncodeChar at hb
  simp only [number] at hb
  split_ifs at hb
  all_goals
    simp only [List.mem_cons, List.not_mem_nil, or_false] at hb
    rcases hb with rfl | rfl | rfl | rfl <;> apply nonzero <;> omega

/-- What is left of a cut character is malformed. -/
theorem IsCut.pieces {bytes : List UInt8} (h : IsCut bytes) :
  Utf8.pieces bytes = [none]
  := by
  obtain ⟨c, count, positive, short, rfl⟩ := h
  have past : 0x80 ≤ c.toNat := by
    by_contra ascii
    rw [utf8EncodeChar_of_lt (Nat.lt_of_not_le ascii), List.length_singleton] at short
    omega
  obtain ⟨b, rest, p, henc, hlead, completes⟩ := exists_completes past
  obtain ⟨count, rfl⟩ := Nat.exists_eq_succ_of_ne_zero positive.ne'
  rw [henc, List.length_cons] at short
  obtain ⟨p', pending⟩ := completes.exists_pending (Nat.lt_of_succ_lt_succ short) []
  rw [henc, List.take_succ_cons, Utf8.pieces, List.foldl_cons, Decoder.feed, Decoder.start, hlead]
  dsimp only
  rw [pending]
  rfl

/-- A text with a cut character after it is read with a replacement character there. -/
theorem IsCut.decodeLossy_append {bytes : List UInt8} (h : IsCut bytes) (text : List Char) :
  decodeLossy (text.flatMap String.utf8EncodeChar ++ bytes) = String.ofList (text ++ ['\uFFFD'])
  := by
  rw [decodeLossy, pieces_flatMap_append, h.pieces]
  simp

theorem IsCut.length_lt {bytes : List UInt8} (h : IsCut bytes) :
  0 < bytes.length ∧ bytes.length < 4
  := by
  obtain ⟨c, count, positive, short, rfl⟩ := h
  have four := c.utf8Size_le_four
  rw [← String.length_utf8EncodeChar] at four
  rw [List.length_take]
  omega

/-- Cutting the encoding of a text leaves some first characters and possibly a cut one. -/
theorem exists_take_flatMap (text : List Char) (count : Nat) :
  ∃ (before : List Char) (rest : List UInt8), (text.flatMap String.utf8EncodeChar).take count
      = before.flatMap String.utf8EncodeChar ++ rest
    ∧ (rest = [] ∨ IsCut rest ∧ (before.flatMap String.utf8EncodeChar ++ rest).length = count)
  := by
  induction text generalizing count with
  | nil => exact ⟨[], [], by simp, .inl rfl⟩
  | cons c text ih =>
      rcases Nat.lt_or_ge count (String.utf8EncodeChar c).length with inside | beyond
      · rw [List.flatMap_cons, List.take_append_of_le_length inside.le]
        rcases Nat.eq_zero_or_pos count with rfl | positive
        · exact ⟨[], [], rfl, .inl rfl⟩
        · refine ⟨[], _, rfl, .inr ⟨⟨c, count, positive, inside, rfl⟩, ?_⟩⟩
          rw [List.flatMap_nil, List.nil_append, List.length_take, Nat.min_eq_left inside.le]
      · obtain ⟨before, rest, split, whole⟩ := ih (count - (String.utf8EncodeChar c).length)
        refine ⟨c :: before, rest, ?_, whole.imp_right fun cut => ⟨cut.1, ?_⟩⟩
        · rw [List.flatMap_cons, List.take_append, List.take_of_length_le beyond, split,
            List.flatMap_cons, List.append_assoc]
        · rw [List.flatMap_cons, List.append_assoc, List.length_append, cut.2]
          omega

/-! ### Zeros at the end -/

/-- Nothing is taken away where the last byte is not zero. -/
theorem trimZeros_append {bytes rest : List UInt8} (nonempty : rest ≠ [])
    (nonzero : ∀ b ∈ rest, b ≠ 0) :
  Bytes.trimZeros (bytes ++ rest) = bytes ++ rest
  := by
  obtain ⟨first, final, rfl⟩ : ∃ first final, rest = first ++ [final] :=
    ⟨_, _, (List.dropLast_append_getLast nonempty).symm⟩
  have final_ne : final ≠ 0 := nonzero final (by simp)
  rw [← List.append_assoc]
  exact List.rdropWhile_concat_neg _ _ _ (by simpa using final_ne)

theorem IsCut.trimZeros_append {bytes : List UInt8} (h : IsCut bytes) (before : List UInt8) :
  Bytes.trimZeros (before ++ bytes) = before ++ bytes
  := by
  apply Utf8.trimZeros_append (List.ne_nil_of_length_pos h.length_lt.1)
  obtain ⟨c, count, positive, short, rfl⟩ := h
  intro b hb
  apply ne_zero_of_mem_encodeChar _ (List.mem_of_mem_take hb)
  rintro rfl
  rw [show (String.utf8EncodeChar '\x00').length = 1 from rfl] at short
  omega

/-- The null characters at the end of a text are all that is taken away from its encoding. -/
theorem trimZeros_flatMap (text : List Char) :
  Bytes.trimZeros (text.flatMap String.utf8EncodeChar)
    = (text.rdropWhile (· == '\x00')).flatMap String.utf8EncodeChar
  := by
  induction text using List.reverseRecOn with
  | nil => rfl
  | append_singleton text c ih =>
      rw [List.flatMap_append, List.flatMap_singleton]
      by_cases null : c = '\x00'
      · subst null
        rw [List.rdropWhile_concat_pos _ _ _ (by simp), ← ih]
        exact List.rdropWhile_concat_pos _ _ _ (by decide)
      · rw [List.rdropWhile_concat_neg _ _ _ (by simpa using null), List.flatMap_append,
          List.flatMap_singleton]
        apply trimZeros_append (by simp)
        intro b
        apply ne_zero_of_mem_encodeChar null

end FatVolume.Utf8
