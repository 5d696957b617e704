import Mathlib
import FatVolume.Text.Utf8

/-!
# ASCII text in UTF-8

An ASCII character is encoded by the one byte of its number.  A decoder reads it from that byte
and from nothing else: what it makes of longer sequences of bytes is never an ASCII character.
So ASCII text is read from its own encoding and from no other bytes, malformed ones included.
-/

namespace FatVolume.Utf8

/-- A text of ASCII characters. -/
def IsAscii (text : List Char) : Prop :=
  ∀ c ∈ text, c.toNat < 0x80

theorem utf8EncodeChar_of_lt {c : Char} (h : c.toNat < 0x80) :
  String.utf8EncodeChar c = [UInt8.ofNat c.toNat]
  := by
  have small : c.val.toNat ≤ 0x7F := Nat.le_of_lt_succ h
  simp only [String.utf8EncodeChar, small, if_true]
  rfl

/-- Each character of an ASCII text becomes one byte. -/
theorem encode_of_isAscii {text : List Char} (h : IsAscii text) :
  encode (String.ofList text) = text.map fun c => UInt8.ofNat c.toNat
  := by
  rw [encode, String.toList_ofList]
  induction text with
  | nil => rfl
  | cons c text ih =>
      rw [List.flatMap_cons, List.map_cons, utf8EncodeChar_of_lt (h c (by simp)),
        ih fun d hd => h d (List.mem_cons_of_mem _ hd)]
      rfl

namespace Decoder

theorem start_append (pieces before : List (Option Char)) (b : UInt8) :
  start (pieces ++ before) b = ⟨(start pieces b).pieces ++ before, (start pieces b).pending⟩
  := by
  unfold start
  cases lead b <;> rfl

/-- The pieces read before do not matter to the reading of a byte. -/
theorem feed_append (pieces before : List (Option Char)) (pending : Option Pending) (b : UInt8) :
  feed ⟨pieces ++ before, pending⟩ b
    = ⟨(feed ⟨pieces, pending⟩ b).pieces ++ before, (feed ⟨pieces, pending⟩ b).pending⟩
  := by
  cases pending with
  | none => apply start_append
  | some p =>
      simp only [feed]
      split_ifs
      · rfl
      · rfl
      · apply start_append (none :: pieces)

theorem foldl_feed_append (bytes : List UInt8) (pieces before : List (Option Char))
    (pending : Option Pending) :
  bytes.foldl feed ⟨pieces ++ before, pending⟩
    = ⟨(bytes.foldl feed ⟨pieces, pending⟩).pieces ++ before,
        (bytes.foldl feed ⟨pieces, pending⟩).pending⟩
  := by
  induction bytes generalizing pieces pending with
  | nil => rfl
  | cons b bytes ih => rw [List.foldl_cons, List.foldl_cons, feed_append, ih]

/-- What is read after some pieces comes after them. -/
theorem finish_foldl_feed (bytes : List UInt8) (before : List (Option Char))
    (pending : Option Pending) :
  (bytes.foldl feed ⟨before, pending⟩).finish
    = before.reverse ++ (bytes.foldl feed ⟨[], pending⟩).finish
  := by
  have parts := foldl_feed_append bytes [] before pending
  rw [List.nil_append] at parts
  rw [parts]
  unfold finish
  split <;> simp

end Decoder

/-- The character whose bits are all read but for the last six is one above the ASCII range. -/
def AboveAscii (bits : Nat) : Prop :=
  2 ≤ bits ∧ bits < 0x4400 ∧ ¬(0x360 ≤ bits ∧ bits < 0x380)

/-- However a character that has been begun goes on, it is none of the ASCII range. -/
def Pending.NotAscii (p : Pending) : Prop :=
  match p.missing with
  | 1 => AboveAscii p.bits
  | 2 => ∀ b, p.low ≤ b → b ≤ p.high → AboveAscii (p.bits * 64 + b.toNat % 64)
  | 3 => ∀ b, p.low ≤ b → b ≤ p.high →
      16 ≤ p.bits * 64 + b.toNat % 64 ∧ p.bits * 64 + b.toNat % 64 < 0x110
  | _ => False

theorem toNat_ofNat_of_aboveAscii {bits low : Nat} (h : AboveAscii bits) (hlow : low < 64) :
  0x80 ≤ (Char.ofNat (bits * 64 + low)).toNat
  := by
  unfold AboveAscii at h
  have valid : (bits * 64 + low).isValidChar := by
    unfold Nat.isValidChar
    omega
  rw [Char.toNat_ofNat, if_pos valid]
  omega

/-- A first byte past the ASCII range begins no ASCII character. -/
theorem lead_of_ge {b : UInt8} (h : 0x80 ≤ b.toNat) :
  lead b = .malformed ∨ ∃ p, lead b = .multi p ∧ p.NotAscii
  := by
  have high : b.toNat < 256 := b.toNat_lt
  unfold lead
  simp only [UInt8.lt_iff_toNat_lt, beq_iff_eq, ← UInt8.toNat_inj, UInt8.reduceToNat]
  rw [if_neg (by omega)]
  split_ifs
  all_goals first
    | exact .inl rfl
    | refine .inr ⟨_, rfl, ?_⟩
  all_goals
    simp only [Pending.NotAscii, AboveAscii, UInt8.le_iff_toNat_le, UInt8.reduceToNat]
  case pos => omega
  all_goals
    intro c _ _
    omega

/-- A piece that is malformed or a character past the ASCII range. -/
def PastAscii (piece : Option Char) : Prop :=
  ∀ c, piece = some c → 0x80 ≤ c.toNat

/-- A character begun past the ASCII range is read as a piece past it. -/
theorem finish_of_notAscii (bytes : List UInt8) {p : Pending} (h : p.NotAscii) :
  ∃ piece rest, (bytes.foldl Decoder.feed ⟨[], some p⟩).finish = piece :: rest ∧ PastAscii piece
  := by
  induction bytes generalizing p with
  | nil => exact ⟨none, [], rfl, by simp [PastAscii]⟩
  | cons b bytes ih =>
      obtain ⟨missing, low, high, bits⟩ := p
      have six : b.toNat % 64 < 64 := Nat.mod_lt _ (by decide)
      simp only [List.foldl_cons, Decoder.feed]
      split_ifs with continues last
      · have : missing = 1 := by
          unfold Pending.NotAscii at h
          dsimp only at h last
          split at h <;> simp_all
        subst this
        rw [Decoder.finish_foldl_feed]
        refine ⟨_, _, rfl, ?_⟩
        rintro c ⟨⟩
        apply toNat_ofNat_of_aboveAscii h six
      · simp only [Bool.and_eq_true, decide_eq_true_eq] at continues
        apply ih
        unfold Pending.NotAscii at h
        dsimp only at h last
        split at h
        · omega
        · apply h b continues.1 continues.2
        · have bounds := h b continues.1 continues.2
          intro c _ _
          dsimp only [AboveAscii]
          omega
        · exact h.elim
      · have split := Decoder.start_append [] [none] b
        rw [List.nil_append] at split
        rw [split, Decoder.finish_foldl_feed, List.reverse_append]
        exact ⟨none, _, rfl, by simp [PastAscii]⟩

theorem pieces_cons_of_lt {b : UInt8} (h : b.toNat < 0x80) (bytes : List UInt8) :
  pieces (b :: bytes) = some (Char.ofNat b.toNat) :: pieces bytes
  := by
  rw [pieces, List.foldl_cons, Decoder.feed, Decoder.start, lead,
    if_pos (UInt8.lt_iff_toNat_lt.mpr h)]
  apply Decoder.finish_foldl_feed

theorem pieces_cons_of_ge {b : UInt8} (h : 0x80 ≤ b.toNat) (bytes : List UInt8) :
  ∃ piece rest, pieces (b :: bytes) = piece :: rest ∧ PastAscii piece
  := by
  rw [pieces, List.foldl_cons, Decoder.feed, Decoder.start]
  rcases lead_of_ge h with malformed | ⟨p, multi, hp⟩
  · rw [malformed]
    dsimp only
    rw [Decoder.finish_foldl_feed]
    exact ⟨none, _, rfl, by simp [PastAscii]⟩
  · rw [multi]
    apply finish_of_notAscii bytes hp

/-- An ASCII character and its byte determine each other. -/
theorem ofNat_toNat_eq_iff {b : UInt8} {c : Char} (hb : b.toNat < 0x80)
    (hc : c.toNat < 0x80) :
  Char.ofNat b.toNat = c ↔ b = UInt8.ofNat c.toNat
  := by
  constructor
  · rintro rfl
    have valid : b.toNat.isValidChar := by
      unfold Nat.isValidChar
      omega
    rw [Char.toNat_ofNat, if_pos valid, UInt8.ofNat_toNat]
  · rintro rfl
    rw [UInt8.toNat_ofNat_of_lt' (Nat.lt_trans hc (by decide)), Char.ofNat_toNat]

/-- ASCII text is read from its own encoding and from no other bytes. -/
theorem decodeLossy_eq_iff {text : List Char} (h : IsAscii text) (bytes : List UInt8) :
  decodeLossy bytes = String.ofList text ↔ bytes = encode (String.ofList text)
  := by
  rw [encode_of_isAscii h, decodeLossy, String.ofList_inj]
  induction bytes generalizing text with
  | nil =>
      rw [show pieces [] = [] from rfl]
      cases text <;> simp
  | cons b bytes ih =>
      rcases Nat.lt_or_ge b.toNat 0x80 with hb | hb
      · rw [pieces_cons_of_lt hb, List.map_cons]
        cases text with
        | nil => simp
        | cons c text =>
            have rest := ih fun d hd => h d (List.mem_cons_of_mem _ hd)
            simp only [Option.getD_some, List.cons.injEq, List.map_cons, rest,
              ofNat_toNat_eq_iff hb (h c (by simp))]
      · obtain ⟨piece, rest, hpieces, past⟩ := pieces_cons_of_ge hb bytes
        rw [hpieces, List.map_cons]
        cases text with
        | nil => simp
        | cons c text =>
            have hc := h c (by simp)
            constructor
            · intro same
              have first := (List.cons.inj same).1
              cases piece with
              | none =>
                  subst first
                  exact absurd hc (by decide)
              | some d =>
                  subst first
                  exact absurd (past d rfl) (by simpa using hc)
            · intro same
              have first := (List.cons.inj same).1
              subst first
              rw [UInt8.toNat_ofNat_of_lt' (Nat.lt_trans hc (by decide))] at hb
              exact absurd hc (Nat.not_lt.mpr hb)

/-- Where nothing is malformed the two ways of reading agree. -/
theorem decodeLossy_of_decode? {bytes : List UInt8} {text : String}
    (h : decode? bytes = some text) :
  decodeLossy bytes = text
  := by
  rw [decode?] at h
  split at h
  · next whole =>
      rw [decodeLossy, ← Option.some.inj h, String.ofList_inj]
      generalize pieces bytes = read at whole
      induction read with
      | nil => rfl
      | cons piece rest ih =>
          rw [List.all_cons, Bool.and_eq_true] at whole
          obtain ⟨c, rfl⟩ := Option.isSome_iff_exists.mp whole.1
          rw [List.map_cons, ih whole.2]
          rfl
  · cases h

/-- The encoding of ASCII text is well formed. -/
theorem decode?_encode_of_isAscii {text : List Char} (h : IsAscii text) :
  decode? (encode (String.ofList text)) = some (String.ofList text)
  := by
  have read : pieces (encode (String.ofList text)) = text.map some := by
    rw [encode_of_isAscii h]
    induction text with
    | nil => rfl
    | cons c text ih =>
        have hc := h c (by simp)
        have value : (UInt8.ofNat c.toNat).toNat = c.toNat :=
          UInt8.toNat_ofNat_of_lt' (Nat.lt_trans hc (by decide))
        rw [List.map_cons, pieces_cons_of_lt (by rwa [value]), value, Char.ofNat_toNat,
          ih fun d hd => h d (List.mem_cons_of_mem _ hd)]
        rfl
  rw [decode?, read]
  simp

end FatVolume.Utf8
