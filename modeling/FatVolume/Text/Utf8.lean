/-!
# UTF-8

`Decoder` reads bytes one at a time.  It yields one piece for every character and one for
every malformed stretch, a stretch being as long as it could still have become a character.
`decode?` accepts well-formed bytes only; `decodeLossy` writes the replacement character
for each malformed stretch.
-/

namespace FatVolume.Utf8

/-- A character of which some bytes are still missing. -/
structure Pending where
  /-- The number of bytes still missing. -/
  missing : Nat
  /-- The least byte that may come next. -/
  low : UInt8
  /-- The greatest byte that may come next. -/
  high : UInt8
  /-- The bits read so far. -/
  bits : Nat

/-- What a byte that starts a character announces. -/
inductive Lead where
  | single (c : Char)
  | multi (pending : Pending)
  | malformed

/-- The first byte of a character determines its length and the range of its second byte:
overlong forms, surrogates and numbers above `0x10FFFF` are excluded there. -/
def lead (b : UInt8) : Lead :=
  if b < 0x80 then .single (Char.ofNat b.toNat)
  else if b < 0xC2 then .malformed
  else if b < 0xE0 then .multi ⟨1, 0x80, 0xBF, b.toNat % 32⟩
  else if b == 0xE0 then .multi ⟨2, 0xA0, 0xBF, b.toNat % 16⟩
  else if b == 0xED then .multi ⟨2, 0x80, 0x9F, b.toNat % 16⟩
  else if b < 0xF0 then .multi ⟨2, 0x80, 0xBF, b.toNat % 16⟩
  else if b == 0xF0 then .multi ⟨3, 0x90, 0xBF, b.toNat % 8⟩
  else if b < 0xF4 then .multi ⟨3, 0x80, 0xBF, b.toNat % 8⟩
  else if b == 0xF4 then .multi ⟨3, 0x80, 0x8F, b.toNat % 8⟩
  else .malformed

/-- The state of reading: the pieces read, last first, and the character being read. -/
structure Decoder where
  pieces : List (Option Char) := []
  pending : Option Pending := none

namespace Decoder

/-- Reads the first byte of a piece. -/
def start (pieces : List (Option Char)) (b : UInt8) : Decoder :=
  match lead b with
  | .single c => ⟨some c :: pieces, none⟩
  | .multi pending => ⟨pieces, some pending⟩
  | .malformed => ⟨none :: pieces, none⟩

/-- Reads one byte.  A byte that cannot continue the pending character ends it as malformed
and starts a piece of its own. -/
def feed (d : Decoder) (b : UInt8) : Decoder :=
  match d.pending with
  | none => start d.pieces b
  | some p =>
      if p.low ≤ b && b ≤ p.high then
        let bits := p.bits * 64 + b.toNat % 64
        if p.missing ≤ 1 then ⟨some (Char.ofNat bits) :: d.pieces, none⟩
        else ⟨d.pieces, some ⟨p.missing - 1, 0x80, 0xBF, bits⟩⟩
      else start (none :: d.pieces) b

/-- The pieces in order; a character whose bytes never came is malformed. -/
def finish (d : Decoder) : List (Option Char) :=
  (if d.pending.isSome then none :: d.pieces else d.pieces).reverse

end Decoder

/-- The pieces of a byte sequence: its characters, and `none` for each malformed stretch. -/
def pieces (bytes : List UInt8) : List (Option Char) :=
  (bytes.foldl Decoder.feed {}).finish

/-- The text of well-formed bytes. -/
def decode? (bytes : List UInt8) : Option String :=
  let ps := pieces bytes
  if ps.all Option.isSome then some (String.ofList (ps.filterMap id)) else none

/-- The text of any bytes, each malformed stretch replaced by one replacement character. -/
def decodeLossy (bytes : List UInt8) : String :=
  String.ofList ((pieces bytes).map (Option.getD · '\uFFFD'))

/-- The bytes of a text. -/
def encode (text : String) : List UInt8 :=
  text.toList.flatMap String.utf8EncodeChar

end FatVolume.Utf8
