/-!
# Numbers as text

`parseNat?` reads an unsigned 64-bit number, `rightAligned` and `leftAligned` fit a text
into a column, and `zeroPadded` writes a number with a least count of digits.
-/

namespace FatVolume.Text

/-- The greatest number that `parseNat?` reads. -/
def maxNat64 : Nat := 0xFFFFFFFFFFFFFFFF

/-- The value of a decimal digit. -/
def digit? (c : Char) : Option Nat :=
  if '0' ≤ c ∧ c ≤ '9' then some (c.toNat - '0'.toNat) else none

/-- The value of a sequence of decimal digits that continues the digits of `n`. -/
def digitsValue? (n : Nat) : List Char → Option Nat
  | [] => some n
  | c :: rest => do digitsValue? (n * 10 + (← digit? c)) rest

/-- An optional `+` and at least one decimal digit, of a value up to `maxNat64`. -/
def parseNat? (text : String) : Option Nat :=
  let digits := match text.toList with
    | '+' :: rest => rest
    | all => all
  if digits.isEmpty then none
  else (digitsValue? 0 digits).filter (· ≤ maxNat64)

/-- The text with blanks before it up to the given width. -/
def rightAligned (width : Nat) (text : String) : String :=
  String.ofList (List.replicate (width - text.length) ' ') ++ text

/-- The text with blanks after it up to the given width. -/
def leftAligned (width : Nat) (text : String) : String :=
  text ++ String.ofList (List.replicate (width - text.length) ' ')

/-- The decimal digits of a number, with zeros before them up to the given width. -/
def zeroPadded (width n : Nat) : String :=
  let digits := toString n
  String.ofList (List.replicate (width - digits.length) '0') ++ digits

/-- The lower-case hexadecimal digits of a number. -/
def hex (n : Nat) : String :=
  String.ofList (Nat.toDigits 16 n)

end FatVolume.Text
