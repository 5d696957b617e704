import FatVolume.Text.Numeral
import FatVolume.Text.Unprintable
import FatVolume.Text.GraphemeExtend

/-!
# Quoted text

`quoted` writes a text between double quotes so that every character can be seen: quotes
and backslashes are preceded by a backslash, line ends and tabs have letters of their own,
and a character without a visible form is written as its number.
-/

namespace FatVolume.Text

/-- Whether a number lies in one of the ranges. -/
def inRanges (ranges : Array (Nat × Nat)) (n : Nat) : Bool :=
  ranges.any fun (low, high) => low ≤ n && n ≤ high

/-- Whether a character is a Hangul filler.  The fillers are the only letters that have no
form at all. -/
def isFiller (c : Char) : Bool :=
  c == '\u115F' || c == '\u1160' || c == '\u3164' || c == '\uFFA0'

/-- Whether a character is a halfwidth sound mark.  The sound marks are the only grapheme
extenders that are letters: they have a place and a form of their own. -/
def isSoundMark (c : Char) : Bool :=
  c == '\uFF9E' || c == '\uFF9F'

/-- Whether a character attaches to the character before it. -/
def isAttached (c : Char) : Bool :=
  inRanges graphemeExtendRanges c.toNat && !isSoundMark c

/-- Whether a character is shown as itself inside quotes. -/
def isVisible (c : Char) : Bool :=
  if c.toNat < 0x7F then 0x20 ≤ c.toNat
  else !(isAttached c || isFiller c || inRanges unprintableRanges c.toNat)

/-- The form of one character inside quotes. -/
def quotedChar (c : Char) : String :=
  match c with
  | '"' => "\\\""
  | '\\' => "\\\\"
  | '\n' => "\\n"
  | '\r' => "\\r"
  | '\t' => "\\t"
  | '\x00' => "\\0"
  | c => if isVisible c then c.toString else "\\u\x7b" ++ hex c.toNat ++ "\x7d"

/-- The text between double quotes. -/
def quoted (text : String) : String :=
  "\"" ++ String.join (text.toList.map quotedChar) ++ "\""

end FatVolume.Text
