import FatVolume.Bytes
import FatVolume.Error
import FatVolume.Text.Fields
import FatVolume.Text.Utf8

/-!
# Scripts

The input of a shell is a sequence of lines.  A line is a command with its operands,
separated by blanks; the lines after a `write` command are not commands but the content to
be written, up to a line that holds a single dot.  `Script.ofInput` divides the input into
turns, one for each command together with its content.
-/

namespace FatVolume.Shell

/-- A line of input with the line feed that ends it, which the last line may lack. -/
abbrev Line : Type := Bytes

/-- The byte that ends a line. -/
def lineFeed : UInt8 := 0x0A

/-- The lines extended to the left by one byte. -/
def extendLines (b : UInt8) (lines : List Line) : List Line :=
  if b == lineFeed then [b] :: lines
  else match lines with
    | [] => [[b]]
    | line :: rest => (b :: line) :: rest

/-- The lines of the given bytes. -/
def lines (bytes : Bytes) : List Line :=
  bytes.foldr extendLines []

theorem flatten_extendLines (b : UInt8) (lines : List Line) :
  (extendLines b lines).flatten = b :: lines.flatten
  := by
  unfold extendLines
  split
  · rfl
  · cases lines <;> rfl

/-- Dividing bytes into lines loses nothing. -/
@[simp]
theorem flatten_lines (bytes : Bytes) :
  (lines bytes).flatten = bytes
  := by
  induction bytes with
  | nil => rfl
  | cons b bytes ih =>
      simp only [lines, List.foldr_cons, flatten_extendLines] at ih ⊢
      rw [ih]

/-- The line that ends a content, without its line end. -/
def endOfContent : String := "."

/-- Whether a line ends the content before it. -/
def endsContent (line : String) : Bool :=
  let text := line.toList.reverse.dropWhile fun c => c == '\r' || c == '\n'
  text.reverse == endOfContent.toList

/-- The content at the beginning of the given lines, whose lines `taken` were read before,
and the lines after it.  A line that is not UTF-8 ends the content with an error. -/
def takeContentFrom (taken : List Line) : List Line → Except Error Bytes × List Line
  | [] => (.ok taken.reverse.flatten, [])
  | line :: rest =>
      match Utf8.decode? line with
      | none => (.error (.io .invalidUtf8), rest)
      | some text =>
          if endsContent text then (.ok taken.reverse.flatten, rest)
          else takeContentFrom (line :: taken) rest

/-- The content at the beginning of the given lines and the lines after it. -/
def takeContent (lines : List Line) : Except Error Bytes × List Line :=
  takeContentFrom [] lines

theorem length_takeContentFrom_le (taken lines : List Line) :
  (takeContentFrom taken lines).2.length ≤ lines.length
  := by
  induction lines generalizing taken with
  | nil => simp [takeContentFrom]
  | cons line rest ih =>
      rw [takeContentFrom]
      split
      · simp
      · split
        · simp
        · exact Nat.le_succ_of_le (ih _)

/-- A command and the content that follows it. -/
structure Turn where
  tokens : List String
  content : Except Error Bytes

namespace Turn

/-- Whether a command is followed by content. -/
def takesContent (tokens : List String) : Bool :=
  tokens.head? == some "write"

/-- The turn of a command that the given lines follow, and the lines after the turn. -/
def ofTokens (tokens : List String) (lines : List Line) : Turn × List Line :=
  if takesContent tokens then
    let (content, rest) := takeContent lines
    (⟨tokens, content⟩, rest)
  else (⟨tokens, .ok []⟩, lines)

theorem length_ofTokens_le (tokens : List String) (lines : List Line) :
  (ofTokens tokens lines).2.length ≤ lines.length
  := by
  unfold ofTokens
  split
  · exact length_takeContentFrom_le [] lines
  · exact Nat.le_refl _

end Turn

/-- What a shell reads: turns, up to the end of the input or a line that is not UTF-8. -/
inductive Script where
  | endOfInput
  | unreadable
  | turn (turn : Turn) (rest : Script)

namespace Script

/-- The script in the given lines. -/
def ofLines : List Line → Script
  | [] => .endOfInput
  | line :: rest =>
      match Utf8.decode? line with
      | none => .unreadable
      | some text =>
          .turn (Turn.ofTokens (Text.words text) rest).1
            (ofLines (Turn.ofTokens (Text.words text) rest).2)
termination_by lines => lines.length
decreasing_by
  exact Nat.lt_succ_of_le (Turn.length_ofTokens_le _ rest)

/-- The script in the given bytes. -/
def ofInput (bytes : Bytes) : Script :=
  ofLines (lines bytes)

end Script

end FatVolume.Shell
