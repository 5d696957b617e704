import FatVolume.Error
import FatVolume.Text.Fields

/-!
# Names

A directory has a name of up to seven characters; a file has a base of up to seven and may
have an extension of up to three, separated by a dot.  The characters are ASCII without
the null character, blanks, the slash and further dots.  `Name.split` takes a name given
by the user apart.
-/

namespace FatVolume

/-- The two kinds of directory entries. -/
inductive Kind where
  | directory
  | file
  deriving DecidableEq, Repr, Inhabited

namespace Name

/-- The name by which a directory holds itself. -/
def dot : String := "."

/-- The name by which a directory holds its parent. -/
def dotdot : String := ".."

/-- The greatest length of a base. -/
abbrev maxBase : Nat := 7

/-- The greatest length of an extension. -/
abbrev maxExtension : Nat := 3

/-- The characters of a name, dots included: ASCII without the null character, blanks and
the slash. -/
def isNameChar (c : Char) : Bool :=
  c.toNat < 0x80 && c != '\x00' && c != ' ' && c != '\t' && c != '\n' && c != '\x0c'
    && c != '\r' && c != '/'

/-- The parts before and after the last dot of a text that has one. -/
def splitLastDot? (text : List Char) : Option (List Char × List Char) :=
  match text.reverse.span (· != '.') with
  | (extension, _ :: base) => some (base.reverse, extension.reverse)
  | (_, []) => none

/-- The base and the extension of a name.  A name that ends in a dot is refused: on disk
the dot would be lost. -/
def split (name : String) (kind : Kind) : Except Error (List Char × List Char) :=
  let text := name.toList
  if name == dot || name == dotdot then .error .invalidName
  else if !text.all isNameChar then .error .invalidName
  else
    let (base, extension) := match kind with
      | .directory => (text, [])
      | .file => (splitLastDot? text).getD (text, [])
    if kind == .file && text.getLast? == some '.' then .error .invalidName
    else if base.isEmpty || base.contains '.' then .error .invalidName
    else if base.length > maxBase || extension.length > maxExtension then .error .invalidName
    else .ok (base, extension)

end Name

end FatVolume
