import FatVolume.Text.Fields
import FatVolume.Text.Numeral

/-!
# The log

A program logs what it does as events.  An event has a level of importance and the part of
the program it comes from; how much of the log is shown is a matter of verbosity.
-/

namespace FatVolume

/-- The importance of an event, the most important first. -/
inductive Level where
  | error
  | warn
  | info
  | debug
  | trace
  deriving DecidableEq, Repr

namespace Level

/-- The place of a level in the order of importance. -/
def rank : Level → Nat
  | error => 1
  | warn => 2
  | info => 3
  | debug => 4
  | trace => 5

def name : Level → String
  | error => "ERROR"
  | warn => "WARN"
  | info => "INFO"
  | debug => "DEBUG"
  | trace => "TRACE"

/-- The terminal colour of a level. -/
def colour : Level → String
  | error => "91"
  | warn => "93"
  | info => "94"
  | debug => "96"
  | trace => "95"

end Level

/-- The least important level that is shown, if any. -/
abbrev Verbosity : Type := Option Level

namespace Verbosity

/-- Whether events of the given level are shown. -/
def shows (verbosity : Verbosity) (level : Level) : Bool :=
  match verbosity with
  | none => false
  | some least => level.rank ≤ least.rank

def name : Verbosity → String
  | none => "OFF"
  | some level => level.name

/-- The verbosity of the given name, in letters of either case and with blanks around it. -/
def ofName? (name : String) : Option Verbosity :=
  let wanted := (Text.trimBlanks name).toList.map Char.toUpper
  let all : List Verbosity :=
    [none, some .error, some .warn, some .info, some .debug, some .trace]
  all.find? fun verbosity => verbosity.name.toList == wanted

end Verbosity

/-- The parts of a program that log events. -/
inductive Component where
  | program
  | device
  | table
  | directory
  | content
  | check
  | session
  | shell
  deriving DecidableEq, Repr

/-- The name of a component in the log. -/
def Component.name : Component → String
  | program => "gluon"
  | device => "gluon::block_dev"
  | table => "gluon::fat"
  | directory => "gluon::directory"
  | content => "gluon::file"
  | check => "gluon::check"
  | session => "gluon::fs"
  | shell => "gluon::shell"

/-- An entry of the log. -/
structure Event where
  level : Level
  source : Component
  message : String
  deriving DecidableEq, Repr

/-- The line of an event: its level in colour, its source dimmed, and its message. -/
def Event.render (e : Event) : String :=
  s!"\x1b[{e.level.colour}m{Text.leftAligned 5 e.level.name}\x1b[39m "
    ++ s!"\x1b[2m[{e.source.name}]\x1b[0m {e.message}\n"

end FatVolume
