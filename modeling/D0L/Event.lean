import D0L.Error
import D0L.Symbol

namespace D0L

/-!
# Events

What a program reports about its work, apart from its results.

* `Event` — the events.
* `Event.render` — an event in one line: how much it matters, what happened, and the particulars.
-/

/-- Something worth reporting. -/
inductive Event where
  /-- A rule for a symbol that is no letter was defined. -/
  | unreachable (symbol : Symbol)
  /-- The successor of a symbol was defined. -/
  | defined (symbol : Symbol) (successor : Word)
  /-- A symbol had this successor before it was defined anew. -/
  | redefined (symbol : Symbol) (previous : Word)
  /-- A generation was built. -/
  | expanded (generation length : Nat)
  /-- A grammar was read from a file. -/
  | loaded (path : Text) (rules : Nat)
  /-- A line typed on the console was not accepted. -/
  | rejected (reason : Error)
deriving DecidableEq

/-- How much an event matters. -/
inductive Level where
  /-- Every detail. -/
  | trace
  /-- The course of the work. -/
  | debug
  /-- Something is probably not as it was meant. -/
  | warn
deriving DecidableEq

/-- The name of a level. -/
def Level.name : Level → Text
  | trace => "TRACE".toList
  | debug => "DEBUG".toList
  | warn => "WARN".toList

namespace Event

/-- How much an event matters. -/
def level : Event → Level
  | unreachable .. | redefined .. | rejected .. => .warn
  | defined .. => .trace
  | expanded .. | loaded .. => .debug

/-- What happened. -/
def message : Event → Text
  | unreachable .. => "rule for a non-alphabetic symbol will never be applied".toList
  | defined .. => "defining rule".toList
  | redefined .. => "rule redefined, keeping the later definition".toList
  | expanded .. => "expanded generation".toList
  | loaded .. => "loaded L-system".toList
  | rejected .. => "rejected console input".toList

/-- The particulars of an event, by name. -/
def details : Event → List (Text × Text)
  | unreachable symbol => [("symbol".toList, [symbol])]
  | defined symbol successor =>
    [("symbol".toList, [symbol]), ("replacement".toList, successor)]
  | redefined symbol previous => [("symbol".toList, [symbol]), ("previous".toList, previous)]
  | expanded generation length =>
    [("generation".toList, Numeral.write generation), ("length".toList, Numeral.write length)]
  | loaded path rules => [("path".toList, path), ("rules".toList, Numeral.write rules)]
  | rejected reason => [("err".toList, reason.message)]

/-- An event in one line: level, message and particulars. -/
def render (e : Event) : Text :=
  e.level.name ++ ' ' :: e.message
    ++ e.details.flatMap fun (name, value) => ' ' :: name ++ '=' :: value

end Event

end D0L
