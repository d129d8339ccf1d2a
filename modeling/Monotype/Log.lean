import Monotype.Event
import Monotype.Text.Delimited
import Monotype.Text.Uppercase

/-! The log: one line for each event that matters enough. -/
namespace Monotype.Log

/-- The rank that an event must have to be logged. -/
abbrev Level := Int

/-- The levels that have a name. -/
def named : List (String × Level) :=
  [("CRITICAL", 50), ("FATAL", 50), ("ERROR", 40), ("WARNING", 30), ("WARN", 30), ("INFO", 20),
    ("DEBUG", 10), ("NOTSET", 0)]

/-- The level of a log that is not told otherwise. -/
def standard : Level := 30

/-- No level has this name, which is in upper case. -/
structure UnknownLevel where
  name : String
  deriving DecidableEq

def UnknownLevel.message (e : UnknownLevel) : String := "Unknown level: " ++ Text.quoted e.name

/-- The level of a name in any case. -/
def level (name : String) : Except UnknownLevel Level :=
  let name := Text.upper name
  match named.lookup name with
  | some l => .ok l
  | none => .error ⟨name⟩

/-- Whether an event is logged. Level zero leaves the choice to the standard level. -/
def admits (l : Level) (e : Event) : Bool :=
  (if l = 0 then standard else l) ≤ e.severity.rank

def line (e : Event) : String := "[" ++ e.severity.label ++ "] " ++ e.text ++ "\n"

/-- The lines of the events that are logged. -/
def lines (l : Level) (events : List Event) : List String := (events.filter (admits l)).map line

/-- The whole log. -/
def text (l : Level) (events : List Event) : String := String.join (lines l events)

end Monotype.Log
