/-!
# Log events

What a reader, a lexer or a parser notices on its way is a list of events,
computed beside its result. An event has a level; a listener hears the events
of its own level and of the more severe ones.
-/

namespace GoldTables

/-- How severe an event is. -/
inductive Level where
  | error
  | warn
  | debug
  | trace
  deriving DecidableEq

/-- The levels in order, the most severe first. -/
def Level.rank : Level → Nat
  | .error => 0
  | .warn => 1
  | .debug => 2
  | .trace => 3

/-- Something noticed, in words. -/
structure Event where
  level : Level
  text : String
  deriving DecidableEq

/-- The events that a listener of the level hears. -/
def audible (level : Level) (events : List Event) : List Event :=
  events.filter fun event => event.level.rank ≤ level.rank

end GoldTables
