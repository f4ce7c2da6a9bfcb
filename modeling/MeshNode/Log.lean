/-
# Log events

What the library reports beside its results: events that warn or tell of an error, each with
a fixed message and named fields.
-/

namespace MeshNode

/-- How grave an event is. -/
inductive LogLevel
  | warn
  | error
  deriving DecidableEq, Repr

/-- The name of a level. -/
def LogLevel.text : LogLevel → String
  | .warn => "WARN"
  | .error => "ERROR"

/-- An event of the log. -/
structure LogEvent where
  level : LogLevel
  message : String
  fields : List (String × String) := []
  deriving DecidableEq, Repr

end MeshNode
