/-
  TermLint.Log

  What the server tells about its work, line by line.
-/

namespace TermLint.Log

/-- How important a line is. -/
inductive Level where
  | debug
  | info
  | warn
  | error
  deriving DecidableEq, Repr

/-- The name of a level. -/
def Level.name : Level → String
  | .debug => "DEBUG"
  | .info => "INFO"
  | .warn => "WARN"
  | .error => "ERROR"

/-- A line of the log. -/
structure Line where
  level : Level
  text : String
  deriving DecidableEq, Repr

/-- A line as it is written. -/
def Line.render (line : Line) : String :=
  line.level.name ++ " " ++ line.text

end TermLint.Log
