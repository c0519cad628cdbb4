/-!
# Log lines

What a run reports for people to read. Operations that can report something have a companion
function that gives the lines, so that the operation itself is free of them.
-/

namespace Dataflow

inductive LogLevel where
  | debug | info | warn | error
  deriving DecidableEq, Repr

def LogLevel.name : LogLevel → String
  | debug => "DEBUG"
  | info => "INFO"
  | warn => "WARN"
  | error => "ERROR"

structure LogLine where
  level : LogLevel
  text : String
  deriving DecidableEq, Repr

/-- A line with its level in front. -/
def LogLine.render (l : LogLine) : String := l.level.name ++ " " ++ l.text

end Dataflow
