/-!
# Failures

Every error of the library has a kind, by which a program can tell it, and a message for people.
An error that only passes on another one has that one's message, and its kind follows its own
after a point.
-/

namespace Dataflow

/-- A type of errors. -/
class Failure (ε : Type) where
  kind : ε → String
  message : ε → String

/-- The kind of an error that passes on another one. -/
def Failure.within {ε : Type} [Failure ε] (outer : String) (e : ε) : String :=
  outer ++ "." ++ Failure.kind e

end Dataflow
