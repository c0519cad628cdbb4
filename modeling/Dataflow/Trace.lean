import Dataflow.Message
import Dataflow.Port
import Dataflow.Stream.FanOut

/-!
# Traces

A block may note what happens to it. The notes of all blocks of a run, in the order in which they
were made, are the trace of the run.
-/

namespace Dataflow

/-- A hook that marks a change in the life of a block. -/
inductive Hook where
  | start | stop | pause | resume
  deriving DecidableEq, Repr

def Hook.name : Hook → String
  | start => "start"
  | stop => "stop"
  | pause => "pause"
  | resume => "resume"

/-- Why an operation within a work call failed. -/
inductive OperationError where
  | port (e : PortError)
  | stream (e : StreamError)
  | message (e : MessageError)

instance : Failure OperationError where
  kind
    | .port e => Failure.kind e
    | .stream e => Failure.kind e
    | .message e => Failure.kind e
  message
    | .port e => e.message
    | .stream e => e.message
    | .message e => e.message

/-- What an operation within a work call gave. -/
inductive Observation where
  | nothing
  | chunk (c : Chunk Sample)
  | tags (tags : List Tag)
  | count (n : Nat)
  | reader (available : Nat) (closed exhausted : Bool)
  | writer (room : Room) (destinations : Nat) (connected : Bool)
  | input (connected : Bool) (available : Nat) (exhausted : Bool)
  | output (connected : Bool) (room : Room) (allDetached : Bool)

/-- One note of a block. -/
inductive TraceEvent where
  | hook (h : Hook)
  | sendFailed (e : MessageError)
  | call (number : Nat) (observations : List (Except OperationError Observation))
    (outcome : String)

/-- A note with the label of its block. -/
structure TraceEntry where
  label : String
  event : TraceEvent

end Dataflow
