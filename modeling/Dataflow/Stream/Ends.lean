import Dataflow.Stream

/-!
# Ends of a stream

A stream with its two ends, each of which may be dropped. Dropping the writer closes the stream,
and dropping the reader detaches it; nothing brings an end back.
-/

namespace Dataflow

/-- A stream, the ends that are left of it, and what it has logged. -/
structure Ends (α : Type) where
  stream : Stream α
  hasWriter : Bool
  hasReader : Bool
  log : Array LogLine

namespace Ends

variable {α : Type}

/-- Both ends of a new stream. -/
def new (capacity : Nat) : Ends α := ⟨.empty capacity, true, true, #[]⟩

/-- Put a stream in place, with lines for the log. -/
def put (e : Ends α) (s : Stream α) (lines : List LogLine) : Ends α :=
  { e with
    stream := s
    log := e.log ++ lines }

def close (e : Ends α) : Ends α := e.put e.stream.close []

def detach (e : Ends α) : Ends α := e.put e.stream.detach []

def dropWriter (e : Ends α) : Ends α := { e.close with hasWriter := false }

def dropReader (e : Ends α) : Ends α := { e.detach with hasReader := false }

/-- Write samples and tags. -/
def push (e : Ends α) (samples : List α) (tags : List Tag) : Except StreamError Unit × Ends α :=
  let lines := e.stream.pushLog samples tags
  match e.stream.push samples tags with
  | .ok s => (.ok (), e.put s lines)
  | .error err => (.error err, e.put e.stream lines)

/-- Look at the next samples, at most `limit`. -/
def peek (e : Ends α) (limit : Nat) : Chunk α × Ends α :=
  let (chunk, s) := e.stream.peek limit
  (chunk, e.put s e.stream.collectLog)

/-- Read the next samples, at most `limit`. -/
def take (e : Ends α) (limit : Nat) : Chunk α × Ends α :=
  let (chunk, s) := e.stream.take limit
  (chunk, e.put s e.stream.collectLog)

/-- Pass exactly `n` samples; gives the tags on them. -/
def consume (e : Ends α) (n : Nat) : Except StreamError (List Tag) × Ends α :=
  match e.stream.consume n with
  | .ok (tags, s) => (.ok tags, e.put s (e.stream.consumeLog n))
  | .error err => (.error err, e)

end Ends

end Dataflow
