import Dataflow.Scheduler

/-!
# A client that drives a run

A client on another thread asks for one lifecycle state after the other by messages to the
scheduler. First it waits until the scheduler runs. After each request it waits for the answer,
and once a pause or a resumption is granted, until it has come about, for which it asks for the
state again and again. When a stop is granted it is done.
-/

namespace Dataflow

open Lifecycle (State)

/-- What a client has done last. -/
inductive Client.Stage where
  | nothing
  /-- It has asked for the state, and waits until this one is answered. -/
  | reading (state : State)
  /-- It has asked for a change of state. -/
  | requesting

/-- A client at a moment of the run. -/
structure Client where
  stage : Client.Stage
  /-- Names of the states that it has yet to ask for. -/
  todo : List String
  /-- Time at which it acts next, unless it is done. -/
  nextMove : Option Nat

namespace Client

/-- No client. -/
def absent : Client := ⟨.nothing, [], none⟩

/-- A client that will ask for the states of these names. -/
def begin (states : List String) : Client :=
  if states.isEmpty then absent else ⟨.nothing, states, some 0⟩

/-- Time between two moves of a client, in which the scheduler answers. -/
def pace : Nat := 200

/-- Whether the client acts at a time or before. -/
def isDue (c : Client) (time : Nat) : Bool := c.nextMove.any fun move => move ≤ time

/-! ### Messages -/

def query : Message := { Message.new .get "" "LifecycleState" [] with asker := .reader }

def request (state : String) : Message :=
  { Message.new .set "" "LifecycleState" [("state", .string state)] with asker := .requester }

/-- The state told by a reply. -/
def toldState? (m : Message) : Option State := do
  let payload ← m.data.toOption
  let v ← Dictionary.get? payload "state"
  let name ← v.asString.toOption
  (State.ofName name).toOption

variable {β : Type}

/-- The last reply to the client. -/
def lastReply? (s : Scheduler β) : Option Message :=
  s.replies.findRev? fun m => m.asker ≠ .anyone

/-- The answers to the requests, in order. -/
def answers (s : Scheduler β) : List (Except MessageError PropertyMap) :=
  (s.replies.filter fun m => m.asker = .requester).toList.map Message.data

/-- The scheduler without the replies to the client. -/
def fetch (s : Scheduler β) : Scheduler β :=
  { s with replies := s.replies.filter fun m => m.asker = .anyone }

/-! ### Moves -/

/-- Send a message. -/
def send (c : Client) (s : Scheduler β) (now : Nat) (m : Message) (stage : Stage) :
    Client × Scheduler β :=
  ({ c with stage, nextMove := some (now + pace) }, { s with inbox := s.inbox ++ [m] })

/-- Ask for the state, and wait until it is a certain one. -/
def look (c : Client) (s : Scheduler β) (now : Nat) (state : State) : Client × Scheduler β :=
  c.send s now query (.reading state)

def finish (c : Client) : Client := { c with todo := [], nextMove := none }

/-- Ask for the next state. -/
def advance (c : Client) (s : Scheduler β) (now : Nat) : Client × Scheduler β :=
  match c.todo with
  | [] => (c.finish, s)
  | state :: rest => { c with todo := rest }.send s now (request state) .requesting

/-- Go on after the reply to the last message. -/
def proceed (c : Client) (s : Scheduler β) (now : Nat) (reply : Message) : Client × Scheduler β :=
  match c.stage, toldState? reply with
  | .nothing, _ => c.look s now .running
  | .reading state, told => if told = some state then c.advance s now else c.look s now state
  | .requesting, none => c.advance s now
  | .requesting, some .requestedPause => c.look s now .paused
  | .requesting, some .running => c.look s now .running
  | .requesting, some _ => (c.finish, s)

/-- Act. As long as there is no reply to go by, the client begins. -/
def move (c : Client) (s : Scheduler β) (now : Nat) : Client × Scheduler β :=
  match lastReply? s with
  | none => c.look s now .running
  | some reply => c.proceed s now reply

end Client

end Dataflow
