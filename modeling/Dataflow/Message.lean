import Dataflow.Lifecycle
import Dataflow.Value

/-!
# Control messages

Clients and blocks send messages to a scheduler, which answers each with one reply. An empty
destination addresses the scheduler itself, any other the block of that unique name. A `Channel`
is a queue of messages with a sending and a receiving end, either of which may be dropped.
-/

namespace Dataflow

open Lifecycle (State TransitionError)

/-- What a message asks for. -/
inductive Command where
  | invalid | get | set | partly | final | ready | disconnect | subscribe | unsubscribe | notify
  | heartbeat
  deriving DecidableEq, Repr

namespace Command

def all : List Command :=
  [invalid, get, set, partly, final, ready, disconnect, subscribe, unsubscribe, notify, heartbeat]

def name : Command → String
  | invalid => "Invalid"
  | get => "Get"
  | set => "Set"
  | partly => "Partial"
  | final => "Final"
  | ready => "Ready"
  | disconnect => "Disconnect"
  | subscribe => "Subscribe"
  | unsubscribe => "Unsubscribe"
  | notify => "Notify"
  | heartbeat => "Heartbeat"

/-- The command of a given name. -/
def ofName? (s : String) : Option Command := all.find? fun c => c.name = s

end Command

/-- Why a message was not answered with a payload. -/
inductive MessageError where
  | destinationNotFound (destination : String)
  | propertyNotFound (destination property : String)
  | unsupportedCommand (command : Command) (property : String)
  | invalidPayload (reason : String)
  | settingsRejected (reason : String)
  | lifecycle (e : TransitionError)
  | notRunning (destination : String) (state : State)
  | disconnected
  deriving DecidableEq, Repr

def MessageError.message : MessageError → String
  | destinationNotFound destination => s!"Destination '{destination}' not found"
  | propertyNotFound destination property =>
    s!"Property '{property}' not found on '{destination}'"
  | unsupportedCommand command property =>
    s!"Command {command.name} is not supported for property '{property}'"
  | invalidPayload reason => s!"Invalid payload: {reason}"
  | settingsRejected reason => s!"Settings rejected: {reason}"
  | lifecycle e => e.message
  | notRunning destination state =>
    s!"'{destination}' cannot be reached, flowgraph is {state.name}"
  | disconnected => "Message port disconnected"

/-- The kind of an error. -/
def MessageError.kind : MessageError → String
  | destinationNotFound _ => "DestinationNotFound"
  | propertyNotFound _ _ => "PropertyNotFound"
  | unsupportedCommand _ _ => "UnsupportedCommand"
  | invalidPayload _ => "InvalidPayload"
  | settingsRejected _ => "SettingsRejected"
  | lifecycle e => Failure.within "Lifecycle" e
  | notRunning _ _ => "NotRunning"
  | disconnected => "Disconnected"

instance : Failure MessageError := ⟨MessageError.kind, MessageError.message⟩

/-- Who waits for the reply to a message. -/
inductive Asker where
  /-- Whoever fetches the replies of the scheduler. -/
  | anyone
  /-- The client that drives the run, which wants to know the lifecycle state. -/
  | reader
  /-- The same client, which wants a change of the lifecycle state. -/
  | requester
  deriving DecidableEq, Repr

/-- A control message, or the reply to one. -/
structure Message where
  command : Command
  /-- Unique name of a block, or empty for the scheduler. -/
  destination : String
  service : String
  property : String
  data : Except MessageError PropertyMap
  /-- Chosen by the client, and repeated in the reply. -/
  requestId : String
  /-- Decides who gets the reply, and is no part of what is read or shown. -/
  asker : Asker

namespace Message

/-- A message with a payload, without service name and request id. -/
def new (command : Command) (destination property : String) (payload : PropertyMap) : Message :=
  ⟨command, destination, "", property, .ok payload, "", .anyone⟩

/-- The reply to a request: final, with the routing of the request. -/
def reply (request : Message) (data : Except MessageError PropertyMap) : Message :=
  { request with command := .final, data }

/-- Text of a message: its command, its destination and its property. -/
def text (m : Message) : String :=
  let destination := if m.destination = "" then "<scheduler>" else m.destination
  s!"{m.command.name} {destination} '{m.property}'"

end Message

/-- A queue of messages between two ends. -/
structure Channel where
  queue : List Message
  senderOpen : Bool
  receiverOpen : Bool

namespace Channel

def empty : Channel := ⟨[], true, true⟩

/-- Append a message; fails once the receiving end is dropped. -/
def send (c : Channel) (m : Message) : Except MessageError Channel :=
  if c.receiverOpen then .ok { c with queue := c.queue ++ [m] } else .error .disconnected

/-- The next message, or none if the queue is empty. An empty queue whose sending end is dropped
will stay empty, which is an error. -/
def receive (c : Channel) : Except MessageError (Option Message × Channel) :=
  match c.queue with
  | m :: rest => .ok (some m, { c with queue := rest })
  | [] => if c.senderOpen then .ok (none, c) else .error .disconnected

/-- All queued messages. -/
def drain (c : Channel) : List Message × Channel := (c.queue, { c with queue := [] })

def dropSender (c : Channel) : Channel := { c with senderOpen := false }

def dropReceiver (c : Channel) : Channel := { c with receiverOpen := false }

end Channel

end Dataflow
