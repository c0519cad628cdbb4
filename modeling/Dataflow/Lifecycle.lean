import Dataflow.Failure

/-!
# Lifecycle

The state machine that a scheduler and each of its blocks go through. A client may ask for three
of the states (`State.isRequestable`); the others are reached by running. `State.transition`
refuses a move the machine does not have and accepts a move to the current state.
-/

namespace Dataflow.Lifecycle

/-- State of a scheduler or a block. -/
inductive State where
  | idle
  | initialising
  | running
  | requestedPause
  | paused
  | requestedStop
  | stopped
  | error
  deriving DecidableEq, Repr

namespace State

/-- Every state, in the order of their numbers. -/
def all : List State :=
  [idle, initialising, running, requestedPause, paused, requestedStop, stopped, error]

/-- The name of a state in control messages. -/
def name : State → String
  | idle => "IDLE"
  | initialising => "INITIALISED"
  | running => "RUNNING"
  | requestedPause => "REQUESTED_PAUSE"
  | paused => "PAUSED"
  | requestedStop => "REQUESTED_STOP"
  | stopped => "STOPPED"
  | error => "ERROR"

/-- The state of a given name. -/
def ofName? (s : String) : Option State := all.find? fun st => st.name = s

/-- Position of a state in the order of its declaration. -/
def number : State → Nat
  | idle => 0
  | initialising => 1
  | running => 2
  | requestedPause => 3
  | paused => 4
  | requestedStop => 5
  | stopped => 6
  | error => 7

/-- Whether the state machine has the move from `s` to `t`. -/
def canReach (s t : State) : Bool :=
  match s, t with
  | idle, error => false
  | _, error => true
  | idle, initialising => true
  | initialising, running => true
  | initialising, requestedStop => true
  | running, requestedPause => true
  | running, requestedStop => true
  | running, stopped => true
  | requestedPause, paused => true
  | requestedPause, requestedStop => true
  | paused, running => true
  | paused, requestedStop => true
  | requestedStop, stopped => true
  | stopped, idle => true
  | error, idle => true
  | _, _ => false

/-- States a client may ask for. -/
def isRequestable : State → Bool
  | running | requestedPause | requestedStop => true
  | _ => false

/-- States in which a run has ended. -/
def isTerminal : State → Bool
  | stopped | error => true
  | _ => false

end State

/-- Why a change of state was refused. -/
inductive TransitionError where
  | invalidTransition (source target : State)
  | unknownState (name : String)
  deriving DecidableEq, Repr

def TransitionError.message : TransitionError → String
  | invalidTransition source target =>
    s!"Invalid lifecycle transition {source.name} -> {target.name}"
  | unknownState name => s!"Unknown lifecycle state '{name}'"

/-- The kind of an error. -/
def TransitionError.kind : TransitionError → String
  | invalidTransition _ _ => "InvalidTransition"
  | unknownState _ => "UnknownState"

instance : Failure TransitionError := ⟨TransitionError.kind, TransitionError.message⟩

namespace State

/-- The state of a name that must be one. -/
def ofName (s : String) : Except TransitionError State :=
  match ofName? s with
  | some st => .ok st
  | none => .error (.unknownState s)

/-- Move from `s` to `t`. Staying in the same state is always allowed. -/
def transition (s t : State) : Except TransitionError State :=
  if s = t || s.canReach t then .ok t else .error (.invalidTransition s t)

end State

end Dataflow.Lifecycle
