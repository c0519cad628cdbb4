import Dataflow.Program
import Dataflow.Trace

/-!
# Blocks

A block is a value with ports, settings and hooks (`Block`). The scheduler calls `start` once,
then `work` again and again, and `stop` once. In a work call a block reads its inputs and writes
its outputs through operations (`WorkOp`); in the other hooks it can only send messages and make
notes (`HookOp`). A failed change of a setting may leave the block changed, which is why the
functions that change settings give a block back in any case.
-/

namespace Dataflow

/-- Why a setting was refused. -/
inductive SettingsError where
  | unknownKey (block key : String)
  | immutable (block key : String)
  | invalidValue (key reason : String)
  | value (key : String) (source : ValueError)
  | rollbackFailed (block key : String) (update rollback : SettingsError)
  deriving DecidableEq, Repr

def SettingsError.message : SettingsError → String
  | unknownKey block key => s!"Unknown setting '{key}' on block '{block}'"
  | immutable block key => s!"Setting '{key}' on block '{block}' cannot be changed at runtime"
  | invalidValue key reason => s!"Invalid value for setting '{key}': {reason}"
  | value key source => s!"Setting '{key}': {source.message}"
  | rollbackFailed block key update rollback =>
    s!"{update.message}; restoring '{key}' on block '{block}' also failed: {rollback.message}"

/-- The kind of an error. -/
def SettingsError.kind : SettingsError → String
  | unknownKey _ _ => "UnknownKey"
  | immutable _ _ => "Immutable"
  | invalidValue _ _ => "InvalidValue"
  | value _ _ => "Value"
  | rollbackFailed _ _ _ _ => "RollbackFailed"

instance : Failure SettingsError := ⟨SettingsError.kind, SettingsError.message⟩

/-- Why a work call or a start failed. -/
inductive WorkError where
  | port (e : PortError)
  | stream (e : StreamError)
  | settings (e : SettingsError)
  | block (text : String)
  deriving DecidableEq, Repr

def WorkError.message : WorkError → String
  | port e => e.message
  | stream e => e.message
  | settings e => e.message
  | block text => s!"Block-specific error: {text}"

/-- The kind of an error. -/
def WorkError.kind : WorkError → String
  | port e => Failure.within "Port" e
  | stream e => Failure.within "Buffer" e
  | settings e => Failure.within "Settings" e
  | block _ => "BlockError"

instance : Failure WorkError := ⟨WorkError.kind, WorkError.message⟩

/-- What a work call reports. -/
inductive WorkStatus where
  | ok
  | insufficientInput
  | insufficientOutput
  /-- The inputs are exhausted, and no more output will be produced. -/
  | endOfStream
  | done
  deriving DecidableEq, Repr

def WorkStatus.name : WorkStatus → String
  | ok => "Ok"
  | insufficientInput => "InsufficientInput"
  | insufficientOutput => "InsufficientOutput"
  | endOfStream => "EndOfStream"
  | done => "Done"

/-- How a work call ends. A crash is not reported to anyone: it takes its thread with it. -/
inductive WorkOutcome where
  | status (s : WorkStatus)
  | failed (e : WorkError)
  | crashed
  deriving DecidableEq, Repr

/-- Declaration of a setting. One that is not mutable is set at construction only. -/
structure SettingDescriptor where
  key : String
  description : String
  isMutable : Bool
  deriving DecidableEq, Repr

/-- Operations in every hook. -/
inductive HookOp where
  /-- Send a message to the scheduler that owns the inbox of this number. -/
  | send (inbox : Nat) (m : Message)
  | note (entry : TraceEntry)

/-- The type of a reply to an operation. -/
def HookOp.Reply : HookOp → Type
  | send _ _ => Except MessageError Unit
  | note _ => Unit

/-- What a block sees of an input without reading it. -/
structure InputStatus where
  schema : PortSchema
  connected : Bool
  available : Nat
  closed : Bool
  exhausted : Bool

/-- What a block sees of an output without writing to it. -/
structure OutputStatus where
  schema : PortSchema
  destinations : Nat
  space : Room
  taggedSpace : Room
  allDetached : Bool

/-- Operations in a work call. Ports are given by position. -/
inductive WorkOp where
  | hook (op : HookOp)
  | input (port : Nat)
  | output (port : Nat)
  | peek (port limit : Nat)
  | take (port limit : Nat)
  | consume (port n : Nat)
  | publish (port : Nat) (samples : List Sample) (tags : List Tag)

@[inherit_doc HookOp.Reply]
def WorkOp.Reply : WorkOp → Type
  | hook op => op.Reply
  | input _ => Except PortError InputStatus
  | output _ => Except PortError OutputStatus
  | peek _ _ | take _ _ => Chunk Sample
  | consume _ _ => Except StreamError (List Tag)
  | publish _ _ _ => Except StreamError Unit

/-- The program of a hook. -/
abbrev HookProgram (ρ : Type) := Program HookOp HookOp.Reply ρ

/-- The program of a work call. -/
abbrev Work (ρ : Type) := Program WorkOp WorkOp.Reply ρ

/-- A type of blocks. All that a block is at one moment is a value of this type. -/
class Block (β : Type) where
  description : β → String
  inputs : β → List PortSchema
  outputs : β → List PortSchema
  /-- The declared settings. -/
  descriptors : β → List SettingDescriptor
  /-- The current value of every declared setting. -/
  settings : β → PropertyMap
  /-- Change one declared setting. Unlike the hooks, `set` and `settle` act on the block alone: they
  cannot send messages. -/
  set : β → String → Value → Except SettingsError Unit × β
  /-- Check the settings as a whole after a batch of changes. -/
  settle : β → Except SettingsError Unit × β
  /-- Whether settings that are not declared are kept beside the block. -/
  isPermissive : β → Bool
  start : β → HookProgram (Except WorkError Unit × β)
  stop : β → HookProgram β
  pause : β → HookProgram β
  resume : β → HookProgram β
  work : β → Work (WorkOutcome × β)

namespace Block

/-- A block with no settings of its own refuses every key. -/
def refuse {β : Type} (b : β) (key : String) : Except SettingsError Unit × β :=
  (.error (.unknownKey "" key), b)

end Block

/-! ### Steps of a work call

Each step asks for one operation and goes on only if it succeeds; otherwise the call fails and
leaves the block as given. -/

namespace Work

variable {β : Type}

/-- End the call with a status. -/
def report (s : WorkStatus) (b : β) : Work (WorkOutcome × β) := .done (.status s, b)

/-- End the call with an error. -/
def fail (e : WorkError) (b : β) : Work (WorkOutcome × β) := .done (.failed e, b)

/-- Why an input cannot be read as samples of type `t`, if it cannot. -/
def readerError? (s : InputStatus) (t : SampleType) : Option PortError :=
  if !s.connected then some (.notConnected s.schema.name)
  else if s.schema.type = t then none
  else some (.typeMismatch s.schema.name s.schema.type.name t.name)

/-- Why an output cannot be written with samples of type `t`, if it cannot. An output that feeds
nothing takes any samples. -/
def writerError? (s : OutputStatus) (t : SampleType) : Option PortError :=
  if s.destinations = 0 || s.schema.type = t then none
  else some (.typeMismatch s.schema.name s.schema.type.name t.name)

/-- Look at an input that must be connected and carry samples of type `t`. -/
def withReader (port : Nat) (t : SampleType) (b : β)
    (next : InputStatus → Work (WorkOutcome × β)) : Work (WorkOutcome × β) :=
  .ask (.input port) fun
    | .error e => fail (.port e) b
    | .ok s =>
      match readerError? s t with
      | some e => fail (.port e) b
      | none => next s

/-- Look at an output, which must carry samples of type `t` if it is connected. -/
def withWriter (port : Nat) (t : SampleType) (b : β)
    (next : OutputStatus → Work (WorkOutcome × β)) : Work (WorkOutcome × β) :=
  .ask (.output port) fun
    | .error e => fail (.port e) b
    | .ok s =>
      match writerError? s t with
      | some e => fail (.port e) b
      | none => next s

/-- Read at most `limit` samples with their tags. -/
def taking (port limit : Nat) (next : Chunk Sample → Work (WorkOutcome × β)) :
    Work (WorkOutcome × β) :=
  .ask (.take port limit) next

/-- Pass exactly `n` samples. -/
def consuming (port n : Nat) (b : β) (next : List Tag → Work (WorkOutcome × β)) :
    Work (WorkOutcome × β) :=
  .ask (.consume port n) fun
    | .error e => fail (.stream e) b
    | .ok tags => next tags

/-- Publish samples with their tags. -/
def publishing (port : Nat) (samples : List Sample) (tags : List Tag) (b : β)
    (next : Work (WorkOutcome × β)) : Work (WorkOutcome × β) :=
  .ask (.publish port samples tags) fun
    | .error e => fail (.stream e) b
    | .ok () => next

end Work

end Dataflow
