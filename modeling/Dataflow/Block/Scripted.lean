import Dataflow.Block

/-!
# Scripted blocks

A block that does what a script says: which ports and settings it has, which operations each of
its work calls asks for and how the call ends, and which messages it sends when it is started,
stopped, paused or resumed. It notes in the trace what happens to it. Scripted blocks put a graph
through situations that the built-in blocks do not reach.
-/

namespace Dataflow

namespace Script

/-- Declaration of a setting with its initial value. A non-empty list of allowed values excludes
all others. -/
structure Setting where
  key : String
  description : String
  isFixed : Bool
  value : Value
  allowed : List Value

/-- What one step of a work call does. Ports are given by position. -/
inductive Action where
  | peek (input : Nat) (type : SampleType) (limit : Nat)
  | take (input : Nat) (type : SampleType) (limit : Nat)
  | takeAll (input : Nat) (type : SampleType)
  | consume (input : Nat) (type : SampleType) (n : Nat)
  | reader (input : Nat) (type : SampleType)
  | publish (output : Nat) (type : SampleType) (samples : List Sample) (tags : List Tag)
  | writer (output : Nat) (type : SampleType)
  | forward (input output : Nat) (type : SampleType) (limit : Nat)
  | inputPort (input : Nat)
  | outputPort (output : Nat)
  | send (m : Message)

/-- A step of a work call. An error in a strict step ends the call. -/
structure Step where
  action : Action
  isStrict : Bool

/-- How a work call ends after its steps. -/
inductive Ending where
  | status (s : WorkStatus)
  /-- Progress if the steps moved a sample, otherwise lack of input. -/
  | auto
  | error
  | crash
  deriving DecidableEq, Repr

def Ending.name : Ending → String
  | status .ok => "ok"
  | status .insufficientInput => "in"
  | status .insufficientOutput => "out"
  | status .endOfStream => "eos"
  | status .done => "done"
  | auto => "auto"
  | error => "error"
  | crash => "crash"

/-- Every ending. -/
def Ending.all : List Ending :=
  [.status .ok, .status .insufficientInput, .status .insufficientOutput, .status .endOfStream,
    .status .done, .auto, .error, .crash]

/-- The ending of a given name. -/
def Ending.ofName? (s : String) : Option Ending := all.find? fun e => e.name = s

structure Call where
  steps : List Step
  ending : Ending

end Script

open Script in
/-- What a scripted block does. -/
structure Script where
  label : String
  description : String
  inputs : List PortSchema
  outputs : List PortSchema
  /-- Key of the setting that says how many further inputs there are, and their type. -/
  dynamicInputs : Option (String × SampleType)
  settings : List Setting
  isPermissive : Bool
  /-- A setting that is refused as long as it has the value. -/
  veto : Option (String × Value)
  /-- The work calls after a start, in order. -/
  calls : List Call
  /-- Every work call after those. -/
  otherwise : Call
  /-- Text of the error with which a start fails. -/
  startError : Option String
  /-- Messages sent in a hook. -/
  messages : Hook → List Message
  /-- No notes on hooks and on work calls that end as the script says. -/
  isQuiet : Bool

/-- A block driven by a script. -/
structure Scripted where
  script : Script
  /-- Number of the inbox that messages are sent to. -/
  inbox : Nat
  values : PropertyMap
  /-- Work calls since the last start. -/
  callsMade : Nat

namespace Scripted

def new (script : Script) (inbox : Nat) : Scripted :=
  ⟨script, inbox, .ofList (script.settings.map fun s => (s.key, s.value)), 0⟩

/-! ### Ports and settings -/

/-- Number of inputs beyond the declared ones. -/
def dynamicCount (b : Scripted) (key : String) : Nat :=
  match (b.values.require key).bind (Value.asInt .u64) with
  | .ok n => n.toNat
  | .error _ => 0

def inputs (b : Scripted) : List PortSchema :=
  match b.script.dynamicInputs with
  | none => b.script.inputs
  | some (key, type) =>
    b.script.inputs ++ (List.range (b.dynamicCount key)).map fun i =>
      .input s!"in{i}" type (b.script.inputs.length + i)

def set (b : Scripted) (key : String) (v : Value) : Except SettingsError Unit × Scripted :=
  match b.script.settings.find? (·.key = key), b.values.get? key with
  | some declared, some current =>
    if v.type ≠ current.type then (.error (.value key (v.mismatch current.type)), b)
    else if !declared.allowed.isEmpty && !declared.allowed.any (·.same v) then
      (.error (.invalidValue key "not allowed"), b)
    else (.ok (), { b with values := b.values.insert key v })
  | _, _ => Block.refuse b key

def settle (b : Scripted) : Except SettingsError Unit × Scripted :=
  match b.script.veto with
  | none => (.ok (), b)
  | some (key, v) =>
    if (b.values.get? key).any (·.same v) then (.error (.invalidValue key "vetoed"), b)
    else (.ok (), b)

/-! ### Hooks -/

/-- Make a note under the label of the block. -/
def note (b : Scripted) (event : TraceEvent) : HookProgram Unit :=
  .perform (HookOp.note ⟨b.script.label, event⟩)

/-- Send messages, noting each one that cannot be sent. -/
def sendAll (b : Scripted) : List Message → HookProgram Unit
  | [] => .done ()
  | m :: rest =>
    .ask (.send b.inbox m) fun
      | .ok () => b.sendAll rest
      | .error e => (b.note (.sendFailed e)).bind fun _ => b.sendAll rest

/-- Note a hook, unless the script is quiet, and send its messages. -/
def onHook (b : Scripted) (h : Hook) : HookProgram Unit :=
  if b.script.isQuiet then b.sendAll (b.script.messages h)
  else (b.note (.hook h)).bind fun _ => b.sendAll (b.script.messages h)

def start (b : Scripted) : HookProgram (Except WorkError Unit × Scripted) :=
  (b.onHook .start).map fun _ =>
    let started := { b with callsMade := 0 }
    match b.script.startError with
    | some text => (.error (.block text), started)
    | none => (.ok (), started)

/-! ### Work calls -/

/-- What a step gave, and how many samples it moved. -/
abbrev StepResult := Except OperationError (Observation × Nat)

/-- Look at an input as a reader of samples of type `t`. -/
def withReader (port : Nat) (t : SampleType) (next : InputStatus → Work StepResult) :
    Work StepResult :=
  .ask (.input port) fun
    | .error e => .done (.error (.port e))
    | .ok s =>
      match Work.readerError? s t with
      | some e => .done (.error (.port e))
      | none => next s

/-- Look at an output as a writer of samples of type `t`. -/
def withWriter (port : Nat) (t : SampleType) (next : OutputStatus → Work StepResult) :
    Work StepResult :=
  .ask (.output port) fun
    | .error e => .done (.error (.port e))
    | .ok s =>
      match Work.writerError? s t with
      | some e => .done (.error (.port e))
      | none => next s

/-- Publish a chunk, and report `seen` if it was accepted. -/
def publishing (port : Nat) (chunk : Chunk Sample) (seen : Observation) : Work StepResult :=
  .ask (.publish port chunk.samples chunk.tags) fun
    | .error e => .done (.error (.stream e))
    | .ok () => .done (.ok (seen, chunk.samples.length))

open Script in
/-- One step of a work call. -/
def step (b : Scripted) : Action → Work StepResult
  | .peek port t limit => withReader port t fun _ =>
    .ask (.peek port limit) fun c => .done (.ok (.chunk c, c.samples.length))
  | .take port t limit => withReader port t fun _ =>
    .ask (.take port limit) fun c => .done (.ok (.chunk c, c.samples.length))
  | .takeAll port t => withReader port t fun s =>
    .ask (.take port s.available) fun c => .done (.ok (.chunk c, c.samples.length))
  | .consume port t n => withReader port t fun _ =>
    .ask (.consume port n) fun
      | .error e => .done (.error (.stream e))
      | .ok tags => .done (.ok (.tags tags, n))
  | .reader port t => withReader port t fun s =>
    .done (.ok (.reader s.available s.closed s.exhausted, 0))
  | .publish port t samples tags => withWriter port t fun _ =>
    publishing port ⟨samples, tags⟩ .nothing
  | .writer port t => withWriter port t fun s =>
    .done (.ok (.writer s.taggedSpace s.destinations (s.destinations ≠ 0), 0))
  | .forward input output t limit => withReader input t fun _ =>
    .ask (.take input limit) fun c => withWriter output t fun _ =>
      publishing output c (.count c.samples.length)
  | .inputPort port =>
    .ask (.input port) fun
      | .error e => .done (.error (.port e))
      | .ok s => .done (.ok (.input s.connected s.available s.exhausted, 0))
  | .outputPort port =>
    .ask (.output port) fun
      | .error e => .done (.error (.port e))
      | .ok s => .done (.ok (.output (s.destinations ≠ 0) s.space s.allDetached, 0))
  | .send m =>
    .ask (.hook (.send b.inbox m)) fun
      | .error e => .done (.error (.message e))
      | .ok () => .done (.ok (.nothing, 0))

/-- What the steps of a work call gave, in order, how many samples they moved, and the error of
a strict step that ended the call. -/
structure Progress where
  observations : List (Except OperationError Observation)
  moved : Nat
  failure : Option OperationError

/-- Take steps until they are used up or a strict one fails. -/
def steps (b : Scripted) : List Script.Step → Work Progress
  | [] => .done ⟨[], 0, none⟩
  | s :: rest => (b.step s.action).bind fun
    | .ok (seen, n) => (b.steps rest).map fun p =>
      { p with observations := .ok seen :: p.observations, moved := n + p.moved }
    | .error e =>
      if s.isStrict then .done ⟨[.error e], 0, some e⟩
      else (b.steps rest).map fun p =>
        { p with observations := .error e :: p.observations }

/-- The error of a strict step as the error of the call. A message that cannot be sent has no
error kind of its own there. -/
def failure : OperationError → WorkError
  | .port e => .port e
  | .stream e => .stream e
  | .message e => .block e.message

/-- The outcome of a call whose steps moved `moved` samples. -/
def outcome (ending : Script.Ending) (moved : Nat) : WorkOutcome :=
  match ending with
  | .status s => .status s
  | .auto => .status (if moved = 0 then .insufficientInput else .ok)
  | .error => .failed (.block "scripted failure")
  | .crash => .crashed

/-- End a work call with a note. -/
def noting (b : Scripted) (event : TraceEvent) (result : WorkOutcome) :
    Work (WorkOutcome × Scripted) :=
  .ask (.hook (.note ⟨b.script.label, event⟩)) fun _ => .done (result, b)

/-- The work call that the script has for call number `n`, counted from zero. -/
def callAt (b : Scripted) (n : Nat) : Script.Call := b.script.calls[n]?.getD b.script.otherwise

def work (b : Scripted) : Work (WorkOutcome × Scripted) :=
  let call := b.callAt b.callsMade
  let b := { b with callsMade := b.callsMade + 1 }
  (b.steps call.steps).bind fun p =>
    match p.failure with
    | some e =>
      b.noting (.call b.callsMade p.observations "failed") (.failed (failure e))
    | none =>
      let result := outcome call.ending p.moved
      if b.script.isQuiet then .done (result, b)
      else b.noting (.call b.callsMade p.observations call.ending.name) result

instance : Block Scripted where
  description b := b.script.description
  inputs := inputs
  outputs b := b.script.outputs
  descriptors b := b.script.settings.map fun s => ⟨s.key, s.description, !s.isFixed⟩
  settings b := b.values
  set := set
  settle := settle
  isPermissive b := b.script.isPermissive
  start := start
  stop b := (b.onHook .stop).map fun _ => b
  pause b := (b.onHook .pause).map fun _ => b
  resume b := (b.onHook .resume).map fun _ => b
  work := work

end Scripted

end Dataflow
