import Dataflow.Graph.Inspect

/-!
# Executing blocks

An execution is a graph together with all that its blocks leave outside of it: messages in the
inbox, notes in the trace, and a journal of every call that was made on a block. This module
answers the operations of blocks (`Execution.answerWork`) and makes single calls on them:
`start`, `invoke`, `pause`, `resume` and `finish`.

A block finishes when it says so, when it lacks input while one of its inputs is exhausted, when
all readers of all its outputs have detached, when it fails, or on request. Finishing closes its
outputs and detaches its inputs, so that the end of the stream travels on to its readers, and the
lack of readers back to the blocks that feed it.
-/

namespace Dataflow

open Lifecycle (State)

/-- A call on a block. -/
inductive Call where
  | start (result : Except WorkError Unit)
  | work (outcome : WorkOutcome)
  | pause
  | resume
  | stop

/-- A call on the block at a position. -/
structure JournalEntry where
  block : Nat
  call : Call

/-- A graph and what its blocks leave outside of it. -/
structure Execution (β : Type) where
  graph : Graph β
  /-- Number of the inbox; messages to any other are lost. -/
  inboxId : Nat
  /-- Messages not yet handled. -/
  inbox : List Message
  trace : Array TraceEntry
  /-- Every call made on a block, in order. -/
  journal : Array JournalEntry
  log : Array LogLine

/-- Why a block finished. -/
inductive FinishReason where
  | done | endOfStream | detached | stopRequested | failed
  deriving DecidableEq, Repr

def FinishReason.text : FinishReason → String
  | done => "done"
  | endOfStream => "end of stream"
  | detached => "all readers detached"
  | stopRequested => "stop requested"
  | failed => "work failed"

/-- What one invocation of a block achieved. -/
inductive Invocation where
  | progress
  | idle
  | finished
  | failed (e : WorkError)
  | crashed
  deriving DecidableEq, Repr

namespace Execution

variable {β : Type}

/-! ### Small changes -/

def addLog (x : Execution β) (lines : List LogLine) : Execution β :=
  { x with log := x.log ++ lines }

def addLine (x : Execution β) (level : LogLevel) (text : String) : Execution β :=
  { x with log := x.log.push ⟨level, text⟩ }

def record (x : Execution β) (block : Nat) (call : Call) : Execution β :=
  { x with journal := x.journal.push ⟨block, call⟩ }

def modifyNode (x : Execution β) (block : Nat) (f : Node β → Node β) : Execution β :=
  { x with graph := x.graph.modifyNode block f }

def setConnections (x : Execution β) (connections : List Connection) : Execution β :=
  { x with graph := { x.graph with connections } }

/-- Replace the stream that ends at an input. -/
def setInput (x : Execution β) (target : Endpoint) (s : Stream Sample) : Execution β :=
  x.setConnections (Graph.modifyInput target (fun _ => s) x.graph.connections)

/-! ### Answering operations -/

/-- Answer an operation that every hook may ask for. -/
def answerHook : (op : HookOp) → Execution β → op.Reply × Execution β
  | .send inbox m, x =>
    if inbox = x.inboxId then (.ok (), { x with inbox := x.inbox ++ [m] })
    else (.error .disconnected, x)
  | .note entry, x => ((), { x with trace := x.trace.push entry })

variable [Block β]

/-- The port at a position among those of the block at `block`. -/
def port (x : Execution β) (block : Nat) (ports : Node β → List PortSchema) (port : Nat) :
    Except PortError PortSchema :=
  match x.graph.node? block with
  | none => .error (.indexOutOfRange port "")
  | some n =>
    match (ports n)[port]? with
    | none => .error (.indexOutOfRange port n.uniqueName)
    | some p => .ok p

/-- Answer an operation in a work call of the block at `block`. -/
def answerWork (block : Nat) : (op : WorkOp) → Execution β → op.Reply × Execution β
  | .hook op, x => answerHook op x
  | .input i, x =>
    ((x.port block Node.inputs i).map (Graph.inputStatus x.graph.connections ⟨block, i⟩), x)
  | .output i, x =>
    ((x.port block Node.outputs i).map (Graph.outputStatus x.graph.connections ⟨block, i⟩), x)
  | .peek i limit, x =>
    match Graph.inputStream? x.graph.connections ⟨block, i⟩ with
    | none => (Chunk.empty, x)
    | some s =>
      let (chunk, s') := s.peek limit
      (chunk, (x.setInput ⟨block, i⟩ s').addLog s.collectLog)
  | .take i limit, x =>
    match Graph.inputStream? x.graph.connections ⟨block, i⟩ with
    | none => (Chunk.empty, x)
    | some s =>
      let (chunk, s') := s.take limit
      (chunk, (x.setInput ⟨block, i⟩ s').addLog s.collectLog)
  | .consume i n, x =>
    match Graph.inputStream? x.graph.connections ⟨block, i⟩ with
    | none => (if n = 0 then .ok [] else .error (.insufficientData n 0), x)
    | some s =>
      match s.consume n with
      | .error e => (.error e, x)
      | .ok (tags, s') => (.ok tags, (x.setInput ⟨block, i⟩ s').addLog (s.consumeLog n))
  | .publish i samples tags, x =>
    let streams := Graph.outputStreams x.graph.connections ⟨block, i⟩
    let (result, streams') := FanOut.publish streams samples tags
    let connections := Graph.setOutputs ⟨block, i⟩ x.graph.connections streams'
    (result, (x.setConnections connections).addLog (FanOut.publishLog streams samples tags))

/-- Run the program of a hook. -/
def runHook {ρ : Type} (p : HookProgram ρ) (x : Execution β) : ρ × Execution β :=
  p.run answerHook x

/-- Run the program of a work call of the block at `block`. -/
def runWork {ρ : Type} (block : Nat) (p : Work ρ) (x : Execution β) : ρ × Execution β :=
  p.run (answerWork block) x

/-- Run a hook of the block of a node, and record it. -/
def callHook (x : Execution β) (block : Nat) (b : β) (hook : β → HookProgram β) (call : Call) :
    Execution β :=
  let (b, x) := x.runHook (hook b)
  (x.modifyNode block fun n => { n with block := b }).record block call

/-! ### Calls on blocks -/

def setState (x : Execution β) (block : Nat) (state : State) : Execution β :=
  x.modifyNode block fun n => { n with state }

/-- Start the block at a position, whatever state it was left in. -/
def start (x : Execution β) (block : Nat) : Except WorkError Unit × Execution β :=
  match x.graph.node? block with
  | none => (.ok (), x)
  | some n =>
    let ((result, b), x) := x.runHook (Block.start n.block)
    let state := match result with
      | .ok () => State.running
      | .error _ => .error
    (result, (x.modifyNode block fun n => { n with block := b, state, workCalls := 0 }).record
      block (.start result))

/-- Close the streams that the outputs of a block feed, and detach from those it reads. -/
def withdraw (block : Nat) (connections : List Connection) : List Connection :=
  connections.map fun c =>
    let stream := if c.source.block = block then c.stream.map Stream.close else c.stream
    { c with stream := if c.target.block = block then stream.map Stream.detach else stream }

/-- Stop the block at a position, unless it is finished. -/
def finish (x : Execution β) (block : Nat) (reason : FinishReason) : Execution β :=
  match x.graph.node? block with
  | none => x
  | some n =>
    if n.isFinished then x
    else
      let x := x.setConnections (withdraw block x.graph.connections)
      let x := x.callHook block n.block Block.stop .stop
      (x.setState block .stopped).addLine .info
        s!"[{n.uniqueName}] Finished ({reason.text}) after {n.workCalls} work calls"

/-- Pause the block at a position, if it is running. -/
def pause (x : Execution β) (block : Nat) : Execution β :=
  match x.graph.node? block with
  | none => x
  | some n =>
    if n.state = .running then
      (x.callHook block n.block Block.pause .pause).setState block .paused
    else x

/-- Resume the block at a position, if it is paused. -/
def resume (x : Execution β) (block : Nat) : Execution β :=
  match x.graph.node? block with
  | none => x
  | some n =>
    if n.state = .paused then
      (x.callHook block n.block Block.resume .resume).setState block .running
    else x

/-- Whether a node has outputs, and all their readers have detached. -/
def isDeserted (x : Execution β) (block : Nat) (n : Node β) : Bool :=
  !n.outputs.isEmpty && (x.graph.outputsOf block n).all OutputStatus.allDetached

/-- Whether some input of a node is exhausted. -/
def isStarved (x : Execution β) (block : Nat) (n : Node β) : Bool :=
  (x.graph.inputsOf block n).any InputStatus.exhausted

/-- Make one work call on the block of a node. A call counts once it has returned, so a crashed
one does not. -/
def work (x : Execution β) (block : Nat) (n : Node β) : WorkOutcome × Execution β :=
  let ((outcome, b), x) := x.runWork block (Block.work n.block)
  let returned := if outcome = .crashed then 0 else 1
  (outcome, (x.modifyNode block fun n =>
    { n with block := b, workCalls := n.workCalls + returned }).record block (.work outcome))

/-- Finish the block at a position within an invocation. -/
def finished (x : Execution β) (block : Nat) (reason : FinishReason) : Invocation × Execution β :=
  (.finished, x.finish block reason)

/-- Invoke a running block once: make a work call, unless it has lost all its readers, and finish
it if its time has come. -/
def invoke (x : Execution β) (block : Nat) : Invocation × Execution β :=
  match x.graph.node? block with
  | none => (.idle, x)
  | some n =>
    if n.state ≠ .running then (.idle, x)
    else if x.isDeserted block n then x.finished block .detached
    else
      let (outcome, x) := x.work block n
      match outcome with
      | .crashed => (.crashed, x)
      | .failed e => (.failed e, (x.finish block .failed).setState block .error)
      | .status .ok => (.progress, x)
      | .status .insufficientInput =>
        if x.isStarved block n then x.finished block .endOfStream else (.idle, x)
      | .status .insufficientOutput => (.idle, x)
      | .status .endOfStream => x.finished block .endOfStream
      | .status .done => x.finished block .done

end Execution

end Dataflow
