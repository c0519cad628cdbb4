import Dataflow.Registry

/-!
# Graphs

A graph is a list of nodes and of typed connections between their ports. A node is known by its
position. Connections are checked when they are made (`Graph.connect`), and get a stream when the
graph is bound for a run (`Graph.bind`): a port has no state beyond the streams of its
connections.
-/

namespace Dataflow

/-- Why two ports could not be connected. -/
inductive ConnectionError where
  | typeMismatch (sourceBlock sourcePort sourceType targetBlock targetPort targetType : String)
  | blockNotFound (block : String)
  | portNotFound (block port : String)
  | duplicateConnection (description : String)
  | fanOutExceeded (block port : String) (limit : Nat)
  | unregisteredType (type : String)
  deriving DecidableEq, Repr

def ConnectionError.message : ConnectionError → String
  | typeMismatch sourceBlock sourcePort sourceType targetBlock targetPort targetType =>
    s!"Type mismatch: {sourceBlock}.{sourcePort} ({sourceType}) -> " ++
      s!"{targetBlock}.{targetPort} ({targetType})"
  | blockNotFound block => s!"Block {block} not found"
  | portNotFound block port => s!"Port '{port}' not found on block '{block}'"
  | duplicateConnection description => description
  | fanOutExceeded block port limit =>
    s!"Output port '{port}' on block '{block}' already feeds {limit} inputs"
  | unregisteredType type =>
    s!"Sample type {type} is not registered; call register_type::<T>() first"

/-- The kind of an error. -/
def ConnectionError.kind : ConnectionError → String
  | typeMismatch _ _ _ _ _ _ => "TypeMismatch"
  | blockNotFound _ => "BlockNotFound"
  | portNotFound _ _ => "PortNotFound"
  | duplicateConnection _ => "DuplicateConnection"
  | fanOutExceeded _ _ _ => "FanOutExceeded"
  | unregisteredType _ => "UnregisteredType"

instance : Failure ConnectionError := ⟨ConnectionError.kind, ConnectionError.message⟩

/-- Why a graph could not be built or run. -/
inductive GraphError where
  | registry (e : RegistryError)
  | connection (e : ConnectionError)
  | settings (e : SettingsError)
  | unconnectedInput (block port : String)
  deriving DecidableEq, Repr

def GraphError.message : GraphError → String
  | registry e => e.message
  | connection e => e.message
  | settings e => e.message
  | unconnectedInput block port => s!"Input port '{port}' on block '{block}' is not connected"

/-- The kind of an error. -/
def GraphError.kind : GraphError → String
  | registry e => Failure.within "Registry" e
  | connection e => Failure.within "Connection" e
  | settings e => Failure.within "Settings" e
  | unconnectedInput _ _ => "UnconnectedInput"

instance : Failure GraphError := ⟨GraphError.kind, GraphError.message⟩

/-- One port of one node. -/
structure Endpoint where
  block : Nat
  port : Nat
  deriving DecidableEq, Repr

/-- A connection from an output to an input. -/
structure Connection where
  source : Endpoint
  target : Endpoint
  /-- Overrides the default of the graph. -/
  bufferSize : Option Nat
  type : SampleType
  /-- Present once the graph has been bound. -/
  stream : Option (Stream Sample)

/-- Choices that hold for a whole graph. -/
structure GraphConfig where
  defaultBufferSize : Nat
  /-- Number of inputs that one output may feed. -/
  maxFanOut : Nat
  deriving DecidableEq, Repr

def GraphConfig.default : GraphConfig := ⟨4096, 4⟩

/-- Nodes and connections. -/
structure Graph (β : Type) where
  nodes : List (Node β)
  connections : List Connection
  config : GraphConfig

namespace Graph

variable {β : Type}

def empty (config : GraphConfig) : Graph β := ⟨[], [], config⟩

def node? (g : Graph β) (block : Nat) : Option (Node β) := g.nodes[block]?

/-- Put a node at the end, where its position is the number of nodes so far. -/
def insert (g : Graph β) (n : Node β) : Graph β := { g with nodes := g.nodes ++ [n] }

/-- A graph with a node that a registry made, the registry after it, and lines about it. -/
structure Growth (β : Type) where
  /-- Position of the new node. -/
  result : Except GraphError Nat
  graph : Graph β
  registry : Registry β
  log : List LogLine

/-- Put a node that a registry made into the graph. -/
def grow (g : Graph β) (made : Registry.Creation β) : Growth β :=
  match made.result with
  | .error e => ⟨.error (.registry e), g, made.registry, made.log⟩
  | .ok n => ⟨.ok g.nodes.length, g.insert n, made.registry, made.log⟩

/-- Make a node by type name and parameterization, and put it into the graph. -/
def emplace [Block β] (g : Graph β) (r : Registry β) (typeName parameterization : String)
    (settings : PropertyMap) : Growth β :=
  g.grow (r.create typeName parameterization settings)

/-- Put a block into a node and the node into the graph. -/
def add [Block β] (g : Graph β) (r : Registry β) (typeName parameterization : String) (block : β) :
    Growth β :=
  g.grow (r.wrap typeName parameterization block [])

/-- Change the node at a position. -/
def modifyNode (g : Graph β) (block : Nat) (f : Node β → Node β) : Graph β :=
  { g with nodes := g.nodes.modify block f }

/-- Position of the first node with a unique name. -/
def find? [Block β] (g : Graph β) (uniqueName : String) : Option Nat :=
  g.nodes.findIdx? fun n => n.uniqueName = uniqueName

/-! ### Connecting -/

/-- Name of a port, empty if there is none at the position. -/
def portName (ports : List PortSchema) (port : Nat) : String :=
  (ports[port]?.map PortSchema.name).getD ""

/-- Number of inputs that an output feeds. -/
def fanOut (g : Graph β) (source : Endpoint) : Nat :=
  g.connections.countP fun c => c.source = source

/-- What is said of an input that is connected already. -/
def duplicateText [Block β] (g : Graph β) (input : PortSchema) (target : Node β)
    (existing : Connection) : String :=
  let writer := g.node? existing.source.block
  let block := (writer.map Node.uniqueName).getD ""
  let port := portName ((writer.map Node.outputs).getD []) existing.source.port
  s!"Input port '{input.name}' on block '{target.uniqueName}' is already connected to " ++
    s!"'{block}' port '{port}'"

/-- Why a node is not there. -/
def noBlock (block : Nat) : ConnectionError := .blockNotFound s!"BlockId({block})"

/-- The connection between two ports, if it may be made. -/
def newConnection [Block β] (g : Graph β) (source : Nat) (sourcePort : PortRef) (target : Nat)
    (targetPort : PortRef) (bufferSize : Option Nat) : Except ConnectionError Connection :=
  match g.node? source, g.node? target with
  | none, _ => .error (noBlock source)
  | _, none => .error (noBlock target)
  | some from_, some to_ =>
    match sourcePort.resolve from_.outputs, targetPort.resolve to_.inputs with
    | none, _ => .error (.portNotFound from_.uniqueName sourcePort.text)
    | _, none => .error (.portNotFound to_.uniqueName targetPort.text)
    | some i, some j =>
      match from_.outputs[i]?, to_.inputs[j]? with
      | some output, some input =>
        if output.type ≠ input.type then
          .error (.typeMismatch from_.uniqueName output.name output.type.name
            to_.uniqueName input.name input.type.name)
        else
          match g.connections.find? fun c => c.target = ⟨target, j⟩ with
          | some existing => .error (.duplicateConnection (g.duplicateText input to_ existing))
          | none =>
            if g.config.maxFanOut ≤ g.fanOut ⟨source, i⟩ then
              .error (.fanOutExceeded from_.uniqueName output.name g.config.maxFanOut)
            else if output.type ∈ SampleType.registered then
              .ok ⟨⟨source, i⟩, ⟨target, j⟩, bufferSize, output.type, none⟩
            else .error (.unregisteredType output.type.name)
      | none, _ => .error (.portNotFound from_.uniqueName sourcePort.text)
      | _, none => .error (.portNotFound to_.uniqueName targetPort.text)

/-- Connect an output to an input. -/
def connect [Block β] (g : Graph β) (source : Nat) (sourcePort : PortRef) (target : Nat)
    (targetPort : PortRef) (bufferSize : Option Nat) : Except ConnectionError (Graph β) :=
  match g.newConnection source sourcePort target targetPort bufferSize with
  | .error e => .error e
  | .ok c => .ok { g with connections := g.connections ++ [c] }

/-! ### Binding -/

/-- Number of samples that the stream of a connection holds. -/
def bufferSize (g : Graph β) (c : Connection) : Nat :=
  c.bufferSize.getD g.config.defaultBufferSize

/-- Give every connection a fresh stream. -/
def bind (g : Graph β) : Graph β :=
  { g with connections := g.connections.map fun c =>
    { c with stream := some (.empty (g.bufferSize c)) } }

/-- The stream that ends at an input. -/
def inputStream? (connections : List Connection) (target : Endpoint) : Option (Stream Sample) :=
  connections.findSome? fun c => if c.target = target then c.stream else none

/-- The streams that an output feeds, in the order of their connections. -/
def outputStreams (connections : List Connection) (source : Endpoint) : List (Stream Sample) :=
  connections.filterMap fun c => if c.source = source then c.stream else none

/-- Change the stream that ends at an input. -/
def modifyInput (target : Endpoint) (f : Stream Sample → Stream Sample)
    (connections : List Connection) : List Connection :=
  connections.map fun c => if c.target = target then { c with stream := c.stream.map f } else c

/-- Put back the streams that an output feeds, in the order of their connections. -/
def setOutputs (source : Endpoint) :
    List Connection → List (Stream Sample) → List Connection
  | [], _ => []
  | c :: rest, streams =>
    match decide (c.source = source), c.stream, streams with
    | true, some _, s :: streams =>
      { c with stream := some s } :: setOutputs source rest streams
    | _, _, _ => c :: setOutputs source rest streams

end Graph

end Dataflow
