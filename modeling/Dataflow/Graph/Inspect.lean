import Dataflow.Graph

/-!
# Looking at graphs

Validation before a run, and descriptions of a graph and its nodes for control messages and for
people.
-/

namespace Dataflow

namespace Lifecycle.State

/-- The name of a state in the description of a node. -/
def label : State → String
  | idle => "Idle"
  | initialising => "Initialising"
  | running => "Running"
  | requestedPause => "RequestedPause"
  | paused => "Paused"
  | requestedStop => "RequestedStop"
  | stopped => "Stopped"
  | error => "Error"

end Lifecycle.State

namespace Graph

variable {β : Type} [Block β]

/-! ### Validation -/

/-- Whether some connection ends at an input. -/
def isFed (g : Graph β) (target : Endpoint) : Bool := g.connections.any fun c => c.target = target

/-- The first required input of a node that no connection ends at. -/
def unfedInput? (g : Graph β) (block : Nat) (n : Node β) : Option PortSchema :=
  (n.inputs.zipIdx.find? fun (p, i) => !p.optional && !g.isFed ⟨block, i⟩).map Prod.fst

/-- Every required input must be connected. Outputs need not be: what they publish is
discarded. -/
def validate (g : Graph β) : Except GraphError Unit :=
  match g.nodes.zipIdx.findSome? fun (n, i) => (g.unfedInput? i n).map fun p => (n, p) with
  | some (n, p) => .error (.unconnectedInput n.uniqueName p.name)
  | none => .ok ()

/-! ### Description -/

/-- Names and states of the nodes, and the connections. -/
def inspect (g : Graph β) : PropertyMap :=
  let block (n : Node β) : String × Value :=
    (n.uniqueName, .map [("name", .string n.name), ("state", .string n.state.name),
      ("typeName", .string n.typeName)])
  let side (e : Endpoint) (ports : Node β → List PortSchema) : String :=
    match g.node? e.block with
    | some n => n.uniqueName ++ "." ++ portName (ports n) e.port
    | none => ""
  let connection (c : Connection) : Value :=
    .string (side c.source Node.outputs ++ " -> " ++ side c.target Node.inputs)
  [("blocks", .map (Dictionary.ofList (g.nodes.map block))),
    ("connections", .vector (g.connections.map connection))]

/-- What can be seen of an input; an unconnected one has nothing to read. -/
def inputStatus (connections : List Connection) (target : Endpoint) (schema : PortSchema) :
    InputStatus :=
  match inputStream? connections target with
  | none => ⟨schema, false, 0, false, false⟩
  | some s => ⟨schema, true, s.available, s.closed, s.exhausted⟩

/-- What can be seen of an output. -/
def outputStatus (connections : List Connection) (source : Endpoint) (schema : PortSchema) :
    OutputStatus :=
  let streams := outputStreams connections source
  ⟨schema, streams.length, FanOut.space streams, FanOut.taggedSpace streams,
    FanOut.allDetached streams⟩

/-- Status of every input of a node. -/
def inputsOf (g : Graph β) (block : Nat) (n : Node β) : List InputStatus :=
  n.inputs.zipIdx.map fun (p, i) => inputStatus g.connections ⟨block, i⟩ p

/-- Status of every output of a node. -/
def outputsOf (g : Graph β) (block : Nat) (n : Node β) : List OutputStatus :=
  n.outputs.zipIdx.map fun (p, i) => outputStatus g.connections ⟨block, i⟩ p

end Graph

/-- Text of an input for people. -/
def InputStatus.text (s : InputStatus) : String :=
  s!"InputPort[{s.schema.name}: {s.schema.type.name}, available={s.available}]"

/-- Text of an output for people. -/
def OutputStatus.text (s : OutputStatus) : String :=
  s!"OutputPort[{s.schema.name}: {s.schema.type.name}, destinations={s.destinations}]"

/-- Text of a node of a graph for people. -/
def Graph.nodeText {β : Type} [Block β] (g : Graph β) (block : Nat) (n : Node β) : String :=
  let list (texts : List String) : String := "[" ++ ", ".intercalate texts ++ "]"
  "BlockNode \x7b unique_name: " ++ Text.quoted n.uniqueName ++ ", name: " ++ Text.quoted n.name ++
    ", state: " ++ n.state.label ++
    ", inputs: " ++ list ((g.inputsOf block n).map InputStatus.text) ++
    ", outputs: " ++ list ((g.outputsOf block n).map OutputStatus.text) ++ " \x7d"

end Dataflow
