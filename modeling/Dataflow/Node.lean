import Dataflow.Block

/-!
# Nodes

A node is a block inside a graph, with its names, its ports, its lifecycle state and the settings
that the block itself does not know. Settings change as a whole or not at all (`Node.apply`): the
keys are checked before anything is changed, and when the block refuses a value, the settings it
had before are put back.
-/

namespace Dataflow

open Lifecycle (State)

/-- Either `name` or `name<parameterization>`. -/
def instantiatedName (blockType parameterization : String) : String :=
  if parameterization = "" then blockType else s!"{blockType}<{parameterization}>"

/-- A block in a graph. -/
structure Node (β : Type) where
  /-- For display; it may be changed at any time. -/
  name : String
  blockType : String
  parameterization : String
  /-- Number of earlier nodes of the same instantiated name. -/
  sequence : Nat
  block : β
  inputs : List PortSchema
  outputs : List PortSchema
  /-- Settings that are kept for the block without its knowing them. -/
  extra : PropertyMap
  state : State
  /-- Work calls since the last start. -/
  workCalls : Nat

namespace Node

variable {β : Type} [Block β]

/-- A node whose ports are those of the block. -/
def new (blockType parameterization : String) (block : β) (sequence : Nat) : Node β where
  name := instantiatedName blockType parameterization
  blockType := blockType
  parameterization := parameterization
  sequence := sequence
  block := block
  inputs := Block.inputs block
  outputs := Block.outputs block
  extra := []
  state := .idle
  workCalls := 0

def typeName (n : Node β) : String := instantiatedName n.blockType n.parameterization

/-- The name by which messages and log lines call a node. -/
def uniqueName (n : Node β) : String := s!"{n.typeName}#{n.sequence}"

def isFinished (n : Node β) : Bool := n.state.isTerminal

/-! ### Settings -/

/-- The settings of the block, and those kept beside it. -/
def settings (n : Node β) : PropertyMap := Dictionary.overwrite n.extra (Block.settings n.block)

/-- Whether a key is one of the declared settings. -/
def declares (b : β) (key : String) : Bool := (Block.descriptors b).any fun d => d.key = key

/-- Why a key may not be set, if so. While the block runs, only mutable settings may. -/
def keyError? (n : Node β) (isRunning : Bool) (key : String) : Option SettingsError :=
  match (Block.descriptors n.block).find? fun d => d.key = key with
  | some d => if isRunning && !d.isMutable then some (.immutable n.uniqueName key) else none
  | none => if Block.isPermissive n.block then none else some (.unknownKey n.uniqueName key)

/-- Set entries one after the other, up to the first that is refused. -/
def setAll (b : β) : List (String × Value) → Except SettingsError Unit × β
  | [] => (.ok (), b)
  | (key, v) :: rest =>
    match Block.set b key v with
    | (.ok (), b) => setAll b rest
    | (.error e, b) => (.error e, b)

/-- Set the declared entries of a map, and check the settings as a whole. -/
def tryApply (b : β) (settings : PropertyMap) : Except SettingsError Unit × β :=
  match setAll b (settings.filter fun (key, _) => declares b key) with
  | (.ok (), b) => Block.settle b
  | (.error e, b) => (.error e, b)

/-- Set every entry, whether or not others are refused; gives the refused ones. -/
def setEach (b : β) : List (String × Value) → List (String × SettingsError) × β
  | [] => ([], b)
  | (key, v) :: rest =>
    match Block.set b key v with
    | (.ok (), b) => setEach b rest
    | (.error e, b) =>
      let (refused, b) := setEach b rest
      ((key, e) :: refused, b)

/-- What became of an attempt to put settings back. -/
structure Restoration (β : Type) where
  block : β
  /-- The settings that were refused, in the order in which they were set. -/
  refused : List (String × SettingsError)
  /-- The error of the check of the settings as a whole. -/
  rejection : Option SettingsError

/-- Put settings back. -/
def restore (b : β) (previous : PropertyMap) : Restoration β :=
  let (refused, b) := setEach b previous
  match Block.settle b with
  | (.ok (), b) => ⟨b, refused, none⟩
  | (.error e, b) => ⟨b, refused, some e⟩

/-- The first failure, with its key; the check as a whole goes by the key `*`. -/
def Restoration.failure? (r : Restoration β) : Option (String × SettingsError) :=
  match r.refused with
  | first :: _ => some first
  | [] => r.rejection.map fun e => ("*", e)

/-- Lines about the failures of a restoration on the node of the given name. -/
def Restoration.log (r : Restoration β) (uniqueName : String) : List LogLine :=
  r.refused.map (fun (key, e) =>
    ⟨.error, s!"[{uniqueName}] Failed to restore setting '{key}': {e.message}"⟩) ++
  r.rejection.toList.map fun e =>
    ⟨.error, s!"[{uniqueName}] Settings rejected after restore: {e.message}"⟩

/-- A node after an attempt to change its settings. -/
structure Update (β : Type) where
  result : Except SettingsError Unit
  node : Node β
  log : List LogLine

/-- Change settings, all or none. Keys are checked in order before anything is set. Undeclared
keys are kept beside the block once it has accepted the others. -/
def apply (n : Node β) (settings : PropertyMap) (isRunning : Bool) : Update β :=
  match settings.keys.findSome? (n.keyError? isRunning) with
  | some e => ⟨.error e, n, []⟩
  | none =>
    match tryApply n.block settings with
    | (.ok (), block) =>
      let extra := Dictionary.overwrite n.extra
        (settings.filter fun (key, _) => !declares n.block key)
      ⟨.ok (), { n with block, extra }, []⟩
    | (.error update, block) =>
      let r := restore block (Block.settings n.block)
      let result := match r.failure? with
        | none => update
        | some (key, rollback) => .rollbackFailed n.uniqueName key update rollback
      ⟨.error result, { n with block := r.block }, r.log n.uniqueName⟩

/-- Read the ports of the block again. -/
def refreshPorts (n : Node β) : Node β :=
  { n with inputs := Block.inputs n.block, outputs := Block.outputs n.block }

/-- Make the settings of construction, on which the ports may depend. -/
def initialise (n : Node β) (settings : PropertyMap) : Update β :=
  let u := n.apply settings false
  match u.result with
  | .ok () => { u with node := u.node.refreshPorts }
  | .error _ => u

/-! ### Control messages -/

/-- A port as it appears in meta information. -/
def portInformation (p : PortSchema) : Value :=
  .map [("index", .int .u64 p.index), ("name", .string p.name), ("optional", .bool p.optional),
    ("type", .string p.type.name)]

/-- A setting as it appears in meta information. -/
def settingInformation (d : SettingDescriptor) : Value :=
  .map [("description", .string d.description), ("key", .string d.key),
    ("mutable", .bool d.isMutable)]

/-- Names, ports and declared settings of a node. -/
def metaInformation (n : Node β) : PropertyMap :=
  .ofList [
    ("name", .string n.name),
    ("uniqueName", .string n.uniqueName),
    ("typeName", .string n.typeName),
    ("blockType", .string n.blockType),
    ("parameterization", .string n.parameterization),
    ("description", .string (Block.description n.block)),
    ("inputs", .vector (n.inputs.map portInformation)),
    ("outputs", .vector (n.outputs.map portInformation)),
    ("settings", .vector ((Block.descriptors n.block).map settingInformation))]

/-- The answer to a message, the node after it, and lines about it. -/
structure Answer (β : Type) where
  data : Except MessageError PropertyMap
  node : Node β
  log : List LogLine

/-- Answer a request to change settings. -/
def answerSet (n : Node β) (m : Message) : Answer β :=
  match m.data with
  | .error e => ⟨.error e, n, []⟩
  | .ok settings =>
    let u := n.apply settings true
    match u.result with
    | .ok () => ⟨.ok u.node.settings, u.node, u.log⟩
    | .error e => ⟨.error (.settingsRejected e.message), u.node, u.log⟩

/-- Answer a message addressed to the node. -/
def answer (n : Node β) (m : Message) : Answer β :=
  match m.property, m.command with
  | "Settings", .get => ⟨.ok n.settings, n, []⟩
  | "Settings", .set => n.answerSet m
  | "MetaInformation", .get => ⟨.ok n.metaInformation, n, []⟩
  | "LifecycleState", .get => ⟨.ok [("state", .string n.state.name)], n, []⟩
  | "Echo", _ | "Heartbeat", _ => ⟨m.data, n, []⟩
  | "Settings", command | "MetaInformation", command | "LifecycleState", command =>
    ⟨.error (.unsupportedCommand command m.property), n, []⟩
  | _, _ => ⟨.error (.propertyNotFound n.uniqueName m.property), n, []⟩

end Node

end Dataflow
