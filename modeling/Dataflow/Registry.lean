import Dataflow.Block.Builtin
import Dataflow.Node

/-!
# Registry

A registry makes nodes by type name and parameterization. For each pair that it knows it holds a
block as it is before any setting is made. It numbers the nodes of each instantiated name, so
that unique names never repeat.
-/

namespace Dataflow

/-- Why a node could not be made. -/
inductive RegistryError where
  | unknownBlock (typeName parameterization : String)
  | duplicateBlock (typeName parameterization : String)
  | settings (e : SettingsError)
  deriving DecidableEq, Repr

def RegistryError.message : RegistryError → String
  | unknownBlock typeName parameterization =>
    s!"Unknown block '{typeName}' with parameterization '{parameterization}'"
  | duplicateBlock typeName parameterization =>
    s!"Block '{typeName}<{parameterization}>' is already registered"
  | settings e => e.message

/-- The kind of an error. -/
def RegistryError.kind : RegistryError → String
  | unknownBlock _ _ => "UnknownBlock"
  | duplicateBlock _ _ => "DuplicateBlock"
  | settings e => Failure.within "Settings" e

instance : Failure RegistryError := ⟨RegistryError.kind, RegistryError.message⟩

/-- Known blocks, and the numbers given so far. -/
structure Registry (β : Type) where
  /-- By type name and parameterization. -/
  blocks : Dictionary (Dictionary β)
  /-- By instantiated name, the number of the next node. -/
  sequences : Dictionary Nat

namespace Registry

variable {β : Type} [Block β]

def empty : Registry β := ⟨[], []⟩

/-- The parameterizations of a type name with their blocks. -/
def entries (r : Registry β) (typeName : String) : Dictionary β :=
  (r.blocks.get? typeName).getD []

/-- Make a block known under a type name and a parameterization. -/
def add (r : Registry β) (typeName parameterization : String) (block : β) :
    Except RegistryError (Registry β) :=
  let known := r.entries typeName
  if known.hasKey parameterization then .error (.duplicateBlock typeName parameterization)
  else .ok { r with blocks := r.blocks.insert typeName (known.insert parameterization block) }

/-- Type names with at least one parameterization. -/
def providedBlocks (r : Registry β) : List String :=
  Dictionary.keys (r.blocks.filter fun (_, known) => !known.isEmpty)

/-- Type names that have been added. -/
def knownBlocks (r : Registry β) : List String := r.blocks.keys

def parameterizations (r : Registry β) (typeName : String) : List String :=
  (r.entries typeName).keys

def isKnown (r : Registry β) (typeName parameterization : String) : Bool :=
  (r.entries typeName).hasKey parameterization

/-- The number of the next node of an instantiated name. -/
def nextSequence (r : Registry β) (name : String) : Nat := (r.sequences.get? name).getD 0

/-- Count one more node of an instantiated name. -/
def countNode (r : Registry β) (name : String) : Registry β :=
  { r with sequences := r.sequences.insert name (r.nextSequence name + 1) }

/-- A node made by a registry, the registry after it, and lines about it. -/
structure Creation (β : Type) where
  result : Except RegistryError (Node β)
  registry : Registry β
  log : List LogLine

/-- Put a block into a node and make its first settings. The number is used up even if the
settings are refused. -/
def wrap (r : Registry β) (typeName parameterization : String) (block : β)
    (settings : PropertyMap) : Creation β :=
  let name := instantiatedName typeName parameterization
  let u := (Node.new typeName parameterization block (r.nextSequence name)).initialise settings
  let result := match u.result with
    | .ok () => .ok u.node
    | .error e => .error (.settings e)
  ⟨result, r.countNode name, u.log⟩

/-- Make a node by type name and parameterization. -/
def create (r : Registry β) (typeName parameterization : String) (settings : PropertyMap) :
    Creation β :=
  match (r.entries typeName).get? parameterization with
  | none => ⟨.error (.unknownBlock typeName parameterization), r, []⟩
  | some block => r.wrap typeName parameterization block settings

/-- Make built-in blocks known under the names of their kinds and sample types, `embed` placing
them among the registry's blocks. One that is known already is left as it is. -/
def addBuiltins (r : Registry β) (embed : Builtin → β) (kinds : List BuiltinKind)
    (types : List SampleType) : Registry β :=
  kinds.foldl (fun r kind => types.foldl (fun r type =>
    match r.add kind.typeName type.name (embed (.new kind type)) with
    | .ok r => r
    | .error _ => r) r) r

/-- The registry of all built-in blocks for all built-in sample types. -/
def withBuiltins (embed : Builtin → β) : Registry β :=
  empty.addBuiltins embed BuiltinKind.all SampleType.builtin

end Registry

end Dataflow
