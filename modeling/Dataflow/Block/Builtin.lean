import Dataflow.Block.Copy
import Dataflow.Block.Head
import Dataflow.Block.NullSink
import Dataflow.Block.VectorSink
import Dataflow.Block.VectorSource

/-!
# Built-in blocks

The seven kinds of blocks that come with the library, as one type of blocks.
-/

namespace Dataflow

/-- A kind of built-in block. -/
inductive BuiltinKind where
  | nullSource | nullSink | vectorSource | vectorSink | head | copy | tagGate
  deriving DecidableEq, Repr

namespace BuiltinKind

def all : List BuiltinKind := [nullSource, nullSink, vectorSource, vectorSink, head, copy, tagGate]

def name : BuiltinKind → String
  | nullSource => "NullSource"
  | nullSink => "NullSink"
  | vectorSource => "VectorSource"
  | vectorSink => "VectorSink"
  | head => "Head"
  | copy => "Copy"
  | tagGate => "TagGate"

/-- The name under which a kind is registered. -/
def typeName (k : BuiltinKind) : String := "flowgraph::" ++ k.name

/-- The kind of a given name. -/
def ofName? (s : String) : Option BuiltinKind := all.find? fun k => k.name = s

end BuiltinKind

/-- A built-in block. -/
inductive Builtin where
  | nullSource (b : NullSource)
  | nullSink (b : NullSink)
  | vectorSource (b : VectorSource)
  | vectorSink (b : VectorSink)
  | head (b : Head)
  | copy (b : Copy)
  | tagGate (b : TagGate)

namespace Builtin

/-- A block of a kind as it is before any setting is made. -/
def new (kind : BuiltinKind) (type : SampleType) : Builtin :=
  match kind with
  | .nullSource => nullSource (.new type)
  | .nullSink => nullSink (.new type)
  | .vectorSource => vectorSource (.new type)
  | .vectorSink => vectorSink (.new type)
  | .head => head (.new type)
  | .copy => copy ⟨type⟩
  | .tagGate => tagGate ⟨type⟩

def kind : Builtin → BuiltinKind
  | nullSource _ => .nullSource
  | nullSink _ => .nullSink
  | vectorSource _ => .vectorSource
  | vectorSink _ => .vectorSink
  | head _ => .head
  | copy _ => .copy
  | tagGate _ => .tagGate

/-- The type of the samples that a block works on. -/
def sampleType : Builtin → SampleType
  | nullSource b => b.type
  | nullSink b => b.type
  | vectorSource b => b.type
  | vectorSink b => b.type
  | head b => b.type
  | copy b => b.type
  | tagGate b => b.type

def description : Builtin → String
  | nullSource b => Block.description b
  | nullSink b => Block.description b
  | vectorSource b => Block.description b
  | vectorSink b => Block.description b
  | head b => Block.description b
  | copy b => Block.description b
  | tagGate b => Block.description b

def inputs : Builtin → List PortSchema
  | nullSource b => Block.inputs b
  | nullSink b => Block.inputs b
  | vectorSource b => Block.inputs b
  | vectorSink b => Block.inputs b
  | head b => Block.inputs b
  | copy b => Block.inputs b
  | tagGate b => Block.inputs b

def outputs : Builtin → List PortSchema
  | nullSource b => Block.outputs b
  | nullSink b => Block.outputs b
  | vectorSource b => Block.outputs b
  | vectorSink b => Block.outputs b
  | head b => Block.outputs b
  | copy b => Block.outputs b
  | tagGate b => Block.outputs b

def descriptors : Builtin → List SettingDescriptor
  | nullSource b => Block.descriptors b
  | nullSink b => Block.descriptors b
  | vectorSource b => Block.descriptors b
  | vectorSink b => Block.descriptors b
  | head b => Block.descriptors b
  | copy b => Block.descriptors b
  | tagGate b => Block.descriptors b

def settings : Builtin → PropertyMap
  | nullSource b => Block.settings b
  | nullSink b => Block.settings b
  | vectorSource b => Block.settings b
  | vectorSink b => Block.settings b
  | head b => Block.settings b
  | copy b => Block.settings b
  | tagGate b => Block.settings b

def set (b : Builtin) (key : String) (v : Value) : Except SettingsError Unit × Builtin :=
  match b with
  | nullSource b => (Block.set b key v).map id nullSource
  | nullSink b => (Block.set b key v).map id nullSink
  | vectorSource b => (Block.set b key v).map id vectorSource
  | vectorSink b => (Block.set b key v).map id vectorSink
  | head b => (Block.set b key v).map id head
  | copy b => (Block.set b key v).map id copy
  | tagGate b => (Block.set b key v).map id tagGate

def settle : Builtin → Except SettingsError Unit × Builtin
  | nullSource b => (Block.settle b).map id nullSource
  | nullSink b => (Block.settle b).map id nullSink
  | vectorSource b => (Block.settle b).map id vectorSource
  | vectorSink b => (Block.settle b).map id vectorSink
  | head b => (Block.settle b).map id head
  | copy b => (Block.settle b).map id copy
  | tagGate b => (Block.settle b).map id tagGate

def start : Builtin → HookProgram (Except WorkError Unit × Builtin)
  | nullSource b => (Block.start b).map (·.map id nullSource)
  | nullSink b => (Block.start b).map (·.map id nullSink)
  | vectorSource b => (Block.start b).map (·.map id vectorSource)
  | vectorSink b => (Block.start b).map (·.map id vectorSink)
  | head b => (Block.start b).map (·.map id head)
  | copy b => (Block.start b).map (·.map id copy)
  | tagGate b => (Block.start b).map (·.map id tagGate)

def work : Builtin → Work (WorkOutcome × Builtin)
  | nullSource b => (Block.work b).map (·.map id nullSource)
  | nullSink b => (Block.work b).map (·.map id nullSink)
  | vectorSource b => (Block.work b).map (·.map id vectorSource)
  | vectorSink b => (Block.work b).map (·.map id vectorSink)
  | head b => (Block.work b).map (·.map id head)
  | copy b => (Block.work b).map (·.map id copy)
  | tagGate b => (Block.work b).map (·.map id tagGate)

/-- No built-in block keeps foreign settings or does anything when it stops, pauses or
resumes. -/
instance : Block Builtin where
  description := description
  inputs := inputs
  outputs := outputs
  descriptors := descriptors
  settings := settings
  set := set
  settle := settle
  isPermissive _ := false
  start := start
  stop := .done
  pause := .done
  resume := .done
  work := work

end Builtin

end Dataflow
