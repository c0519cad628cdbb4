import Dataflow.Sample

/-!
# Ports

A block declares its inputs and outputs as a list of port schemas. A connection names a port by
its name or by its position (`PortRef`).
-/

namespace Dataflow

/-- Which way samples go through a port. -/
inductive Direction where
  | input | output
  deriving DecidableEq, Repr

def Direction.name : Direction → String
  | input => "Input"
  | output => "Output"

/-- Declaration of a port. An optional input may stay unconnected. -/
structure PortSchema where
  name : String
  type : SampleType
  index : Nat
  direction : Direction
  optional : Bool
  deriving DecidableEq, Repr

namespace PortSchema

/-- A required input. -/
def input (name : String) (type : SampleType) (index : Nat) : PortSchema :=
  ⟨name, type, index, .input, false⟩

def output (name : String) (type : SampleType) (index : Nat) : PortSchema :=
  ⟨name, type, index, .output, false⟩

end PortSchema

/-- Reference to a port. -/
inductive PortRef where
  | name (s : String)
  | index (i : Nat)
  deriving DecidableEq, Repr

namespace PortRef

/-- Position of the port among the declared ones; of several with one name, the first. -/
def resolve (r : PortRef) (schemas : List PortSchema) : Option Nat :=
  match r with
  | name s => schemas.findIdx? fun p => p.name = s
  | index i => if i < schemas.length then some i else none

def text : PortRef → String
  | name s => s
  | index i => s!"#{i}"

end PortRef

/-- Why a port cannot be read or written. -/
inductive PortError where
  | notFound (port block : String)
  | indexOutOfRange (index : Nat) (block : String)
  | typeMismatch (port actual requested : String)
  | notConnected (port : String)
  deriving DecidableEq, Repr

def PortError.message : PortError → String
  | notFound port block => s!"Port '{port}' not found on block '{block}'"
  | indexOutOfRange index block => s!"Port index {index} out of range for block '{block}'"
  | typeMismatch port actual requested =>
    s!"Port '{port}' carries {actual}, requested {requested}"
  | notConnected port => s!"Port '{port}' is not connected"

/-- The kind of an error. -/
def PortError.kind : PortError → String
  | notFound _ _ => "NotFound"
  | indexOutOfRange _ _ => "IndexOutOfRange"
  | typeMismatch _ _ _ => "TypeMismatch"
  | notConnected _ => "NotConnected"

instance : Failure PortError := ⟨PortError.kind, PortError.message⟩

end Dataflow
