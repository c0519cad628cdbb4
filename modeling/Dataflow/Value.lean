import Dataflow.Failure
import Dataflow.Dictionary
import Dataflow.Number

/-!
# Dynamic values

Settings, tags and control messages carry values whose type is known only when they are read.
Reading is strict: an integer of one kind is never taken for one of another, nor for a
floating-point number (`Value.expect`). Equality is that of the numbers inside, so that a value
holding a NaN differs from itself.
-/

namespace Dataflow

/-- The type of a value. -/
inductive ValueType where
  | null
  | bool
  | int (kind : IntKind)
  | float (kind : FloatKind)
  | complex (kind : FloatKind)
  | string
  | vector
  | map
  deriving DecidableEq, Repr

/-- A dynamically typed value. Integers carry their kind, floating-point numbers their bit
pattern, and the entries of a map are those of a dictionary. -/
inductive Value where
  | null
  | bool (b : Bool)
  | int (kind : IntKind) (n : Int)
  | float (kind : FloatKind) (bits : Nat)
  | complex (kind : FloatKind) (re im : Nat)
  | string (s : String)
  | vector (items : List Value)
  | map (entries : List (String × Value))

/-- Settings, the payload of a message, or the contents of a tag. -/
abbrev PropertyMap := Dictionary Value

/-- Why a value could not be read. -/
inductive ValueError where
  | typeMismatch (expected found : String)
  | keyNotFound (key : String)
  deriving DecidableEq, Repr

def ValueError.message : ValueError → String
  | typeMismatch expected found => s!"Type mismatch: expected {expected}, found {found}"
  | keyNotFound key => s!"Key '{key}' not found"

/-- The kind of an error. -/
def ValueError.kind : ValueError → String
  | typeMismatch _ _ => "TypeMismatch"
  | keyNotFound _ => "KeyNotFound"

instance : Failure ValueError := ⟨ValueError.kind, ValueError.message⟩

namespace ValueType

/-- The name of a type in error messages. -/
def name : ValueType → String
  | null => "null"
  | bool => "bool"
  | int kind => kind.name
  | float kind => kind.name
  | complex kind => "Complex<" ++ kind.name ++ ">"
  | string => "string"
  | vector => "vector"
  | map => "map"

/-- The types that a value can be read as. -/
def readable : List ValueType :=
  [bool, int .i8, int .i16, int .i32, int .i64, int .u8, int .u16, int .u32, int .u64,
    float .single, float .double, complex .single, complex .double, string, vector, map]

end ValueType

namespace Value

def type : Value → ValueType
  | null => .null
  | bool _ => .bool
  | int kind _ => .int kind
  | float kind _ => .float kind
  | complex kind _ _ => .complex kind
  | string _ => .string
  | vector _ => .vector
  | map _ => .map

def isNull : Value → Bool
  | null => true
  | _ => false

/-! ### Equality -/

mutual

/-- Equality of values, numbers being compared as numbers. -/
def same : Value → Value → Bool
  | null, null => true
  | bool a, bool b => a = b
  | int k m, int k' n => k = k' && m = n
  | float k a, float k' b => k = k' && k.same a b
  | complex k a b, complex k' c d => k = k' && k.same a c && k.same b d
  | string s, string t => s = t
  | vector xs, vector ys => sameItems xs ys
  | map xs, map ys => sameEntries xs ys
  | _, _ => false

/-- Equality of lists of values, item by item. -/
def sameItems : List Value → List Value → Bool
  | [], [] => true
  | x :: xs, y :: ys => same x y && sameItems xs ys
  | _, _ => false

/-- Equality of maps, entry by entry. -/
def sameEntries : List (String × Value) → List (String × Value) → Bool
  | [], [] => true
  | (k, x) :: xs, (k', y) :: ys => k = k' && same x y && sameEntries xs ys
  | _, _ => false

end

/-! ### Strict reading -/

/-- The error for a value that is not of the expected type. -/
def mismatch (expected : ValueType) (v : Value) : ValueError :=
  .typeMismatch expected.name v.type.name

/-- The value itself, if it is of the expected type. -/
def expect (expected : ValueType) (v : Value) : Except ValueError Value :=
  if v.type = expected then .ok v else .error (v.mismatch expected)

def asBool : Value → Except ValueError Bool
  | bool b => .ok b
  | v => .error (v.mismatch .bool)

def asInt (kind : IntKind) : Value → Except ValueError Int
  | v@(int k n) => if k = kind then .ok n else .error (v.mismatch (.int kind))
  | v => .error (v.mismatch (.int kind))

def asFloat (kind : FloatKind) : Value → Except ValueError Nat
  | v@(float k bits) => if k = kind then .ok bits else .error (v.mismatch (.float kind))
  | v => .error (v.mismatch (.float kind))

def asComplex (kind : FloatKind) : Value → Except ValueError (Nat × Nat)
  | v@(complex k re im) => if k = kind then .ok (re, im) else .error (v.mismatch (.complex kind))
  | v => .error (v.mismatch (.complex kind))

def asString : Value → Except ValueError String
  | string s => .ok s
  | v => .error (v.mismatch .string)

def asVector : Value → Except ValueError (List Value)
  | vector items => .ok items
  | v => .error (v.mismatch .vector)

def asMap : Value → Except ValueError PropertyMap
  | map entries => .ok entries
  | v => .error (v.mismatch .map)

end Value

namespace PropertyMap

/-- The value of a key that must be present. -/
def require (m : PropertyMap) (key : String) : Except ValueError Value :=
  match Dictionary.get? m key with
  | some v => .ok v
  | none => .error (.keyNotFound key)

/-- Equality of maps, numbers being compared as numbers. -/
def same (m m' : PropertyMap) : Bool := Value.sameEntries m m'

end PropertyMap

end Dataflow
