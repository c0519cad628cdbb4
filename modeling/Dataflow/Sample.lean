import Dataflow.Value

/-!
# Samples

The samples of a stream all have one type. Twelve number types are built in; two more show that
the library is not tied to numbers: `iq8`, a pair of bytes with sign, and `raw`, one byte without.
A sample is written to a value and read back from it by `Sample.toValue` and
`SampleType.read`.
-/

namespace Dataflow

/-- The type of the samples of a stream. -/
inductive SampleType where
  | int (kind : IntKind)
  | float (kind : FloatKind)
  | complex (kind : FloatKind)
  | iq8
  | raw
  deriving DecidableEq, Repr

/-- One sample, of any type. -/
inductive Sample where
  | int (kind : IntKind) (n : Int)
  | float (kind : FloatKind) (bits : Nat)
  | complex (kind : FloatKind) (re im : Nat)
  | iq8 (i q : Int)
  | raw (n : Int)
  deriving DecidableEq, Repr

namespace Sample

def type : Sample → SampleType
  | int kind _ => .int kind
  | float kind _ => .float kind
  | complex kind _ _ => .complex kind
  | iq8 _ _ => .iq8
  | raw _ => .raw

/-- A sample as a value; a pair becomes a vector of two. -/
def toValue : Sample → Value
  | int kind n => .int kind n
  | float kind bits => .float kind bits
  | complex kind re im => .complex kind re im
  | iq8 i q => .vector [.int .i8 i, .int .i8 q]
  | raw n => .int .u8 n

/-- The 64-bit words of a sample: its integers modulo `2 ^ 64`, or its bit patterns. -/
def words : Sample → List Nat
  | int _ n | raw n => [(IntKind.u64.wrap n).toNat]
  | float _ bits => [bits]
  | complex _ re im => [re, im]
  | iq8 i q => [(IntKind.u64.wrap i).toNat, (IntKind.u64.wrap q).toNat]

/-- A checksum of samples in 64 bits, by which long lists can be compared. -/
def checksum (samples : List Sample) : Nat :=
  (samples.flatMap words).foldl (fun h w => (h * 31 + w) % Nat.pow 2 IntKind.u64.width) 0

end Sample

namespace SampleType

/-- The name of a type, which is also the parameterization of the blocks that work on it. -/
def name : SampleType → String
  | int kind => (ValueType.int kind).name
  | float kind => (ValueType.float kind).name
  | complex kind => (ValueType.complex kind).name
  | iq8 => "Iq8"
  | raw => "Raw"

/-- The sample a source without data produces. -/
def zero : SampleType → Sample
  | int kind => .int kind 0
  | float kind => .float kind 0
  | complex kind => .complex kind 0 0
  | iq8 => .iq8 0 0
  | raw => .raw 0

/-- Read a sample of this type from a value. -/
def read : SampleType → Value → Except ValueError Sample
  | int kind, v => (v.asInt kind).map (.int kind)
  | float kind, v => (v.asFloat kind).map (.float kind)
  | complex kind, v => (v.asComplex kind).map fun (re, im) => .complex kind re im
  | iq8, v => do
    match ← v.asVector with
    | [i, q] => return .iq8 (← i.asInt .i8) (← q.asInt .i8)
    | _ => throw (.typeMismatch iq8.name v.type.name)
  | raw, v => (v.asInt .u8).map Sample.raw

/-- Read a list of samples; the first value that does not fit fails the whole list. -/
def readAll (t : SampleType) : List Value → Except ValueError (List Sample)
  | [] => .ok []
  | v :: rest => do
    let s ← t.read v
    return s :: (← t.readAll rest)

/-- The sample made from an integer: integers wrap, floating-point numbers round, and a pair
takes the two lowest bytes. -/
def ofInteger : SampleType → Int → Sample
  | int kind, n => .int kind (kind.wrap n)
  | float kind, n => .float kind (kind.patternOfInt n)
  | complex kind, n => .complex kind (kind.patternOfInt n) 0
  | iq8, n => .iq8 (IntKind.i8.wrap n) (IntKind.i8.wrap (n / 256))
  | raw, n => .raw (IntKind.u8.wrap n)

/-- The sample types built into the library. -/
def builtin : List SampleType :=
  [.float .single, .float .double, .int .i8, .int .i16, .int .i32, .int .i64, .int .u8, .int .u16,
    .int .u32, .int .u64, .complex .single, .complex .double]

/-- The sample types that connections may carry: the built-in ones and pairs of bytes. -/
def registered : List SampleType := builtin ++ [.iq8]

/-- Names of the sample types that connections may carry, sorted. -/
def registeredNames : List String :=
  (registered.map name).mergeSort fun a b => decide (a ≤ b)

/-- The type of a given name. -/
def ofName? (s : String) : Option SampleType :=
  (registered ++ [raw]).find? fun t => t.name = s

end SampleType

end Dataflow
