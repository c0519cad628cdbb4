import Dataflow.Decimal

/-!
# Kinds of numbers

Integers come in eight kinds, by width and sign; floating-point numbers come in two, and are
kept as their bit pattern. A pattern is compared and written by the IEEE 754 rules: a NaN equals
nothing, the two zeros are equal, and text is the shortest decimal that reads back.
-/

namespace Dataflow

/-- Width and sign of an integer. -/
inductive IntKind where
  | i8 | i16 | i32 | i64 | u8 | u16 | u32 | u64
  deriving DecidableEq, Repr

namespace IntKind

def all : List IntKind := [i8, i16, i32, i64, u8, u16, u32, u64]

def name : IntKind → String
  | i8 => "i8"
  | i16 => "i16"
  | i32 => "i32"
  | i64 => "i64"
  | u8 => "u8"
  | u16 => "u16"
  | u32 => "u32"
  | u64 => "u64"

def isSigned : IntKind → Bool
  | i8 | i16 | i32 | i64 => true
  | u8 | u16 | u32 | u64 => false

/-- Number of bits. -/
def width : IntKind → Nat
  | i8 | u8 => 8
  | i16 | u16 => 16
  | i32 | u32 => 32
  | i64 | u64 => 64

/-- The integer of this kind that agrees with `n` modulo `2 ^ width`. -/
def wrap (k : IntKind) (n : Int) : Int :=
  if k.isSigned then Int.bmod n (Nat.pow 2 k.width) else n % Nat.pow 2 k.width

end IntKind

/-- Width of a floating-point number. -/
inductive FloatKind where
  | single | double
  deriving DecidableEq, Repr

namespace FloatKind

def name : FloatKind → String
  | single => "f32"
  | double => "f64"

/-- Number of stored bits of the mantissa. -/
def mantissaWidth : FloatKind → Nat
  | single => 23
  | double => 52

def exponentWidth : FloatKind → Nat
  | single => 8
  | double => 11

/-- Number of bits of a pattern. -/
def width (k : FloatKind) : Nat := k.mantissaWidth + k.exponentWidth + 1

/-- Exponent of the unit in the last place of the smallest numbers. -/
def minExponent : FloatKind → Int
  | single => -149
  | double => -1074

/-- What a bit pattern says apart from its sign. -/
inductive Magnitude where
  | nan
  | infinite
  | zero
  | finite (b : Binary)
  deriving DecidableEq, Repr

def isNegative (k : FloatKind) (bits : Nat) : Bool :=
  bits / Nat.pow 2 (k.mantissaWidth + k.exponentWidth) % 2 = 1

def magnitude (k : FloatKind) (bits : Nat) : Magnitude :=
  let fraction := bits % Nat.pow 2 k.mantissaWidth
  let exponent := bits / Nat.pow 2 k.mantissaWidth % Nat.pow 2 k.exponentWidth
  if exponent = Nat.pow 2 k.exponentWidth - 1 then
    if fraction = 0 then .infinite else .nan
  else if exponent = 0 then
    if fraction = 0 then .zero else .finite ⟨fraction, k.minExponent, false⟩
  else
    .finite ⟨Nat.pow 2 k.mantissaWidth + fraction, k.minExponent + (exponent - 1),
      fraction = 0 && 1 < exponent⟩

/-- Text of a magnitude, without a sign. -/
def Magnitude.text : Magnitude → String
  | .nan => "NaN"
  | .infinite => "inf"
  | .zero => "0"
  | .finite b => b.shortest.positional

/-- Text of a number. A NaN has no sign, a negative zero has one. -/
def text (k : FloatKind) (bits : Nat) : String :=
  match k.magnitude bits with
  | .nan => Magnitude.nan.text
  | m => if k.isNegative bits then "-" ++ m.text else m.text

/-- Whether the number is below zero, which neither a NaN nor a zero is. -/
def isBelowZero (k : FloatKind) (bits : Nat) : Bool :=
  match k.magnitude bits with
  | .nan | .zero => false
  | .infinite | .finite _ => k.isNegative bits

/-- Equality of numbers: a NaN equals nothing, and the two zeros are equal. -/
def same (k : FloatKind) (x y : Nat) : Bool :=
  match k.magnitude x, k.magnitude y with
  | .nan, _ | _, .nan => false
  | .zero, .zero => true
  | _, _ => x = y

/-- Text of the absolute value, except that a negative zero keeps its sign. -/
def absText (k : FloatKind) (bits : Nat) : String :=
  if k.isBelowZero bits then (k.magnitude bits).text else k.text bits

/-- Text of a complex number, such as `1.5-2i`. -/
def complexText (k : FloatKind) (re im : Nat) : String :=
  (if k.isBelowZero re then "-" else "") ++ k.absText re ++
    (if k.isBelowZero im then "-" else "+") ++ k.absText im ++ "i"

/-- Pattern of the number nearest to `n`, an exact tie going to the even mantissa. -/
def patternOfNat (k : FloatKind) (n : Nat) : Nat :=
  if n = 0 then 0
  else
    let length := Nat.log2 n + 1
    let kept := k.mantissaWidth + 1
    let bias := Nat.pow 2 (k.exponentWidth - 1) - 1
    let mantissa :=
      if length ≤ kept then n * Nat.pow 2 (kept - length)
      else
        roundEven n (Nat.pow 2 (length - kept))
    (bias + length - 2) * Nat.pow 2 k.mantissaWidth + mantissa

@[inherit_doc patternOfNat]
def patternOfInt (k : FloatKind) (n : Int) : Nat :=
  (if n < 0 then Nat.pow 2 (k.mantissaWidth + k.exponentWidth) else 0) + k.patternOfNat n.natAbs

/-- The number nearest to `num / den`, an exact tie going to the even mantissa, if it is neither too
large nor too small for a mantissa of full width. -/
def quotient (k : FloatKind) (num den : Nat) : Binary :=
  let guess : Int := k.mantissaWidth + Nat.log2 den - Nat.log2 num
  let isShort := num * Nat.pow 2 guess.toNat <
    den * Nat.pow 2 (-guess).toNat * Nat.pow 2 k.mantissaWidth
  let shift := if isShort then guess + 1 else guess
  let mantissa := roundEven (num * Nat.pow 2 shift.toNat) (den * Nat.pow 2 (-shift).toNat)
  ⟨mantissa, -shift, mantissa % Nat.pow 2 k.mantissaWidth = 0⟩

end FloatKind

end Dataflow
