/-!
# Shortest decimals

`Binary.shortest` gives the fewest decimal digits that read back as a given binary
floating-point number, and of those the nearest ones. The real numbers that round to
`m * 2 ^ q` form an interval around it, which holds its ends exactly when `m` is even; for one
digit, two digits, and so on, the two neighbours of the number on that decimal grid are tested
against the interval. `Decimal.positional` writes digits and exponent without an exponent mark.
`Binary.withTenths` keeps one decimal place only, of the exact value of the number.
-/

namespace Dataflow

/-- The number `digits * 10 ^ exponent`. -/
structure Decimal where
  digits : Nat
  exponent : Int
  deriving DecidableEq, Repr

/-- The positive number `mantissa * 2 ^ exponent` of a binary format. `narrowBelow` holds at the
bottom of a binade, where the next number below is only half as far as the next one above. -/
structure Binary where
  mantissa : Nat
  exponent : Int
  narrowBelow : Bool
  deriving DecidableEq, Repr

/-- The natural number nearest to `num / den`, an exact tie going to the even one. -/
def roundEven (num den : Nat) : Nat :=
  let down := num / den
  let rest := 2 * (num % den)
  if den < rest || (rest = den && down % 2 = 1) then down + 1 else down

namespace Decimal

/-- Plain positional notation: no exponent, no trailing zeros after the point, and no point when
nothing follows it. -/
def positional (d : Decimal) : String :=
  if 0 ≤ d.exponent then
    toString d.digits ++ String.ofList (List.replicate d.exponent.toNat '0')
  else
    let places := (-d.exponent).toNat
    let digits := (toString d.digits).toList
    let whole := digits.take (digits.length - places)
    let fraction := List.replicate (places - digits.length) '0' ++
      digits.drop (digits.length - places)
    let kept := (fraction.reverse.dropWhile (· = '0')).reverse
    String.ofList ((if whole.isEmpty then ['0'] else whole) ++
      (if kept.isEmpty then [] else '.' :: kept))

end Decimal

namespace Binary

/-- Numerator of the number over `denominator`, a power of two. -/
def numerator (b : Binary) : Nat := b.mantissa * Nat.pow 2 b.exponent.toNat

@[inherit_doc numerator]
def denominator (b : Binary) : Nat := Nat.pow 2 (-b.exponent).toNat

/-- The number with one decimal place: the nearest one, a tie going to the even digit. -/
def withTenths (b : Binary) : String :=
  let tenths := roundEven (10 * b.numerator) b.denominator
  s!"{tenths / 10}.{tenths % 10}"

/-- Whether `d` rounds to `b`: it lies between the midpoints to the two neighbours of `b`, and
on a midpoint only if the mantissa is even. All sides are scaled by four, so that the midpoints
are integers. -/
def holds (b : Binary) (d : Decimal) : Bool :=
  let point := 4 * (d.digits * Nat.pow 10 d.exponent.toNat * b.denominator)
  let unit := Nat.pow 2 b.exponent.toNat * Nat.pow 10 (-d.exponent).toNat
  let below := (4 * b.mantissa - (if b.narrowBelow then 1 else 2)) * unit
  let above := (4 * b.mantissa + 2) * unit
  if b.mantissa % 2 = 0 then below ≤ point && point ≤ above
  else below < point && point < above

/-- How many zeros follow the decimal point of `num / den`, counting at most `fuel` of them. -/
def leadingZeros (den : Nat) : Nat → Nat → Nat
  | 0, _ => 0
  | fuel + 1, num => if den ≤ num * 10 then 0 else leadingZeros den fuel (num * 10) + 1

/-- The least `k` with `b < 10 ^ k`. -/
def magnitude (b : Binary) : Int :=
  let num := b.numerator
  let den := b.denominator
  if den ≤ num then ((Nat.toDigits 10 (num / den)).length : Int)
  else -(leadingZeros den (Nat.log2 den + 1) num : Int)

/-- The neighbour of `b` among the decimals of `n` digits that reads back as `b`, the nearer one
if both do; the upper one is taken when `b` lies halfway. -/
def nearest? (b : Binary) (n : Nat) : Option Decimal :=
  let exponent := b.magnitude - n
  let num := b.numerator * Nat.pow 10 (-exponent).toNat
  let den := b.denominator * Nat.pow 10 exponent.toNat
  let lower : Decimal := ⟨num / den, exponent⟩
  let upper : Decimal := ⟨num / den + 1, exponent⟩
  match b.holds lower, b.holds upper with
  | true, true => some (if 2 * (num % den) < den then lower else upper)
  | true, false => some lower
  | false, true => some upper
  | false, false => none

/-- The shortest decimal that reads back as `b`. Seventeen digits are enough for a mantissa of
53 bits. -/
def shortest (b : Binary) : Decimal :=
  ((List.range 17).findSome? fun n => b.nearest? (n + 1)).getD ⟨0, 0⟩

end Binary

end Dataflow
