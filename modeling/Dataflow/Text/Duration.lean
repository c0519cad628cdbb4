/-!
# Durations as text

A span of time is written in the largest of the units `s`, `ms` and `µs` of which it holds at
least one, as a decimal without trailing zeros; an empty span is `0ns`.
-/

namespace Dataflow.Text

/-- Text of `whole` units and `part` units of `10 ^ -places`, without trailing zeros. -/
def fixedPoint (whole part places : Nat) : String :=
  let digits := Nat.toDigits 10 part
  let padded := List.replicate (places - digits.length) '0' ++ digits
  let kept := (padded.reverse.dropWhile (· = '0')).reverse
  toString whole ++ (if kept.isEmpty then "" else String.ofList ('.' :: kept))

/-- A span of `us` microseconds. -/
def duration (us : Nat) : String :=
  if us = 0 then "0ns"
  else if us < 1000 then toString us ++ "µs"
  else if us < 1000000 then fixedPoint (us / 1000) (us % 1000) 3 ++ "ms"
  else fixedPoint (us / 1000000) (us % 1000000) 6 ++ "s"

end Dataflow.Text
