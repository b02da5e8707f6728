/-! # Lengths of time as text

A length of time in nanoseconds is written in the largest of the units s, ms, µs and ns that
it fills at least once, with the fraction of that unit as a decimal without trailing zeros.
Nothing at all is `0ns`. -/

namespace ForgeGateway.Text

/-- The decimal digits of `n`, filled with zeros on the left to `width`. -/
def padded (width n : Nat) : List Char :=
  let ds := Nat.toDigits 10 n
  List.replicate (width - ds.length) '0' ++ ds

/-- `cs` without the zeros at its end. -/
def dropZeros (cs : List Char) : List Char := (cs.reverse.dropWhile (· == '0')).reverse

/-- `n` parts of `10 ^ places` as a decimal number without trailing zeros. -/
def decimalFraction (places n : Nat) : String :=
  let whole := toString (n / Nat.pow 10 places)
  match dropZeros (padded places (n % Nat.pow 10 places)) with
  | [] => whole
  | ds => whole ++ "." ++ String.ofList ds

/-- The text of `nanos` nanoseconds. -/
def elapsed (nanos : Nat) : String :=
  if 1000000000 ≤ nanos then decimalFraction 9 nanos ++ "s"
  else if 1000000 ≤ nanos then decimalFraction 6 nanos ++ "ms"
  else if 1000 ≤ nanos then decimalFraction 3 nanos ++ "µs"
  else toString nanos ++ "ns"

end ForgeGateway.Text
