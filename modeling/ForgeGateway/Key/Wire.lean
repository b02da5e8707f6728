import ForgeGateway.Bytes.Utf8
import ForgeGateway.Key.Der

/-! # Fields of key blobs

Key blobs are made of octet strings behind their lengths. The readers here take one off the
front, as it is, as a text, or as a number in the shortest form. -/

namespace ForgeGateway.Key.Wire

/-- An octet string behind its length. -/
def string? (b : Bytes) : Option (Bytes × Bytes) :=
  match Bytes.word32? b with
  | some (n, rest) => if rest.length < n then none else some (rest.take n, rest.drop n)
  | none => none

/-- A text behind its length. -/
def text? (b : Bytes) : Option (String × Bytes) := do
  let (s, rest) ← string? b
  return (← Utf8.decode? s, rest)

/-- A number behind its length, positive and without needless octets. -/
def number? (b : Bytes) : Option (Nat × Bytes) := do
  let (s, rest) ← string? b
  match s with
  | [] => some (0, rest)
  | [x] => if 0 < x && x < 128 then some (x.toNat, rest) else none
  | x :: y :: _ => if 128 ≤ x || (x = 0 && y < 128) then none else some (Der.value s, rest)

/-- The shortest octets of a number, with a zero in front where the first would look like a sign. -/
def numberOctets (n : Nat) : Bytes :=
  let digits := (Nat.toDigits 256 n).length
  let octets := (List.range digits).reverse.map fun i => UInt8.ofNat (n / Nat.pow 256 i)
  if n = 0 then [] else if 128 ≤ octets.headD 0 then 0 :: octets else octets

end ForgeGateway.Key.Wire
