import ForgeGateway.Bytes

/-! # Hexadecimal text

`Hex.encode` writes two lower-case digits an octet; `Hex.decode?` reads digits of either
case and refuses everything else, an odd number of digits included. -/

namespace ForgeGateway.Hex

/-- The lower-case digit of a number below sixteen. -/
def digit (n : Nat) : Char :=
  if n < 10 then Char.ofNat (48 + n) else Char.ofNat (87 + n)

/-- The value of a digit of either case. -/
def digit? (c : Char) : Option Nat :=
  if 48 ≤ c.toNat ∧ c.toNat ≤ 57 then some (c.toNat - 48)
  else if 97 ≤ c.toNat ∧ c.toNat ≤ 102 then some (c.toNat - 87)
  else if 65 ≤ c.toNat ∧ c.toNat ≤ 70 then some (c.toNat - 55)
  else none

/-- The lower-case digits of `b`, two an octet. -/
def encode (b : Bytes) : String :=
  String.ofList (b.flatMap fun x => [digit (x.toNat / 16), digit (x.toNat % 16)])

/-- The octets that pairs of digits write. -/
def pairs? : List Char → Option Bytes
  | [] => some []
  | [_] => none
  | h :: l :: rest => do
    let hi ← digit? h
    let lo ← digit? l
    let tail ← pairs? rest
    return UInt8.ofNat (hi * 16 + lo) :: tail

/-- The octets that a text of digits writes. -/
def decode? (s : String) : Option Bytes := pairs? s.toList

/-- Digits of `n` without leading zeros, at least one. -/
def natDigits (n : Nat) : String := String.ofList (Nat.toDigits 16 n)

end ForgeGateway.Hex
