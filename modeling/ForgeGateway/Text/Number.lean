import ForgeGateway.Bytes.Hex
import ForgeGateway.Text.Split

/-! # Numbers in digits

`radix? b` reads a text that consists of digits to base `b` and of nothing else;
`leadingDigits` cuts such digits off the front of a text. -/

namespace ForgeGateway.Text

/-- The value of a digit to a base of at most sixteen. -/
def digitIn? (base : Nat) (c : Char) : Option Nat := (Hex.digit? c).filter (· < base)

/-- The number that digits to a base write, at least one digit. -/
def radix? (base : Nat) (cs : List Char) : Option Nat :=
  if cs.isEmpty then none
  else cs.foldlM (fun n c => (digitIn? base c).map (n * base + ·)) 0

/-- The digits to a base at the front of a text, and what follows. -/
def leadingDigits (base : Nat) (cs : List Char) : List Char × List Char :=
  cs.span fun c => (digitIn? base c).isSome

/-- What follows `lead` at the front of a text. -/
def after? (lead : String) (cs : List Char) : Option (List Char) :=
  if lead.toList.isPrefixOf cs then some (cs.drop lead.length) else none

def decimal (n : Nat) : String := String.ofList (Nat.toDigits 10 n)

end ForgeGateway.Text
