import ForgeGateway.Bytes

/-! # Distinguished encoding

Values are written as a tag, a length and content, in one way only. The readers here take a
value off the front of an octet string. -/

namespace ForgeGateway.Key.Der

/-- The number that octets write, most significant first. -/
def value (b : Bytes) : Nat := b.foldl (fun n x => n * 256 + x.toNat) 0

/-- A length, in the shortest of its forms, and what follows. -/
def length? : Bytes → Option (Nat × Bytes)
  | [] => none
  | x :: rest =>
    let n := x.toNat
    if n < 128 then some (n, rest)
    else
      let width := n - 128
      let digits := rest.take width
      let size := value digits
      if width = 0 || 4 < width || digits.length < width then none
      else if size < 128 || size < Nat.pow 256 (width - 1) then none
      else some (size, rest.drop width)

/-- The content of a value with a given tag, and what follows. -/
def content? (tag : UInt8) : Bytes → Option (Bytes × Bytes)
  | [] => none
  | x :: rest =>
    if x ≠ tag then none
    else match length? rest with
      | none => none
      | some (n, rest) => if rest.length < n then none else some (rest.take n, rest.drop n)

/-- The content of a value that may be left out. -/
def optional? (tag : UInt8) (b : Bytes) : Option (Option Bytes × Bytes) :=
  if b.head? = some tag then (content? tag b).map fun (c, rest) => (some c, rest)
  else some (none, b)

/-- The content of a value that is all there is. -/
def whole? (tag : UInt8) (b : Bytes) : Option Bytes :=
  match content? tag b with
  | some (c, []) => some c
  | _ => none

/-! ### Tags -/

def sequence : UInt8 := 0x30

def integer : UInt8 := 0x02

def bitString : UInt8 := 0x03

def octetString : UInt8 := 0x04

/-- The name of an algorithm or of a curve. -/
def objectIdentifier : UInt8 := 0x06

/-- A number that is not negative. -/
def natural? (b : Bytes) : Option (Nat × Bytes) :=
  match content? integer b with
  | some ([x], rest) => if x < 128 then some (x.toNat, rest) else none
  | some (x :: y :: digits, rest) =>
    if 128 ≤ x || (x = 0 && y < 128) then none else some (value (x :: y :: digits), rest)
  | _ => none

end ForgeGateway.Key.Der
