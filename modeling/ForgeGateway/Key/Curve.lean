import ForgeGateway.Key.Der
import ForgeGateway.Key.Residue

/-! # Elliptic curves

The three curves of the standard `nistp` keys, with their names in SSH and in certificates. They
are the solutions of `y² = x³ - 3 x + b` modulo a prime. A point is written with both
coordinates, or shortly with the first one and the parity of the second; `point?` reads both.
The private key is a number, from which `publicOf` makes the point. -/

namespace ForgeGateway.Key

inductive Curve where
  | p256
  | p384
  | p521
  deriving DecidableEq, Repr

namespace Curve

def name : Curve → String
  | .p256 => "nistp256"
  | .p384 => "nistp384"
  | .p521 => "nistp521"

def ofName? (s : String) : Option Curve := [p256, p384, p521].find? (·.name == s)

def identifier : Curve → Bytes
  | .p256 => [0x2a, 0x86, 0x48, 0xce, 0x3d, 0x03, 0x01, 0x07]
  | .p384 => [0x2b, 0x81, 0x04, 0x00, 0x22]
  | .p521 => [0x2b, 0x81, 0x04, 0x00, 0x23]

def ofIdentifier? (b : Bytes) : Option Curve := [p256, p384, p521].find? (·.identifier == b)

/-- How many octets a coordinate has. -/
def width : Curve → Nat
  | .p256 => 32
  | .p384 => 48
  | .p521 => 66

def modulus : Curve → Nat
  | .p256 => Nat.pow 2 256 - Nat.pow 2 224 + Nat.pow 2 192 + Nat.pow 2 96 - 1
  | .p384 => Nat.pow 2 384 - Nat.pow 2 128 - Nat.pow 2 96 + Nat.pow 2 32 - 1
  | .p521 => Nat.pow 2 521 - 1

/-- The constant `b` of the equation. -/
def constant : Curve → Nat
  | .p256 => 0x5ac635d8aa3a93e7b3ebbd55769886bc651d06b0cc53b0f63bce3c3e27d2604b
  | .p384 =>
    0xb3312fa7e23ee7e4988e056be3f82d19181d9c6efe8141120314088f5013875ac656398d8a2ed19d2a85c8edd3ec2aef
  | .p521 =>
    0x51953eb9618e1c9a1f929a21a0b68540eea2da725b99b315f3b8b489918ef109e156193951ec7e937b1652c0bd3bb1bf073573df883d2c34f1ef451fd46b503f00

/-- The number of points. -/
def order : Curve → Nat
  | .p256 => 0xffffffff00000000ffffffffffffffffbce6faada7179e84f3b9cac2fc632551
  | .p384 =>
    0xffffffffffffffffffffffffffffffffffffffffffffffffc7634d81f4372ddf581a0db248b0a77aecec196accc52973
  | .p521 =>
    0x1fffffffffffffffffffffffffffffffffffffffffffffffffffffffffffffffffffa51868783bf2f966b7fcc0148f709a5d03bb5c9b8899c47aebb6fb71e91386409

/-! ### The group -/

/-- The coordinates of a point. The neutral point has none. -/
abbrev Point := Option (Nat × Nat)

/-- The point that generates the group. -/
def base : Curve → Point
  | .p256 => some (0x6b17d1f2e12c4247f8bce6e563a440f277037d812deb33a0f4a13945d898c296,
    0x4fe342e2fe1a7f9b8ee7eb4a7c0f9e162bce33576b315ececbb6406837bf51f5)
  | .p384 => some
    (0xaa87ca22be8b05378eb1c71ef320ad746e1d3b628ba79b9859f741e082542a385502f25dbf55296c3a545e3872760ab7,
    0x3617de4a96262c6f5d9e98bf9292dc29f8f41dbd289a147ce9da3113b5f0b8c00a60b1ce1d7e819d7a431d7c90ea0e5f)
  | .p521 => some
    (0xc6858e06b70404e9cd9e3ecb662395b4429c648139053fb521f828af606b4d3dbaa14b5e77efe75928fe1dc127a2ffa8de3348b3c1856a429bf97e7e31c2e5bd66,
    0x11839296a789a3bc0045c8a5fb42c7d1bd998f54449579b446817afbd17273e662c97ee72995ef42640c550b9013fad0761353c7086a272c24088be94769fd16650)

/-- The sum of two points: the line through both meets the curve in a third point, and the sum
is that one with its second coordinate negated. -/
def add (c : Curve) : Point → Point → Point
  | none, q => q
  | p, none => p
  | some (x1, y1), some (x2, y2) =>
    let m := c.modulus
    if x1 = x2 && (y1 + y2) % m = 0 then none
    else
      let (rise, run) :=
        if x1 = x2 then (Residue.sub m (3 * x1 * x1) 3, 2 * y1)
        else (Residue.sub m y2 y1, Residue.sub m x2 x1)
      let slope := rise * Residue.inverse m (run % m) % m
      let x := Residue.sub m (slope * slope) (x1 + x2)
      some (x, Residue.sub m (slope * Residue.sub m x1 x) y1)

/-- The sum of `n` times the same point. -/
def multiple (c : Curve) (n : Nat) (p : Point) : Point :=
  if n = 0 then none
  else
    let even := c.multiple (n / 2) (c.add p p)
    if n % 2 = 1 then c.add even p else even

/-- The square of the second coordinate of a point with the first coordinate `x`. -/
def square (c : Curve) (x : Nat) : Nat :=
  Residue.sub c.modulus (x * x % c.modulus * x + c.constant) (3 * x)

/-! ### Octets -/

/-- A coordinate as octets. -/
def coordinate (c : Curve) (n : Nat) : Bytes :=
  (List.range c.width).reverse.map fun i => UInt8.ofNat (n / Nat.pow 256 i)

/-- The octets that write both coordinates of a point. -/
def octets (c : Curve) : Point → Bytes
  | none => [0]
  | some (x, y) => 4 :: (c.coordinate x ++ c.coordinate y)

/-- The octets that write the first coordinate and the parity of the second. -/
def shortOctets (c : Curve) : Point → Bytes
  | none => [0]
  | some (x, y) => (if y % 2 = 0 then 2 else 3) :: c.coordinate x

/-- The point that octets write, other than the neutral one. -/
def point? (c : Curve) (b : Bytes) : Option (Nat × Nat) :=
  let front := Der.value ((b.drop 1).take c.width)
  match b.head? with
  | some 4 =>
    let back := Der.value (b.drop (c.width + 1))
    if b.length = 2 * c.width + 1 && front < c.modulus && back < c.modulus &&
        back * back % c.modulus = c.square front then
      some (front, back)
    else none
  | some sign =>
    if (sign = 2 || sign = 3) && b.length = c.width + 1 && front < c.modulus then do
      let y ← Residue.root? c.modulus (c.square front)
      let y := if y % 2 = sign.toNat % 2 then y else (c.modulus - y) % c.modulus
      return (front, y)
    else none
  | none => none

/-- The private number that octets write. A few octets may be missing in front. -/
def secret? (c : Curve) (b : Bytes) : Option Nat :=
  let n := Der.value b
  if 24 ≤ b.length && b.length ≤ c.width && 0 < n && n < c.order then some n else none

/-- The point that belongs to a private number. -/
def publicOf (c : Curve) (secret : Nat) : Point := c.multiple secret c.base

/-- The octets write the point that belongs to a private number. -/
def isPublicOf (c : Curve) (secret : Nat) (b : Bytes) : Bool :=
  b = c.octets (c.publicOf secret) || b = c.shortOctets (c.publicOf secret)

end Curve

end ForgeGateway.Key
