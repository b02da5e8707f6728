import ForgeGateway.Bytes.Sha512
import ForgeGateway.Key.Residue

/-! # Points of the Edwards curve

A public key of Ed25519 is a point of the curve `-x² + y² = 1 + d x² y²` over the integers
modulo `2 ^ 255 - 19`. It is written as `y`, least octet first, with the sign of `x` in the top
bit. Only about half of all octet strings write a point (`isPoint`). The private key is a seed,
from which `publicOf` makes the point. -/

namespace ForgeGateway.Key.Ed25519

def modulus : Nat := Nat.pow 2 255 - 19

/-- The constant of the curve. -/
def d : Nat := (modulus - 121665) * Residue.inverse modulus 121666 % modulus

/-- The number that octets write, least significant first. -/
def value (b : Bytes) : Nat := b.foldr (fun x n => n * 256 + x.toNat) 0

/-- Some `x` belongs to `y`: with `x² = u / v`, that is so if `u v` is a square. -/
def hasX (y : Nat) : Bool :=
  let u := (y * y + modulus - 1) % modulus
  let v := (d * (y * y % modulus) + 1) % modulus
  Residue.pow modulus (u * v % modulus) ((modulus - 1) / 2) ≤ 1

def isPoint (b : Bytes) : Bool := b.length = 32 && hasX (value b % Nat.pow 2 255 % modulus)

/-! ### The group -/

/-- A point with `x` and `y` multiplied by a common factor `z`. -/
structure Point where
  x : Nat
  y : Nat
  z : Nat
  deriving DecidableEq, Repr

namespace Point

/-- The neutral point. -/
def zero : Point := ⟨0, 1, 1⟩

/-- The point that generates the group of keys. -/
def base : Point :=
  ⟨0x216936d3cd6e53fec0a4e231fdd6dc5c692cc7609525a7b2c9562d608f25d51a,
    0x6666666666666666666666666666666666666666666666666666666666666658, 1⟩

def add (p q : Point) : Point :=
  let zz := p.z * q.z % modulus
  let xx := p.x * q.x % modulus
  let yy := p.y * q.y % modulus
  let all := d * xx % modulus * yy % modulus
  let less := Residue.sub modulus (zz * zz) all
  let more := (zz * zz + all) % modulus
  let cross := (p.x * q.y + p.y * q.x) % modulus
  ⟨zz * less % modulus * cross % modulus, zz * more % modulus * (yy + xx) % modulus,
    less * more % modulus⟩

/-- The sum of `n` times the same point. -/
def multiple (n : Nat) (p : Point) : Point :=
  if n = 0 then zero
  else
    let even := multiple (n / 2) (p.add p)
    if n % 2 = 1 then even.add p else even

def octets (p : Point) : Bytes :=
  let factor := Residue.inverse modulus p.z
  let x := p.x * factor % modulus
  let y := p.y * factor % modulus
  (List.range 32).map fun i => UInt8.ofNat ((y + x % 2 * Nat.pow 2 255) / Nat.pow 256 i)

end Point

/-- The private number that a seed stands for: a multiple of eight with the top bit at 254. -/
def secretOf (seed : Bytes) : Nat :=
  let n := value ((Sha512.hash seed).take 32)
  Nat.pow 2 254 + n % Nat.pow 2 254 / 8 * 8

/-- The public key that belongs to a seed. -/
def publicOf (seed : Bytes) : Bytes := (Point.multiple (secretOf seed) .base).octets

end ForgeGateway.Key.Ed25519
