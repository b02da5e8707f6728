import ForgeGateway.Key.Der

/-! # RSA keys

The numbers of a private key and the relations between them that make it one. -/

namespace ForgeGateway.Key

/-- The numbers of a private key with two primes. -/
structure Rsa where
  modulus : Nat
  publicExponent : Nat
  privateExponent : Nat
  prime1 : Nat
  prime2 : Nat
  /-- Inverse of the second prime modulo the first. -/
  coefficient : Nat
  deriving DecidableEq, Repr

namespace Rsa

/-- Modulus and public exponent are within the bounds that are worked with. -/
def isPublic (modulus exponent : Nat) : Bool :=
  modulus < Nat.pow 2 4096 && modulus % 2 = 1 && exponent < modulus && exponent % 2 = 1 &&
    2 ≤ exponent && exponent < Nat.pow 2 33

/-- The numbers belong together. -/
def consistent (k : Rsa) : Bool :=
  let surplus := k.privateExponent * k.publicExponent - 1
  isPublic k.modulus k.publicExponent && 1 < k.prime1 && 1 < k.prime2 && k.prime1 * k.prime2 = k.modulus &&
    surplus % (k.prime1 - 1) = 0 && surplus % (k.prime2 - 1) = 0 &&
    k.coefficient < k.prime1 && k.coefficient * k.prime2 % k.prime1 = 1

/-- Reads the numbers in their standard encoding, which repeats the private exponent modulo
each prime less one. -/
def ofDer? (b : Bytes) : Option Rsa := do
  let c ← Der.whole? Der.sequence b
  let (version, c) ← Der.natural? c
  let (modulus, c) ← Der.natural? c
  let (publicExponent, c) ← Der.natural? c
  let (privateExponent, c) ← Der.natural? c
  let (prime1, c) ← Der.natural? c
  let (prime2, c) ← Der.natural? c
  let (exponent1, c) ← Der.natural? c
  let (exponent2, c) ← Der.natural? c
  let (coefficient, c) ← Der.natural? c
  let k : Rsa := { modulus, publicExponent, privateExponent, prime1, prime2, coefficient }
  if version = 0 && c.isEmpty && k.consistent && exponent1 = privateExponent % (prime1 - 1) &&
      exponent2 = privateExponent % (prime2 - 1) then
    some k
  else none

end Rsa

end ForgeGateway.Key
