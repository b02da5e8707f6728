import ForgeGateway.Agent.Cursor
import ForgeGateway.Key.Curve
import ForgeGateway.Key.Ed25519
import ForgeGateway.Key.Rsa
import ForgeGateway.Key.Wire

/-! # Public keys

Which keys can be read from their blobs, and how they are written, is the matter of a `Format`.
`Public` are the keys of the algorithms that can be used with a forge, and `Public.format` reads
and writes them. -/

namespace ForgeGateway.Key

open Wire (string? text? number?)

/-- The hash that RSA keys sign with. -/
inductive SignatureHash where
  | sha1
  | sha256
  | sha512
  deriving DecidableEq, Repr

/-- Keys that are read, with the hash they are to sign with if one is given, and written. -/
structure Format (κ : Type) where
  read? : Option SignatureHash → Bytes → Option κ
  blob : κ → Bytes

inductive Public where
  | ed25519 (point : Bytes)
  | rsa (exponent modulus : Nat)
  | ecdsa (curve : Curve) (point : Bytes)
  deriving DecidableEq, Repr

namespace Public

def algorithm : Public → String
  | .ed25519 _ => "ssh-ed25519"
  | .rsa _ _ => "ssh-rsa"
  | .ecdsa curve _ => "ecdsa-sha2-" ++ curve.name

/-- A text behind its length. -/
def field (s : String) : Bytes := Agent.lengthPrefixed (Bytes.ofString s)

/-- A number behind its length. -/
def numberField (n : Nat) : Bytes := Agent.lengthPrefixed (Wire.numberOctets n)

def blob (k : Public) : Bytes :=
  field k.algorithm ++ match k with
    | .ed25519 point => Agent.lengthPrefixed point
    | .rsa exponent modulus => numberField exponent ++ numberField modulus
    | .ecdsa curve point => field curve.name ++ Agent.lengthPrefixed point

/-- Reads a key. What follows it is ignored. -/
def ofBlob? (b : Bytes) : Option Public := do
  let (name, b) ← text? b
  match name with
  | "ssh-ed25519" =>
    let (point, _) ← string? b
    if Ed25519.isPoint point then some (.ed25519 point) else none
  | "ssh-rsa" =>
    let (exponent, b) ← number? b
    let (modulus, _) ← number? b
    if Rsa.isPublic modulus exponent then some (.rsa exponent modulus) else none
  | _ =>
    let curve ← [Curve.p256, .p384, .p521].find? fun c => name == algorithm (.ecdsa c [])
    let (curveName, b) ← text? b
    let (octets, _) ← string? b
    let point ← curve.point? octets
    if curveName == curve.name then some (.ecdsa curve (curve.octets point)) else none

/-- The keys themselves do not depend on the hash. -/
def format : Format Public := ⟨fun _ => ofBlob?, blob⟩

end Public

end ForgeGateway.Key
