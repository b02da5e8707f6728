import ForgeGateway.Bytes.Sha256
import ForgeGateway.Key.Public

/-! # Keys by name

Every name has a key of its own. The name `rsa` has an RSA key, all others have Ed25519 keys:
the point is the first one among the hashes of the name with a number. -/

namespace ForgeGateway.Scenario

/-- The first hash of a name, counted from `n`, that is a point. -/
def namedPoint (name : String) : Nat → Nat → Bytes
  | 0, n => Sha256.hash (Bytes.ofString name ++ Bytes.word32 n)
  | fuel + 1, n =>
    let b := Sha256.hash (Bytes.ofString name ++ Bytes.word32 n)
    if Key.Ed25519.isPoint b then b else namedPoint name fuel (n + 1)

def namedKey (name : String) : Key.Public :=
  if name == "rsa" then .rsa 65537 (Nat.pow 2 2047 + 1) else .ed25519 (namedPoint name 128 0)

def namedBlob (name : String) : Bytes := (namedKey name).blob

end ForgeGateway.Scenario
