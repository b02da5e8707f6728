import ForgeGateway.Agent.Cursor
import ForgeGateway.Key.Curve
import ForgeGateway.Key.Ed25519
import ForgeGateway.Key.Pem
import ForgeGateway.Key.Rsa
import ForgeGateway.Key.Wire

/-! # Private keys

`Private.ofText?` reads a private key out of a text: in the OpenSSH form, in the standard form
of RSA keys, or in the form that wraps a key of any algorithm. Encrypted keys cannot be read,
for there is nobody to ask for a passphrase. -/

namespace ForgeGateway.Key

open Wire (string? text? number?)

/-- A private key, as far as it decides what is negotiated with it. -/
inductive Private where
  | ed25519
  | ecdsa (curve : Curve)
  /-- An RSA key with the length of the hash that it signs. -/
  | rsa (hashBits : Nat)
  deriving DecidableEq, Repr

namespace Private

def algorithm : Private → String
  | .ed25519 => "ssh-ed25519"
  | .ecdsa curve => "ecdsa-sha2-" ++ curve.name
  | .rsa 512 => "rsa-sha2-512"
  | .rsa _ => "rsa-sha2-256"

/-! ### The OpenSSH form -/

/-- A private key with the public part that it repeats, and what follows. -/
def pair? (b : Bytes) : Option (Private × Bytes × Bytes) := do
  let (algorithm, rest) ← text? b
  let head := Agent.lengthPrefixed (Bytes.ofString algorithm)
  match algorithm with
  | "ssh-ed25519" =>
    let (point, rest) ← string? rest
    let (secret, rest) ← string? rest
    if secret.length = 64 && secret.drop 32 = point &&
        Ed25519.publicOf (secret.take 32) = point then
      some (.ed25519, head ++ Agent.lengthPrefixed point, rest)
    else none
  | "ssh-rsa" =>
    let (modulus, rest) ← number? rest
    let between := rest
    let (publicExponent, rest) ← number? rest
    let exponentText := between.take (between.length - rest.length)
    let modulusText := (b.drop head.length).take (b.length - head.length - between.length)
    let (privateExponent, rest) ← number? rest
    let (coefficient, rest) ← number? rest
    let (prime1, rest) ← number? rest
    let (prime2, rest) ← number? rest
    let k : Rsa := { modulus, publicExponent, privateExponent, prime1, prime2, coefficient }
    if k.consistent then some (.rsa 512, head ++ exponentText ++ modulusText, rest) else none
  | _ =>
    let curve ← [Curve.p256, .p384, .p521].find? fun c => algorithm == (ecdsa c).algorithm
    let (name, rest) ← text? rest
    let (point, rest) ← string? rest
    let (secret, rest) ← string? rest
    let digits :=
      if secret.length = curve.width + 1 && secret.head? = some 0 then secret.drop 1 else secret
    let number ← curve.secret? digits
    if name == curve.name && digits.length = curve.width && curve.isPublicOf number point then
      some (.ecdsa curve, head ++ Agent.lengthPrefixed (Bytes.ofString name) ++
        Agent.lengthPrefixed point, rest)
    else none

/-- Fewer octets than a block, counted from one. -/
def isPadding (b : Bytes) : Bool :=
  b.length < 8 && b == (List.range b.length).map fun i => UInt8.ofNat (i + 1)

def ofOpenssh? (b : Bytes) : Option Private := do
  let magic := Bytes.ofString "openssh-key-v1" ++ [0]
  if b.take magic.length ≠ magic then none
  else
    let (cipher, b) ← text? (b.drop magic.length)
    let (derivation, b) ← text? b
    let (options, b) ← string? b
    let (count, b) ← Bytes.word32? b
    let (shown, b) ← string? b
    let (hidden, b) ← string? b
    if cipher ≠ "none" || derivation ≠ "none" || !options.isEmpty || count ≠ 1 ||
        !b.isEmpty || hidden.length % 8 ≠ 0 then none
    else
      let (check1, b) ← Bytes.word32? hidden
      let (check2, b) ← Bytes.word32? b
      let (key, repeated, b) ← pair? b
      let (_, b) ← text? b
      if check1 = check2 && repeated = shown && isPadding b then some key else none

/-! ### The wrapping form -/

/-- The object identifiers of the algorithms. -/
def ed25519Identifier : Bytes := [0x2b, 0x65, 0x70]

def rsaIdentifier : Bytes := [0x2a, 0x86, 0x48, 0x86, 0xf7, 0x0d, 0x01, 0x01, 0x01]

def curveIdentifier : Bytes := [0x2a, 0x86, 0x48, 0xce, 0x3d, 0x02, 0x01]

/-- The content of a value that may be left out, if it is as it should be. -/
def agrees (content : Option Bytes) (test : Bytes → Bool) : Bool :=
  match content with
  | none => true
  | some c => test c

/-- The octets of a string of bits. -/
def wholeOctets? : Bytes → Option Bytes
  | 0 :: octets => some octets
  | _ => none

/-- The private number of a curve, which may be followed by the curve and the public point. -/
def isOnCurve (curve : Curve) (b : Bytes) : Option Bool := do
  let c ← Der.whole? Der.sequence b
  let (version, c) ← Der.natural? c
  let (digits, c) ← Der.content? Der.octetString c
  let (parameters, c) ← Der.optional? 0xa0 c
  let (point, c) ← Der.optional? 0xa1 c
  let number ← curve.secret? digits
  return version = 1 && c.isEmpty &&
    agrees parameters (Der.whole? Der.objectIdentifier · == some curve.identifier) &&
    agrees point fun p =>
      ((Der.whole? Der.bitString p).bind wholeOctets?).any (curve.isPublicOf number)

/-- Reads the wrapping form. -/
def ofWrapped? (b : Bytes) : Option Private := do
  let c ← Der.whole? Der.sequence b
  let (version, c) ← Der.natural? c
  let (algorithm, c) ← Der.content? Der.sequence c
  let (key, c) ← Der.content? Der.octetString c
  let (_, c) ← Der.optional? 0xa0 c
  let (point, c) ← Der.optional? 0x81 c
  if 1 < version || !c.isEmpty || point.isSome ≠ (version = 1) ||
      !agrees point (wholeOctets? · |>.isSome) then none
  else
    let (identifier, parameters) ← Der.content? Der.objectIdentifier algorithm
    if identifier = ed25519Identifier then
      let seed ← Der.whole? Der.octetString key
      if parameters.isEmpty && seed.length = 32 &&
          agrees point (wholeOctets? · == some (Ed25519.publicOf seed)) then some .ed25519
      else none
    else if identifier = rsaIdentifier then (Rsa.ofDer? key).map fun _ => .rsa 256
    else if identifier = curveIdentifier then
      let name ← Der.whole? Der.objectIdentifier parameters
      let curve ← Curve.ofIdentifier? name
      if ← isOnCurve curve key then some (.ecdsa curve) else none
    else none

def ofText? (text : String) : Option Private :=
  match Pem.read? text with
  | some ⟨.openssh, b⟩ => ofOpenssh? b
  | some ⟨.rsa, b⟩ => (Rsa.ofDer? b).map fun _ => .rsa 256
  | some ⟨.wrapped, b⟩ => ofWrapped? b
  | _ => none

end Private

end ForgeGateway.Key
