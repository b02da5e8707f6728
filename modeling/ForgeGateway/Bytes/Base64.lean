import ForgeGateway.Bytes

/-! # Base64

Standard alphabet. `encode` pads the last group with `=`, `encodeBare` leaves the padding
out. `decode?` accepts exactly the texts that `encode` writes: groups of four, padding only
at the end, and the bits that the padding stands for equal to zero. -/

namespace ForgeGateway.Base64

/-- The letter of a number below sixty-four. -/
def letter (n : Nat) : Char :=
  if n < 26 then Char.ofNat (65 + n)
  else if n < 52 then Char.ofNat (71 + n)
  else if n < 62 then Char.ofNat (n - 4)
  else if n = 62 then '+' else '/'

/-- The number of a letter. -/
def letter? (c : Char) : Option Nat :=
  if 65 ≤ c.toNat ∧ c.toNat ≤ 90 then some (c.toNat - 65)
  else if 97 ≤ c.toNat ∧ c.toNat ≤ 122 then some (c.toNat - 71)
  else if 48 ≤ c.toNat ∧ c.toNat ≤ 57 then some (c.toNat + 4)
  else if c = '+' then some 62
  else if c = '/' then some 63
  else none

/-- The letters of `b` in groups of four, the last group padded by `pad`. -/
def groups (pad : Char → List Char) : Bytes → List Char
  | [] => []
  | [a] =>
    let n := a.toNat * 16
    letter (n / 64) :: letter (n % 64) :: (pad '=' ++ pad '=')
  | [a, b] =>
    let n := (a.toNat * 256 + b.toNat) * 4
    letter (n / 4096) :: letter (n / 64 % 64) :: letter (n % 64) :: pad '='
  | a :: b :: c :: rest =>
    let n := a.toNat * 65536 + b.toNat * 256 + c.toNat
    letter (n / 262144) :: letter (n / 4096 % 64) :: letter (n / 64 % 64) :: letter (n % 64) ::
      groups pad rest

/-- Base64 with padding. -/
def encode (b : Bytes) : String := String.ofList (groups (fun c => [c]) b)

/-- Base64 without padding. -/
def encodeBare (b : Bytes) : String := String.ofList (groups (fun _ => []) b)

/-- The octets of a padded text, read in groups of four letters. -/
def ungroup? : List Char → Option Bytes
  | [] => some []
  | [a, b, '=', '='] => do
    let n := (← letter? a) * 64 + (← letter? b)
    if n % 16 = 0 then some [UInt8.ofNat (n / 16)] else none
  | [a, b, c, '='] => do
    let n := (← letter? a) * 4096 + (← letter? b) * 64 + (← letter? c)
    if n % 4 = 0 then some [UInt8.ofNat (n / 1024), UInt8.ofNat (n / 4)] else none
  | a :: b :: c :: d :: rest => do
    let n := (← letter? a) * 262144 + (← letter? b) * 4096 + (← letter? c) * 64 + (← letter? d)
    let tail ← ungroup? rest
    return UInt8.ofNat (n / 65536) :: UInt8.ofNat (n / 256) :: UInt8.ofNat n :: tail
  | _ => none

/-- The octets of a canonical padded text. -/
def decode? (s : String) : Option Bytes := ungroup? s.toList

theorem letter?_letter {n : Nat} (h : n < 64) : letter? (letter n) = some n := by
  have : ∀ k : Fin 64, letter? (letter k) = some k.val := by decide
  exact this ⟨n, h⟩

end ForgeGateway.Base64
