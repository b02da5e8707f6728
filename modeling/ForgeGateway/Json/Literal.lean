import ForgeGateway.Bytes.Hex
import ForgeGateway.Bytes.Utf8

/-! # Strings inside JSON

A `Literal` is a string as it stands between its quotes: octets written plainly, short
escapes, and code units behind `\u`. Scanning checks the form of the escapes only;
`Literal.decode?` says which text is meant, and refuses lone surrogates and octets that are
not UTF-8. `Literal.ofString` writes a text with the fewest escapes. -/

namespace ForgeGateway.Json

/-- A piece of a string between quotes. -/
inductive Piece where
  | plain (x : UInt8)
  /-- The octet that a short escape stands for. -/
  | short (x : UInt8)
  /-- A code unit in four hexadecimal digits. -/
  | unit (n : Nat)
  deriving DecidableEq, Repr

/-- A string between its quotes. -/
abbrev Literal := List Piece

/-- The octet meant by the letter of a short escape. -/
def shortEscape? (letter : UInt8) : Option UInt8 :=
  match Char.ofNat letter.toNat with
  | '"' => some 34
  | '\\' => some 92
  | '/' => some 47
  | 'b' => some 8
  | 'f' => some 12
  | 'n' => some 10
  | 'r' => some 13
  | 't' => some 9
  | _ => none

/-- The letter of the short escape for an octet that must not be written plainly. -/
def shortLetter? (x : UInt8) : Option Char :=
  match x.toNat with
  | 34 => some '"'
  | 92 => some '\\'
  | 8 => some 'b'
  | 12 => some 'f'
  | 10 => some 'n'
  | 13 => some 'r'
  | 9 => some 't'
  | _ => none

/-- The number of four hexadecimal digits. -/
def unit? (a b c d : UInt8) : Option Nat := do
  let digit := fun (x : UInt8) => Hex.digit? (Char.ofNat x.toNat)
  let a ← digit a
  let b ← digit b
  let c ← digit c
  let d ← digit d
  return a * 4096 + b * 256 + c * 16 + d

namespace Literal

/-- Reads up to the closing quote; also gives what follows it. -/
def scan? : Bytes → Option (Literal × Bytes)
  | [] => none
  | 34 :: rest => some ([], rest)
  | 92 :: 117 :: a :: b :: c :: d :: rest => do
    let n ← unit? a b c d
    let (more, rest) ← scan? rest
    return (.unit n :: more, rest)
  | 92 :: x :: rest => do
    let y ← shortEscape? x
    let (more, rest) ← scan? rest
    return (.short y :: more, rest)
  | x :: rest =>
    if x.toNat < 32 || x.toNat == 92 then none
    else do
      let (more, rest) ← scan? rest
      return (.plain x :: more, rest)

/-- The octets that a string means. Surrogates count only in pairs. -/
def octets? : Literal → Option Bytes
  | [] => some []
  | .plain x :: rest => (octets? rest).map (x :: ·)
  | .short x :: rest => (octets? rest).map (x :: ·)
  | .unit hi :: .unit lo :: rest =>
    if 0xD800 ≤ hi ∧ hi < 0xDC00 then
      if 0xDC00 ≤ lo ∧ lo < 0xE000 then
        let c := Char.ofNat (0x10000 + (hi - 0xD800) * 1024 + (lo - 0xDC00))
        (octets? rest).map (String.utf8EncodeChar c ++ ·)
      else none
    else if 0xDC00 ≤ hi ∧ hi < 0xE000 then none
    else (octets? (.unit lo :: rest)).map (String.utf8EncodeChar (Char.ofNat hi) ++ ·)
  | .unit n :: rest =>
    if 0xD800 ≤ n ∧ n < 0xE000 then none
    else (octets? rest).map (String.utf8EncodeChar (Char.ofNat n) ++ ·)

/-- The text that a string means. -/
def decode? (l : Literal) : Option String :=
  match octets? l with
  | none => none
  | some b => Utf8.decode? b

/-- The piece for one octet of a text. -/
def pieceOf (x : UInt8) : Piece :=
  match shortLetter? x with
  | some _ => .short x
  | none => if x.toNat < 32 then .unit x.toNat else .plain x

/-- A text with an escape exactly where JSON wants one. -/
def ofString (s : String) : Literal := (Bytes.ofString s).map pieceOf

/-- A piece as it is written. -/
def renderPiece : Piece → Bytes
  | .plain x => [x]
  | .short x =>
    match shortLetter? x with
    | some c => [92, UInt8.ofNat c.toNat]
    | none => [92, x]
  | .unit n =>
    92 :: 117 :: [n / 4096 % 16, n / 256 % 16, n / 16 % 16, n % 16].map fun d =>
      UInt8.ofNat (Hex.digit d).toNat

/-- A string with its quotes. -/
def render (l : Literal) : Bytes := 34 :: l.flatMap renderPiece ++ [34]

end Literal

end ForgeGateway.Json
