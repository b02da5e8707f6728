import ForgeGateway.Json.Literal

/-! # JSON

`Value.parse?` reads a text of the JSON grammar and `Value.render` writes one without
blanks. Members keep their order and their repetitions; a number keeps its digits. -/

namespace ForgeGateway.Json

inductive Value where
  | null
  | bool (b : Bool)
  /-- A number, by its digits. -/
  | number (digits : Bytes)
  | string (s : Literal)
  | array (items : List Value)
  | object (members : List (Literal × Value))
  deriving Repr

/-- A blank between tokens. -/
def isBlank (x : UInt8) : Bool := x == 32 || x == 9 || x == 10 || x == 13

/-- What follows the blanks. -/
def skipBlanks (b : Bytes) : Bytes := b.dropWhile isBlank

def isDigit (x : UInt8) : Bool := 48 ≤ x.toNat && x.toNat ≤ 57

/-! ### Numbers -/

/-- At least one digit, and what follows. -/
def digits? (b : Bytes) : Option (Bytes × Bytes) :=
  match b.takeWhile isDigit with
  | [] => none
  | ds => some (ds, b.dropWhile isDigit)

/-- The whole part: zero alone, or digits that start with another one. -/
def whole? : Bytes → Option (Bytes × Bytes)
  | 48 :: rest => some ([48], rest)
  | b => digits? b

/-- A point and digits, or nothing. -/
def fraction? : Bytes → Option (Bytes × Bytes)
  | 46 :: rest => do
    let (ds, rest) ← digits? rest
    return (46 :: ds, rest)
  | b => some ([], b)

/-- A mark, perhaps a sign, and digits; or nothing. -/
def exponent? : Bytes → Option (Bytes × Bytes)
  | e :: rest =>
    if e == 101 || e == 69 then
      match rest with
      | s :: more =>
        if s == 43 || s == 45 then do
          let (ds, rest) ← digits? more
          return (e :: s :: ds, rest)
        else do
          let (ds, rest) ← digits? rest
          return (e :: ds, rest)
      | [] => none
    else some ([], e :: rest)
  | [] => some ([], [])

/-- A number without a sign. -/
def unsigned? (b : Bytes) : Option (Bytes × Bytes) := do
  let (w, b) ← whole? b
  let (f, b) ← fraction? b
  let (e, b) ← exponent? b
  return (w ++ f ++ e, b)

def number? : Bytes → Option (Bytes × Bytes)
  | 45 :: rest => do
    let (n, rest) ← unsigned? rest
    return (45 :: n, rest)
  | b => unsigned? b

/-! ### Reading -/

/-- What follows the octets of `word`. -/
def after? (word : String) (b : Bytes) : Option Bytes :=
  let w := Bytes.ofString word
  if w.isPrefixOf b then some (b.drop w.length) else none

mutual

/-- Reads a value; `fuel` bounds the number of nested and following values. -/
def value? : Nat → Bytes → Option (Value × Bytes)
  | 0, _ => none
  | fuel + 1, b =>
    match skipBlanks b with
    | 110 :: rest => (after? "ull" rest).map (Value.null, ·)
    | 116 :: rest => (after? "rue" rest).map (Value.bool true, ·)
    | 102 :: rest => (after? "alse" rest).map (Value.bool false, ·)
    | 34 :: rest => (Literal.scan? rest).map fun (l, rest) => (Value.string l, rest)
    | 91 :: rest =>
      match skipBlanks rest with
      | 93 :: rest => some (.array [], rest)
      | rest => (items? fuel rest).map fun (vs, rest) => (Value.array vs, rest)
    | 123 :: rest =>
      match skipBlanks rest with
      | 125 :: rest => some (.object [], rest)
      | rest => (members? fuel rest).map fun (ms, rest) => (Value.object ms, rest)
    | rest => (number? rest).map fun (ds, rest) => (Value.number ds, rest)

/-- Reads the items of an array up to its closing bracket. -/
def items? : Nat → Bytes → Option (List Value × Bytes)
  | 0, _ => none
  | fuel + 1, b =>
    match value? fuel b with
    | none => none
    | some (v, rest) =>
      match skipBlanks rest with
      | 44 :: rest => (items? fuel rest).map fun (vs, rest) => (v :: vs, rest)
      | 93 :: rest => some ([v], rest)
      | _ => none

/-- Reads the members of an object up to its closing brace. -/
def members? : Nat → Bytes → Option (List (Literal × Value) × Bytes)
  | 0, _ => none
  | fuel + 1, b =>
    match skipBlanks b with
    | 34 :: rest =>
      match Literal.scan? rest with
      | none => none
      | some (key, rest) =>
        match skipBlanks rest with
        | 58 :: rest =>
          match value? fuel rest with
          | none => none
          | some (v, rest) =>
            match skipBlanks rest with
            | 44 :: rest => (members? fuel rest).map fun (ms, rest) => ((key, v) :: ms, rest)
            | 125 :: rest => some ([(key, v)], rest)
            | _ => none
        | _ => none
    | _ => none

end

def Value.parse? (b : Bytes) : Option Value :=
  match value? (2 * b.length + 2) b with
  | some (v, rest) => if (skipBlanks rest).isEmpty then some v else none
  | none => none

/-! ### Writing -/

/-- Pieces with commas between them. -/
def commaSeparated : List Bytes → Bytes
  | [] => []
  | [b] => b
  | b :: bs => b ++ 44 :: commaSeparated bs

mutual

/-- A value without blanks. -/
def Value.render : Value → Bytes
  | .null => Bytes.ofString "null"
  | .bool true => Bytes.ofString "true"
  | .bool false => Bytes.ofString "false"
  | .number ds => ds
  | .string l => l.render
  | .array vs => 91 :: commaSeparated (renderItems vs) ++ [93]
  | .object ms => 123 :: commaSeparated (renderMembers ms) ++ [125]

/-- Each item without blanks. -/
def renderItems : List Value → List Bytes
  | [] => []
  | v :: vs => v.render :: renderItems vs

/-- Each member without blanks. -/
def renderMembers : List (Literal × Value) → List Bytes
  | [] => []
  | (key, v) :: ms => (key.render ++ 58 :: v.render) :: renderMembers ms

end

def Value.text (s : String) : Value := .string (Literal.ofString s)

def Value.record (members : List (String × Value)) : Value :=
  .object (members.map fun (k, v) => (Literal.ofString k, v))

/-- The text of a value without blanks. -/
def Value.toText (v : Value) : String := Utf8.lossy v.render

end ForgeGateway.Json
