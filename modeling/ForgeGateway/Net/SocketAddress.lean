import ForgeGateway.Text.Number

/-! # Socket addresses

An address of the Internet protocol, version four or six, with the number of a service there.
`SocketAddress.parse?` reads the usual notations and `SocketAddress.text` writes the
canonical one: lower-case groups, the longest run of zero groups as `::`, and an embedded
version-four address in decimals. -/

namespace ForgeGateway.Net

/-- An address with the number of a service. -/
inductive SocketAddress where
  | v4 (octets : List Nat) (tcpPort : Nat)
  | v6 (groups : List Nat) (scope : Nat) (tcpPort : Nat)
  deriving DecidableEq, Repr

namespace SocketAddress

/-! ### Reading -/

/-- A number to a base below a bound, of at most `width` digits if one is given. A leading
zero may be refused. -/
def number (base bound : Nat) (width : Option Nat) (zeros : Bool) (cs : List Char) :
    Option (Nat × List Char) :=
  let (ds, rest) := Text.leadingDigits base cs
  if width.any (· < ds.length) then none
  else if !zeros && ds.head? == some '0' && 1 < ds.length then none
  else match Text.radix? base ds with
    | some n => if n < bound then some (n, rest) else none
    | none => none

def char (c : Char) : List Char → Option (Unit × List Char)
  | d :: rest => if d = c then some ((), rest) else none
  | [] => none

/-- Skips a separator in front of every item but the first. -/
def separated (sep : Char) (first : Bool) (cs : List Char) : Option (List Char) :=
  if first then some cs else (char sep cs).map (·.2)

def octet (cs : List Char) : Option (Nat × List Char) := number 10 256 (some 3) false cs

/-- Four octets with dots between them. -/
def octets (cs : List Char) : Option (List Nat × List Char) := do
  let (a, cs) ← octet cs
  let (b, cs) ← octet (← separated '.' false cs)
  let (c, cs) ← octet (← separated '.' false cs)
  let (d, cs) ← octet (← separated '.' false cs)
  return ([a, b, c, d], cs)

/-- The two groups that four octets make. -/
def groupsOf : List Nat → List Nat
  | [a, b, c, d] => [a * 256 + b, c * 256 + d]
  | _ => []

/-- At most `room` groups with colons between them. Where two groups fit, four octets may stand
for the last ones, which the flag reports. -/
def groups : Nat → Bool → List Char → List Nat × Bool × List Char
  | 0, _, cs => ([], false, cs)
  | room + 1, first, cs =>
    match separated ':' first cs with
    | none => ([], false, cs)
    | some next =>
      match (if room = 0 then none else octets next) with
      | some (os, rest) => (groupsOf os, true, rest)
      | none =>
        match number 16 65536 (some 4) true next with
        | none => ([], false, cs)
        | some (g, rest) =>
          let (gs, embedded, rest) := groups room false rest
          (g :: gs, embedded, rest)

/-- The eight groups of an address; `::` stands for as many zero groups as are missing. -/
def allGroups (cs : List Char) : Option (List Nat × List Char) := do
  let (front, embedded, rest) := groups 8 true cs
  if front.length = 8 then return (front, rest)
  else if embedded then none
  else
    let (_, rest) ← char ':' rest
    let (_, rest) ← char ':' rest
    let (back, _, rest) := groups (7 - front.length) true rest
    return (front ++ List.replicate (8 - front.length - back.length) 0 ++ back, rest)

/-- The number behind a colon, at the end of the text. -/
def tcpPort (cs : List Char) : Option Nat := do
  let (_, cs) ← char ':' cs
  let (n, rest) ← number 10 65536 none true cs
  if rest.isEmpty then some n else none

/-- The scope of an address behind `%`; zero if there is none. -/
def scope (cs : List Char) : Nat × List Char :=
  match char '%' cs with
  | none => (0, cs)
  | some (_, next) => (number 10 4294967296 none true next).getD (0, cs)

/-- Reads an address with the number of a service. -/
def parse? (s : String) : Option SocketAddress :=
  match octets s.toList with
  | some (os, rest) => (tcpPort rest).map (.v4 os)
  | none => do
    let (_, cs) ← char '[' s.toList
    let (gs, cs) ← allGroups cs
    let (n, cs) := scope cs
    let (_, cs) ← char ']' cs
    return .v6 gs n (← tcpPort cs)

/-! ### Writing -/

/-- Octets with dots between them. -/
def octetText (os : List Nat) : String := ".".intercalate (os.map Text.decimal)

/-- Groups with colons between them. -/
def groupText (gs : List Nat) : String := ":".intercalate (gs.map Hex.natDigits)

/-- Length of the run of zero groups at the front. -/
def zeroRun (gs : List Nat) : Nat := (gs.takeWhile (· = 0)).length

/-- Start and length of the first longest run of zero groups. -/
def longestZeroRun (gs : List Nat) : Nat × Nat :=
  (List.range gs.length).foldl (fun best i =>
    let n := zeroRun (gs.drop i)
    if best.2 < n then (i, n) else best) (0, 0)

/-- A version-six address. -/
def groupsText (gs : List Nat) : String :=
  match gs with
  | [0, 0, 0, 0, 0, 65535, g, h] =>
    "::ffff:" ++ octetText [g / 256, g % 256, h / 256, h % 256]
  | _ =>
    let (start, n) := longestZeroRun gs
    if n < 2 then groupText gs
    else groupText (gs.take start) ++ "::" ++ groupText (gs.drop (start + n))

/-- The canonical notation. -/
def text : SocketAddress → String
  | .v4 os p => octetText os ++ ":" ++ Text.decimal p
  | .v6 gs n p =>
    "[" ++ groupsText gs ++ (if n = 0 then "" else "%" ++ Text.decimal n) ++ "]:" ++ Text.decimal p

end SocketAddress

end ForgeGateway.Net
