import ForgeGateway.Bytes.Utf8
import ForgeGateway.Net.SocketAddress

/-! # Locations

`Url.parse?` reads a location and `Url.text` writes it in its normal form: scheme and host in
small letters, no default `tcpPort`, no `.` and `..` segments, other characters percent-encoded.
User names and passwords are left out. Hosts are addresses or ASCII names. -/

namespace ForgeGateway.Http

/-- A location. One without a host has only a path behind the scheme. -/
structure Url where
  scheme : String
  host : Option String
  tcpPort : Option Nat := none
  path : String
  query : Option String := none
  fragment : Option String := none
  deriving DecidableEq, Repr

namespace Url

/-- The default number of a scheme whose locations always have a host. -/
def defaultPort? (scheme : String) : Option Nat :=
  [("http", 80), ("https", 443), ("ws", 80), ("wss", 443), ("ftp", 21)].lookup scheme

/-! ### Percent-encoding -/

/-- `%` and two capital digits. -/
def percent (x : UInt8) : List Char :=
  '%' :: ((Hex.encode [x]).toList.map Char.toUpper)

/-- Encodes the characters of a set, all control characters and all that is not ASCII. -/
def encoded (set : String) (cs : List Char) : String :=
  String.ofList (cs.flatMap fun c =>
    if c.toNat < 32 || 126 < c.toNat || set.toList.contains c then
      (Bytes.ofString (String.singleton c)).flatMap percent
    else [c])

/-- The characters that are encoded in a path. -/
def pathSet : String := " \"#<>?^\x60\x7b\x7d"

/-- The characters that are encoded in a query. -/
def querySet (special : Bool) : String := if special then " \"#<>'" else " \"#<>"

/-- The characters that are encoded in a fragment. -/
def fragmentSet : String := " \"<>\x60"

/-! ### Hosts -/

/-- A character that no host name has. -/
def isForbidden (c : Char) : Bool :=
  c.toNat ≤ 32 || 126 < c.toNat || "#/:<>?@[\\]^|%".toList.contains c

/-- A part of an address in decimals, in octals behind `0` or in hexadecimals behind `0x`. -/
def addressPart? (cs : List Char) : Option Nat :=
  match cs with
  | '0' :: 'x' :: ds => if ds.isEmpty then some 0 else Text.radix? 16 ds
  | '0' :: d :: ds => Text.radix? 8 (d :: ds)
  | ds => Text.radix? 10 ds

/-- A host name that must be an address, since it ends in a number. -/
def endsInNumber (labels : List (List Char)) : Bool :=
  match labels.getLast? with
  | some l => (!l.isEmpty && l.all Text.isDigit) || (Text.after? "0x" l).any fun ds =>
      ds.isEmpty || (Text.radix? 16 ds).isSome
  | none => false

/-- An address of which the last part covers all octets that are left. -/
def address? (labels : List (List Char)) : Option String := do
  let parts ← labels.mapM addressPart?
  match parts.reverse with
  | [] => none
  | last :: front =>
    let front := front.reverse
    if 3 < front.length || front.any (255 < ·) || Nat.pow 256 (4 - front.length) ≤ last then none
    else
      let n := front.foldl (fun n p => n * 256 + p) 0 * Nat.pow 256 (4 - front.length) + last
      some (Net.SocketAddress.octetText
        [n / 16777216, n / 65536 % 256, n / 256 % 256, n % 256])

def host? (special : Bool) (cs : List Char) : Option String :=
  match cs with
  | '[' :: rest =>
    match Net.SocketAddress.allGroups rest with
    | some (gs, [']']) => some ("[" ++ Net.SocketAddress.groupsText gs ++ "]")
    | _ => none
  | _ =>
    if cs.any isForbidden || (special && cs.isEmpty) then none
    else if special then
      let cs := cs.map Char.toLower
      let labels := Text.split '.' cs
      let labels := if labels.getLast? == some [] then labels.dropLast else labels
      if endsInNumber labels then address? labels else some (String.ofList cs)
    else some (String.ofList cs)

def hostAndPort? (special : Bool) (cs : List Char) : Option (String × Option Nat) := do
  let (name, rest) := if cs.head? == some '[' then
      let (inside, rest) := cs.span (· ≠ ']')
      (inside ++ rest.take 1, rest.drop 1)
    else cs.span (· ≠ ':')
  let host ← host? special name
  match rest with
  | [] | [':'] => some (host, none)
  | ':' :: digits =>
    if digits.all Text.isDigit then
      match Text.radix? 10 digits with
      | some n => if n < 65536 then some (host, some n) else none
      | none => none
    else none
  | _ => none

/-! ### Paths -/

/-- Pieces between the slashes of a path. -/
def segments (special : Bool) (cs : List Char) : List (List Char) :=
  Text.split '/' (if special then cs.map fun c => if c = '\\' then '/' else c else cs)

/-- A segment that names its own level. -/
def isDot (s : List Char) : Bool :=
  [".", "%2e"].contains (Text.lowered (String.ofList s))

/-- A segment that names the level above. -/
def isDotDot (s : List Char) : Bool :=
  ["..", ".%2e", "%2e.", "%2e%2e"].contains (Text.lowered (String.ofList s))

/-- Resolves the segments that name levels; `done` are those before, the last one first. -/
def resolve (done : List (List Char)) : List (List Char) → List (List Char)
  | [] => done.reverse
  | s :: rest =>
    if isDotDot s then
      let done := done.tail
      resolve (if rest.isEmpty then [] :: done else done) rest
    else if isDot s then resolve (if rest.isEmpty then [] :: done else done) rest
    else resolve (s :: done) rest

/-- The normal form of a path that starts at the root. -/
def normalPath (special : Bool) (cs : List Char) : String :=
  match segments special cs with
  | [] :: rest =>
    "/" ++ encoded pathSet (Text.join '/' (resolve [] rest))
  | segs => "/" ++ encoded pathSet (Text.join '/' (resolve [] segs))

/-! ### Reading -/

/-- Without blanks and control characters at the ends, and without tabs and line ends. -/
def trimmed (s : String) : List Char :=
  let outer := fun (c : Char) => decide (c.toNat ≤ 32)
  let cs := ((s.toList.dropWhile outer).reverse.dropWhile outer).reverse
  cs.filter fun c => !(c = '\t' || c = '\n' || c = '\r')

/-- The scheme in small letters, and what follows its colon. -/
def scheme? (cs : List Char) : Option (String × List Char) :=
  let isSchemeChar := fun c => Text.isLetter c || Text.isDigit c || c == '+' || c == '-' || c == '.'
  match cs.span isSchemeChar with
  | (c :: name, ':' :: rest) =>
    if Text.isLetter c then some (Text.lowered (String.ofList (c :: name)), rest) else none
  | _ => none

/-- What stands before a character, and what stands behind it. -/
def cut (c : Char) (cs : List Char) : List Char × Option (List Char) :=
  match cs.span (· ≠ c) with
  | (front, _ :: back) => (front, some back)
  | (front, []) => (front, none)

/-- What stands behind the last `@`. -/
def withoutUser (cs : List Char) : List Char := (cs.reverse.takeWhile (· ≠ '@')).reverse

def parse? (s : String) : Option Url := do
  let (scheme, rest) ← scheme? (trimmed s)
  let (rest, fragment) := cut '#' rest
  let (rest, query) := cut '?' rest
  let special := (defaultPort? scheme).isSome || scheme == "file"
  let query := query.map (encoded (querySet special))
  let fragment := fragment.map (encoded fragmentSet)
  let isSlash := fun c => c == '/' || (special && c == '\\')
  if (defaultPort? scheme).isSome then
    let (authority, path) := (rest.dropWhile isSlash).span fun c => !isSlash c
    let (host, p) ← hostAndPort? true (withoutUser authority)
    return { scheme, host, tcpPort := p.filter (some · ≠ defaultPort? scheme)
             path := normalPath true path, query, fragment }
  else match rest with
    | '/' :: '/' :: more =>
      let (authority, path) := more.span fun c => !isSlash c
      let (host, p) ← hostAndPort? false (withoutUser authority)
      let path := if path.isEmpty && !special then "" else normalPath special path
      return { scheme, host := if host.isEmpty then none else some host, tcpPort := p
               path := (if host.isEmpty then "//" else "") ++ path, query, fragment }
    | '/' :: _ => return { scheme, host := none, path := normalPath special rest, query, fragment }
    | _ => return { scheme, host := none, path := encoded "" rest, query, fragment }

/-! ### Writing -/

/-- Path and query, as a request names them. -/
def requestTarget (u : Url) : String :=
  u.path ++ (match u.query with
    | some q => "?" ++ q
    | none => "")

/-- The normal form. -/
def text (u : Url) : String :=
  let front := match u.host with
    | some h => "//" ++ h ++ (match u.tcpPort with
        | some p => ":" ++ Text.decimal p
        | none => "")
    | none => ""
  u.scheme ++ ":" ++ front ++ u.requestTarget ++ (match u.fragment with
    | some f => "#" ++ f
    | none => "")

end Url

end ForgeGateway.Http
