import ForgeGateway.Yaml.Source

/-! # Scalars

The four ways to write a scalar: plainly, in single or double quotes, and as a block behind
`|` or `>`. Each reader gives the text that is meant and what follows, or `none` if the text
breaks the rules. -/

namespace ForgeGateway.Yaml

/-! ### Plain scalars -/

/-- A plain scalar may not go on here. -/
def endsPlain (flow : Bool) (s : Source) : Bool :=
  match s.peek 0 with
  | none => true
  | some c =>
    isSpace c || isBreak c || (c == ':' && s.blankOrEnd 1) ||
      (flow && (c == ',' || c == '[' || c == ']' || c == '{' || c == '}'))

/-- A colon inside brackets before a character that it must not stand before. -/
def strayColon (flow : Bool) (s : Source) : Bool :=
  flow && s.at? ':' &&
    s.test 1 fun c => c == ',' || c == '?' || c == '[' || c == ']' || c == '{' || c == '}'

/-- The characters up to where the scalar may not go on. -/
def plainWord (flow : Bool) : Nat → List Char → Source → Option (List Char × Source)
  | 0, word, s => some (word.reverse, s)
  | fuel + 1, word, s =>
    match s.peek 0 with
    | none => some (word.reverse, s)
    | some c =>
      if isSpace c || isBreak c then some (word.reverse, s)
      else if strayColon flow s then none
      else if endsPlain flow s then some (word.reverse, s)
      else plainWord flow fuel (c :: word) s.skip

/-- A plain scalar that must be indented to `indent` outside brackets. `some true` as the last
part says that line ends follow it. -/
def plainScalar (flow : Bool) (indent : Int) :
    Nat → List Char → Gap → Source → Option (List Char × Source × Bool)
  | 0, text, g, s => some (text, s, !g.breaks.isEmpty)
  | fuel + 1, text, g, s =>
    if s.atDocumentMark || s.at? '#' then some (text, s, !g.breaks.isEmpty)
    else do
      let (word, s) ← plainWord flow (s.rest.length + 1) [] s
      let text := if word.isEmpty then text else text ++ g.text ++ word
      let inLines := word.isEmpty && !g.breaks.isEmpty
      if s.test 0 fun c => isSpace c || isBreak c then
        let (g, s) ← Gap.read (some indent) (s.rest.length + 1) {} s
        let stop := !flow && decide ((s.column : Int) < indent)
        if stop then return (text, s, !g.breaks.isEmpty)
        else plainScalar flow indent fuel text g s
      else return (text, s, inLines)

/-! ### Quoted scalars -/

/-- The characters that a one-letter escape stands for. -/
def escapeOf (c : Char) : Option Char :=
  match c with
  | '0' => some '\x00'
  | 'a' => some '\x07'
  | 'b' => some '\x08'
  | 't' => some '\t'
  | '\t' => some '\t'
  | 'n' => some '\n'
  | 'v' => some '\x0b'
  | 'f' => some '\x0c'
  | 'r' => some '\r'
  | 'e' => some '\x1b'
  | ' ' => some ' '
  | '"' => some '"'
  | '/' => some '/'
  | '\\' => some '\\'
  | 'N' => some (Char.ofNat 0x85)
  | '_' => some (Char.ofNat 0xA0)
  | 'L' => some (Char.ofNat 0x2028)
  | 'P' => some (Char.ofNat 0x2029)
  | _ => none

/-- How many hexadecimal digits follow the letter of an escape. -/
def codeDigits (c : Char) : Option Nat :=
  match c with
  | 'x' => some 2
  | 'u' => some 4
  | 'U' => some 8
  | _ => none

/-- The character with a code point that hexadecimal digits write. -/
def codeChar (ds : List Char) : Option Char := do
  let n ← ds.foldlM (fun n d => (Hex.digit? d).map (n * 16 + ·)) 0
  if (0xD800 ≤ n ∧ n ≤ 0xDFFF) ∨ 0x10FFFF < n then none else some (Char.ofNat n)

/-- The escape that starts at a backslash. -/
def escape? (s : Source) : Option (Char × Source) := do
  let c ← s.peek 1
  match escapeOf c with
  | some d => return (d, s.skipN 2)
  | none =>
    let n ← codeDigits c
    let s := s.skipN 2
    let ds := s.rest.take n
    if ds.length < n then none
    else return (← codeChar ds, s.skipN n)

/-- The characters of a quoted scalar up to a blank, a line end or the closing quote. The last
part says that an escaped line end follows. -/
def quotedWord (single : Bool) :
    Nat → List Char → Source → Option (List Char × Source × Bool)
  | 0, word, s => some (word.reverse, s, false)
  | fuel + 1, word, s =>
    if s.blankOrEnd 0 then some (word.reverse, s, false)
    else if single then
      if s.at? '\'' then
        if s.peek 1 == some '\'' then quotedWord single fuel ('\'' :: word) (s.skipN 2)
        else some (word.reverse, s, false)
      else quotedWord single fuel ((s.peek 0).toList ++ word) s.skip
    else if s.at? '"' then some (word.reverse, s, false)
    else if s.at? '\\' then
      if s.test 1 isBreak then some (word.reverse, s.skipN 2, true)
      else do
        let (c, s) ← escape? s
        quotedWord single fuel (c :: word) s
    else quotedWord single fuel ((s.peek 0).toList ++ word) s.skip

/-- A quoted scalar behind its opening quote. -/
def quotedScalar (single : Bool) : Nat → List Char → Source → Option (List Char × Source)
  | 0, _, _ => none
  | fuel + 1, text, s =>
    if s.atDocumentMark || s.rest.isEmpty then none
    else do
      let (word, s, escaped) ← quotedWord single (s.rest.length + 1) [] s
      let text := text ++ word
      if !escaped && s.at? (if single then '\'' else '"') then return (text, s.skip)
      else
        let (g, s) ← Gap.read none (s.rest.length + 1) { escaped } s
        quotedScalar single fuel (text ++ g.text) s

/-! ### Block scalars -/

/-- What happens to the line ends at the end of a block. -/
inductive Chomping where
  | strip
  | clip
  | keep
  deriving DecidableEq

/-- The signs behind `|` or `>`: chomping and indentation, in either order. -/
def blockHeader? (s : Source) : Option (Chomping × Nat × Source) :=
  let sign := fun (s : Source) =>
    if s.at? '+' then (some Chomping.keep, s.skip)
    else if s.at? '-' then (some Chomping.strip, s.skip)
    else (none, s)
  let digit := fun (s : Source) =>
    match s.peek 0 with
    | some c =>
      if c == '0' then none
      else if '1' ≤ c && c ≤ '9' then some (c.toNat - 48, s.skip)
      else some (0, s)
    | none => some (0, s)
  match sign s with
  | (some chomping, s) => (digit s).map fun (n, s) => (chomping, n, s)
  | (none, s) =>
    match digit s with
    | none => none
    | some (0, s) => some (.clip, 0, s)
    | some (n, s) =>
      let (chomping, s) := sign s
      some (chomping.getD .clip, n, s)

/-- Reads the indentation of lines and empty lines. `indent` is zero as long as it is not
known; the last part is the largest indentation seen. -/
def blockBreaks (indent : Nat) :
    Nat → Nat → List Char → Source → Option (List Char × Source × Nat)
  | 0, widest, breaks, s => some (breaks, s, widest)
  | fuel + 1, widest, breaks, s =>
    let room := if indent = 0 then s.rest.length else indent - s.column
    let blanks := (s.rest.takeWhile (· == ' ')).length
    let s := s.skipN (min room blanks)
    let widest := max widest s.column
    if (indent = 0 || s.column < indent) && s.at? '\t' then none
    else if s.test 0 isBreak then
      blockBreaks indent fuel widest (breaks ++ (s.peek 0).toList) s.skip
    else some (breaks, s, widest)

/-- The lines of a block. `lead` is the end of the line before, `trail` the empty lines after
it, and `wasBlank` says that it started with a blank. -/
def blockLines (literal : Bool) (indent : Nat) :
    Nat → List Char → List Char → List Char → Bool → Source →
      Option (List Char × List Char × List Char × Source)
  | 0, text, lead, trail, _, s => some (text, lead, trail, s)
  | fuel + 1, text, lead, trail, wasBlank, s =>
    if s.column == indent && !s.rest.isEmpty then do
      let blank := s.test 0 isSpace
      let fold := !literal && lead == ['\n'] && !wasBlank && !blank
      let joint := if fold then (if trail.isEmpty then [' '] else []) else lead
      let (line, s) := s.span fun c => !isBreak c
      let lead := (s.peek 0).toList
      let (trail', s, _) ← blockBreaks indent (s.rest.length + 1) 0 [] s.skip
      blockLines literal indent fuel (text ++ joint ++ trail ++ line) lead trail' blank s
    else some (text, lead, trail, s)

/-- A block scalar behind `|` or `>`, in a block indented to `parent`. -/
def blockScalar (literal : Bool) (parent : Int) (s : Source) : Option (List Char × Source) := do
  let (chomping, increment, s) ← blockHeader? s
  let (_, s) := s.span isSpace
  let s := if s.at? '#' then (s.span fun c => !isBreak c).2 else s
  if !s.lineEnd then none
  else
    let s := s.skip
    let base := parent.toNat
    let given := if increment = 0 then 0 else base + increment
    let (trail, s, widest) ← blockBreaks given (s.rest.length + 1) 0 [] s
    let indent := if given = 0 then max 1 (max widest (parent + 1).toNat) else given
    let (text, lead, trail, s) ←
      blockLines literal indent (s.rest.length + 1) [] [] trail false s
    let last := if chomping = .strip then [] else lead
    return (text ++ last ++ (if chomping = .keep then trail else []), s)

end ForgeGateway.Yaml
