import ForgeGateway.Yaml.Scalar

/-! # Tokens

`Token.scan` cuts a text into tokens. Blocks are found by indentation: a line that is indented
further starts a block, and less indentation ends it. A key is recognised only when its colon
comes, on the same line and within 1024 characters; its token is then put in front of it. -/

namespace ForgeGateway.Yaml

/-- How a scalar was written. -/
inductive Style where
  | plain
  | quoted
  | literal
  | folded
  deriving DecidableEq, Repr

inductive Token where
  | directive (handle : Option (String × String))
  | documentStart
  | documentEnd
  | blockSequenceStart
  | blockMappingStart
  | blockEnd
  | flowSequenceStart
  | flowSequenceEnd
  | flowMappingStart
  | flowMappingEnd
  | blockEntry
  | flowEntry
  | key
  | value
  | alias (name : String)
  | anchor (name : String)
  | tag (handle suffix : String)
  | scalar (style : Style) (text : String)
  deriving DecidableEq, Repr

/-- A place where a key may have started. -/
structure KeyMark where
  /-- Without a colon the text is wrong. -/
  required : Bool
  /-- The number of the token that the key would start with. -/
  number : Nat
  line : Nat
  column : Nat
  index : Nat
  deriving Repr

/-- What the scan knows so far. -/
structure Scan where
  source : Source
  tokens : List Token := []
  /-- The indentation of the present block, and of those around it. -/
  indent : Int := -1
  indents : List Int := []
  keyAllowed : Bool := true
  /-- Possible keys: one for each open bracket and one for the block around them. -/
  keys : List (Option KeyMark) := [none]

namespace Scan

/-- How many brackets are open. -/
def flow (s : Scan) : Nat := s.keys.length - 1

def inFlow (s : Scan) : Bool := 1 < s.keys.length

def push (s : Scan) (t : Token) : Scan := { s with tokens := s.tokens ++ [t] }

/-- Sets the possible key of the innermost bracket. -/
def setKey (s : Scan) (k : Option KeyMark) : Scan :=
  { s with keys := match s.keys with
    | [] => [k]
    | _ :: rest => k :: rest }

/-- Gives up the possible key, which must not be required. -/
def dropKey (s : Scan) : Option Scan :=
  match s.keys.head? with
  | some (some k) => if k.required then none else some (s.setKey none)
  | _ => some s

/-- Notes that a key may start here. -/
def saveKey (s : Scan) : Option Scan :=
  if !s.keyAllowed then some s
  else do
    let required := !s.inFlow && s.indent == (s.source.column : Int)
    let s ← s.dropKey
    return s.setKey (some ⟨required, s.tokens.length, s.source.line, s.source.column,
      s.source.index⟩)

/-- Gives up keys whose colon can no longer come. -/
def dropStale (s : Scan) : Option Scan := do
  let keys ← s.keys.mapM fun k? =>
    match k? with
    | some k =>
      if k.line < s.source.line ∨ k.index + 1024 < s.source.index then
        if k.required then none else some none
      else some (some k)
    | none => some none
  return { s with keys }

/-- Ends the blocks that are indented further than `column`. -/
def unroll (column : Int) : Nat → Scan → Scan
  | 0, s => s
  | fuel + 1, s =>
    if s.inFlow || s.indent ≤ column then s
    else
      match s.indents with
      | [] => { s.push .blockEnd with indent := -1 }
      | outer :: rest => unroll column fuel { s.push .blockEnd with indent := outer, indents := rest }

/-- Starts a block if `column` is further in; its token goes to the place `number`. -/
def roll (s : Scan) (column : Nat) (number : Option Nat) (t : Token) : Scan :=
  if s.inFlow || (column : Int) ≤ s.indent then s
  else
    { s with
      indents := s.indent :: s.indents
      indent := column
      tokens := s.tokens.insertIdx (number.getD s.tokens.length) t }

/-- Goes past blanks, comments and line ends. Tabs do not count where a key could start. -/
def toToken : Nat → Scan → Scan
  | 0, s => s
  | fuel + 1, s =>
    let (_, source) := s.source.span fun c =>
      c == ' ' || ((s.inFlow || !s.keyAllowed) && c == '\t')
    let source := if source.at? '#' then (source.span fun c => !isBreak c).2 else source
    if source.test 0 isBreak then
      toToken fuel { s with source := source.skip, keyAllowed := s.keyAllowed || !s.inFlow }
    else { s with source }

/-- Adds a token of one character. -/
def single (s : Scan) (t : Token) : Scan := { s.push t with source := s.source.skip }

/-! ### Brackets, entries, keys and values -/

def openFlow (s : Scan) (t : Token) : Option Scan := do
  let s ← s.saveKey
  return { s with keys := none :: s.keys, keyAllowed := true }.single t

def closeFlow (s : Scan) (t : Token) : Option Scan := do
  let s ← s.dropKey
  let keys := if s.inFlow then s.keys.tail else s.keys
  return { s with keys, keyAllowed := false }.single t

/-- A comma. -/
def flowEntry (s : Scan) : Option Scan := do
  let s ← s.dropKey
  return { s with keyAllowed := true }.single .flowEntry

/-- A hyphen before an item. -/
def blockEntry (s : Scan) : Option Scan :=
  if !s.inFlow && !s.keyAllowed then none
  else do
    let s := s.roll s.source.column none .blockSequenceStart
    let s ← s.dropKey
    return { s with keyAllowed := true }.single .blockEntry

/-- A question mark before a key. -/
def explicitKey (s : Scan) : Option Scan :=
  if !s.inFlow && !s.keyAllowed then none
  else do
    let s := s.roll s.source.column none .blockMappingStart
    let s ← s.dropKey
    return { s with keyAllowed := !s.inFlow }.single .key

/-- A colon before a value. -/
def value (s : Scan) : Option Scan :=
  match s.keys.head? with
  | some (some k) =>
    let s := { s with tokens := s.tokens.insertIdx k.number .key }
    let s := s.roll k.column (some k.number) .blockMappingStart
    some ({ s.setKey none with keyAllowed := false }.single .value)
  | _ =>
    if !s.inFlow && !s.keyAllowed then none
    else
      let s := s.roll s.source.column none .blockMappingStart
      some ({ s with keyAllowed := !s.inFlow }.single .value)

/-! ### Anchors, tags and directives -/

/-- A character of the name of an anchor. -/
def isNameChar (c : Char) : Bool :=
  ('a' ≤ c && c ≤ 'z') || ('A' ≤ c && c ≤ 'Z') || ('0' ≤ c && c ≤ '9') || c == '_' || c == '-'

/-- `&name` or `*name`. -/
def reference (s : Scan) (make : String → Token) : Option Scan := do
  let s ← s.saveKey
  let (name, source) := s.source.skip.span isNameChar
  let follows := source.blankOrEnd 0 ||
    source.test 0 fun c => "?:,]\x7d%@\x60".toList.contains c
  if name.isEmpty || !follows then none
  else return { s with source, keyAllowed := false }.push (make (String.ofList name))

/-- A character of a tag. Inside brackets a tag is ended by commas and brackets. -/
def isTagChar (verbatim : Bool) (c : Char) : Bool :=
  isNameChar c || ";/?:@&=+$.%!~*'()".toList.contains c || (verbatim && (c == ',' || c == '[' || c == ']'))

/-- The characters of a tag with `%xx` read. -/
def unescapeTag : List Char → Option (List Char)
  | '%' :: a :: b :: rest => do
    let c ← codeChar [a, b]
    let more ← unescapeTag rest
    return c :: more
  | '%' :: _ => none
  | c :: rest => (unescapeTag rest).map (c :: ·)
  | [] => some []

/-- The handle and the suffix of the tag that starts here. -/
def tagParts? (s : Source) : Option (List Char × List Char × Source) :=
  if s.peek 1 == some '<' then do
    let (uri, s) := (s.skipN 2).span (isTagChar true)
    let uri ← unescapeTag uri
    if uri.isEmpty || !s.at? '>' then none else return ([], uri, s.skip)
  else do
    let (name, t) := s.skip.span isNameChar
    if t.at? '!' then
      let (suffix, u) := t.skip.span (isTagChar false)
      let suffix ← unescapeTag suffix
      if suffix.isEmpty then none else return ('!' :: name ++ ['!'], suffix, u)
    else
      let (suffix, u) := s.skip.span (isTagChar false)
      let suffix ← unescapeTag suffix
      if suffix.isEmpty then return ([], ['!'], u) else return (['!'], suffix, u)

def tag (s : Scan) : Option Scan := do
  let s ← s.saveKey
  let (handle, suffix, source) ← tagParts? s.source
  if source.blankOrEnd 0 || (s.inFlow && source.at? ',') then
    return { s with source, keyAllowed := false }.push
      (.tag (String.ofList handle) (String.ofList suffix))
  else none

/-- What a directive says, apart from its name: nothing, or a tag handle and its meaning. -/
def directiveBody? (name : List Char) (s : Source) :
    Option (Option (String × String) × Source) :=
  if name = "YAML".toList then do
    let (_, s) := s.span isSpace
    let (major, s) := s.span Char.isDigit
    let (minor, s) := s.skip.span Char.isDigit
    if major = ['1'] ∧ (minor = ['1'] ∨ minor = ['2']) then return (none, s) else none
  else if name = "TAG".toList then do
    let (_, s) := s.span isSpace
    let (handle, s) := s.span fun c => !isSpace c && !isBreak c
    let (blanks, s) := s.span isSpace
    let (meaning, s) := s.span (isTagChar true)
    if handle.head? ≠ some '!' ∨ handle.getLast? ≠ some '!' ∨ blanks.isEmpty ∨ meaning.isEmpty then
      none
    else return (some (String.ofList handle, String.ofList meaning), s)
  else none

def directive (s : Scan) : Option Scan := do
  let s := unroll (-1) (s.indents.length + 1) s
  let s ← s.dropKey
  let (name, source) := s.source.skip.span isNameChar
  let (body, source) ← directiveBody? name source
  let (_, source) := source.span isSpace
  let source := if source.at? '#' then (source.span fun c => !isBreak c).2 else source
  if source.lineEnd then
    return { s with source := source.skip, keyAllowed := false }.push (.directive body)
  else none

/-- The mark of the start or the end of a document. -/
def documentMark (s : Scan) (t : Token) : Option Scan := do
  let s := unroll (-1) (s.indents.length + 1) s
  let s ← s.dropKey
  return { s with source := s.source.skipN 3, keyAllowed := false }.push t

/-! ### Scalars -/

/-- A scalar in quotes. -/
def quoted (s : Scan) (isSingle : Bool) : Option Scan := do
  let s ← s.saveKey
  let (text, source) ← quotedScalar isSingle (s.source.rest.length + 1) [] s.source.skip
  return { s with source, keyAllowed := false }.push (.scalar .quoted (String.ofList text))

def block (s : Scan) (literal : Bool) : Option Scan := do
  let s ← s.dropKey
  let (text, source) ← blockScalar literal s.indent s.source.skip
  return { s with source, keyAllowed := true }.push
    (.scalar (if literal then .literal else .folded) (String.ofList text))

def plain (s : Scan) : Option Scan := do
  let s ← s.saveKey
  let (text, source, lines) ←
    plainScalar s.inFlow (s.indent + 1) (s.source.rest.length + 1) [] {} s.source
  return { s with source, keyAllowed := lines }.push (.scalar .plain (String.ofList text))

def startsPlain (s : Scan) : Bool :=
  let src := s.source
  let indicator := src.test 0 fun c => "-?:,[]\x7b\x7d#&*!|>\x27\x22%@\x60".toList.contains c
  (!src.blankOrEnd 0 && !indicator) ||
    (src.at? '-' && !(src.test 1 isSpace)) ||
    (!s.inFlow && (src.at? '?' || src.at? ':') && !src.blankOrEnd 1)

/-- Adds the next token, of which the first character is `c`. -/
def next (s : Scan) (c : Char) : Option Scan :=
  let src := s.source
  if src.column == 0 && c == '%' then s.directive
  else if src.atDocumentMark then
    s.documentMark (if c == '-' then .documentStart else .documentEnd)
  else if c == '[' then s.openFlow .flowSequenceStart
  else if c == '\x7b' then s.openFlow .flowMappingStart
  else if c == ']' then s.closeFlow .flowSequenceEnd
  else if c == '\x7d' then s.closeFlow .flowMappingEnd
  else if c == ',' then s.flowEntry
  else if c == '-' && src.blankOrEnd 1 then s.blockEntry
  else if c == '?' && (s.inFlow || src.blankOrEnd 1) then s.explicitKey
  else if c == ':' && (s.inFlow || src.blankOrEnd 1) then s.value
  else if c == '*' then s.reference .alias
  else if c == '&' then s.reference .anchor
  else if c == '!' then s.tag
  else if c == '|' && !s.inFlow then s.block true
  else if c == '>' && !s.inFlow then s.block false
  else if c == '\'' then s.quoted true
  else if c == '"' then s.quoted false
  else if s.startsPlain then s.plain
  else none

/-- Scans to the end. Each round adds a token that takes at least one character. -/
def run : Nat → Scan → Option Scan
  | 0, _ => none
  | fuel + 1, s => do
    let s := toToken (s.source.rest.length + 1) s
    let s ← s.dropStale
    let s := unroll s.source.column (s.indents.length + 1) s
    match s.source.peek 0 with
    | none => (unroll (-1) (s.indents.length + 1) s).dropKey
    | some c =>
      let s ← s.next c
      run fuel s

end Scan

/-- The tokens of a text, or `none` if it is not YAML. -/
def Token.scan (text : String) : Option (List Token) := do
  let source ← Source.ofString? text
  let s ← Scan.run (source.rest.length + 2) { source }
  return s.tokens

end ForgeGateway.Yaml
