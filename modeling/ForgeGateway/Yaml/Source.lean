import ForgeGateway.Bytes.Hex

/-! # The characters of a YAML text

A `Source` is the unread rest of a text together with the place where it starts. Line ends are
made uniform first: a carriage return, alone or before a line feed, and U+0085 all become line
feeds, while U+2028 and U+2029 stay as they are. -/

namespace ForgeGateway.Yaml

/-- A character that a text may hold. -/
def isAllowed (c : Char) : Bool :=
  let n := c.toNat
  n == 9 || n == 10 || n == 13 || (32 ≤ n && n ≤ 126) || n == 0x85 ||
    (0xA0 ≤ n && n ≤ 0xD7FF) || (0xE000 ≤ n && n ≤ 0xFFFD && n != 0xFEFF) || 0x10000 ≤ n

/-- Line feeds for all ends of lines but U+2028 and U+2029. -/
def uniformBreaks : List Char → List Char
  | '\r' :: '\n' :: rest => '\n' :: uniformBreaks rest
  | '\r' :: rest => '\n' :: uniformBreaks rest
  | c :: rest => (if c.toNat = 0x85 then '\n' else c) :: uniformBreaks rest
  | [] => []

/-- The unread rest of a text. -/
structure Source where
  rest : List Char
  line : Nat := 0
  column : Nat := 0
  index : Nat := 0

def isBreak (c : Char) : Bool := c == '\n' || c.toNat == 0x2028 || c.toNat == 0x2029

def isSpace (c : Char) : Bool := c == ' ' || c == '\t'

namespace Source

/-- A whole text, if it holds only characters that it may. A byte order mark is left out. -/
def ofString? (s : String) : Option Source :=
  let cs := match s.toList with
    | c :: rest => if c.toNat = 0xFEFF then rest else c :: rest
    | [] => []
  if cs.all isAllowed then some { rest := uniformBreaks cs } else none

def peek (s : Source) (i : Nat) : Option Char := s.rest[i]?

/-- The next character is `c`. -/
def at? (s : Source) (c : Char) : Bool := s.peek 0 == some c

def skip (s : Source) : Source :=
  match s.rest with
  | [] => s
  | c :: rest =>
    if isBreak c then ⟨rest, s.line + 1, 0, s.index + 1⟩
    else ⟨rest, s.line, s.column + 1, s.index + 1⟩

def skipN (s : Source) : Nat → Source
  | 0 => s
  | n + 1 => s.skip.skipN n

/-- A test of the character `i` places ahead; the end of the text fails it. -/
def test (s : Source) (i : Nat) (p : Char → Bool) : Bool := ((s.peek i).map p).getD false

/-- A blank, the end of a line, or the end of the text. -/
def blankOrEnd (s : Source) (i : Nat) : Bool :=
  ((s.peek i).map fun c => isSpace c || isBreak c).getD true

/-- The end of a line or of the text. -/
def lineEnd (s : Source) : Bool := ((s.peek 0).map isBreak).getD true

/-- A mark of the start or the end of a document stands here. -/
def atDocumentMark (s : Source) : Bool :=
  s.column == 0 &&
    (s.rest.take 3 == ['-', '-', '-'] || s.rest.take 3 == ['.', '.', '.']) && s.blankOrEnd 3

/-- Goes past the characters that pass a test, and gives them. -/
def span (s : Source) (p : Char → Bool) : List Char × Source :=
  let taken := s.rest.takeWhile p
  (taken, s.skipN taken.length)

end Source

/-! ### Folding -/

/-- What separates two words of a scalar: blanks, or line ends with what is left of them. -/
structure Gap where
  spaces : List Char := []
  breaks : List Char := []
  /-- The first line end was escaped. -/
  escaped : Bool := false

/-- The text that a gap stands for: a single line end becomes a space, further ones stay. -/
def Gap.text (g : Gap) : List Char :=
  if g.escaped then g.breaks
  else match g.breaks with
    | [] => g.spaces
    | ['\n'] => [' ']
    | '\n' :: more => more
    | breaks => breaks

/-- Reads blanks and line ends. `indent`, if given, is the column before which a line must not
be indented by tabs. -/
def Gap.read (indent : Option Int) : Nat → Gap → Source → Option (Gap × Source)
  | 0, g, s => some (g, s)
  | fuel + 1, g, s =>
    match s.peek 0 with
    | none => some (g, s)
    | some c =>
      let inLines := g.escaped || !g.breaks.isEmpty
      if isSpace c then
        if inLines && c == '\t' &&
            ((indent.map fun i => decide ((s.column : Int) < i)).getD false) then none
        else if inLines then Gap.read indent fuel g s.skip
        else Gap.read indent fuel { g with spaces := g.spaces ++ [c] } s.skip
      else if isBreak c then
        Gap.read indent fuel { g with spaces := [], breaks := g.breaks ++ [c] } s.skip
      else some (g, s)

end ForgeGateway.Yaml
