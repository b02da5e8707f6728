import ForgeGateway.Text.Number
import ForgeGateway.Yaml.Node

/-! # Nodes of a wanted shape

A node is read as a text, a number, a list or a record, or it is refused. Any scalar is a
text. A number has to be a plain scalar, or a literal block tagged as an integer. Where
nothing is written, a list or a record is empty. A record knows the names of its fields:
other keys are ignored, a known one must not come twice. -/

namespace ForgeGateway.Yaml

/-- The tag of a value of the core schema. -/
def coreTag (name : String) : String := "tag:yaml.org,2002:" ++ name

/-- The plain spellings of nothing. -/
def isNullText (s : String) : Bool := s == "null" || s == "Null" || s == "NULL" || s == "~"

/-- A sign, which would be a second one. -/
def startsSigned (cs : List Char) : Bool := cs.head? == some '+' || cs.head? == some '-'

/-- Decimal digits with a needless zero in front. -/
def hasLeadingZero (cs : List Char) : Bool :=
  1 < cs.length && cs.head? == some '0' && cs.all Text.isDigit

/-- A number without sign or with a plus sign, to base ten or behind `0x`, `0o` or `0b`. -/
def natural? (s : String) : Option Nat :=
  let cs := (Text.after? "+" s.toList).getD s.toList
  let based := fun (lead : String) (base : Nat) => (Text.after? lead cs).bind (Text.radix? base)
  if startsSigned cs || hasLeadingZero cs then none
  else based "0x" 16 <|> based "0o" 8 <|> based "0b" 2 <|> Text.radix? 10 cs

namespace Node

/-- Nothing is written here. -/
def isBlank : Node → Bool
  | .absent => true
  | .scalar .plain _ text => text.isEmpty
  | _ => false

/-- A text. -/
def text? : Node → Option String
  | .scalar _ _ text => some text
  | _ => none

/-- A number below a bound. -/
def natural? (bound : Nat) : Node → Option Nat
  | .scalar style tag text =>
    if style = .plain || (style = .literal && tag == some (coreTag "int")) then
      (Yaml.natural? text).filter (· < bound)
    else none
  | _ => none

/-- A list whose items are read by `read`. -/
def list? {α : Type} (read : Node → Option α) (n : Node) : Option (List α) :=
  match n with
  | .sequence items => items.mapM read
  | _ => if n.isBlank then some [] else none

/-- The entries of a mapping whose keys are texts. -/
def entries? (n : Node) : Option (List (String × Node)) :=
  match n with
  | .mapping entries => entries.mapM fun (k, v) => k.text?.map (·, v)
  | _ => if n.isBlank then some [] else none

/-- A value that may be nothing, which is also written `null` or `~`. -/
def optional? {α : Type} (read : Node → Option α) (n : Node) : Option (Option α) :=
  match n with
  | .absent => some none
  | .scalar .plain tag text =>
    if tag == some (coreTag "null") then if isNullText text then some none else none
    else if tag.isNone && (text.isEmpty || isNullText text) then some none
    else (read n).map some
  | _ => (read n).map some

end Node

/-! ### Records -/

/-- The fields of a record that are given. -/
structure Record where
  fields : List (String × Node)

namespace Record

/-- The fields with these names, none of them twice. -/
def ofNode? (names : List String) (n : Node) : Option Record := do
  let entries ← n.entries?
  let fields := entries.filter fun e => names.contains e.1
  if (fields.map (·.1)).Nodup then some ⟨fields⟩ else none

/-- A field that must be given. -/
def get? {α : Type} (r : Record) (name : String) (read : Node → Option α) : Option α :=
  (r.fields.lookup name).bind read

/-- A field that has a value where it is not given. -/
def getD? {α : Type} (r : Record) (name : String) (read : Node → Option α) (default : α) :
    Option α :=
  match r.fields.lookup name with
  | some n => read n
  | none => some default

end Record

end ForgeGateway.Yaml
