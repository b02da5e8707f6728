import ForgeGateway.Yaml.Token

/-! # Nodes

`Node.ofText?` reads the one document of a YAML text as a tree. Mappings keep the order and
the repetitions of their keys; aliases are replaced by what they stand for. A text without a
document is the empty node. -/

namespace ForgeGateway.Yaml

/-- A node of a document. -/
inductive Node where
  /-- A text without a document. -/
  | absent
  /-- An alias inside of what it stands for. -/
  | cyclic
  | scalar (style : Style) (tag : Option String) (text : String)
  | sequence (items : List Node)
  | mapping (entries : List (Node × Node))
  deriving Repr

/-- A scalar that is not written at all. -/
def Node.empty : Node := .scalar .plain none ""

/-- What the reading of a document knows: the anchors so far and the meaning of tag handles. -/
structure Scope where
  anchors : List (String × Node) := []
  handles : List (String × String) := []

/-- The tag that a handle and a suffix mean. -/
def Scope.tag? (sc : Scope) (handle suffix : String) : Option String :=
  if handle.isEmpty then some suffix
  else match sc.handles.lookup handle with
    | some p => some (p ++ suffix)
    | none =>
      if handle = "!" then some ("!" ++ suffix)
      else if handle = "!!" then some ("tag:yaml.org,2002:" ++ suffix)
      else none

/-- Reading gives a node, what is known after it, and the tokens that follow. -/
abbrev Reading (α : Type) := Option (α × Scope × List Token)

/-- Anchor and tag in front of a node, in either order. -/
def properties? (sc : Scope) :
    List Token → Option (Option String × Option String × List Token)
  | .anchor a :: .tag h t :: rest => (sc.tag? h t).map fun t => (some a, some t, rest)
  | .tag h t :: .anchor a :: rest => (sc.tag? h t).map fun t => (some a, some t, rest)
  | .anchor a :: rest => some (some a, none, rest)
  | .tag h t :: rest => (sc.tag? h t).map fun t => (none, some t, rest)
  | rest => some (none, none, rest)

/-- Remembers a node under its anchor. -/
def Scope.remember (sc : Scope) (anchor : Option String) (n : Node) : Scope :=
  match anchor with
  | some a => { sc with anchors := (a, n) :: sc.anchors }
  | none => sc

/-- Reads a collection; while that is done its anchor stands for a cycle. -/
def anchored (anchor : Option String) (sc : Scope) (read : Scope → Reading Node) :
    Reading Node :=
  match read (sc.remember anchor .cyclic) with
  | some (n, sc, rest) => some (n, sc.remember anchor n, rest)
  | none => none

mutual

/-- A node. `block` allows blocks, `indentless` a sequence that is not indented. -/
def node? : Nat → Bool → Bool → Scope → List Token → Reading Node
  | 0, _, _, _, _ => none
  | fuel + 1, block, indentless, sc, ts =>
    match ts with
    | .alias a :: rest => (sc.anchors.lookup a).map fun n => (n, sc, rest)
    | _ =>
      match properties? sc ts with
      | none => none
      | some (anchor, tag, ts) =>
        match ts with
        | .scalar style text :: rest =>
          let n := Node.scalar style tag text
          some (n, sc.remember anchor n, rest)
        | .flowSequenceStart :: rest => anchored anchor sc fun sc => flowItems? fuel true [] sc rest
        | .flowMappingStart :: rest => anchored anchor sc fun sc => flowEntries? fuel true [] sc rest
        | .blockSequenceStart :: rest =>
          if block then anchored anchor sc (fun sc => blockItems? fuel [] sc rest) else none
        | .blockMappingStart :: rest =>
          if block then anchored anchor sc (fun sc => blockEntries? fuel [] sc rest) else none
        | .blockEntry :: _ =>
          if indentless then anchored anchor sc (fun sc => bareItems? fuel [] sc ts)
          else if anchor.isSome || tag.isSome then emptyNode anchor tag sc ts
          else none
        | _ => if anchor.isSome || tag.isSome then emptyNode anchor tag sc ts else none

/-- A node of which only the properties are written. -/
def emptyNode (anchor tag : Option String) (sc : Scope) (ts : List Token) : Reading Node :=
  let n := Node.scalar .plain tag ""
  some (n, sc.remember anchor n, ts)

/-- The items of an indented sequence. -/
def blockItems? : Nat → List Node → Scope → List Token → Reading Node
  | 0, _, _, _ => none
  | fuel + 1, items, sc, ts =>
    match ts with
    | .blockEntry :: rest =>
      match rest with
      | .blockEntry :: _ | .blockEnd :: _ => blockItems? fuel (.empty :: items) sc rest
      | _ =>
        match node? fuel true false sc rest with
        | some (n, sc, rest) => blockItems? fuel (n :: items) sc rest
        | none => none
    | .blockEnd :: rest => some (.sequence items.reverse, sc, rest)
    | _ => none

/-- The items of a sequence that is not indented. -/
def bareItems? : Nat → List Node → Scope → List Token → Reading Node
  | 0, _, _, _ => none
  | fuel + 1, items, sc, ts =>
    match ts with
    | .blockEntry :: rest =>
      match rest with
      | .blockEntry :: _ | .key :: _ | .value :: _ | .blockEnd :: _ =>
        bareItems? fuel (.empty :: items) sc rest
      | _ =>
        match node? fuel true false sc rest with
        | some (n, sc, rest) => bareItems? fuel (n :: items) sc rest
        | none => none
    | _ => some (.sequence items.reverse, sc, ts)

/-- The key or the value behind its token in an indented mapping. -/
def blockPart? : Nat → Scope → List Token → Reading Node
  | 0, _, _ => none
  | fuel + 1, sc, ts =>
    match ts with
    | .key :: _ | .value :: _ | .blockEnd :: _ => some (.empty, sc, ts)
    | _ => node? fuel true true sc ts

/-- The entries of an indented mapping. -/
def blockEntries? : Nat → List (Node × Node) → Scope → List Token → Reading Node
  | 0, _, _, _ => none
  | fuel + 1, entries, sc, ts =>
    match ts with
    | .key :: rest =>
      match blockPart? fuel sc rest with
      | none => none
      | some (k, sc, .value :: rest) =>
        match blockPart? fuel sc rest with
        | none => none
        | some (v, sc, rest) => blockEntries? fuel ((k, v) :: entries) sc rest
      | some (k, sc, rest) => blockEntries? fuel ((k, .empty) :: entries) sc rest
    | .blockEnd :: rest => some (.mapping entries.reverse, sc, rest)
    | _ => none

/-- The rest of a flow sequence. -/
def flowItems? : Nat → Bool → List Node → Scope → List Token → Reading Node
  | 0, _, _, _, _ => none
  | fuel + 1, first, items, sc, ts =>
    match ts with
    | .flowSequenceEnd :: rest => some (.sequence items.reverse, sc, rest)
    | _ =>
      match afterComma? first ts with
      | none => none
      | some (.flowSequenceEnd :: rest) => some (.sequence items.reverse, sc, rest)
      | some (.key :: rest) =>
        match flowPair? fuel sc rest with
        | none => none
        | some (n, sc, rest) => flowItems? fuel false (n :: items) sc rest
      | some ts =>
        match node? fuel false false sc ts with
        | none => none
        | some (n, sc, rest) => flowItems? fuel false (n :: items) sc rest

/-- What follows the comma before an item; the first item has none. -/
def afterComma? (first : Bool) (ts : List Token) : Option (List Token) :=
  if first then some ts
  else match ts with
    | .flowEntry :: rest => some rest
    | _ => none

/-- A mapping of one entry inside a flow sequence. -/
def flowPair? : Nat → Scope → List Token → Reading Node
  | 0, _, _ => none
  | fuel + 1, sc, ts =>
    match flowPart? fuel sc ts with
    | none => none
    | some (k, sc, .value :: rest) =>
      match flowPart? fuel sc rest with
      | none => none
      | some (v, sc, rest) => some (.mapping [(k, v)], sc, rest)
    | some (k, sc, rest) => some (.mapping [(k, .empty)], sc, rest)

/-- A key or a value inside brackets, which may be left out. -/
def flowPart? : Nat → Scope → List Token → Reading Node
  | 0, _, _ => none
  | fuel + 1, sc, ts =>
    match ts with
    | .value :: _ | .flowEntry :: _ | .flowSequenceEnd :: _ | .flowMappingEnd :: _ =>
      some (.empty, sc, ts)
    | _ => node? fuel false false sc ts

/-- The rest of a flow mapping. -/
def flowEntries? : Nat → Bool → List (Node × Node) → Scope → List Token → Reading Node
  | 0, _, _, _, _ => none
  | fuel + 1, first, entries, sc, ts =>
    match ts with
    | .flowMappingEnd :: rest => some (.mapping entries.reverse, sc, rest)
    | _ =>
      match afterComma? first ts with
      | none => none
      | some (.flowMappingEnd :: rest) => some (.mapping entries.reverse, sc, rest)
      | some (.key :: rest) =>
        match flowPart? fuel sc rest with
        | none => none
        | some (k, sc, .value :: rest) =>
          match flowPart? fuel sc rest with
          | none => none
          | some (v, sc, rest) => flowEntries? fuel false ((k, v) :: entries) sc rest
        | some (k, sc, rest) => flowEntries? fuel false ((k, .empty) :: entries) sc rest
      | some ts =>
        match node? fuel false false sc ts with
        | none => none
        | some (k, sc, rest) => flowEntries? fuel false ((k, .empty) :: entries) sc rest

end

/-! ### Documents -/

/-- Directives in front of a document. -/
def directives? (sc : Scope) (version : Bool) : List Token → Option (Scope × Bool × List Token)
  | .directive none :: rest => if version then none else directives? sc true rest
  | .directive (some (h, p)) :: rest =>
    if (sc.handles.lookup h).isSome then none
    else directives? { sc with handles := (h, p) :: sc.handles } version rest
  | rest => some (sc, version, rest)

/-- The content of a document, which may be left out. -/
def content? (sc : Scope) (ts : List Token) : Option (Node × List Token) :=
  match ts with
  | [] => some (.empty, [])
  | .directive _ :: _ | .documentStart :: _ | .documentEnd :: _ => some (.empty, ts)
  | _ => (node? (2 * ts.length + 4) true false sc ts).map fun (n, _, rest) => (n, rest)

def document? (ts : List Token) : Option Node := do
  let (n, rest) ← match ts with
    | [] => some (Node.absent, [])
    | .documentStart :: rest => content? {} rest
    | .documentEnd :: _ => none
    | .directive _ :: _ => do
      let (sc, _, rest) ← directives? {} false ts
      match rest with
      | .documentStart :: rest => content? sc rest
      | _ => none
    | _ => content? {} ts
  match rest.dropWhile (· == .documentEnd) with
  | [] => return n
  | _ => none

def Node.ofText? (text : String) : Option Node := do
  let tokens ← Token.scan text
  document? tokens

end ForgeGateway.Yaml
