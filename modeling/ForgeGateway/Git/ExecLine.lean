import ForgeGateway.Text.Blank
import ForgeGateway.Text.Quoted
import ForgeGateway.Text.Split

/-! # Exec lines

What a Git client asks to run over SSH: one of two services on a repository that is named
`host/path.git`. `ExecLine.parse` reads such a line or says why it is refused;
`ExecLine.commandLine` is the command for the forge, and `Target.repository` the name under
which the gate is asked. The repository name goes through a strict allow-list, so that the
command line needs no further quoting. -/

namespace ForgeGateway.Git

open ForgeGateway.Text

/-- The two services of a Git server. -/
inductive Service where
  /-- Fetch and clone. -/
  | uploadPack
  /-- Push. -/
  | receivePack
  deriving DecidableEq, Repr

def Service.name : Service → String
  | .uploadPack => "git-upload-pack"
  | .receivePack => "git-receive-pack"

def Service.ofName? (name : String) : Option Service :=
  if name = "git-upload-pack" then some .uploadPack
  else if name = "git-receive-pack" then some .receivePack
  else none

@[simp] theorem Service.ofName?_name (s : Service) : Service.ofName? s.name = some s := by
  cases s <;> decide

/-- A repository on a forge. -/
structure Target where
  /-- Host name in lower case. -/
  host : String
  /-- Path on the host, without a slash in front. -/
  path : String
  deriving DecidableEq, Repr

/-- The repository as the gate is told about it. -/
def Target.repository (t : Target) : String := t.host ++ "/" ++ t.path

/-- An accepted exec line. -/
structure ExecLine where
  service : Service
  target : Target
  deriving DecidableEq, Repr

/-- The command that is run on the forge. -/
def ExecLine.commandLine (e : ExecLine) : String :=
  e.service.name ++ " '" ++ e.target.path ++ "'"

/-- What is wrong with a repository argument. -/
inductive PathFault where
  | unbalancedQuote
  | missing
  | disallowedCharacter
  | traversal
  | emptySegment
  | suffix
  | noHost
  | badHost
  | leadingHyphen
  | missingName
  deriving DecidableEq, Repr

def PathFault.message : PathFault → String
  | .unbalancedQuote => "unbalanced quote"
  | .missing => "missing repository path"
  | .disallowedCharacter => "contains disallowed characters"
  | .traversal => "contains a traversal sequence"
  | .emptySegment => "contains an empty path segment"
  | .suffix => "must end in .git"
  | .noHost => "expected host/path.git"
  | .badHost => "host segment is not a domain name"
  | .leadingHyphen => "path segment starts with '-'"
  | .missingName => "missing repository name"

/-- Why an exec line is refused. The texts are shortened for display. -/
inductive ExecError where
  | unsupported (name : String)
  | invalidPath (path : String) (fault : PathFault)
  deriving DecidableEq, Repr

def ExecError.message : ExecError → String
  | .unsupported name => "unsupported command: " ++ name
  | .invalidPath path fault =>
    "invalid repository path " ++ quoted path ++ ": " ++ fault.message

/-! ### Host names -/

/-- One label of a host name: 1 to 63 letters, digits and inner hyphens. -/
def isLabel (cs : List Char) : Bool :=
  !cs.isEmpty && cs.length ≤ 63 && cs.head? != some '-' && cs.getLast? != some '-' &&
    cs.all fun c => isLetter c || isDigit c || c == '-'

/-- A top-level label: at least two letters and nothing else. -/
def isTopLabel (cs : List Char) : Bool := 2 ≤ cs.length && cs.all isLetter

/-- A host name: at most 253 characters, at least two labels, the last one a top-level label. -/
def isDomainName (cs : List Char) : Bool :=
  let labels := split '.' cs
  cs.length ≤ 253 && 2 ≤ labels.length && labels.all isLabel &&
    (labels.getLast?.map isTopLabel).getD false

/-! ### Repository arguments -/

/-- A character that a repository argument may hold. -/
def isPathChar (c : Char) : Bool :=
  isLetter c || isDigit c || c == '.' || c == '_' || c == '/' || c == '-'

/-- The argument without one pair of single quotes. A quote in front needs one at the end. -/
def unquote (arg : List Char) : Except PathFault (List Char) :=
  match arg with
  | '\'' :: inner =>
    if inner.getLast? = some '\'' then .ok inner.dropLast else .error .unbalancedQuote
  | _ => .ok arg

/-- The text without one slash in front. -/
def dropSlash : List Char → List Char
  | '/' :: rest => rest
  | cs => cs

/-- Reads `host/path.git` without quotes and leading slash. -/
def Target.ofPath (path : List Char) : Except PathFault Target :=
  if path.isEmpty then .error .missing
  else if !path.all isPathChar then .error .disallowedCharacter
  else if occursIn ['.', '.'] path then .error .traversal
  else if (split '/' path).any List.isEmpty then .error .emptySegment
  else if !(['.', 'g', 'i', 't'].isSuffixOf path) then .error .suffix
  else match split '/' path with
    | host :: segments@(_ :: _) =>
      if !isDomainName host then .error .badHost
      else if segments.any (fun s => s.head? == some '-') then .error .leadingHyphen
      else if segments.getLast? == some ['.', 'g', 'i', 't'] then .error .missingName
      else .ok ⟨lowered (String.ofList host), String.ofList (join '/' segments)⟩
    | _ => .error .noHost

/-- Reads the repository argument of an exec line. -/
def Target.parse (arg : List Char) : Except PathFault Target :=
  match unquote arg with
  | .error fault => .error fault
  | .ok inner => Target.ofPath (dropSlash inner)

def ExecLine.parse (raw : String) : Except ExecError ExecLine :=
  let parts := cut (trim raw.toList)
  let arg := trim (parts.2.getD [])
  match Service.ofName? (String.ofList parts.1) with
  | none => .error (.unsupported (shortened parts.1))
  | some service =>
    match Target.parse arg with
    | .error fault => .error (.invalidPath (shortened arg) fault)
    | .ok target => .ok ⟨service, target⟩

end ForgeGateway.Git
