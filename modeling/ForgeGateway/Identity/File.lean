import ForgeGateway.Identity.Store
import ForgeGateway.Yaml.Shape

/-! # Files that list users

`Store.ofText` reads a list of users from a YAML text and makes a store of it; `Store.load`
does so with a file. -/

namespace ForgeGateway.Identity

open ForgeGateway.Yaml

/-- The user that a node describes, with its keys. -/
def Entry.ofNode? (n : Node) : Option Entry := do
  let r ← Record.ofNode? ["username", "email", "account", "public_keys"] n
  return {
    user := {
      username := ← r.get? "username" Node.text?
      email := ← r.get? "email" Node.text?
      account := ← r.get? "account" Node.text? }
    keyLines := ← r.getD? "public_keys" (Node.list? Node.text?) [] }

/-- The users that a text lists. -/
def entriesOfText? (text : String) : Option (List Entry) := do
  let r ← Record.ofNode? ["users"] (← Node.ofText? text)
  r.getD? "users" (Node.list? Entry.ofNode?) []

/-- Why a text gives no store. -/
inductive TextFault where
  | misshapen
  | refused (fault : StoreFault)
  deriving DecidableEq, Repr

/-- The store of the users that a text lists. -/
def Store.ofText (text : String) : Except TextFault Store :=
  match entriesOfText? text with
  | none => .error .misshapen
  | some entries =>
    match Store.ofEntries entries with
    | .error fault => .error (.refused fault)
    | .ok s => .ok s

/-- Why a file gives no store. -/
inductive FileFault where
  | unreadable (path : String)
  | invalid (path : String) (fault : TextFault)
  deriving DecidableEq, Repr

/-- The wording of a fault without its cause. -/
def FileFault.headline : FileFault → String
  | .unreadable path => "failed to read identity store: " ++ path
  | .invalid path _ => "invalid identity store: " ++ path

/-- The store of the file at a path, given what it holds if it can be read. -/
def Store.load (path : String) (contents : Option String) : Except FileFault Store :=
  match contents with
  | none => .error (.unreadable path)
  | some text =>
    match Store.ofText text with
    | .error fault => .error (.invalid path fault)
    | .ok s => .ok s

end ForgeGateway.Identity
