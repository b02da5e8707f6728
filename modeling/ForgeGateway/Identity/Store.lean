import ForgeGateway.Identity.KeyLine
import ForgeGateway.Identity.User

/-! # Who owns which key

`Store.ofEntries` goes through the users in order and refuses a bad line and a key that
already has an owner; `Store.find?` gives the owner of a key by its wire text. -/

namespace ForgeGateway.Identity

/-- A user and the lines of the keys that belong to it. -/
structure Entry where
  user : User
  keyLines : List String
  deriving DecidableEq, Repr

/-- Why a list of users is refused. -/
inductive StoreFault where
  | badKey (username : String) (fault : KeyLineFault)
  | shared (username owner : String)
  deriving DecidableEq, Repr

/-- The wording of a fault without its cause. -/
def StoreFault.headline : StoreFault → String
  | .badKey username _ => "user " ++ username ++ ": bad public key"
  | .shared username owner =>
    "public key of user " ++ username ++ " is also assigned to " ++ owner

def StoreFault.message : StoreFault → String
  | e@(.badKey _ fault) => e.headline ++ ": " ++ fault.message
  | e => e.headline

/-- The owners of the known keys. -/
structure Store where
  /-- Wire text and owner, latest first. -/
  owners : List (String × User) := []
  /-- How many users were listed. -/
  userCount : Nat := 0
  deriving DecidableEq, Repr

namespace Store

/-- The owner of the key with this wire text. -/
def find? (s : Store) (wire : String) : Option User := s.owners.lookup wire

/-- Gives the key on a line to a user, if it can be read and is nobody's yet. -/
def assign (s : Store) (user : User) (line : String) : Except StoreFault Store :=
  match parseKeyLine line with
  | .error fault => .error (.badKey user.username fault)
  | .ok wire =>
    match s.find? wire with
    | some owner => .error (.shared user.username owner.username)
    | none => .ok { s with owners := (wire, user) :: s.owners }

/-- Gives a user all of its keys. -/
def enrol (s : Store) (e : Entry) : Except StoreFault Store :=
  e.keyLines.foldlM (fun s line => s.assign e.user line) { s with userCount := s.userCount + 1 }

def ofEntries (entries : List Entry) : Except StoreFault Store := entries.foldlM enrol {}

end Store

end ForgeGateway.Identity
