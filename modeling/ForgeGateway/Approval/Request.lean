import ForgeGateway.Bytes.Base64
import ForgeGateway.Identity.User
import ForgeGateway.Json.Value

/-! # What the gate is asked

A request is for one command: a pull, or a push with its pack. The gate is told of it by a
`Description`, which is made by `Description.pull` or `Description.push`. `Request.toJson` is the
text that the gate is sent. -/

namespace ForgeGateway.Approval

/-- A command that is to be allowed. A pull has no pack. -/
structure Request where
  repository : String
  user : User
  pack : Option Bytes
  deriving DecidableEq, Repr

/-- How the gate is told a pull from a push. -/
inductive Method where
  | get
  | post
  deriving DecidableEq, Repr

def Method.name : Method → String
  | .get => "GET"
  | .post => "POST"

/-- The protocol of the client's connection. -/
def Request.protocol : String := "ssh"

/-- What the gate is told about a command. -/
structure Description where
  method : Method
  repository : String
  protocol : String
  user : User
  pack : Option Bytes
  deriving DecidableEq, Repr

namespace Description

def pull (repository : String) (user : User) : Description :=
  ⟨.get, repository, Request.protocol, user, none⟩

def push (repository : String) (user : User) (pack : Bytes) : Description :=
  ⟨.post, repository, Request.protocol, user, some pack⟩

def userJson (u : User) : Json.Value :=
  .record [("username", .text u.username), ("email", .text u.email), ("account", .text u.account)]

def packJson : Option Bytes → Json.Value
  | none => .null
  | some pack => .text (Base64.encode pack)

def toValue (d : Description) : Json.Value :=
  .record [
    ("method", .text d.method.name),
    ("repository", .text d.repository),
    ("protocol", .text d.protocol),
    ("identity", userJson d.user),
    ("pack", packJson d.pack)]

end Description

namespace Request

def description (r : Request) : Description :=
  match r.pack with
  | none => .pull r.repository r.user
  | some pack => .push r.repository r.user pack

/-- `GET` for a pull and `POST` for a push. -/
def method (r : Request) : String := r.description.method.name

def toValue (r : Request) : Json.Value := r.description.toValue

/-- The text that the gate is sent. -/
def toJson (r : Request) : Bytes := r.toValue.render

end Request

end ForgeGateway.Approval
