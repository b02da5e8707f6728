import ForgeGateway.Json.Value
import ForgeGateway.Relay.Failure

/-! # The gate's verdict

The gate answers with a JSON text that may give an `error` and a `blocked` reason. A command
may go on only if it gives neither. `Verdict.parse?` reads such a text: an object, in which
other members are ignored, or an array with at most these two items. -/

namespace ForgeGateway.Approval

/-- What the gate says about a command. -/
structure Verdict where
  error : Option String := none
  blocked : Option String := none
  deriving DecidableEq, Repr

namespace Verdict

/-- The reason of a refusal; `blocked` counts before `error`. -/
def denial (v : Verdict) : Option String := v.blocked.or v.error

/-- The command may go on. -/
def isAllow (v : Verdict) : Bool := v.denial.isNone

/-- What the verdict means for the command. -/
def outcome (v : Verdict) : Except Relay.Failure Unit :=
  match v.blocked.or v.error with
  | some reason => .error (.denied reason)
  | none => .ok ()

/-- A command is refused for the reason of the refusal. -/
theorem outcome_eq (v : Verdict) : v.outcome =
    match v.denial with
    | some reason => .error (.denied reason)
    | none => .ok () := rfl

/-! ### Reading -/

/-- A string, or nothing for null. -/
def reason? : Json.Value → Option (Option String)
  | .null => some none
  | .string l => (Json.Literal.decode? l).map some
  | _ => none

/-- Reads the members one by one. The reasons read so far are `none` until their member has
come; a second member of the same name is refused. -/
def ofMembers? (error blocked : Option (Option String)) :
    List (Json.Literal × Json.Value) → Option Verdict
  | [] => some ⟨error.join, blocked.join⟩
  | (key, v) :: rest => do
    let name ← Json.Literal.decode? key
    if name = "error" then
      if error.isSome then none
      else
        let r ← reason? v
        ofMembers? (some r) blocked rest
    else if name = "blocked" then
      if blocked.isSome then none
      else
        let r ← reason? v
        ofMembers? error (some r) rest
    else ofMembers? error blocked rest

def ofJson? : Json.Value → Option Verdict
  | .object members => ofMembers? none none members
  | .array [] => some {}
  | .array [e] => (reason? e).map fun e => ⟨e, none⟩
  | .array [e, b] => do
    let e ← reason? e
    let b ← reason? b
    return ⟨e, b⟩
  | _ => none

def parse? (text : Bytes) : Option Verdict := (Json.Value.parse? text).bind ofJson?

end Verdict

end ForgeGateway.Approval
