import ForgeGateway.HostKey
import ForgeGateway.Http.Exchange

/-! # Health

The gateway is healthy if it has users, a key of its own that lasts, and a gate that answers.
Without a gate nothing is let through, which is fatal; without users or a lasting key the
gateway can still run. -/

namespace ForgeGateway.Admin

/-- The result of one check. -/
structure Check where
  ok : Bool
  detail : String
  deriving DecidableEq, Repr

/-- There must be users. -/
def Check.ofUserCount (n : Nat) : Check :=
  if n = 0 then ⟨false, "identity store has no users; every login will be refused"⟩
  else ⟨true, Text.decimal n ++ " users loaded"⟩

/-- The gate must answer, whatever it says. -/
def Check.ofGate (url : String) : Except Http.SendError Http.Reply → Check
  | .ok reply => ⟨true, "HEAD " ++ url ++ " returned " ++ reply.status.text⟩
  | .error e => ⟨false, "HEAD " ++ url ++ " failed: " ++ e.message⟩

def Check.report (c : Check) : Json.Value := .record [("ok", .bool c.ok), ("detail", .text c.detail)]

/-- How the gateway is. -/
inductive Condition where
  | healthy
  | degraded
  | unhealthy
  deriving DecidableEq, Repr

def Condition.word : Condition → String
  | .healthy => "ok"
  | .degraded => "degraded"
  | .unhealthy => "unhealthy"

def Condition.status : Condition → Http.Status
  | .healthy | .degraded => 200
  | .unhealthy => 503

/-- All that is looked at. -/
structure Health where
  hostKey : HostKeySource
  users : Check
  gate : Check
  deriving DecidableEq, Repr

namespace Health

/-- The worst of what was found. -/
def condition (h : Health) : Condition :=
  if !h.gate.ok then .unhealthy
  else if !h.users.ok || h.hostKey = .ephemeral then .degraded
  else .healthy

def report (h : Health) : Json.Value :=
  .record [
    ("status", .text h.condition.word),
    ("host_key", h.hostKey.report),
    ("checks", .record [
      ("identity_store", h.users.report),
      ("approval_gate", h.gate.report)])]

end Health

end ForgeGateway.Admin
