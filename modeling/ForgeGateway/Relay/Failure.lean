import ForgeGateway.Agent.Error
import ForgeGateway.Git.ExecLine
import ForgeGateway.Git.Packet

/-! # Why a command ends early

A `Failure` ends one command. Its `message` is what the client is told, on a line of its own;
the exit status is 1. Some failures are reported by others (the gate, the forge) in words of
their own; the causes found by the gateway itself are the named values below. -/

namespace ForgeGateway.Relay

/-- A failure, by who is to blame. -/
inductive Failure where
  | command (text : String)
  | framing (text : String)
  | limit (text : String)
  | timeout (text : String)
  | denied (reason : String)
  | gateUnavailable (text : String)
  | forge (text : String)
  | integrity (text : String)
  | clientGone
  deriving DecidableEq, Repr

namespace Failure

def message : Failure → String
  | .command text => text
  | .framing text => "protocol error: " ++ text
  | .limit text => text
  | .timeout text => text
  | .denied reason => "Access denied: " ++ reason
  | .gateUnavailable text => "approval service unavailable: " ++ text
  | .forge text => "upstream error: " ++ text
  | .integrity text => "data integrity error: " ++ text
  | .clientGone => "client disconnected"

/-- The line that the client is shown. -/
def line (f : Failure) : String := f.message ++ "\n"

def exitStatus (_ : Failure) : Nat := 1

/-! ### Causes -/

def ofExec (e : Git.ExecError) : Failure := .command e.message

def ofFraming (e : Git.Packet.FramingError) : Failure := .framing e.message

def ofAgent (e : Agent.AgentError) : Failure := .forge ("forwarded agent: " ++ e.message)

def tooManyChunks (maxChunks : Nat) : Failure :=
  .limit ("push rejected: more than " ++ toString maxChunks ++ " chunks received")

def packTooLarge (maxBytes : Nat) : Failure :=
  .limit ("push rejected: pack exceeds maximum size of " ++ toString maxBytes ++ " bytes")

def packLate (seconds : Nat) : Failure :=
  .timeout ("push rejected: pack not received within " ++ toString seconds ++ "s")

def connectLate (host : String) (seconds : Nat) : Failure :=
  .timeout ("timed out connecting to " ++ host ++ " after " ++ toString seconds ++ "s")

/-- The forge did not show its advertisement in time. -/
def advertisementLate (seconds : Nat) : Failure :=
  .timeout ("timed out after " ++ toString seconds ++ "s waiting for upstream capabilities")

def noAdvertisement : Failure := .forge "upstream closed before advertising capabilities"

/-- What was captured does not have the length that was counted. -/
def miscounted (captured counted : Nat) : Failure :=
  .integrity ("captured " ++ toString captured ++ " bytes but tracked " ++ toString counted)

end Failure

end ForgeGateway.Relay
