import ForgeGateway.Relay.Request
import ForgeGateway.Text.Quoted

/-! # The forge's channel

What a command's channel yields, message by message, becomes the events that a command reads:
messages of no interest are passed over, a refusal and a death by a signal are failures, and so
is an end without an exit status. -/

namespace ForgeGateway.Forge

open ForgeGateway.Relay (Failure ForgeEvent ForgeRead)

inductive Message where
  | data (b : Bytes)
  | extended (kind : Nat) (b : Bytes)
  | exit (status : Nat)
  | signal (name : String)
  /-- The command was not started. -/
  | failure
  | eof
  | close
  /-- Any other message, such as the assent to a request. -/
  | other
  deriving DecidableEq, Repr

/-- The signals that have names of their own. -/
def knownSignals : List String :=
  ["ABRT", "ALRM", "FPE", "HUP", "INT", "KILL", "ILL", "PIPE", "QUIT", "SEGV", "TERM", "USR1"]

/-- The name of a signal as it is shown. -/
def signalText (name : String) : String :=
  if knownSignals.contains name then name else "Custom(" ++ Text.quoted name ++ ")"

/-- What a message means to the reader of the channel; nothing if it is passed over. -/
def Message.read? : Message → Option ForgeRead
  | .data b => some (.ok (some (.data b)))
  | .extended 1 b => some (.ok (some (.stderr b)))
  | .extended _ _ | .other => none
  | .exit status => some (.ok (some (.exit status)))
  | .signal name =>
    some (.error (.forge ("upstream command terminated by signal " ++ signalText name)))
  | .failure => some (.error (.forge "upstream refused the exec request"))
  | .eof => some (.ok (some .eof))
  | .close => some (.ok none)

/-- The channel as its reader knows it. -/
structure Stream where
  /-- An exit status has come. -/
  exitSeen : Bool := false
  deriving DecidableEq, Repr

namespace Stream

/-- The end of the channel, which has to come after an exit status. -/
def atEnd (s : Stream) : ForgeRead :=
  if s.exitSeen then .ok none
  else .error (.forge "unexpected disconnect before exit status")

/-- Takes in a message, or the end of the channel. -/
def take (s : Stream) : Option Message → Option ForgeRead × Stream
  | none => (some s.atEnd, s)
  | some m => (m.read?, match m with
      | .exit _ => ⟨true⟩
      | _ => s)

/-- Reads the next event, given all messages that the channel will still yield. -/
def read (s : Stream) : List Message → ForgeRead × Stream × List Message
  | [] => (s.atEnd, s, [])
  | m :: rest =>
    match s.take (some m) with
    | (some r, s) => (r, s, rest)
    | (none, s) => s.read rest

end Stream

def sendFailure (cause : String) : Failure := .forge ("write to upstream failed: " ++ cause)

def eofFailure (cause : String) : Failure := .forge ("unexpected disconnect: " ++ cause)

end ForgeGateway.Forge
