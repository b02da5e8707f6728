import ForgeGateway.Agent.Message

/-! # Cutting a stream into messages

`splitFrame` takes one complete message off the front of what has been received so far. A
length of zero, or above `maxMessageLength`, is an error as soon as its four octets are
there; until the message is complete nothing is taken. -/

namespace ForgeGateway.Agent

/-- The first message of `buffer` and what is behind it, if it is all there. -/
def splitFrame (buffer : Bytes) : Except MessageFault (Option (Bytes × Bytes)) :=
  match Bytes.word32? buffer with
  | none => .ok none
  | some (n, rest) =>
    if n = 0 then .error .zeroLength
    else if maxMessageLength < n then .error (.overlong n)
    else if rest.length < n then .ok none
    else .ok (some (rest.take n, rest.drop n))

/-- A receive buffer: what has come and has not been taken yet. -/
structure Inbox where
  pending : Bytes := []
  deriving DecidableEq, Repr

/-- Adds octets behind those that wait. -/
def Inbox.feed (inbox : Inbox) (b : Bytes) : Inbox := ⟨inbox.pending ++ b⟩

/-- Takes one message, if one is complete. On failure nothing is taken. -/
def Inbox.next (inbox : Inbox) : Except MessageFault (Option Bytes) × Inbox :=
  match splitFrame inbox.pending with
  | .error e => (.error e, inbox)
  | .ok none => (.ok none, inbox)
  | .ok (some (payload, rest)) => (.ok (some payload), ⟨rest⟩)

end ForgeGateway.Agent
