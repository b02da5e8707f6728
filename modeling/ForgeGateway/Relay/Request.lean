import ForgeGateway.Approval.Request
import ForgeGateway.Approval.Verdict
import ForgeGateway.Clock
import ForgeGateway.Relay.PackBuffer

/-! # What a command asks of its surroundings

A running command does nothing by itself: it makes one `Request` after the other, and its
surroundings (the client's channel, the gate, the forge, the clock) answer each. The type of
an answer depends on the request (`Request.Answer`). -/

namespace ForgeGateway.Relay

/-- What a client sends on its channel. -/
inductive ClientMessage where
  | data (b : Bytes)
  | eof
  deriving DecidableEq, Repr

/-- What the forge's channel yields. -/
inductive ForgeEvent where
  | data (b : Bytes)
  | stderr (b : Bytes)
  | exit (status : Nat)
  | eof
  deriving DecidableEq, Repr

/-- A connection to be made to a forge. -/
structure Dial where
  target : Git.Target
  /-- The command to be run there. -/
  command : String
  /-- The version of Git's protocol that the client asked for. -/
  gitProtocol : Option String
  /-- The client lets its agent be used. -/
  forwarding : Bool
  deriving DecidableEq, Repr

structure Limits where
  pack : PackLimits := ⟨1073741824, 10000⟩
  /-- How long the forge may take for its advertisement. -/
  prefetch : Time := 30000
  /-- How long the client may take for its pack. -/
  capture : Time := 300000
  /-- How long connecting to the forge may take. -/
  connect : Time := 30000
  deriving DecidableEq, Repr

/-- What a command asks of its surroundings. -/
inductive Request where
  /-- May this be done? -/
  | consult (r : Approval.Request)
  | dial (d : Dial) (deadline : Time)
  /-- The next event of the forge, if it comes by the deadline. -/
  | readForgeBy (deadline : Time)
  | readForge
  /-- The next message of the client, if it comes by the deadline. -/
  | readClientBy (deadline : Time)
  /-- The next message of the client or the next event of the forge, whichever comes first. -/
  | readEither
  | writeOut (b : Bytes)
  | writeErr (b : Bytes)
  /-- Writes to the client's error stream, if that can be done by the deadline. -/
  | writeErrBy (b : Bytes) (deadline : Time)
  | send (b : Bytes)
  | sendEof
  /-- Ends the connection to the forge. -/
  | close
  /-- Ends the client's channel with a status. -/
  | finish (status : Nat)
  deriving DecidableEq, Repr

/-- The next event of the forge, its end, or a failure. -/
abbrev ForgeRead := Except Failure (Option ForgeEvent)

/-- What came first. The client's end is `none`. -/
inductive EitherRead where
  | client (m : Option ClientMessage)
  | forge (r : ForgeRead)

def Request.Answer : Request → Type
  | .consult _ => Except Failure Approval.Verdict
  | .dial _ _ => Timed (Except Failure Unit)
  | .readForgeBy _ => Timed ForgeRead
  | .readForge => ForgeRead
  | .readClientBy _ => Timed (Option ClientMessage)
  | .readEither => EitherRead
  | .writeErrBy _ _ => Timed (Except Failure Unit)
  | .writeOut _ | .writeErr _ | .send _ | .sendEof => Except Failure Unit
  | .close | .finish _ => Unit

end ForgeGateway.Relay
