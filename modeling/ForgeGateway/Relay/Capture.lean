import ForgeGateway.Arrivals
import ForgeGateway.Relay.Prefetch

/-! # Taking in a pack

The client's messages are read up to its end of file, all of them by one deadline, into a
`PackBuffer`. `Capture.run` is the whole of it for a client of which it is known when its messages
arrive. A deadline that the clock cannot count is not set, and then nothing is taken in. -/

namespace ForgeGateway.Relay

/-- Points in time count fewer seconds than this, by signed numbers of 64 bits. -/
def instantBound : Nat := 9223372036854775808

namespace Capture

/-- The pack, or why there is none. -/
abbrev Result := Except Failure Bytes

/-- Takes in the next message, or its absence at the deadline. -/
def onRead (limits : Limits) (b : PackBuffer) :
    Timed (Option ClientMessage) → Progress PackBuffer Result
  | .late => .done (.error (.packLate limits.capture.seconds))
  | .got none => .done (.error .clientGone)
  | .got (some .eof) => .done b.intoPack
  | .got (some (.data chunk)) =>
    match b.push chunk with
    | (.error f, _) => .done (.error f)
    | (.ok (), b) => .more b

/-- Goes on with the client's messages. That the client is gone is for good. -/
def reader (limits : Limits) : Reader (Option ClientMessage) PackBuffer Result where
  step b m := onRead limits b (.got m)
  lasts := Option.isNone
  late _ := .error (.packLate limits.capture.seconds)

/-- The deadline for something that may take so long, if it can be set. -/
def deadline? (now length : Time) : Option Time :=
  if (now + length).seconds < instantBound then some (now + length) else none

/-- When a pack was taken in, or why not, and which messages have not been looked at. -/
structure Ended where
  time : Time
  result : Result
  left : Arrivals (Option ClientMessage)

/-- Takes in a pack from `start` on, by a deadline. -/
def runBy (limits : Limits) (deadline start : Time) (queue : Arrivals (Option ClientMessage)) :
    Ended :=
  let e := (reader limits).upTo deadline start (.empty limits.pack) queue
  ⟨e.time, (reader limits).result e.progress, e.left⟩

/-- Takes in a pack from `start` on, or nothing if the deadline cannot be set. -/
def run (limits : Limits) (start : Time) (queue : Arrivals (Option ClientMessage)) :
    Option Ended :=
  (deadline? start limits.capture).map fun deadline => runBy limits deadline start queue

end Capture

end ForgeGateway.Relay
