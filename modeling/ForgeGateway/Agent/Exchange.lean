import ForgeGateway.Agent.Frame
import ForgeGateway.Arrivals

/-! # One request and its answer

A request is written to an agent's channel and the answer is put together from the chunks that
come back. Both have to be done by one deadline. What is in the buffer when a request starts
answers nothing that was asked, and is thrown away. `Exchange.run` is a whole exchange on a
channel of which it is known when the request is written and which chunks arrive when. -/

namespace ForgeGateway.Agent

/-- An answer of the kind that was asked for. -/
inductive Answer where
  | identities (keys : List Identity)
  | signature (s : Signature)
  deriving DecidableEq, Repr

/-- The answer to a request, if it is of the right kind. -/
def Request.accept : Request → Response → Except AgentError Answer
  | _, .failure => .error .refused
  | .identities, .identities keys => .ok (.identities keys)
  | .identities, .signature _ => .error (.unexpectedOpcode 14)
  | .sign .., .signature s => .ok (.signature s)
  | .sign .., .identities _ => .error (.unexpectedOpcode 12)

namespace Exchange

/-- How an exchange ended, and what is left in the buffer. -/
structure Outcome where
  result : Except AgentError Answer
  buffer : Bytes

/-- Looks for the answer in what has come so far. -/
def read (r : Request) (buffer : Bytes) : Progress Bytes Outcome :=
  match splitFrame buffer with
  | .error fault => .done ⟨.error (.malformed fault), buffer⟩
  | .ok none => .more buffer
  | .ok (some (payload, rest)) =>
    match Response.decode payload with
    | .error e => .done ⟨.error e, rest⟩
    | .ok response => .done ⟨r.accept response, rest⟩

/-- After the request was written to the channel, or the deadline. -/
def onSent (timeout : Time) (r : Request) : Timed (Except AgentError Unit) → Progress Bytes Outcome
  | .late => .done ⟨.error (.timeout timeout.nanos), []⟩
  | .got (.error e) => .done ⟨.error e, []⟩
  | .got (.ok ()) => read r []

/-- After a chunk, the end of the channel, or the deadline. -/
def onChunk (timeout : Time) (r : Request) (buffer : Bytes) :
    Timed (Option Bytes) → Progress Bytes Outcome
  | .late => .done ⟨.error (.timeout timeout.nanos), buffer⟩
  | .got none => .done ⟨.error .channelClosed, buffer⟩
  | .got (some chunk) => read r (buffer ++ chunk)

/-! ### A whole exchange -/

/-- Goes on with the chunks that come. The end of the channel is there for good. -/
def reader (timeout : Time) (r : Request) : Reader (Option Bytes) Bytes Outcome where
  step buffer chunk := onChunk timeout r buffer (.got chunk)
  lasts := Option.isNone
  late buffer := ⟨.error (.timeout timeout.nanos), buffer⟩

/-- When a request has been written to the channel, and how that went, if it ever has been. -/
abbrev Writing := Option (Time × Except AgentError Unit)

/-- An exchange from `start` on, as far as it gets up to `limit`. -/
def upTo (timeout : Time) (r : Request) (limit start : Time) (sent : Writing)
    (queue : Arrivals (Option Bytes)) : Reading (Option Bytes) Bytes Outcome :=
  match sent with
  | none => ⟨limit, .more [], queue⟩
  | some (t, a) =>
    if max start t ≤ limit then
      match onSent timeout r (.got a) with
      | .done o => ⟨max start t, .done o, queue⟩
      | .more buffer => (reader timeout r).upTo limit (max start t) buffer queue
    else ⟨limit, .more [], queue⟩

/-- When an exchange ended and how, and what can still be read from its channel. -/
structure Ended where
  time : Time
  result : Except AgentError Answer
  left : Arrivals (Option Bytes)

def run (timeout : Time) (r : Request) (start : Time) (sent : Writing)
    (queue : Arrivals (Option Bytes)) : Ended :=
  let e := upTo timeout r (start + timeout) start sent queue
  ⟨e.time, ((reader timeout r).result e.progress).result, e.left⟩

end Exchange

end ForgeGateway.Agent
