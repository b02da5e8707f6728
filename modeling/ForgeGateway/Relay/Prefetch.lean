import ForgeGateway.Relay.Request

/-! # The forge's advertisement

Before a push is let in, the forge's output is read up to the flush packet that ends its
advertisement. What it writes to its error stream meanwhile is passed on. -/

namespace ForgeGateway.Relay

/-- Everything the forge has written, and how much of it is the advertisement. -/
structure Prefetched where
  buffer : Bytes
  length : Nat
  deriving DecidableEq, Repr

def Prefetched.advertisement (p : Prefetched) : Bytes := p.buffer.take p.length

/-- The stages of reading the advertisement. -/
inductive Prefetch where
  | reading (buffer : Bytes)
  /-- Passing on what came on the error stream. -/
  | passing (buffer chunk : Bytes)
  deriving DecidableEq, Repr

namespace Prefetch

/-- How the advertisement was found, or why it was not. -/
abbrev Result := Except Failure Prefetched

/-- Takes in output of the forge. -/
def take (buffer chunk : Bytes) : Progress Prefetch Result :=
  match Git.Packet.advertisementEnd (buffer ++ chunk) with
  | .error e => .done (.error (.ofFraming e))
  | .ok none => .more (.reading (buffer ++ chunk))
  | .ok (some n) => .done (.ok ⟨buffer ++ chunk, n⟩)

/-- Takes in what the forge's channel yields. -/
def onRead (buffer : Bytes) : ForgeRead → Progress Prefetch Result
  | .error f => .done (.error f)
  | .ok (some (.data chunk)) => take buffer chunk
  | .ok (some (.stderr chunk)) => .more (.passing buffer chunk)
  | .ok (some (.exit _)) | .ok (some .eof) | .ok none => .done (.error .noAdvertisement)

/-- Goes on after the error stream has been written to. -/
def onWritten (buffer : Bytes) : Except Failure Unit → Progress Prefetch Result
  | .error f => .done (.error f)
  | .ok () => .more (.reading buffer)

/-- The failure when the advertisement did not come in time. -/
def late (limits : Limits) : Failure := .advertisementLate limits.prefetch.seconds

end Prefetch

end ForgeGateway.Relay
