import ForgeGateway.Relay.Failure

/-! # What a push sends, under limits

`PackBuffer.push` takes one chunk or, where a limit would be exceeded, throws away all that was
taken so far. Empty chunks do not count. `PackBuffer.intoPack` is everything taken, in order. -/

namespace ForgeGateway.Relay

/-- How much a push may send. -/
structure PackLimits where
  maxBytes : Nat
  maxChunks : Nat
  deriving DecidableEq, Repr

/-- The chunks of a push so far, and the sum of their lengths. -/
structure PackBuffer where
  limits : PackLimits
  chunks : List Bytes
  total : Nat
  deriving DecidableEq, Repr

namespace PackBuffer

def empty (limits : PackLimits) : PackBuffer := ⟨limits, [], 0⟩

def push (b : PackBuffer) (chunk : Bytes) : Except Failure Unit × PackBuffer :=
  if chunk.isEmpty then (.ok (), b)
  else if b.limits.maxChunks ≤ b.chunks.length then
    (.error (.tooManyChunks b.limits.maxChunks), empty b.limits)
  else if b.limits.maxBytes < b.total + chunk.length then
    (.error (.packTooLarge b.limits.maxBytes), empty b.limits)
  else (.ok (), { b with chunks := b.chunks ++ [chunk], total := b.total + chunk.length })

/-- All chunks in order, provided that their lengths add up to the total. -/
def intoPack (b : PackBuffer) : Except Failure Bytes :=
  let pack := b.chunks.flatten
  if pack.length = b.total then .ok pack else .error (.miscounted pack.length b.total)

end PackBuffer

end ForgeGateway.Relay
