import ForgeGateway.Bytes

/-! # Leaving out the start of a stream

The client has already seen the advertisement when the forge's answer is shown to it from its
start. A `Skip` drops a number of octets from a stream, however it is cut into chunks. -/

namespace ForgeGateway.Relay

/-- How many octets are still to be dropped. -/
structure Skip where
  remaining : Nat
  deriving DecidableEq, Repr

/-- What is left of a chunk, and what is still to be dropped after it. -/
def Skip.filter (s : Skip) (chunk : Bytes) : Bytes × Skip :=
  (chunk.drop s.remaining, ⟨s.remaining - chunk.length⟩)

end ForgeGateway.Relay
