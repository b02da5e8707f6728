import ForgeGateway.Bytes.Hex
import ForgeGateway.Bytes.Utf8
import ForgeGateway.Text.Quoted

/-! # Packets

Git frames its messages as packets: four hexadecimal digits with the length of the packet,
themselves included, then the payload. The lengths 0, 1 and 2 mark the end of a section, a
delimiter and the end of a response; 3 has no meaning. `Packet.decode` reads all complete
packets of an octet string, `Packet.advertisementEnd` finds the end of its first section, and
`Packet.wire` writes a packet. -/

namespace ForgeGateway.Git

inductive Packet where
  | data (payload : Bytes)
  | flush
  | delimiter
  | responseEnd
  deriving DecidableEq, Repr

namespace Packet

/-- A number below 65536 as four lower-case digits. -/
def lengthDigits (n : Nat) : Bytes :=
  [n / 4096 % 16, n / 256 % 16, n / 16 % 16, n % 16].map fun d => UInt8.ofNat (Hex.digit d).toNat

/-- A packet as it is sent. -/
def wire : Packet → Bytes
  | .data payload => lengthDigits (payload.length + 4) ++ payload
  | .flush => lengthDigits 0
  | .delimiter => lengthDigits 1
  | .responseEnd => lengthDigits 2

/-- The value of an octet that is a hexadecimal digit. -/
def digitValue? (x : UInt8) : Option Nat := Hex.digit? (Char.ofNat x.toNat)

/-- The number that four digits write. -/
def lengthOf? (a b c d : UInt8) : Option Nat := do
  let a ← digitValue? a
  let b ← digitValue? b
  let c ← digitValue? c
  let d ← digitValue? d
  return a * 4096 + b * 256 + c * 16 + d

/-- What an octet string starts with. -/
inductive Front where
  /-- A complete packet, which takes `size` octets. -/
  | complete (p : Packet) (size : Nat)
  /-- Less than a packet. -/
  | incomplete
  /-- Four octets that announce no packet. -/
  | malformed (lead : Bytes)
  deriving DecidableEq, Repr

def front : Bytes → Front
  | a :: b :: c :: d :: rest =>
    match lengthOf? a b c d with
    | none => .malformed [a, b, c, d]
    | some 0 => .complete .flush 4
    | some 1 => .complete .delimiter 4
    | some 2 => .complete .responseEnd 4
    | some 3 => .malformed [a, b, c, d]
    | some (n + 4) =>
      if rest.length < n then .incomplete else .complete (.data (rest.take n)) (n + 4)
  | _ => .incomplete

theorem size_of_front_complete {b : Bytes} {p : Packet} {n : Nat}
    (h : front b = .complete p n) : 4 ≤ n ∧ n ≤ b.length := by
  unfold front at h
  split at h
  next a b c d rest =>
    have whole : (a :: b :: c :: d :: rest).length = rest.length + 4 := rfl
    rw [whole]
    split at h
    next malformed => cases h
    next flush => cases h; omega
    next delimiter => cases h; omega
    next ending => cases h; omega
    next reserved => cases h
    next length announced =>
      split at h
      next short => cases h
      next enough => cases h; omega
  next short => cases h

/-- A length that announces no packet, and where it stands. -/
structure FramingError where
  offset : Nat
  lead : Bytes
  deriving DecidableEq, Repr

/-- The four octets as text. -/
def FramingError.leadText (e : FramingError) : String := Utf8.lossy e.lead

def FramingError.message (e : FramingError) : String :=
  "invalid pkt-line length prefix " ++ Text.quoted e.leadText ++ " at offset " ++
    toString e.offset

/-- The complete packets of `b`, which stands at `offset`. -/
def decodeFrom (offset : Nat) (b : Bytes) : Except FramingError (List Packet) :=
  match _h : front b with
  | .incomplete => .ok []
  | .malformed lead => .error ⟨offset, lead⟩
  | .complete p n =>
    match decodeFrom (offset + n) (b.drop n) with
    | .error e => .error e
    | .ok ps => .ok (p :: ps)
termination_by b.length
decreasing_by
  have := size_of_front_complete _h
  simp only [List.length_drop]
  omega

/-- The complete packets of `b`. What is left behind them is no error. -/
def decode (b : Bytes) : Except FramingError (List Packet) := decodeFrom 0 b

/-- The offset behind the first flush packet of `b`, which stands at `offset`. -/
def advertisementEndFrom (offset : Nat) (b : Bytes) : Except FramingError (Option Nat) :=
  match _h : front b with
  | .incomplete => .ok none
  | .malformed lead => .error ⟨offset, lead⟩
  | .complete .flush n => .ok (some (offset + n))
  | .complete _ n => advertisementEndFrom (offset + n) (b.drop n)
termination_by b.length
decreasing_by
  have := size_of_front_complete _h
  simp only [List.length_drop]
  omega

/-- How many octets the first section of `b` takes, if it is all there. -/
def advertisementEnd (b : Bytes) : Except FramingError (Option Nat) := advertisementEndFrom 0 b

/-- A single flush packet: what a client with nothing to push sends. -/
def isFlushOnly (b : Bytes) : Bool := b == wire .flush

end Packet

end ForgeGateway.Git
