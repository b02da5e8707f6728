import ForgeGateway.Agent.Error
import ForgeGateway.Bytes.Utf8

/-! # Reading length-prefixed fields

A `Cursor` is what is left of a message and the offset at which that starts. Every read
checks the announced length against what is left and moves the cursor by what it took. -/

namespace ForgeGateway.Agent

/-- A text or octet string behind its length in four octets. -/
def lengthPrefixed (b : Bytes) : Bytes := Bytes.word32 b.length ++ b

/-- The unread part of a message. -/
structure Cursor where
  offset : Nat
  rest : Bytes
  deriving DecidableEq, Repr

namespace Cursor

def start (b : Bytes) : Cursor := ⟨0, b⟩

def take (c : Cursor) (field : Field) (n : Nat) : Except MessageFault (Bytes × Cursor) :=
  if c.rest.length < n then .error (.truncated field c.offset n c.rest.length)
  else .ok (c.rest.take n, ⟨c.offset + n, c.rest.drop n⟩)

def octet (c : Cursor) (field : Field) : Except MessageFault (Nat × Cursor) :=
  match c.rest with
  | [] => .error (.truncated field c.offset 1 0)
  | x :: rest => .ok (x.toNat, ⟨c.offset + 1, rest⟩)

/-- Takes a number of four octets. -/
def number (c : Cursor) (field : Field) : Except MessageFault (Nat × Cursor) :=
  match Bytes.word32? c.rest with
  | none => .error (.truncated field c.offset 4 c.rest.length)
  | some (n, rest) => .ok (n, ⟨c.offset + 4, rest⟩)

/-- Takes an octet string behind its length. -/
def string (c : Cursor) (field : Field) : Except MessageFault (Bytes × Cursor) :=
  match c.number field with
  | .error e => .error e
  | .ok (n, c) => c.take field n

/-- Takes a text behind its length. -/
def text (c : Cursor) (field : Field) : Except MessageFault (String × Cursor) :=
  match c.string field with
  | .error e => .error e
  | .ok (b, c) =>
    match Utf8.decode? b with
    | none => .error (.notText field)
    | some s => .ok (s, c)

end Cursor

end ForgeGateway.Agent
