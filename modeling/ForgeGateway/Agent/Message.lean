import ForgeGateway.Agent.Cursor

/-! # Agent messages

The part of the SSH agent protocol that is needed to list keys and to have something signed:
the requests 11 and 13 and the answers 12, 14 and 5. `Request.payload` and `Response.payload`
write a message, `Request.decode` and `Response.decode` read one; `frame` puts the length in
front. -/

namespace ForgeGateway.Agent

/-- The name at the start of a key blob. -/
def keyAlgorithm (blob : Bytes) : Except MessageFault String :=
  match (Cursor.start blob).text .keyAlgorithm with
  | .error e => .error e
  | .ok (name, _) => if name.isEmpty then .error .emptyAlgorithm else .ok name

/-- A public key that the agent holds. -/
structure Identity where
  /-- The name at the start of the key blob. -/
  algorithm : String
  keyBlob : Bytes
  /-- The comment as it was sent, text or not. -/
  comment : Bytes
  deriving DecidableEq, Repr

structure Signature where
  algorithm : String
  bytes : Bytes
  deriving DecidableEq, Repr

/-- The signature in the form in which SSH passes it on. -/
def Signature.toBlob (s : Signature) : Bytes :=
  lengthPrefixed (Bytes.ofString s.algorithm) ++ lengthPrefixed s.bytes

/-- What the agent is asked for. -/
inductive Request where
  | identities
  | sign (keyBlob data : Bytes) (flags : Nat)
  deriving DecidableEq, Repr

/-- What the agent answers. -/
inductive Response where
  | failure
  | identities (keys : List Identity)
  | signature (s : Signature)
  deriving DecidableEq, Repr

/-- A payload behind its length. -/
def frame (payload : Bytes) : Bytes := lengthPrefixed payload

/-! ### Opcodes -/

def Request.opcode : Request → UInt8
  | .identities => 11
  | .sign .. => 13

def Response.opcode : Response → UInt8
  | .failure => 5
  | .identities _ => 12
  | .signature _ => 14

/-! ### Writing -/

/-- A request without its length. -/
def Request.payload (r : Request) : Bytes :=
  r.opcode :: match r with
    | .identities => []
    | .sign keyBlob data flags =>
      lengthPrefixed keyBlob ++ lengthPrefixed data ++ Bytes.word32 flags

def Request.encode (r : Request) : Bytes := frame r.payload

/-- One entry of the list of keys. -/
def Identity.entry (i : Identity) : Bytes := lengthPrefixed i.keyBlob ++ lengthPrefixed i.comment

/-- An answer without its length. -/
def Response.payload (r : Response) : Bytes :=
  r.opcode :: match r with
    | .failure => []
    | .identities keys => Bytes.word32 keys.length ++ keys.flatMap Identity.entry
    | .signature s => lengthPrefixed s.toBlob

def Response.encode (r : Response) : Bytes := frame r.payload

/-! ### Reading -/

/-- Faults of the wire format as agent errors. -/
def orMalformed {α : Type} : Except MessageFault α → Except AgentError α
  | .error fault => .error (.malformed fault)
  | .ok a => .ok a

/-- Reads a request. What follows it is ignored. -/
def Request.decode (payload : Bytes) : Except AgentError Request := do
  let (opcode, c) ← orMalformed ((Cursor.start payload).octet .requestOpcode)
  if opcode = 11 then return .identities
  else if opcode = 13 then
    let (keyBlob, c) ← orMalformed (c.string .signKeyBlob)
    let (data, c) ← orMalformed (c.string .signData)
    let (flags, _) ← orMalformed (c.number .signFlags)
    return .sign keyBlob data flags
  else throw (.unexpectedOpcode opcode)

/-- Reads one entry of the list of keys. -/
def Identity.read (c : Cursor) : Except MessageFault (Identity × Cursor) := do
  let (keyBlob, c) ← c.string .identityKeyBlob
  let (comment, c) ← c.string .identityComment
  let algorithm ← keyAlgorithm keyBlob
  return (⟨algorithm, keyBlob, comment⟩, c)

/-- Reads `n` entries of the list of keys. -/
def Identity.readMany : Nat → Cursor → Except MessageFault (List Identity × Cursor)
  | 0, c => .ok ([], c)
  | n + 1, c => do
    let (key, c) ← Identity.read c
    let (keys, c) ← Identity.readMany n c
    return (key :: keys, c)

/-- Reads the list of keys. Each of them takes at least eight octets. -/
def Identity.readList (c : Cursor) : Except MessageFault (List Identity × Cursor) := do
  let (count, c) ← c.number .identityCount
  if c.rest.length / 8 < count then throw (.identityCount count c.rest.length)
  Identity.readMany count c

/-- Reads a signature from its blob. What follows it in the blob is ignored. -/
def Signature.ofBlob (blob : Bytes) : Except MessageFault Signature := do
  let (algorithm, c) ← (Cursor.start blob).text .signatureAlgorithm
  let (bytes, _) ← c.string .signatureBytes
  return ⟨algorithm, bytes⟩

/-- Reads an answer up to its end. -/
def Response.readBody (opcode : Nat) (c : Cursor) : Except AgentError (Response × Cursor) := do
  if opcode = 5 then return (.failure, c)
  else if opcode = 12 then
    let (keys, c) ← orMalformed (Identity.readList c)
    return (.identities keys, c)
  else if opcode = 14 then
    let (blob, c) ← orMalformed (c.string .signatureBlob)
    let s ← orMalformed (Signature.ofBlob blob)
    return (.signature s, c)
  else throw (.unexpectedOpcode opcode)

/-- Reads an answer. Nothing may follow it. -/
def Response.decode (payload : Bytes) : Except AgentError Response := do
  let (opcode, c) ← orMalformed ((Cursor.start payload).octet .responseOpcode)
  let (response, c) ← Response.readBody opcode c
  if c.rest.isEmpty then return response
  else throw (.malformed (.trailing c.rest.length))

end ForgeGateway.Agent
