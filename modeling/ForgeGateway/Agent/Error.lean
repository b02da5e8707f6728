import ForgeGateway.Bytes
import ForgeGateway.Text.Elapsed

/-! # What can go wrong with an agent

`MessageFault` says how a message breaks the wire format, `AgentError` why an operation on
an agent failed. Each has one wording. -/

namespace ForgeGateway.Agent

/-- The fields of agent messages and key blobs that are read by length. -/
inductive Field where
  | requestOpcode
  | signKeyBlob
  | signData
  | signFlags
  | responseOpcode
  | identityCount
  | identityKeyBlob
  | identityComment
  | signatureBlob
  | signatureAlgorithm
  | signatureBytes
  | keyAlgorithm
  deriving DecidableEq, Repr

def Field.name : Field → String
  | .requestOpcode => "request opcode"
  | .signKeyBlob => "sign key blob"
  | .signData => "sign data"
  | .signFlags => "sign flags"
  | .responseOpcode => "response opcode"
  | .identityCount => "identity count"
  | .identityKeyBlob => "identity key blob"
  | .identityComment => "identity comment"
  | .signatureBlob => "signature blob"
  | .signatureAlgorithm => "signature algorithm"
  | .signatureBytes => "signature bytes"
  | .keyAlgorithm => "key blob algorithm"

/-- How a message breaks the wire format. -/
inductive MessageFault where
  /-- A field needs more octets than there are from its offset on. -/
  | truncated (field : Field) (offset needed available : Nat)
  | notText (field : Field)
  | emptyAlgorithm
  /-- More identities are announced than the octets that are left can hold. -/
  | identityCount (count remaining : Nat)
  | trailing (count : Nat)
  | zeroLength
  | overlong (length : Nat)
  /-- A fault of which only the wording is known. -/
  | described (text : String)
  deriving DecidableEq, Repr

/-- The longest message an agent may send: 256 KiB. -/
def maxMessageLength : Nat := 262144

def MessageFault.message : MessageFault → String
  | .truncated field offset needed available =>
    "truncated " ++ field.name ++ " at offset " ++ toString offset ++ ": need " ++
      toString needed ++ " bytes, " ++ toString available ++ " available"
  | .notText field => field.name ++ " is not valid UTF-8"
  | .emptyAlgorithm => "key blob has an empty algorithm name"
  | .identityCount count remaining =>
    "identity count " ++ toString count ++ " exceeds what " ++ toString remaining ++
      " remaining bytes can hold"
  | .trailing count => toString count ++ " trailing bytes after agent response"
  | .zeroLength => "zero-length agent message"
  | .overlong length =>
    "agent message of " ++ toString length ++ " bytes exceeds the " ++
      toString maxMessageLength ++ " byte limit"
  | .described text => text

/-- Why an operation on an agent failed. Times are in nanoseconds. -/
inductive AgentError where
  | malformed (fault : MessageFault)
  /-- The agent answered that it would not do it. -/
  | refused
  | unexpectedOpcode (opcode : Nat)
  | timeout (nanos : Nat)
  | openTimeout (nanos : Nat)
  | channelUnavailable
  | channelClosed
  | channel (text : String)
  | unsupportedKey (text : String)
  deriving DecidableEq, Repr

def AgentError.message : AgentError → String
  | .malformed fault => "malformed agent message: " ++ fault.message
  | .refused => "agent refused the request"
  | .unexpectedOpcode opcode => "unexpected agent message type " ++ toString opcode
  | .timeout nanos => "agent did not respond within " ++ Text.elapsed nanos
  | .openTimeout nanos => "timed out opening agent channel after " ++ Text.elapsed nanos
  | .channelUnavailable => "could not open agent channel"
  | .channelClosed => "agent channel closed"
  | .channel text => "agent channel error: " ++ text
  | .unsupportedKey text => "unsupported key material: " ++ text

end ForgeGateway.Agent
