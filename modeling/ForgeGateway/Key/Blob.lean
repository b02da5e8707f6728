import ForgeGateway.Agent.Message
import ForgeGateway.Bytes.Base64
import ForgeGateway.Bytes.Sha256

/-! # Public keys by their blobs

A key blob starts with the name of its algorithm. `wireText` writes it as one line, the name
and the base64 of the blob; `fingerprint` is its SHA-256 hash as `ssh-keygen` prints it;
`usable` is the check before an agent is asked to sign with it. -/

namespace ForgeGateway.Key

open ForgeGateway.Agent

/-- The name of the algorithm, a space, and the base64 of the blob. -/
def wireText (blob : Bytes) : Except MessageFault String :=
  match keyAlgorithm blob with
  | .error e => .error e
  | .ok name => .ok (name ++ " " ++ Base64.encode blob)

/-- `SHA256:` and the hash of the blob in base64 without padding. -/
def fingerprint (blob : Bytes) : String := "SHA256:" ++ Base64.encodeBare (Sha256.hash blob)

/-- The key of a forge has the fingerprint that the forge publishes. -/
example : fingerprint (lengthPrefixed (Bytes.ofString "ssh-ed25519") ++ lengthPrefixed [
    0xe3, 0x2a, 0xaa, 0x79, 0x15, 0xce, 0xb9, 0xb4, 0x49, 0xd1, 0xba, 0x50, 0xea, 0x2a, 0x28, 0xbb,
    0x1a, 0x6e, 0x01, 0xf9, 0x0b, 0xda, 0x24, 0x5a, 0x2d, 0x1d, 0x87, 0x69, 0x7d, 0x18, 0xa2, 0x65]) =
    "SHA256:+DiY3wvvV6TuJJhbpZisF/zLDA0zPMSvHdkr4UvCOqU" := by
  decide +kernel

/-- The blob itself if it can name a key for an agent. -/
def usable (blob : Bytes) : Except AgentError Bytes :=
  if blob.isEmpty then .error (.unsupportedKey "empty key blob")
  else match keyAlgorithm blob with
    | .error fault => .error (.unsupportedKey (AgentError.malformed fault).message)
    | .ok _ => .ok blob

/-- The wording of a blob that has no wire text. -/
def unreadable (fault : MessageFault) : String :=
  "unreadable public key blob: " ++ (AgentError.malformed fault).message

end ForgeGateway.Key
