import ForgeGateway.Settings.Basic
import ForgeGateway.Text.Quoted

/-! # Settings that make sense

`Settings.validate` finds the first thing that is wrong with settings of the right shape: an empty
text, a zero, or a pin that is no fingerprint. -/

namespace ForgeGateway

/-- What can be wrong with settings. -/
inductive SettingsFault where
  | empty (name : String)
  | zero (name : String)
  /-- A host is listed without a fingerprint. -/
  | unpinned (host : String)
  | notFingerprint (host text : String)
  deriving DecidableEq, Repr

def SettingsFault.message : SettingsFault → String
  | .empty name => name ++ " must not be empty"
  | .zero name => name ++ " must be > 0"
  | .unpinned host => "known_hosts." ++ host ++ " must list at least one fingerprint"
  | .notFingerprint host text =>
    "known_hosts." ++ host ++ ": fingerprint " ++ Text.quoted text ++ " must start with SHA256:"

namespace Settings

def nonempty (name value : String) : Except SettingsFault Unit :=
  if value.isEmpty then .error (.empty name) else .ok ()

def positive (name : String) (value : Nat) : Except SettingsFault Unit :=
  if value = 0 then .error (.zero name) else .ok ()

/-- `SHA256:` with something behind it. -/
def isFingerprint (text : String) : Bool :=
  "SHA256:".toList.isPrefixOf text.toList && "SHA256:".length < text.length

/-- A host must have fingerprints, and nothing else. -/
def pinned (host : String) (fingerprints : List String) : Except SettingsFault Unit :=
  if fingerprints.isEmpty then .error (.unpinned host)
  else match fingerprints.find? fun f => !isFingerprint f with
    | some f => .error (.notFingerprint host f)
    | none => .ok ()

/-- Passes if nothing is wrong, and names the first fault otherwise. -/
def validate (s : Settings) : Except SettingsFault Unit := do
  nonempty "approval.url" s.gate.url
  positive "approval.timeout" s.gate.timeout
  positive "limits.max_pack_size_bytes" s.quotas.packBytes
  positive "limits.max_pack_chunks" s.quotas.packChunks
  positive "limits.max_auth_attempts" s.quotas.authAttempts
  positive "timeouts.session" s.deadlines.session
  positive "timeouts.agent_request" s.deadlines.agentRequest
  positive "timeouts.agent_channel_open" s.deadlines.agentChannelOpen
  positive "timeouts.capability_prefetch" s.deadlines.capabilityPrefetch
  positive "timeouts.push_capture" s.deadlines.pushCapture
  positive "timeouts.upstream_connect" s.deadlines.forgeConnect
  positive "upstream.port" s.forge.tcpPort
  nonempty "upstream.user" s.forge.user
  s.pins.forM fun p => pinned p.1 p.2

end Settings

end ForgeGateway
