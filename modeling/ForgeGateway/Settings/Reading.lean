import ForgeGateway.Settings.Validity
import ForgeGateway.Yaml.Shape

/-! # Reading settings

`Settings.ofText?` reads settings of the right shape from a YAML text. `Settings.load` reads
a file and admits only settings that make sense. -/

namespace ForgeGateway

open ForgeGateway.Yaml

/-- The numbers of sixty-four bits. -/
def wordBound : Nat := 18446744073709551616

/-- The numbers of ports. -/
def tcpPortBound : Nat := 65536

def Net.SocketAddress.ofNode? (n : Node) : Option Net.SocketAddress := n.text?.bind parse?

def Listeners.ofNode? (n : Node) : Option Listeners := do
  let r ← Record.ofNode? ["ssh_listen", "admin_listen"] n
  let d : Listeners := {}
  return {
    ssh := ← r.getD? "ssh_listen" Net.SocketAddress.ofNode? d.ssh
    admin := ← r.getD? "admin_listen" Net.SocketAddress.ofNode? d.admin }

def HostKeySettings.ofNode? (n : Node) : Option HostKeySettings := do
  let r ← Record.ofNode? ["path", "keyring_name"] n
  let d : HostKeySettings := {}
  return {
    path := ← r.getD? "path" (Node.optional? Node.text?) d.path
    keyringName := ← r.getD? "keyring_name" Node.text? d.keyringName }

def identityPathOfNode? (n : Node) : Option String := do
  let r ← Record.ofNode? ["path"] n
  r.get? "path" Node.text?

def GateSettings.ofNode? (n : Node) : Option GateSettings := do
  let r ← Record.ofNode? ["url", "timeout"] n
  let url ← r.get? "url" Node.text?
  let d : GateSettings := { url }
  return { url, timeout := ← r.getD? "timeout" (Node.natural? wordBound) d.timeout }

def Quotas.ofNode? (n : Node) : Option Quotas := do
  let r ← Record.ofNode? ["max_pack_size_bytes", "max_pack_chunks", "max_auth_attempts"] n
  let d : Quotas := {}
  let number := fun name default => r.getD? name (Node.natural? wordBound) default
  return {
    packBytes := ← number "max_pack_size_bytes" d.packBytes
    packChunks := ← number "max_pack_chunks" d.packChunks
    authAttempts := ← number "max_auth_attempts" d.authAttempts }

def Deadlines.ofNode? (n : Node) : Option Deadlines := do
  let r ← Record.ofNode? ["session", "agent_request", "agent_channel_open",
    "capability_prefetch", "push_capture", "upstream_connect"] n
  let d : Deadlines := {}
  let number := fun name default => r.getD? name (Node.natural? wordBound) default
  return {
    session := ← number "session" d.session
    agentRequest := ← number "agent_request" d.agentRequest
    agentChannelOpen := ← number "agent_channel_open" d.agentChannelOpen
    capabilityPrefetch := ← number "capability_prefetch" d.capabilityPrefetch
    pushCapture := ← number "push_capture" d.pushCapture
    forgeConnect := ← number "upstream_connect" d.forgeConnect }

def ForgeSettings.ofNode? (n : Node) : Option ForgeSettings := do
  let r ← Record.ofNode? ["port", "user"] n
  let d : ForgeSettings := {}
  return {
    tcpPort := ← r.getD? "port" (Node.natural? tcpPortBound) d.tcpPort
    user := ← r.getD? "user" Node.text? d.user }

/-- Hosts with fingerprints. A host that comes again replaces the one before. -/
def pinsOfNode? (n : Node) : Option (List (String × List String)) := do
  let entries ← n.entries?
  let pins ← entries.mapM fun (host, n) => (n.list? Node.text?).map (host, ·)
  return pins.foldl (fun ps p => ps.filter (·.1 ≠ p.1) ++ [p]) []

namespace Settings

def ofNode? (n : Node) : Option Settings := do
  let r ← Record.ofNode? ["proxy", "host_key", "identity_store", "approval", "limits",
    "timeouts", "upstream", "known_hosts"] n
  return {
    listeners := ← r.getD? "proxy" Listeners.ofNode? {}
    hostKey := ← r.getD? "host_key" HostKeySettings.ofNode? {}
    identityPath := ← r.get? "identity_store" identityPathOfNode?
    gate := ← r.get? "approval" GateSettings.ofNode?
    quotas := ← r.getD? "limits" Quotas.ofNode? {}
    deadlines := ← r.getD? "timeouts" Deadlines.ofNode? {}
    forge := ← r.getD? "upstream" ForgeSettings.ofNode? {}
    pins := ← r.getD? "known_hosts" pinsOfNode? [] }

def ofText? (text : String) : Option Settings := (Node.ofText? text).bind ofNode?

/-- Why settings could not be loaded. -/
inductive LoadFault where
  | unreadable (path : String)
  | unparsable (path : String)
  | invalid (fault : SettingsFault)
  deriving DecidableEq, Repr

def LoadFault.message : LoadFault → String
  | .unreadable path => "failed to read config file: " ++ path
  | .unparsable path => "failed to parse config file: " ++ path
  | .invalid fault => fault.message

/-- The settings in the file at a path, given what it holds if it can be read. -/
def load (path : String) (contents : Option String) : Except LoadFault Settings :=
  match contents with
  | none => .error (.unreadable path)
  | some text =>
    match ofText? text with
    | none => .error (.unparsable path)
    | some s =>
      match s.validate with
      | .error fault => .error (.invalid fault)
      | .ok () => .ok s

end Settings

end ForgeGateway
