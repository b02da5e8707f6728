import ForgeGateway.Agent.Desk
import ForgeGateway.Net.SocketAddress
import ForgeGateway.Relay.Request

/-! # Settings

What an operator can set, and what holds where nothing is set. Lengths of time are whole
seconds here; `Settings.relayLimits` are the limits of a single command. -/

namespace ForgeGateway

/-- Addresses to listen on. -/
structure Listeners where
  ssh : Net.SocketAddress := .v4 [0, 0, 0, 0] 2222
  admin : Net.SocketAddress := .v4 [127, 0, 0, 1] 9090
  deriving DecidableEq, Repr

/-- Where the gateway's own key comes from: a file, else the keyring. -/
structure HostKeySettings where
  path : Option String := none
  keyringName : String := "gitgate:ssh_host_key"
  deriving DecidableEq, Repr

/-- The gate that decides about every command. -/
structure GateSettings where
  url : String
  timeout : Nat := 120
  deriving DecidableEq, Repr

/-- Limits in numbers. -/
structure Quotas where
  packBytes : Nat := 1073741824
  packChunks : Nat := 10000
  authAttempts : Nat := 6
  deriving DecidableEq, Repr

/-- Limits in seconds. -/
structure Deadlines where
  session : Nat := 600
  agentRequest : Nat := 10
  agentChannelOpen : Nat := 5
  capabilityPrefetch : Nat := 30
  pushCapture : Nat := 300
  forgeConnect : Nat := 30
  deriving DecidableEq, Repr

/-- How forges are reached. -/
structure ForgeSettings where
  tcpPort : Nat := 22
  user : String := "git"
  deriving DecidableEq, Repr

structure Settings where
  listeners : Listeners := {}
  hostKey : HostKeySettings := {}
  /-- The file that lists the users. -/
  identityPath : String
  gate : GateSettings
  quotas : Quotas := {}
  deadlines : Deadlines := {}
  forge : ForgeSettings := {}
  /-- Hosts with the fingerprints that their keys may have. -/
  pins : List (String × List String) := []
  deriving DecidableEq, Repr

namespace Settings

/-- The limits of a command. -/
def relayLimits (s : Settings) : Relay.Limits where
  pack := ⟨s.quotas.packBytes, s.quotas.packChunks⟩
  prefetch := s.deadlines.capabilityPrefetch * 1000
  capture := s.deadlines.pushCapture * 1000
  connect := s.deadlines.forgeConnect * 1000

/-- The limits of an agent operation. -/
def agentTimeouts (s : Settings) : Agent.Timeouts where
  opening := s.deadlines.agentChannelOpen * 1000
  exchange := s.deadlines.agentRequest * 1000

end Settings

end ForgeGateway
