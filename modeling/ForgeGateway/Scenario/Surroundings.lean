import ForgeGateway.Forge.Opening
import ForgeGateway.Identity.Store
import ForgeGateway.Scenario.HttpPeer
import ForgeGateway.Scenario.Script

/-! # What all connections share

`Outside` is where the gate and the forges are: either a script for each repository, or a peer
that answers the gate's requests and forges that nobody can reach. `Surroundings` are the
outside, the clock, and what has been logged and counted. -/

namespace ForgeGateway.Scenario

open ForgeGateway.Relay

/-- What commands on a repository meet. -/
structure RepositoryScript where
  gate : GateScript := {}
  /-- What the client's agent is asked before the forge is connected. -/
  agentRequests : List Agent.Request := []
  forge : ForgeScript := {}

/-- How connecting to a forge goes: the agent is asked first, then comes the outcome; `none`
never comes. -/
structure DialPlan where
  agentRequests : List Agent.Request := []
  outcome : Option (Except Failure Unit) := some (.ok ())
  forge : ForgeScript := {}

/-- Where the gate and the forges are. -/
inductive Outside where
  | scripted (repositories : List (String × RepositoryScript))
  /-- The gate is at a location; the user name and the pins are those for all forges. -/
  | network (gate : HttpPeer) (location : String) (user : String) (pins : HostPins)

namespace Outside

def script (repositories : List (String × RepositoryScript)) (name : String) : RepositoryScript :=
  (repositories.lookup name).getD {}

/-- The gate is asked. -/
def consult (o : Outside) (r : Approval.Request) : GateScript × Outside :=
  match o with
  | .scripted repositories => ((script repositories r.repository).gate, o)
  | .network gate location user pins =>
    let (answer, gate) := gate.evaluate location r
    ({ answer }, .network gate location user pins)

/-- A forge is to be connected. -/
def dial (o : Outside) (d : Dial) : DialPlan :=
  match o with
  | .scripted repositories =>
    let s := script repositories d.target.repository
    if !s.agentRequests.isEmpty && !d.forwarding then
      { outcome := some (.error (.forge "no agent")) }
    else { agentRequests := s.agentRequests, forge := s.forge }
  | .network _ _ user pins =>
    let target : Forge.Target := ⟨d.target.host, user, d.gitProtocol, d.command, pins⟩
    let opening : Progress (Forge.Opening Key.Public) _ := Forge.Opening.start target d.forwarding
    match opening with
    | .done outcome => { outcome := some outcome }
    | .more _ => { outcome := none }

/-- More than the number of things that one command can do here, apart from its input. -/
def size : Outside → Nat
  | .scripted repositories =>
    repositories.foldr (fun (_, s) n => s.forge.steps.length + s.agentRequests.length + n) 0
  | .network _ _ _ _ => 0

end Outside

/-- Something that happened on a connection, as it shows from outside. The agent's channels
are numbered as they are opened. -/
inductive Sighting where
  | gate (r : Approval.Request)
  | dial (d : Dial)
  | agent (result : Except Agent.AgentError Agent.Answer)
  | send (b : Bytes) (ok : Bool)
  | sendEof (ok : Bool)
  | close
  | agentOpen (channel : Nat)
  | agentSend (channel : Nat) (b : Bytes)
  | agentEof (channel : Nat)

/-- What all connections share. -/
structure Surroundings where
  now : Time := 0
  outside : Outside
  limits : Limits := {}
  timeouts : Agent.Timeouts := {}
  store : Identity.Store := {}
  /-- What happened, latest first. -/
  log : List (Time × Sighting) := []
  counted : List Metrics.Measurement := []

namespace Surroundings

def note (s : Surroundings) (e : Sighting) : Surroundings := { s with log := (s.now, e) :: s.log }

def count (s : Surroundings) (ms : List Metrics.Measurement) : Surroundings :=
  { s with counted := s.counted ++ ms }

/-- Everything counted. -/
def registry (s : Surroundings) : Metrics.Registry := ({} : Metrics.Registry).recordAll s.counted

end Surroundings

end ForgeGateway.Scenario
