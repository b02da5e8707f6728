import ForgeGateway.Program
import ForgeGateway.Scenario.Gateway

/-! # A run of the whole program

The program starts with its arguments in a place with some files. If it gets as far as to
serve, clients and operators do something, and then a signal ends it. -/

namespace ForgeGateway.Scenario

/-- What somebody does while the program serves. -/
inductive ProgramStep where
  | gateway (step : GatewayStep)
  /-- An operator reads a page. -/
  | page (method path : String)
  deriving DecidableEq, Repr

/-- What comes of it. -/
inductive ProgramResult where
  | gateway (r : GatewayResult)
  | page (a : Admin.Answer)

/-- A program with its surroundings. -/
structure ProgramRun where
  args : List String
  /-- What the file at a path holds. -/
  read : String → Option String
  keyring : Option String := none
  gate : HttpPeer
  /-- A listener whose address somebody else uses. -/
  occupied : Option Listener := none
  signal : Program.Signal := .terminate

/-- What shows of a run. -/
structure ProgramReport where
  exitStatus : Nat
  /-- The line on standard error. -/
  error : Option String := none
  showsHelp : Bool := false
  records : List Record
  results : List ProgramResult := []
  /-- How many requests the gate's peer has received. -/
  gateRequests : Nat := 0

namespace ProgramRun

def gateway (p : ProgramRun) (s : Program.Service) : Gateway where
  shared := {
    outside := .network p.gate s.settings.gate.url s.settings.forge.user
      (HostPins.withOverrides s.settings.pins)
    limits := s.settings.relayLimits
    timeouts := s.settings.agentTimeouts
    store := s.users }
  loginTime := s.settings.deadlines.session * 1000
  isListening := p.occupied ≠ some .ssh

/-- One step after the other. -/
def act (o : Office) (g : Gateway) : List ProgramStep → List ProgramResult × Gateway
  | [] => ([], g)
  | .gateway step :: rest =>
    let (r, g) := g.act step
    let (rs, g) := act o g rest
    (.gateway r :: rs, g)
  | .page method path :: rest =>
    let (a, g) := g.page o method path
    let (rs, g) := act o g rest
    (.page a :: rs, g)

/-- The records of a listener that cannot be used. -/
def failures (s : Settings) : Option Listener → List Record
  | some .admin => [Listener.admin.failure s.listeners.admin.text]
  | some .ssh => [Listener.ssh.failure s.listeners.ssh.text]
  | none => []

def run (p : ProgramRun) (steps : List ProgramStep) : ProgramReport :=
  let start : Program.Start := Id.run (Program.start (fun path => pure (p.read path)) p.keyring p.args)
  match start.outcome with
  | .error fault =>
    { exitStatus := fault.exitStatus
      error := fault.line?
      showsHelp := fault = .usage .help
      records := start.records }
  | .ok s =>
    let office : Office := ⟨s.users.userCount, s.origin, s.settings.gate.url⟩
    let (results, g) := act office (p.gateway s) steps
    { exitStatus := 0
      records := start.records ++ failures s.settings p.occupied ++
        [p.signal.record, Program.stopped]
      results
      gateRequests := match g.shared.outside with
        | .network gate _ _ _ => gate.seen.length
        | .scripted _ => 0 }

end ProgramRun

end ForgeGateway.Scenario
