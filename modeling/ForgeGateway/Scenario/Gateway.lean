import ForgeGateway.Scenario.Visit
import ForgeGateway.Session.Watch

/-! # A gateway with several clients

Clients connect to a listening gateway, log in, and run one command on a channel of its own at
a time. The time that they have to log in passes only where a step says so. -/

namespace ForgeGateway.Scenario

structure Client where
  name : String
  connection : Connection
  watch : Session.Watch
  /-- What the client was told when the gateway ended the connection. -/
  farewells : List String := []

/-- A gateway and its clients. -/
structure Gateway where
  shared : Surroundings
  /-- How long a client may take to log in. -/
  loginTime : Time
  isListening : Bool := true
  clients : List Client := []

/-- What somebody does. -/
inductive GatewayStep where
  | connect (client : String)
  /-- The client tries to log in without a key. -/
  | plain (client : String)
  | auth (client : String) (blob : Bytes)
  /-- The client runs a command on a new channel, and sends some data and the end. -/
  | exec (client : String) (line data : Bytes)
  | leave (client : String)
  /-- The client looks whether its connection is gone. -/
  | gone (client : String)
  | advance (length : Time)
  /-- Somebody connects who is no proper client. -/
  | stray
  /-- The gateway stops listening. -/
  | shutdown
  deriving DecidableEq, Repr

inductive GatewayResult where
  | connected
  | refused
  | accepted (known : Bool)
  | received (events : List ChannelEvent)
  | left
  | gone (isGone : Bool) (farewells : List String)
  | advanced
  | greeted (came : Bool)
  | stopped
  | failed
  | noConnection
  deriving DecidableEq, Repr

namespace Gateway

/-- A client does something, or is dealt with. -/
def onClient (g : Gateway) (x : Client) (f : Connection → GatewayResult × Connection) :
    GatewayResult × Gateway :=
  let (r, connection) := f { x.connection with shared := g.shared }
  (r, { g with
    shared := connection.shared
    clients := g.clients.map fun y => if y.name = x.name then { y with connection } else y })

def client? (g : Gateway) (name : String) : Option Client := g.clients.find? (·.name == name)

/-- A client that is connected does something. -/
def withClient (g : Gateway) (name : String) (f : Connection → GatewayResult × Connection) :
    GatewayResult × Gateway :=
  match g.client? name with
  | none => (.noConnection, g)
  | some x => if x.connection.isUp then g.onClient x f else (.failed, g)

/-- Lets everything happen on a connection, however long it takes. -/
def exhaust : Nat → Connection → Connection
  | 0, c => c
  | fuel + 1, c =>
    match c.next? with
    | some (t, m) => exhaust fuel ((c.moveTo t).move m)
    | none => c

def runCommand (c : Connection) (line data : Bytes) : GatewayResult × Connection :=
  let name := toString c.channels.length
  match c.openChannel name with
  | (.opened, c) =>
    let input := (packets data).map fun b => ClientStep.data name b
    let steps := [ClientStep.exec name line] ++ input ++ [.eof name]
    let c := steps.foldl (fun c step => (c.act step).2) c
    let c := exhaust c.patience c
    (.received (((c.channel? name).map ClientChannel.events).getD []), c)
  | (_, c) => (.failed, c)

/-- A client's connection ends, and the client is forgotten. -/
def forget (g : Gateway) (name : String) : Gateway :=
  match g.client? name with
  | none => g
  | some x =>
    let (_, g) := g.onClient x fun c => (.left, c.hangUp.settle)
    { g with clients := g.clients.filter (·.name ≠ name) }

/-- Somebody connects under a name. -/
def welcome (g : Gateway) (name : String) : Gateway :=
  let g := g.forget name
  let connection := Connection.start g.shared []
  let watch := Session.Watch.greeting.greeted g.loginTime g.shared.now
  { g with
    shared := connection.shared
    clients := g.clients ++ [{ name, connection, watch }] }

/-- Looks at a client's watch. -/
def lookAt (g : Gateway) (name : String) : Gateway :=
  match g.client? name with
  | none => g
  | some x =>
    let (watch, late) := x.watch.look g.shared.now x.connection.session.authenticated
    let update := fun (y : Client) =>
      if y.name = name then
        { y with
          watch
          farewells := if late then y.farewells ++ [Session.Watch.lateText] else y.farewells }
      else y
    let g := { g with clients := g.clients.map update }
    if late && x.connection.isUp then (g.onClient x fun c => (.left, c.hangUp.settle)).2 else g

def advance (g : Gateway) (length : Time) : Gateway :=
  let t := g.shared.now + length
  let g := g.clients.foldl (fun g x => (g.onClient x fun c => (.advanced, c.runTo t)).2) g
  let g := { g with shared := { g.shared with now := t } }
  g.clients.foldl (fun g x => g.lookAt x.name) g

def act (g : Gateway) : GatewayStep → GatewayResult × Gateway
  | .connect name => if g.isListening then (.connected, g.welcome name) else (.refused, g)
  | .plain name => g.withClient name fun c => (.accepted false, c)
  | .auth name blob => g.withClient name fun c =>
    let (c, known) := c.feed (.offerKey blob)
    (.accepted known, c)
  | .exec name line data => g.withClient name fun c => runCommand c line data
  | .leave name =>
    if (g.client? name).isSome then (.left, g.forget name) else (.noConnection, g)
  | .gone name =>
    match g.client? name with
    | none => (.noConnection, g)
    | some x => (.gone (!x.connection.isUp) x.farewells, g)
  | .advance length => (.advanced, g.advance length)
  | .stray =>
    if g.isListening then
      (.greeted true, { g with shared := g.shared.count [.sessionOpened, .sessionClosed] })
    else (.greeted false, g)
  | .shutdown => (.stopped, { g with isListening := false })

/-- All clients leave. -/
def empty (g : Gateway) : Gateway := g.clients.foldl (fun g x => g.forget x.name) g

/-- One step after the other, until all clients leave. -/
def serve (g : Gateway) : List GatewayStep → List GatewayResult × Gateway
  | [] => ([], g.empty)
  | step :: rest =>
    let (r, g) := g.act step
    let (rs, g) := g.serve rest
    (r :: rs, g)

/-- An operator reads a page. -/
def page (g : Gateway) (o : Office) (method path : String) : Admin.Answer × Gateway :=
  match g.shared.outside with
  | .network gate location user pins =>
    let (a, gate) := o.answer g.shared.registry gate method path
    (a, { g with shared := { g.shared with outside := .network gate location user pins } })
  | .scripted _ => ({ status := 404 }, g)

end Gateway

end ForgeGateway.Scenario
