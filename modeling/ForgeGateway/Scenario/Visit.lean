import ForgeGateway.Scenario.Connection

/-! # A client's visit, step by step

A visit is what one client does on its connection. After every step everything happens that
needs no time, and then a millisecond passes. -/

namespace ForgeGateway.Scenario

/-- What a client does. Channels go by the names that the client gives them. -/
inductive ClientStep where
  /-- The client proves that it holds the key with this blob. -/
  | auth (blob : Bytes)
  | openChannel (name : String)
  /-- The client wants connections to be forwarded to it. -/
  | forward
  | setEnv (channel name value : String)
  | lendAgent (channel : String)
  | exec (channel : String) (line : Bytes)
  | data (channel : String) (b : Bytes)
  | eof (channel : String)
  | close (channel : String)
  | disconnect
  | wait (length : Time)
  deriving DecidableEq, Repr

inductive StepResult where
  | accepted (known : Bool)
  | opened
  | denied
  | sent
  | waited
  /-- The connection is gone, or has ended over this step. -/
  | failed
  /-- There is no channel of this name. -/
  | noChannel
  deriving DecidableEq, Repr

/-- What shows after a step. -/
structure StepReport where
  result : StepResult
  /-- What was received on which channel. -/
  channels : List (String × List ChannelEvent)
  log : List (Time × Sighting)
  /-- The number of sessions. -/
  active : Nat
  authenticated : Bool

namespace Connection

/-- How long a client waits for the refusal of its key. -/
def refusalDelay : Time := 1000

/-- The channel that the client knows by a name: the last one that it opened. -/
def channel? (c : Connection) (name : String) : Option ClientChannel :=
  c.channels.reverse.find? (·.name == name)

def arriveAll (c : Connection) (es : List Session.Event) : Connection := es.foldl arrive c

/-- The client sends something on a channel. What it sends on a channel that has ended is lost. -/
def onChannel (c : Connection) (name : String) (f : ClientChannel → Connection) :
    StepResult × Connection :=
  match c.channel? name with
  | none => (.noChannel, c)
  | some x => if !c.isUp then (.failed, c) else (.sent, if x.isOpen then f x else c)

/-- The client opens a channel, which ends the connection if it may not. -/
def openChannel (c : Connection) (name : String) : StepResult × Connection :=
  match c.feed .openChannel with
  | (c, true) =>
    (.opened, { c with channels := c.channels ++ [{ name, number := c.channels.length }] })
  | (c, false) => (.failed, c.hangUp)

/-- The client does something. -/
def act (c : Connection) : ClientStep → StepResult × Connection
  | .wait length => (.waited, c.runTo (c.now + length))
  | .setEnv channel name value =>
    c.onChannel channel fun x => c.arriveAll [.setEnv x.number name value]
  | .lendAgent channel => c.onChannel channel fun x => c.arriveAll [.lendAgent x.number]
  | .exec channel line => c.onChannel channel fun x => c.arriveAll [.exec x.number line]
  | .data channel b => c.onChannel channel fun x => c.arriveAll ((packets b).map (.data x.number))
  | .eof channel => c.onChannel channel fun x => c.arriveAll [.eof x.number]
  | .close channel => c.onChannel channel fun x => c.shut x.number
  | step =>
    if !c.isUp then (.failed, c)
    else match step with
      | .auth blob =>
        match c.feed (.offerKey blob) with
        | (c, true) => (.accepted true, c)
        | (c, false) => (.accepted false, c.runTo (c.now + refusalDelay))
      | .openChannel name => c.openChannel name
      | .forward =>
        if c.session.authenticated then (.denied, (c.feed .requestForward).1)
        else (.failed, c.hangUp)
      | _ => (.sent, c.hangUp)

/-- The client has looked at everything. -/
def look (c : Connection) : Connection :=
  { c with
    channels := c.channels.map fun x => { x with events := [] }
    shared := { c.shared with log := [] } }

/-- A step, and what shows after it. -/
def visitStep (c : Connection) (step : ClientStep) : StepReport × Connection :=
  let (result, c) := c.act step
  let c := c.settle
  let c := c.runTo (c.now + 1)
  ({ result
     channels := c.channels.filterMap fun x =>
       if x.events.isEmpty then none else some (x.name, x.events)
     log := c.shared.log.reverse
     active := c.shared.registry.activeSessions
     authenticated := c.session.authenticated }, c.look)

/-- Some steps, and what shows after each of them. -/
def visit (c : Connection) : List ClientStep → List StepReport × Connection
  | [] => ([], c)
  | step :: rest =>
    let (report, c) := c.visitStep step
    let (reports, c) := c.visit rest
    (report :: reports, c)

/-- The client leaves in the end. -/
def leave (c : Connection) : Connection :=
  let c := c.hangUp.settle
  c.runTo (c.now + 1)

end Connection

end ForgeGateway.Scenario
