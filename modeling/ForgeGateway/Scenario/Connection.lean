import ForgeGateway.Scenario.AgentDesk
import ForgeGateway.Scenario.Surroundings
import ForgeGateway.Session

/-! # One client's connection

A `Connection` is a session with its client, the commands that run in it, and the desk for the
client's agent. `Connection.next?` says what happens next by itself and when, and
`Connection.runTo` lets time pass. Of things that happen at the same time those of commands
come first, then those of the desk, then what the client sees of them, and last what the
client's agent does. While the session is held up (`Session.holdsUp`), what the client sends
waits in `arrivals` and what commands write to it in `outbox`; `Connection.takeIn` goes on with
both. -/

namespace ForgeGateway.Scenario

open ForgeGateway.Relay

/-- What a client receives on a channel. -/
inductive ChannelEvent where
  | success
  | data (b : Bytes)
  | stderr (b : Bytes)
  | exit (status : Nat)
  | eof
  deriving DecidableEq, Repr

/-- A channel as its client knows it. -/
structure ClientChannel where
  name : String
  number : Nat
  isOpen : Bool := true
  /-- What has been received since the client last looked. -/
  events : List ChannelEvent := []
  deriving DecidableEq, Repr

/-- A command that runs. -/
structure Task where
  /-- Its number in the session. -/
  number : Nat
  channel : Nat
  stage : Active
  /-- The gate's answer, and when it comes. -/
  verdict : Time × Except Failure Approval.Verdict := (0, .ok {})
  /-- What the agent has still to be asked before the forge is connected. -/
  agentRequests : List Agent.Request := []
  /-- What the agent is being asked. -/
  operation : Option Nat := none
  /-- How connecting ends when the agent has answered. -/
  outcome : Option (Except Failure Unit) := none
  /-- How connecting has ended. -/
  dialled : Option (Except Failure Unit) := none
  forge : ForgeScript := {}

/-- Something that a command has written to its client. -/
structure Posting where
  channel : Nat
  events : List ChannelEvent
  /-- The channel ends with it. -/
  isLast : Bool := false
  deriving DecidableEq, Repr

/-- How many messages a command sends for it. -/
def Posting.messages (p : Posting) : Nat := if p.isLast then 3 else 1

/-- A session with its surroundings. -/
structure Connection where
  shared : Surroundings
  session : Session := {}
  isUp : Bool := true
  /-- What the client has sent and the session has not taken in. -/
  arrivals : List Session.Event := []
  /-- What commands have written since the session is held up. -/
  outbox : List Posting := []
  channels : List ClientChannel := []
  tasks : List Task := []
  desk : AgentWorld := {}
  /-- How often the agent was to be asked something. -/
  operations : Nat := 0
  /-- Channels to the agent whose end the client has not seen yet. -/
  closing : List Nat := []

/-- The most octets that one message carries. -/
def packetSize : Nat := 32768

/-- The messages that carry some octets. -/
def packetsFrom : Nat → Bytes → List Bytes
  | 0, _ => []
  | _ + 1, [] => []
  | fuel + 1, b => b.take packetSize :: packetsFrom fuel (b.drop packetSize)

/-- The messages that carry some octets. -/
def packets (b : Bytes) : List Bytes := packetsFrom (b.length / packetSize + 1) b

namespace Connection

def now (c : Connection) : Time := c.shared.now

def note (c : Connection) (e : Sighting) : Connection := { c with shared := c.shared.note e }

def moveTo (c : Connection) (t : Time) : Connection :=
  { c with shared := { c.shared with now := max c.now t } }

/-- The client receives something, if its channel is still open. -/
def deliver (c : Connection) (channel : Nat) (es : List ChannelEvent) : Connection :=
  if !c.isUp then c
  else
    { c with channels := c.channels.map fun x =>
        if x.isOpen && x.number = channel then { x with events := x.events ++ es } else x }

def isHeldUp (c : Connection) : Bool := !c.arrivals.isEmpty

/-- A channel ends for both sides. The session gets to know of it behind all that has come. -/
def shut (c : Connection) (channel : Nat) : Connection :=
  let channels := c.channels.map fun x =>
    if x.number = channel then { x with isOpen := false } else x
  let c := { c with channels }
  if c.isHeldUp then { c with arrivals := c.arrivals ++ [.close channel] }
  else { c with session := (c.session.step c.shared.store (.close channel)).1 }

/-- The session passes on what a command has written. -/
def passOn (c : Connection) (p : Posting) : Connection :=
  let c := c.deliver p.channel p.events
  if p.isLast then c.shut p.channel else c

/-- A command writes something. -/
def post (c : Connection) (p : Posting) : Connection :=
  if c.isHeldUp then { c with outbox := c.outbox ++ [p] } else c.passOn p

/-- How many messages of commands the session lets wait. -/
def outboxCapacity : Nat := 10

/-- A command can write `n` messages at once. -/
def hasRoom (c : Connection) (n : Nat) : Bool :=
  !c.isHeldUp || (c.outbox.foldr (fun p k => p.messages + k) n ≤ outboxCapacity)

def put (c : Connection) (t : Task) : Connection :=
  { c with tasks := c.tasks.map fun x => if x.number = t.number then t else x }

/-! ### The client's agent -/

/-- The client notices what the desk has done, while it is there. -/
def noticeDesk (c : Connection) (e : DeskEvent) : Connection :=
  if !c.isUp then c
  else match e with
    | .openChannel n => c.note (.agentOpen n)
    | .send n b => c.note (.agentSend n b)
    | .close n =>
      if c.desk.channel.isClosed c.now then c else { c with closing := c.closing ++ [n] }

/-- The next thing to be asked before the forge is connected, or how that ends. -/
def askNext (c : Connection) (t : Task) : Connection :=
  match t.agentRequests with
  | [] => c.put { t with operation := none, dialled := t.outcome }
  | r :: rest =>
    match r.refusal? with
    | some e =>
      (c.note (.agent (.error e))).put
        { t with operation := none, agentRequests := [], dialled := some (.error (.ofAgent e)) }
    | none =>
      { c.put { t with operation := some c.operations, agentRequests := rest } with
        operations := c.operations + 1
        desk := c.desk.apply c.now (.arrive c.operations r) }

/-- The agent has answered. -/
def onAgent (c : Connection) (id : Nat) (result : Except Agent.AgentError Agent.Answer) :
    Connection :=
  match c.tasks.find? fun t => t.operation = some id with
  | none => c
  | some t =>
    let c := c.note (.agent result)
    match result with
    | .ok _ => c.askNext t
    | .error e => c.put { t with operation := none, dialled := some (.error (.ofAgent e)) }

/-- Lets something happen at the desk. -/
def applyDesk (c : Connection) (e : Agent.Event) : Connection :=
  let desk := c.desk.apply c.now e
  let c :=
    { c with
      desk := { desk with log := [], counted := [], finished := [] }
      shared := c.shared.count desk.counted }
  let c := (desk.log.reverse.map Prod.snd).foldl noticeDesk c
  desk.finished.reverse.foldl (fun c (id, _, result) => c.onAgent id result) c

/-! ### Commands -/

/-- A command makes its request. -/
def beginRequest (c : Connection) (t : Task) : Connection :=
  match t.stage.request with
  | .consult r =>
    let (script, outside) := c.shared.outside.consult r
    { c with shared := { c.shared with outside }.note (.gate r) }.put
      { t with verdict := (c.now + script.delay, script.answer) }
  | .dial d _ =>
    let plan := c.shared.outside.dial d
    (c.note (.dial d)).askNext
      { t with
        agentRequests := plan.agentRequests, outcome := plan.outcome, dialled := none,
        forge := plan.forge }
  | _ => c.put t

/-- When the answer to a command's request is there. -/
def due? (c : Connection) (t : Task) : Option Time :=
  let hasInput := (c.session.inputs[t.number]?.bind Session.Input.next?).isSome
  match t.stage.request with
  | .consult _ => some t.verdict.1
  | .dial _ deadline => if t.dialled.isSome then some c.now else some deadline
  | .readForgeBy deadline =>
    some (match t.forge.ready? c.now with
      | some ready => min ready deadline
      | none => deadline)
  | .readForge => t.forge.ready? c.now
  | .readClientBy deadline => if hasInput then some c.now else some deadline
  | .readEither => if hasInput then some c.now else t.forge.ready? c.now
  | .writeOut _ | .writeErr _ => if c.hasRoom 1 then some c.now else none
  | .writeErrBy _ deadline => if c.hasRoom 1 then some c.now else some deadline
  | .finish _ => if c.hasRoom 3 then some c.now else none
  | _ => some c.now

/-- A command takes the client's next message, if there is one. -/
def takeInput (c : Connection) (t : Task) : Option (Option ClientMessage) × Connection :=
  let (session, effects) := c.session.step c.shared.store (.take t.number)
  (effects.findSome? fun e => match e with
    | .give _ m => some m
    | _ => none, { c with session })

/-- A command reads from the forge. -/
def takeForge (c : Connection) (t : Task) : ForgeRead × Task × Connection :=
  let (r, forge) := t.forge.take
  (r, { t with forge }, c)

def write (c : Connection) (t : Task) (es : List ChannelEvent) : Except Failure Unit × Connection :=
  if c.isUp then (.ok (), c.post ⟨t.channel, es, false⟩) else (.error .clientGone, c)

def answer (c : Connection) (t : Task) : (q : Request) → q.Answer × Task × Connection
  | .consult _ => (t.verdict.2, t, c)
  | .dial _ _ =>
    match t.dialled, t.operation with
    | some result, _ => (.got result, t, c)
    | none, some id =>
      -- the agent is still asked at the deadline, if it has just become free
      let c := if c.desk.first? = some id then c.applyDesk .grant else c
      (.late, { t with operation := none, agentRequests := [] }, c.applyDesk (.cancel id))
    | none, none => (.late, t, c)
  | .readForgeBy _ =>
    if (t.forge.ready? c.now).any (· ≤ c.now) then
      let (r, t, c) := c.takeForge t
      (.got r, t, c)
    else (.late, t, c)
  | .readForge => c.takeForge t
  | .readClientBy _ =>
    match c.takeInput t with
    | (some m, c) => (.got m, t, c)
    | (none, c) => (.late, t, c)
  | .readEither =>
    match c.takeInput t with
    | (some m, c) => (.client m, t, c)
    | (none, c) =>
      let (r, t, c) := c.takeForge t
      (.forge r, t, c)
  | .writeOut b =>
    let (r, c) := c.write t ((packets b).map .data)
    (r, t, c)
  | .writeErr b =>
    let (r, c) := c.write t ((packets b).map .stderr)
    (r, t, c)
  | .writeErrBy b _ =>
    if c.hasRoom 1 then
      let (r, c) := c.write t ((packets b).map .stderr)
      (.got r, t, c)
    else (.late, t, c)
  | .send b =>
    let (r, forge) := t.forge.send
    (r, { t with forge }, c.note (.send b (wentWell r)))
  | .sendEof =>
    let (r, forge) := t.forge.sendEof
    (r, { t with forge }, c.note (.sendEof (wentWell r)))
  | .close => ((), t, c.note .close)
  | .finish status => ((), t, c.post ⟨t.channel, [.exit status, .eof], true⟩)

/-- A command has ended. -/
def drop (c : Connection) (t : Task) : Connection :=
  { c with
    tasks := c.tasks.filter (·.number ≠ t.number)
    session := (c.session.step c.shared.store (.ended t.number)).1 }

/-- A command goes on. -/
def turn (c : Connection) (t : Task) : Connection :=
  let (a, u, c) := c.answer t t.stage.request
  let (stage, counted) := t.stage.resume c.now a
  let c := { c with shared := c.shared.count counted }
  match stage with
  | .active stage => c.beginRequest { u with stage }
  | .finished _ | .aborted => c.drop u

/-- Carries out what follows in the session. -/
def carryOut (c : Connection) : Session.Effect → Connection
  | .count m => { c with shared := c.shared.count [m] }
  | .confirm channel => c.deliver channel [.success]
  | .refuse channel text =>
    (c.deliver channel [.stderr (Bytes.ofString text), .exit 1, .eof]).shut channel
  | .start number line context =>
    match Stage.start context c.shared.limits line c.now with
    | .active stage =>
      let channel := (c.session.inputs[number]?.map Session.Input.channel).getD 0
      let t : Task := { number, channel, stage }
      { c with tasks := c.tasks ++ [t] }.beginRequest t
    | _ => c
  | .grant _ | .attachAgent | .give _ _ => c

/-- Something happens in the session; says whether it was granted. -/
def feed (c : Connection) (e : Session.Event) : Connection × Bool :=
  let (session, effects) := c.session.step c.shared.store e
  (effects.foldl carryOut { c with session }, effects.contains (.grant true))

/-- Takes in what the client has sent, until the session is held up. What commands have written
meanwhile goes first. -/
def takeInFrom : Nat → Connection → Connection
  | 0, c => c
  | fuel + 1, c =>
    match c.arrivals with
    | [] => c
    | e :: _ =>
      if c.session.holdsUp e then c
      else
        let c := c.outbox.foldl passOn { c with outbox := [] }
        takeInFrom fuel (({ c with arrivals := c.arrivals.tail }).feed e).1

/-- Takes in what the client has sent, until the session is held up. Each posting and each thing
that arrives ends at most one channel. -/
def takeIn (c : Connection) : Connection :=
  takeInFrom (2 * (c.arrivals.length + c.outbox.length)) c

/-- The client sends something. -/
def arrive (c : Connection) (e : Session.Event) : Connection :=
  { c with arrivals := c.arrivals ++ [e] }.takeIn

/-! ### Time -/

/-- What can happen by itself. -/
inductive Move where
  | desk (e : Agent.Event)
  | task (t : Task)
  /-- The client sees the ends of channels to its agent. -/
  | seeEnds

/-- The client's agent has no part in this. -/
def isOwn : Agent.Event → Bool
  | .opened _ | .received _ => false
  | _ => true

/-- The first of the earliest. -/
def earliest (moves : List (Time × Move)) : Option (Time × Move) :=
  moves.foldl (fun best m =>
    match best with
    | some b => if m.1 < b.1 then some m else some b
    | none => some m) none

/-- What happens next by itself, and when. -/
def next? (c : Connection) : Option (Time × Move) :=
  let desk := { c.desk with now := c.now, timeouts := c.shared.timeouts }.next?
  let (own, other) := (desk.toList.partition fun (_, e) => isOwn e)
  let ofDesk := fun (x : Time × Agent.Event) => (x.1, Move.desk x.2)
  let tasks := c.tasks.filterMap fun t => (c.due? t).map fun u => (max c.now u, Move.task t)
  let ends := if c.closing.isEmpty then [] else [(c.now, Move.seeEnds)]
  earliest (tasks ++ own.map ofDesk ++ ends ++ other.map ofDesk)

def move (c : Connection) : Move → Connection
  | .desk e => c.applyDesk e
  | .task t => (c.turn t).takeIn
  | .seeEnds =>
    let closing := c.closing
    let c := { c with closing := [] }
    if c.isUp then closing.foldl (fun c n => c.note (.agentEof n)) c else c

/-- Lets time pass up to a given time. -/
def runFrom : Nat → Time → Connection → Connection
  | 0, t, c => c.moveTo t
  | fuel + 1, t, c =>
    match c.next? with
    | some (u, m) => if u ≤ t then runFrom fuel t ((c.moveTo u).move m) else c.moveTo t
    | none => c.moveTo t

/-- More than the number of things that can happen by themselves. -/
def patience (c : Connection) : Nat :=
  let input := c.session.inputs.foldr (fun i n => i.queue.length + n) 0
  let forges := c.tasks.foldr (fun t n => t.forge.steps.length + t.agentRequests.length + n) 0
  16 * (c.tasks.length + c.arrivals.length + 1) * (c.shared.outside.size + 4) + 16 * forges +
    4 * (input + c.arrivals.length + c.desk.chunkCount) + 64

/-- Lets time pass up to a given time. -/
def runTo (c : Connection) (t : Time) : Connection := runFrom c.patience t c

/-- Lets everything happen that needs no time. -/
def settle (c : Connection) : Connection := c.runTo c.now

def hangUp (c : Connection) : Connection :=
  if !c.isUp then c
  else
    let c := (c.feed .hangUp).1
    { c with
      isUp := false
      arrivals := []
      outbox := []
      desk := { c.desk with
        openings := [], otherwise := .refuse 0
        channel := { queue := [(c.now, none)], closed := some c.now } } }

def start (shared : Surroundings) (agent : List AgentChannel) : Connection :=
  { shared := shared.count [.sessionOpened]
    desk := { timeouts := shared.timeouts
              openings := agent.map (.channel 0), otherwise := .channel 0 {} } }

end Connection

end ForgeGateway.Scenario
