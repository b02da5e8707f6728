import ForgeGateway.Metrics.Registry
import ForgeGateway.Scenario.AgentChannel

/-! # A desk with a scripted client

`AgentWorld` is a desk together with the client that opens its channels. `AgentWorld.next?`
says which event comes by itself and when; `AgentWorld.apply` lets an event happen and carries
out its effects. `serve` runs a list of calls that arrive, and may be cancelled, at given
times. -/

namespace ForgeGateway.Scenario

open ForgeGateway.Agent

/-- How the client answers when a channel to its agent is asked for. -/
inductive Opening where
  | stall
  | refuse (delay : Time)
  | channel (delay : Time) (c : AgentChannel)
  deriving DecidableEq, Repr

/-- What shows of a desk from outside. Channels are numbered by the attempts to open one. -/
inductive DeskEvent where
  | openChannel (channel : Nat)
  | send (channel : Nat) (b : Bytes)
  | close (channel : Nat)
  deriving DecidableEq, Repr

/-- A desk, its client, and what happened so far. -/
structure AgentWorld where
  now : Time := 0
  timeouts : Timeouts := {}
  desk : Desk := {}
  /-- The client's answers to further attempts. -/
  openings : List Opening := []
  /-- What is answered when no script is left. -/
  otherwise : Opening := .refuse 0
  attempts : Nat := 0
  /-- When the present attempt is answered, if ever, and with which channel. -/
  attempt : Option Time × Option AgentChannel := (none, none)
  channel : AgentChannel := {}
  /-- How the last send went. -/
  sent : Except AgentError Unit := .ok ()
  /-- The channels of operations. -/
  numbers : List (Nat × Nat) := []
  /-- Channels that are open. -/
  openCount : Nat := 0
  maxOpen : Nat := 0
  /-- What happened, latest first. -/
  log : List (Time × DeskEvent) := []
  counted : List Metrics.Measurement := []
  /-- Results by operation, latest first. -/
  finished : List (Nat × Time × Except AgentError Answer) := []

namespace AgentWorld

/-- The number of an operation's channel. -/
def number (w : AgentWorld) (id : Nat) : Nat := (w.numbers.lookup id).getD 0

def note (w : AgentWorld) (e : DeskEvent) : AgentWorld := { w with log := (w.now, e) :: w.log }

/-- When an attempt that starts now is answered, and with which channel. -/
def answerOf (now : Time) : Opening → Option Time × Option AgentChannel
  | .stall => (none, none)
  | .refuse delay => (some (now + delay), none)
  | .channel delay c => (some (now + delay), some c)

def carryOut (w : AgentWorld) : Effect → AgentWorld
  | .refuse id e => { w with finished := (id, w.now, .error e) :: w.finished }
  | .openChannel id =>
    { w.note (.openChannel w.attempts) with
      attempt := answerOf w.now (w.openings.headD w.otherwise)
      openings := w.openings.tail
      attempts := w.attempts + 1
      numbers := (id, w.attempts) :: w.numbers }
  | .send id b =>
    let (sent, channel) := w.channel.send w.now
    { w.note (.send (w.number id) b) with sent, channel }
  | .close id => { w.note (.close (w.number id)) with openCount := w.openCount - 1 }
  | .finish id result => { w with finished := (id, w.now, result) :: w.finished }
  | .count operation ok => { w with counted := w.counted ++ [.agentOperation operation ok] }

/-- Takes the channel that the client has opened. -/
def obtain (w : AgentWorld) : AgentWorld :=
  match w.attempt.2 with
  | some channel =>
    { w with
      channel
      openCount := w.openCount + 1
      maxOpen := max w.maxOpen (w.openCount + 1) }
  | none => w

/-- How many chunks can come on all channels. -/
def chunkCount (w : AgentWorld) : Nat :=
  w.openings.foldr (fun o n => (match o with
    | .channel _ c => c.chunkCount
    | _ => 0) + n) w.channel.chunkCount

/-- Lets an event happen at a time. -/
def apply (w : AgentWorld) (t : Time) (e : Event) : AgentWorld :=
  let w := { w with now := t }
  let w := match e with
    | .opened (.got true) => w.obtain
    | .received (.got _) => { w with channel := w.channel.receive.2 }
    | _ => w
  let (desk, effects) := w.desk.step w.timeouts t e
  effects.foldl carryOut { w with desk }

/-- Something that is ready at a time, or late at its deadline. -/
def byDeadline {α : Type} (ready : Option Time) (deadline : Time) (a : α) : Time × Timed α :=
  match ready with
  | some t => if t ≤ deadline then (t, .got a) else (deadline, .late)
  | none => (deadline, .late)

/-- The event that comes next by itself, and when. -/
def next? (w : AgentWorld) : Option (Time × Event) :=
  if !w.desk.orphans.isEmpty then some (w.now, .sweep)
  else match w.desk.turn with
    | none => if w.desk.waiting.isEmpty then none else some (w.now, .grant)
    | some (_, _, .opening deadline) =>
      let (t, a) := byDeadline w.attempt.1 deadline w.attempt.2.isSome
      some (t, .opened a)
    | some (_, _, .sending _) => some (w.now, .sent (.got w.sent))
    | some (_, _, .receiving deadline _) =>
      let (t, a) := byDeadline (w.channel.ready? w.now) deadline w.channel.receive.1
      some (t, .received a)
    | some (_, _, .closing _) => some (w.now, .closed)

/-- The operation whose turn it is, or would be now. -/
def first? (w : AgentWorld) : Option Nat :=
  (w.desk.turn.map Prod.fst).or (w.desk.waiting.head?.map Prod.fst)

/-- What an operation can do at once while channels of cancelled ones are still to be closed. -/
def atOnce? (w : AgentWorld) (id : Nat) : Option (Time × Event) :=
  if w.first? = some id then
    ({ w with desk := { w.desk with orphans := [] } }.next?).filter (·.1 = w.now)
  else none

end AgentWorld

/-! ### Calls at given times -/

/-- A call: when it arrives, what it is for, and when it is cancelled. -/
structure Call where
  id : Nat
  arrival : Time
  request : Request
  cancel : Option Time
  deriving DecidableEq, Repr

inductive CallResult where
  | answer (result : Except AgentError Answer)
  | cancelled

/-- A desk with calls that have still to arrive and calls that may be cancelled. -/
structure Service where
  world : AgentWorld
  arrivals : List Call
  running : List Call := []
  results : List (Nat × Time × CallResult) := []

namespace Service

/-- The call that arrives next. -/
def nextArrival? (s : Service) : Option Call :=
  s.arrivals.foldl (fun best c =>
    match best with
    | none => some c
    | some b => if c.arrival < b.arrival then some c else some b) none

/-- The call that is cancelled next. -/
def nextCancel? (s : Service) : Option (Time × Call) :=
  s.running.foldl (fun best c =>
    match best, c.cancel with
    | none, some t => some (t, c)
    | some (u, b), some t => if t < u then some (t, c) else some (u, b)
    | best, none => best) none

/-- Lets an event happen and notes the results. -/
def happen (s : Service) (t : Time) (e : Event) : Service :=
  let w := s.world.apply t e
  let done := w.finished.map fun (id, t, r) => (id, t, CallResult.answer r)
  { s with
    world := { w with finished := [] }
    running := s.running.filter fun c => !done.any (·.1 = c.id)
    results := done ++ s.results }

def arrive (s : Service) (c : Call) : Service :=
  { s with
    arrivals := s.arrivals.filter (·.id ≠ c.id)
    running := s.running ++ [c] }.happen (max s.world.now c.arrival) (.arrive c.id c.request)

def cancel (s : Service) (t : Time) (c : Call) : Service :=
  { s with
    world := s.world.apply t (.cancel c.id)
    running := s.running.filter (·.id ≠ c.id)
    results := (c.id, t, .cancelled) :: s.results }

/-- `a` is not later than `b`, where nothing at all is later than everything. -/
def notLater : Option Time → Option Time → Bool
  | some a, some b => a ≤ b
  | some _, none => true
  | none, _ => false

/-- What happens next by itself, before the cancellation of a call. The deadlines of all calls
that are cancelled at one moment have passed before the channels that they leave are closed, and
such a call goes on as far as it can before it is given up. -/
def own? (s : Service) : Option (Time × Call) → Option (Time × Event)
  | some (t, c) =>
    if t = s.world.now && !s.world.desk.orphans.isEmpty then s.world.atOnce? c.id
    else s.world.next?
  | none => s.world.next?

/-- Runs until nothing happens any more. What comes by itself goes first, then arrivals, then
cancellations. -/
def run : Nat → Service → Service
  | 0, s => s
  | fuel + 1, s =>
    let arrival := s.nextArrival?
    let cancel := s.nextCancel?
    let own := s.own? cancel
    let ownTime := own.map Prod.fst
    let arrivalTime := arrival.map fun c => max s.world.now c.arrival
    let cancelTime := cancel.map fun c => max s.world.now c.1
    match own, arrival, cancel with
    | none, none, none => s
    | own, arrival, cancel =>
      if notLater ownTime arrivalTime && notLater ownTime cancelTime then
        match own with
        | some (t, e) => run fuel (s.happen t e)
        | none => s
      else if notLater arrivalTime cancelTime then
        match arrival with
        | some c => run fuel (s.arrive c)
        | none => s
      else
        match cancel with
        | some (_, c) => run fuel (s.cancel (cancelTime.getD 0) c)
        | none => s

/-- More than the number of events that there can be. -/
def patience (s : Service) : Nat :=
  10 * s.arrivals.length + s.world.chunkCount + 10

end Service

/-- Serves calls until nothing happens any more. -/
def serve (w : AgentWorld) (calls : List Call) : Service :=
  let s : Service := { world := w, arrivals := calls }
  s.run s.patience

end ForgeGateway.Scenario
