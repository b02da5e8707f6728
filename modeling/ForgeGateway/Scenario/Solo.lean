import ForgeGateway.Scenario.Script

/-! # One command in scripted surroundings

`World` holds the scripts, the clock and a log of what was asked. `World.ask` answers one
request: time passes until the answer is there, or until the deadline of the request. A run
that would have to wait for more than a day is cut off. -/

namespace ForgeGateway.Scenario

open ForgeGateway.Relay

/-- Something that was asked, as it shows from outside. -/
inductive Event where
  | gate (r : Approval.Request)
  | dial (d : Dial)
  | out (b : Bytes) (ok : Bool)
  | err (b : Bytes) (ok : Bool)
  | send (b : Bytes) (ok : Bool)
  | sendEof (ok : Bool)
  | close
  | finish (status : Nat)
  deriving DecidableEq, Repr

/-- The surroundings of a command. -/
structure World where
  now : Time := 0
  client : ClientScript := []
  forge : ForgeScript := {}
  gate : GateScript := {}
  dial : DialScript := {}
  sink : SinkScript := {}
  /-- What was asked, latest first. -/
  log : List (Time × Event) := []

namespace World

/-- A run is cut off after this time: one day. -/
def horizon : Time := 86400000

def note (w : World) (e : Event) : World := { w with log := (w.now, e) :: w.log }

/-- Moves the clock, if the day is not over by then. -/
def wait? (w : World) (t : Time) : Option World :=
  if t ≤ horizon then some { w with now := t } else none

/-- Waits until `ready` or the deadline, whichever is first; at the same time counts as ready. -/
def waitBy? (w : World) (ready : Option Time) (deadline : Time) : Option (World × Bool) :=
  match ready with
  | some t =>
    if t ≤ deadline then (w.wait? t).map (·, true) else (w.wait? deadline).map (·, false)
  | none => (w.wait? deadline).map (·, false)

def takeForge (w : World) : ForgeRead × World :=
  let (r, forge) := w.forge.take
  (r, { w with forge })

def takeClient (w : World) : Option ClientMessage × World :=
  let (m, client) := w.client.take
  (m, { w with client })

/-- Writes to the client's error stream, which takes no time. -/
def writeErr (w : World) (b : Bytes) : Except Failure Unit × World :=
  let (r, sink) := w.sink.err
  (r, { w with sink }.note (.err b (wentWell r)))

/-- Answers a request, unless the answer would take too long. -/
def ask (w : World) : (q : Request) → Option (World × q.Answer)
  | .consult r => do
    let w ← (w.note (.gate r)).wait? (w.now + w.gate.delay)
    return (w, w.gate.answer)
  | .dial d deadline => do
    let ready := w.dial.outcome.map fun o => w.now + o.1
    let (w, inTime) ← (w.note (.dial d)).waitBy? ready deadline
    return (w, if inTime then .got ((w.dial.outcome.map Prod.snd).getD (.ok ())) else .late)
  | .readForgeBy deadline => do
    let (w, inTime) ← w.waitBy? (w.forge.ready? w.now) deadline
    if inTime then
      let (r, w) := w.takeForge
      return (w, .got r)
    else return (w, .late)
  | .readForge => do
    let w ← w.wait? (← w.forge.ready? w.now)
    let (r, w) := w.takeForge
    return (w, r)
  | .readClientBy deadline => do
    let (w, inTime) ← w.waitBy? (w.client.ready? w.now) deadline
    if inTime then
      let (m, w) := w.takeClient
      return (w, .got m)
    else return (w, .late)
  | .readEither =>
    match w.client.ready? w.now, w.forge.ready? w.now with
    | none, none => none
    | some c, none => readClient w c
    | none, some f => readForge w f
    | some c, some f => if c ≤ f then readClient w c else readForge w f
  | .writeOut b =>
    let (r, sink) := w.sink.out
    some ({ w with sink }.note (.out b (wentWell r)), r)
  | .writeErr b =>
    let (r, w) := w.writeErr b
    some (w, r)
  | .writeErrBy b _ =>
    let (r, w) := w.writeErr b
    some (w, .got r)
  | .send b =>
    let (r, forge) := w.forge.send
    some ({ w with forge }.note (.send b (wentWell r)), r)
  | .sendEof =>
    let (r, forge) := w.forge.sendEof
    some ({ w with forge }.note (.sendEof (wentWell r)), r)
  | .close => some (w.note .close, ())
  | .finish status => some (w.note (.finish status), ())
where
  /-- Waits for the client. -/
  readClient (w : World) (t : Time) : Option (World × EitherRead) := do
    let w ← w.wait? t
    let (m, w) := w.takeClient
    return (w, .client m)
  /-- Waits for the forge. -/
  readForge (w : World) (t : Time) : Option (World × EitherRead) := do
    let w ← w.wait? t
    let (r, w) := w.takeForge
    return (w, .forge r)

/-- More than the number of requests that a command can make in these surroundings. -/
def patience (w : World) : Nat := 3 * (w.client.length + w.forge.steps.length) + 20

end World

/-- How a run ended. -/
structure Ended where
  /-- The exit status, unless the run was cut off. -/
  status : Option Nat
  world : World
  counted : List Metrics.Measurement

/-- Runs a command to its end, or until it is cut off. -/
def runFrom : Nat → World → Stage → List Metrics.Measurement → Ended
  | 0, w, _, counted => ⟨none, { w with now := World.horizon }, counted⟩
  | fuel + 1, w, s, counted =>
    match s with
    | .finished status => ⟨some status, w, counted⟩
    | .aborted => ⟨none, { w with now := World.horizon }, counted⟩
    | .active a =>
      match w.ask a.request with
      | none => ⟨none, { w with now := World.horizon }, counted⟩
      | some (w, answer) =>
        let (s, more) := a.resume w.now answer
        runFrom fuel w s (counted ++ more)

def runCommand (w : World) (context : Context) (limits : Limits) (raw : String) : Ended :=
  runFrom w.patience w (.start context limits raw w.now) []

/-! ### Parts of a push by themselves -/

/-- Reads the advertisement by a deadline; `none` if the run was cut off. -/
def prefetchFrom (limits : Limits) (deadline : Time) :
    Nat → World → Prefetch → World × Option Prefetch.Result
  | 0, w, _ => ({ w with now := World.horizon }, none)
  | fuel + 1, w, .reading buffer =>
    match w.ask (.readForgeBy deadline) with
    | none => ({ w with now := World.horizon }, none)
    | some (w, .late) => (w, some (.error (Prefetch.late limits)))
    | some (w, .got r) =>
      match Prefetch.onRead buffer r with
      | .done r => (w, some r)
      | .more s => prefetchFrom limits deadline fuel w s
  | fuel + 1, w, .passing buffer chunk =>
    match w.ask (.writeErrBy chunk deadline) with
    | none => ({ w with now := World.horizon }, none)
    | some (w, .late) => (w, some (.error (Prefetch.late limits)))
    | some (w, .got r) =>
      match Prefetch.onWritten buffer r with
      | .done r => (w, some r)
      | .more s => prefetchFrom limits deadline fuel w s

def prefetch (limits : Limits) (w : World) : World × Option Prefetch.Result :=
  prefetchFrom limits (w.now + limits.prefetch) w.patience w (.reading [])

/-- Takes in a pack; `none` if the run was cut off. -/
def capture (limits : Limits) (w : World) : World × Option Capture.Result :=
  match Capture.run limits w.now w.client.arrivals with
  | none => ({ w with now := World.horizon }, none)
  | some e =>
    if e.time ≤ World.horizon then
      ({ w with now := e.time, client := w.client.drop (w.client.length - e.left.length) },
        some e.result)
    else ({ w with now := World.horizon }, none)

end ForgeGateway.Scenario

namespace ForgeGateway.Relay

/-- What is left of each chunk of the forge's answer in turn. -/
def Skip.filterAll (s : Skip) : List Bytes → List Bytes
  | [] => []
  | chunk :: rest => (s.filter chunk).1 :: (s.filter chunk).2.filterAll rest

end ForgeGateway.Relay
