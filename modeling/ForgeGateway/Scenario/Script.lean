import ForgeGateway.Relay.Command

/-! # Scripted surroundings

A script says in advance what someone will do and when: the client, the forge, the gate, the
connection to the forge, and the client's output. Reading from a script means to wait until
its next item is there: `ready?` is the time when that is, if ever, and `take` removes it. -/

namespace ForgeGateway.Scenario

open ForgeGateway.Relay

/-! ### The client's input -/

/-- What the client does next on its channel. -/
inductive ClientAct where
  | send (m : ClientMessage)
  /-- The client goes away. -/
  | close
  deriving DecidableEq, Repr

/-- What the client does, in order, none of it before its time. -/
abbrev ClientScript := List (Time × ClientAct)

namespace ClientScript

/-- When the next message, or the end, can be read. -/
def ready? (s : ClientScript) (now : Time) : Option Time := s.head?.map fun (t, _) => max now t

/-- The next message, or `none` at the end. Nothing comes behind the end. -/
def take : ClientScript → Option ClientMessage × ClientScript
  | [] => (none, [])
  | (_, .send m) :: rest => (some m, rest)
  | s@((_, .close) :: _) => (none, s)

/-- What can be read, and when; `none` is the end. -/
def arrivals (s : ClientScript) : Arrivals (Option ClientMessage) :=
  s.map fun (t, act) => (t, match act with
    | .send m => some m
    | .close => none)

end ClientScript

/-! ### The forge -/

/-- Something that could fail did not. -/
def wentWell : Except Failure Unit → Bool
  | .ok () => true
  | .error _ => false

/-- What the forge's channel does next. -/
inductive ForgeAct where
  | yield (e : ForgeEvent)
  | fail (f : Failure)
  /-- Nothing further until the gateway has ended its input. -/
  | awaitEof
  /-- Never anything again. -/
  | stall
  deriving DecidableEq, Repr

/-- What the forge does, and how its input fails. The end of the list is a clean end. -/
structure ForgeScript where
  steps : List (Time × ForgeAct) := []
  /-- From which send on sending fails. -/
  failSendFrom : Option Nat := none
  sendFailure : Failure := .clientGone
  eofFailure : Option Failure := none
  sends : Nat := 0
  eofSent : Bool := false
  deriving Repr

namespace ForgeScript

/-- Goes past steps that only waited for the end of the input. -/
def settled (s : ForgeScript) : ForgeScript :=
  if s.eofSent then
    { s with steps := s.steps.dropWhile fun (_, a) => a == .awaitEof }
  else s

/-- When the next event, or the end, can be read. -/
def ready? (s : ForgeScript) (now : Time) : Option Time :=
  match s.settled.steps with
  | [] => some now
  | (_, .awaitEof) :: _ | (_, .stall) :: _ => none
  | (t, _) :: _ => some (max now t)

/-- The next event, or the end. -/
def take (s : ForgeScript) : ForgeRead × ForgeScript :=
  match s.settled.steps with
  | (_, .yield e) :: rest => (.ok (some e), { s with steps := rest })
  | (_, .fail f) :: rest => (.error f, { s with steps := rest })
  | rest => (.ok none, { s with steps := rest })

/-- Takes octets from the gateway. -/
def send (s : ForgeScript) : Except Failure Unit × ForgeScript :=
  let fails := match s.failSendFrom with
    | none => false
    | some n => n ≤ s.sends
  (if fails then .error s.sendFailure else .ok (), { s with sends := s.sends + 1 })

/-- Takes the end of the gateway's input. -/
def sendEof (s : ForgeScript) : Except Failure Unit × ForgeScript :=
  match s.eofFailure with
  | some f => (.error f, s)
  | none => (.ok (), { s with eofSent := true })

end ForgeScript

/-! ### The gate, the connection and the client's output -/

/-- The gate's answer and how long it takes. -/
structure GateScript where
  delay : Time := 0
  answer : Except Failure Approval.Verdict := .ok {}

/-- How connecting goes: `none` never ends. -/
structure DialScript where
  outcome : Option (Time × Except Failure Unit) := some (0, .ok ())

/-- From which call on writing to the client fails. -/
structure SinkScript where
  failOutFrom : Option Nat := none
  failErrFrom : Option Nat := none
  outCalls : Nat := 0
  errCalls : Nat := 0
  deriving DecidableEq, Repr

/-- Writing fails from call `from?` on. -/
def writeResult (from? : Option Nat) (calls : Nat) : Except Failure Unit :=
  match from? with
  | some n => if n ≤ calls then .error .clientGone else .ok ()
  | none => .ok ()

/-- Writes to the client's output. -/
def SinkScript.out (s : SinkScript) : Except Failure Unit × SinkScript :=
  (writeResult s.failOutFrom s.outCalls, { s with outCalls := s.outCalls + 1 })

/-- Writes to the client's error stream. -/
def SinkScript.err (s : SinkScript) : Except Failure Unit × SinkScript :=
  (writeResult s.failErrFrom s.errCalls, { s with errCalls := s.errCalls + 1 })

end ForgeGateway.Scenario
