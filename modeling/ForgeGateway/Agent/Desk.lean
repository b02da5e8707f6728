import ForgeGateway.Agent.Exchange
import ForgeGateway.Key.Blob

/-! # One operation at a time

A session's client lets its agent be used through short-lived channels: one operation, one
channel. The `Desk` serves the operations of a session in the order in which they came. The
operation whose turn it is asks for a channel, makes its exchange, and closes the channel
before the next one has its turn. A signature with a key that no agent can know is refused
before it waits. An operation can be cancelled at any time; a channel that it had is then left
to be closed by itself.

`Desk.step` takes in one `Event` and says which `Effect`s follow; an event that does not fit
the state changes nothing. -/

namespace ForgeGateway.Agent

/-- How long an operation may take for its channel and for its exchange. -/
structure Timeouts where
  opening : Time := 5000
  exchange : Time := 10000
  deriving DecidableEq, Repr

/-- The name under which an operation is counted. -/
def Request.operation : Request → String
  | .identities => "list_identities"
  | .sign .. => "sign"

/-- Why an operation is refused before it waits for its turn. -/
def Request.refusal? : Request → Option AgentError
  | .identities => none
  | .sign blob _ _ =>
    match Key.usable blob with
    | .ok _ => none
    | .error e => some e

/-- How far the operation is whose turn it is. -/
inductive Turn where
  /-- Its channel has been asked for. -/
  | opening (deadline : Time)
  /-- It has its channel and is to write its request. -/
  | sending (deadline : Time)
  | receiving (deadline : Time) (buffer : Bytes)
  /-- It has its result and is closing its channel. -/
  | closing (result : Except AgentError Answer)

/-- The operations of a session. They are told apart by numbers. -/
structure Desk where
  /-- Those that wait, in order. -/
  waiting : List (Nat × Request) := []
  /-- The one whose turn it is. -/
  turn : Option (Nat × Request × Turn) := none
  /-- Cancelled ones whose channels have still to be closed. -/
  orphans : List Nat := []

/-- What happens at a desk. -/
inductive Event where
  | arrive (id : Nat) (r : Request)
  /-- The next operation has its turn. -/
  | grant
  /-- The channel was opened, refused (`false`), or did not come in time. -/
  | opened (answer : Timed Bool)
  | sent (answer : Timed (Except AgentError Unit))
  | received (answer : Timed (Option Bytes))
  | closed
  | cancel (id : Nat)
  /-- The channel of a cancelled operation is closed. -/
  | sweep

/-- What a desk does. -/
inductive Effect where
  /-- An operation returns without having waited. -/
  | refuse (id : Nat) (e : AgentError)
  | openChannel (id : Nat)
  | send (id : Nat) (b : Bytes)
  | close (id : Nat)
  | finish (id : Nat) (result : Except AgentError Answer)
  | count (operation : String) (ok : Bool)

/-- The operation has a channel that nobody closes yet. -/
def Turn.holdsChannel : Turn → Bool
  | .opening _ | .closing _ => false
  | .sending _ | .receiving _ _ => true

namespace Desk

def isOk : Except AgentError Answer → Bool
  | .ok _ => true
  | .error _ => false

def finish (d : Desk) (id : Nat) (r : Request) (result : Except AgentError Answer) :
    Desk × List Effect :=
  ({ d with turn := none }, [.count r.operation (isOk result), .finish id result])

/-- After a step of the exchange. -/
def onProgress (d : Desk) (id : Nat) (r : Request) (deadline : Time) :
    Progress Bytes Exchange.Outcome → Desk × List Effect
  | .more buffer => ({ d with turn := some (id, r, .receiving deadline buffer) }, [])
  | .done o => ({ d with turn := some (id, r, .closing o.result) }, [.close id])

def cancel (d : Desk) (id : Nat) : Desk :=
  match d.turn with
  | some (j, _, turn) =>
    if j = id then
      { d with
        turn := none
        orphans := if turn.holdsChannel then d.orphans ++ [id] else d.orphans }
    else { d with waiting := d.waiting.filter (·.1 ≠ id) }
  | none => { d with waiting := d.waiting.filter (·.1 ≠ id) }

def step (t : Timeouts) (now : Time) (d : Desk) : Event → Desk × List Effect
  | .arrive id r =>
    match r.refusal? with
    | some e => (d, [.refuse id e])
    | none => ({ d with waiting := d.waiting ++ [(id, r)] }, [])
  | .grant =>
    match d.turn, d.waiting with
    | none, (id, r) :: rest =>
      ({ d with waiting := rest, turn := some (id, r, .opening (now + t.opening)) },
        [.openChannel id])
    | _, _ => (d, [])
  | .opened answer =>
    match d.turn with
    | some (id, r, .opening _) =>
      match answer with
      | .late => d.finish id r (.error (.openTimeout t.opening.nanos))
      | .got false => d.finish id r (.error .channelUnavailable)
      | .got true =>
        ({ d with turn := some (id, r, .sending (now + t.exchange)) }, [.send id r.encode])
    | _ => (d, [])
  | .sent answer =>
    match d.turn with
    | some (id, r, .sending deadline) => d.onProgress id r deadline (Exchange.onSent t.exchange r answer)
    | _ => (d, [])
  | .received answer =>
    match d.turn with
    | some (id, r, .receiving deadline buffer) =>
      d.onProgress id r deadline (Exchange.onChunk t.exchange r buffer answer)
    | _ => (d, [])
  | .closed =>
    match d.turn with
    | some (id, r, .closing result) => d.finish id r result
    | _ => (d, [])
  | .cancel id => (d.cancel id, [])
  | .sweep =>
    match d.orphans with
    | id :: rest => ({ d with orphans := rest }, [.close id])
    | [] => (d, [])

end Desk

end ForgeGateway.Agent
