import ForgeGateway.Agent.Desk

/-! # Scripted agent channels

Each message that is sent on a channel causes what its entry in the script says: a failure, or
chunks that can be read after some time, in order and behind those that are still unread. -/

namespace ForgeGateway.Scenario

open ForgeGateway.Agent

/-- What one send on a channel causes. -/
inductive SendScript where
  | fail (text : String)
  /-- Chunks with the time from the send on; `none` is the end of the channel. The agent may
  also close the channel after some time. -/
  | chunks (cs : List (Time × Option Bytes)) (closed : Option Time := none)
  deriving DecidableEq, Repr

/-- An agent's channel: what further sends will cause, and what can be read and when. -/
structure AgentChannel where
  sends : List SendScript := []
  queue : List (Time × Option Bytes) := []
  /-- When the agent closes the channel. -/
  closed : Option Time := none
  deriving DecidableEq, Repr

namespace AgentChannel

def send (c : AgentChannel) (now : Time) : Except AgentError Unit × AgentChannel :=
  match c.sends with
  | [] => (.ok (), c)
  | .fail text :: rest => (.error (.channel text), { c with sends := rest })
  | .chunks cs closed :: rest =>
    (.ok (),
      { sends := rest
        queue := c.queue ++ cs.map fun (after, b) => (now + after, b)
        closed := c.closed.or (closed.map (now + ·)) })

/-- How many chunks there can be. -/
def chunkCount (c : AgentChannel) : Nat :=
  c.sends.foldr (fun s n => (match s with
    | .chunks cs _ => cs.length
    | .fail _ => 0) + n) c.queue.length

def isClosed (c : AgentChannel) (now : Time) : Bool := c.closed.any (· ≤ now)

/-- When the next chunk, or the end, can be read. -/
def ready? (c : AgentChannel) (now : Time) : Option Time := c.queue.head?.map fun (t, _) => max now t

/-- Reads the next chunk. The end stays where it is. -/
def receive (c : AgentChannel) : Option Bytes × AgentChannel :=
  match c.queue with
  | (_, some b) :: rest => (some b, { c with queue := rest })
  | _ => (none, c)

end AgentChannel

/-! ### One proxy, one call after the other -/

/-- What is done with a channel. -/
inductive ProxyCall where
  /-- A request, given up after some time if it has no answer by then. -/
  | exchange (r : Request) (abandon : Option Time)
  | close
  | wait (length : Time)
  deriving DecidableEq, Repr

/-- What came of it. -/
inductive ProxyResult where
  | answer (result : Except AgentError Answer)
  | abandoned
  | closed
  | waited

/-- What a proxy does to its channel. -/
inductive ProxyEvent where
  | send (b : Bytes)
  | close
  deriving DecidableEq, Repr

/-- A proxy with its channel. -/
structure Proxy where
  now : Time := 0
  isOpen : Bool := true
  /-- What has come and has not been used. -/
  buffer : Bytes := []
  channel : AgentChannel := {}

namespace Proxy

/-- Until when an exchange goes on: up to its deadline, or until it is given up. -/
def lastTime (timeout : Time) (p : Proxy) (abandon : Option Time) : Time :=
  match abandon with
  | some a => min (p.now + a) (p.now + timeout)
  | none => p.now + timeout

/-- How far an exchange gets with its channel. -/
def reading (timeout : Time) (p : Proxy) (r : Request) (abandon : Option Time) :
    Reading (Option Bytes) Bytes Exchange.Outcome :=
  let (sent, channel) := p.channel.send p.now
  Exchange.upTo timeout r (p.lastTime timeout abandon) p.now (some (p.now, sent)) channel.queue

/-- Makes a request. What is in the buffer before is thrown away. -/
def exchange (timeout : Time) (p : Proxy) (r : Request) (abandon : Option Time) :
    Proxy × ProxyResult :=
  let e := p.reading timeout r abandon
  let buffer := match e.progress with
    | .done o => o.buffer
    | .more buffer => buffer
  ({ p with now := e.time, buffer, channel := { (p.channel.send p.now).2 with queue := e.left } },
    match e.progress with
    | .done o => .answer o.result
    | .more buffer =>
      if p.now + timeout ≤ p.lastTime timeout abandon then
        .answer ((Exchange.reader timeout r).late buffer).result
      else .abandoned)

def call (timeout : Time) (p : Proxy) : ProxyCall → Proxy × ProxyResult × List (Time × ProxyEvent)
  | .wait length => ({ p with now := p.now + length }, .waited, [])
  | .close =>
    ({ p with isOpen := false, buffer := [] }, .closed,
      if p.isOpen then [(p.now, .close)] else [])
  | .exchange r abandon =>
    if !p.isOpen then (p, .answer (.error .channelClosed), [])
    else
      let (q, result) := p.exchange timeout r abandon
      (q, result, [(p.now, .send r.encode)])

def calls (timeout : Time) (p : Proxy) :
    List ProxyCall → Proxy × List (Time × ProxyResult × List (Time × ProxyEvent))
  | [] => (p, [])
  | c :: rest =>
    let (p, result, log) := p.call timeout c
    let t := p.now
    let (p, more) := p.calls timeout rest
    (p, (t, result, log) :: more)

end Proxy

end ForgeGateway.Scenario
