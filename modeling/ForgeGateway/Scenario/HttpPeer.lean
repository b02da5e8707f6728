import ForgeGateway.Admin.Pages
import ForgeGateway.Approval.HttpGate

/-! # A scripted peer for requests

A peer at a given location answers every request in the same way, or fails to. Nobody answers
at any other location. -/

namespace ForgeGateway.Scenario

/-- What a peer does with a request. -/
inductive PeerAct where
  | answer (reply : Http.Reply)
  /-- Nothing listens. -/
  | refuse
  /-- The connection ends without an answer. -/
  | hangUp
  /-- No answer ever comes. -/
  | silence
  deriving DecidableEq, Repr

/-- A peer with the requests that it has received, the latest first. -/
structure HttpPeer where
  host : String
  tcpPort : Nat
  act : PeerAct
  seen : List Http.Request := []

namespace HttpPeer

/-- The location is at this peer. -/
def serves (p : HttpPeer) (u : Http.Url) : Bool :=
  u.scheme == "http" && u.host == some p.host && u.tcpPort.getD 80 = p.tcpPort

/-- The reply as it arrives: it may have no body, or be no final answer at all. -/
def arrives (method : String) (reply : Http.Reply) : Option Http.Reply :=
  if !reply.status.isWritten || reply.status.isInterim then none
  else if method == "HEAD" || reply.status.isBare then some { reply with body := [] }
  else some reply

/-- Sends a request to the location that a text names. -/
def send (p : HttpPeer) (location : String) (make : Http.Url → Http.Request) :
    Except Http.SendError Http.Reply × HttpPeer :=
  match Http.Url.reachable location with
  | .error e => (.error e, p)
  | .ok url =>
    if !p.serves url || p.act = .refuse then (.error (.failed url), p)
    else
      let request := make url
      let p := { p with seen := request :: p.seen }
      match p.act with
      | .answer reply =>
        match arrives request.method reply with
        | some reply => (.ok reply, p)
        | none => (.error (.failed url), p)
      | _ => (.error (.failed url), p)

/-- Asks the gate at a location for its verdict. -/
def evaluate (p : HttpPeer) (location : String) (r : Approval.Request) :
    Except Relay.Failure Approval.Verdict × HttpPeer :=
  let (reply, p) := p.send location r.toHttp
  (Approval.Verdict.ofReply reply, p)

end HttpPeer

/-! ### The pages for operators -/

/-- What the pages are about. -/
structure Office where
  userCount : Nat
  hostKey : HostKeySource
  gateLocation : String

/-- Answers a request for a page. -/
def Office.answer (o : Office) (r : Metrics.Registry) (p : HttpPeer) (method path : String) :
    Admin.Answer × HttpPeer :=
  match Admin.Page.requested method path with
  | .error a => (a.sent method, p)
  | .ok .metrics => ((Admin.Answer.ofMetrics r).sent method, p)
  | .ok .health =>
    let (reply, p) := p.send o.gateLocation fun url => { method := "HEAD", url }
    let health : Admin.Health :=
      ⟨o.hostKey, .ofUserCount o.userCount, .ofGate o.gateLocation reply⟩
    ((Admin.Answer.ofHealth health).sent method, p)

end ForgeGateway.Scenario
