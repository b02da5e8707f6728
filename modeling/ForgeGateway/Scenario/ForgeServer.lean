import ForgeGateway.Forge.Opening
import ForgeGateway.Forge.Stream

/-! # A scripted forge and agent

`Site` is a forge that accepts some keys and plays a script once a command is started, together
with the agent that the client lends. `Site.ask` answers the requests of `Forge.Opening`, and
`Site.call` those on the open channel. What the gateway sends on the channel reaches the forge
when the gateway waits, not before; if it ends the connection first, the rest is lost. -/

namespace ForgeGateway.Scenario

open ForgeGateway.Agent (AgentError)
open ForgeGateway.Forge
open ForgeGateway.Relay (Failure ForgeRead)

inductive Signing where
  | proper
  /-- With something that is no signature. -/
  | wrong
  | refused
  deriving DecidableEq, Repr

/-- The agent that the client lends. -/
structure LentAgent where
  /-- The blobs of its keys, and comments. -/
  keys : List (Bytes × Bytes) := []
  /-- The blobs of keys that it can sign with. -/
  own : List Bytes := []
  signing : Signing := .proper
  refusesList : Bool := false
  refusesChannels : Bool := false

/-- What a forge does once its command is started. -/
inductive ForgeStep where
  | message (m : Message)
  /-- Nothing further until the gateway has ended its input. -/
  | awaitEof
  /-- Ends the channel. -/
  | close
  /-- Ends the connection. -/
  | disconnect
  deriving DecidableEq, Repr

/-- What forge and agent notice. -/
inductive SiteEvent where
  | list
  | sign (blob : Bytes) (flags : Nat)
  | offered (user : String) (key : Key.Public)
  | signed (user : String) (key : Key.Public)
  | openChannel
  | env (name value : String)
  | exec (command : String)
  | data (b : Bytes)
  | eof
  deriving DecidableEq, Repr

/-- A forge, an agent, and what has happened. -/
structure Site where
  hostKey : Bytes
  agent : LentAgent := {}
  /-- The blobs of keys that may log in. -/
  accepted : List Bytes := []
  /-- The blobs of keys that are refused before anything is signed. -/
  unwanted : List Bytes := []
  dropsOnOffer : Bool := false
  refusesChannel : Bool := false
  isDown : Bool := false
  steps : List ForgeStep := []
  /-- The key that was offered last, and what is to be signed with it. -/
  asked : Option (Key.Public × Bytes) := none
  user : String := ""
  dropped : Bool := false
  /-- What the gateway has sent and the forge has not seen yet. -/
  underway : List SiteEvent := []
  started : Bool := false
  inputEnded : Bool := false
  /-- What the gateway can read. -/
  queue : List Message := []
  /-- Nothing follows the queue. -/
  ended : Bool := false
  /-- The connection is over. -/
  gone : Bool := false
  stream : Stream := {}
  /-- What was noticed, latest first. -/
  log : List SiteEvent := []

namespace Site

def note (s : Site) (e : SiteEvent) : Site := { s with log := e :: s.log }

/-- What the gateway makes of an agent's answer. -/
def understood (r : Agent.Request) (response : Agent.Response) : Except AgentError Agent.Answer :=
  match Agent.Exchange.onChunk 0 r [] (.got (some response.encode)) with
  | .done o => o.result
  | .more _ => .error .channelClosed

/-- The agent is asked something. -/
def askAgent (s : Site) (e : SiteEvent) (r : Agent.Request) (response : Agent.Response) :
    Except AgentError Agent.Answer × Site :=
  if s.agent.refusesChannels then (.error .channelUnavailable, s)
  else (understood r response, s.note e)

/-- The signature that goes with data. -/
def properSignature (data : Bytes) : Agent.Signature := ⟨"signature", data⟩

/-- How the agent answers when it is to sign. -/
def signature (s : Site) (blob data : Bytes) : Agent.Response :=
  match s.agent.signing with
  | .refused => .failure
  | .wrong => .signature ⟨"signature", []⟩
  | .proper => if s.agent.own.contains blob then .signature (properSignature data) else .failure

def ask (s : Site) : (q : Ask Key.Public) → q.Answer × Site
  | .connect _ =>
    (if s.isDown then .error "Connection refused (os error 111)" else .ok s.hostKey, s)
  | .listKeys =>
    let response := if s.agent.refusesList then .failure
      else .identities (s.agent.keys.map fun (blob, comment) => ⟨"", blob, comment⟩)
    match s.askAgent .list .identities response with
    | (.error e, s) => (.error e, s)
    | (.ok (.identities keys), s) => (.ok keys, s)
    | (.ok (.signature _), s) => (.error (.unexpectedOpcode 14), s)
  | .offer user key =>
    if s.dropped then (.lost, s)
    else
      let data := Bytes.ofString user ++ key.blob
      let s := { s.note (.offered user key) with asked := some (key, data), user }
      if s.dropsOnOffer then (.rejected, { s with dropped := true })
      else if s.unwanted.contains key.blob then (.rejected, s)
      else (.wanted data, s)
  | .sign blob data flags =>
    match s.askAgent (.sign blob flags) (.sign blob data flags) (s.signature blob data) with
    | (.error e, s) => (.error e, s)
    | (.ok (.signature x), s) => (.ok x, s)
    | (.ok (.identities _), s) => (.error (.unexpectedOpcode 12), s)
  | .prove signed =>
    match s.asked with
    | some (key, data) =>
      if signed = Forge.Opening.signedData data (properSignature data) then
        (if s.accepted.contains key.blob then .accepted else .rejected,
          s.note (.signed s.user key))
      else (.rejected, s)
    | none => (.lost, s)
  | .openChannel =>
    (if s.refusesChannel then .error "Failed to open channel (AdministrativelyProhibited)"
      else .ok (), s.note .openChannel)
  | .setEnv name value => (.ok (), { s with underway := s.underway ++ [.env name value] })
  | .exec command => (.ok (), { s with underway := s.underway ++ [.exec command] })

/-- Opens the connection, in at most so many steps. -/
def openFrom (t : Target) :
    Nat → Site → Progress (Forge.Opening Key.Public) Forge.Opening.Result →
      Forge.Opening.Result × Site
  | _, s, .done r => (r, s)
  | 0, s, .more _ => (.error (Forge.Opening.lost t.host), s)
  | fuel + 1, s, .more stage =>
    let (answer, s) := s.ask (stage.request Key.Public.format t)
    openFrom t fuel s (stage.resume Key.Public.format t answer)

def connect (s : Site) (t : Target) (forwarding : Bool) : Forge.Opening.Result × Site :=
  openFrom t (3 * s.agent.keys.length + 8) s (Forge.Opening.start t forwarding)

/-! ### The open channel -/

/-- Plays the script as far as it goes. -/
def play (s : Site) : List ForgeStep → Site
  | [] => { s with steps := [] }
  | .message m :: rest => play { s with queue := s.queue ++ [m] } rest
  | .awaitEof :: rest =>
    if s.inputEnded then play s rest else { s with steps := .awaitEof :: rest }
  | .close :: rest => { s with ended := true, steps := rest }
  | .disconnect :: rest => { s with ended := true, gone := true, steps := rest }

/-- The forge sees what is underway, and acts. -/
def settle (s : Site) : Site :=
  let s := s.underway.foldl note
    { s with
      underway := []
      started := s.started || s.underway.any fun e => match e with
        | .exec _ => true
        | _ => false
      inputEnded := s.inputEnded || s.underway.contains .eof }
  if s.started && !s.ended then s.play s.steps else s

/-- What the gateway does with the open channel. -/
inductive Call where
  | receive
  | send (b : Bytes)
  | sendEof
  | close
  deriving DecidableEq, Repr

/-- What came of it. -/
inductive CallResult where
  | read (r : ForgeRead)
  | written (r : Except Failure Unit)
  /-- Nothing comes any more. -/
  | stuck

def post (s : Site) (e : SiteEvent) (failure : Failure) : CallResult × Site :=
  if s.gone then (.written (.error failure), s)
  else (.written (.ok ()), { s with underway := s.underway ++ [e] })

/-- Nothing in the queue is of interest. -/
def isIdle (s : Site) : Bool := s.queue.all fun m => m.read?.isNone

def call (s : Site) : Call → CallResult × Site
  | .receive =>
    let s := if s.isIdle then s.settle else s
    if s.isIdle && !s.ended then (.stuck, s)
    else
      let (r, stream, queue) := s.stream.read s.queue
      (.read r, { s with stream, queue })
  | .send b => s.post (.data b) (sendFailure "channel closed")
  | .sendEof => s.post .eof (eofFailure "Channel send error")
  | .close => (.written (.ok ()), { s with underway := [], ended := true })

def calls (s : Site) : List Call → List CallResult × Site
  | [] => ([], s)
  | c :: rest =>
    let (r, s) := s.call c
    let (rs, s) := s.calls rest
    (r :: rs, s)

end Site

end ForgeGateway.Scenario
