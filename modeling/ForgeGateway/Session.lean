import ForgeGateway.Bytes.Utf8
import ForgeGateway.Identity.Store
import ForgeGateway.Key.Blob
import ForgeGateway.Relay.Flow

/-! # Sessions

A session is one client's connection. The key that the client proves decides who it is; it may
then open channels and run one command on each. What it sends on a channel goes into the
`Input` of the command that runs there, and the command takes it from there in order.

`Session.step` takes in one `Event`, of the client or of a command, and says which `Effect`s
follow. Commands are numbered in the order in which they start. While too much waits for one
command, the session takes in nothing from its client (`Session.holdsUp`). -/

namespace ForgeGateway

open ForgeGateway.Metrics (Measurement)
open ForgeGateway.Relay (ClientMessage Context)

/-- What the client sends to one command. -/
structure Session.Input where
  channel : Nat
  /-- What has come and has not been taken. -/
  queue : List ClientMessage := []
  /-- More may come. -/
  isOpen : Bool := true
  /-- The command has not ended. -/
  isRead : Bool := true
  deriving DecidableEq, Repr

/-- What is known of a client, and the inputs of all its commands. -/
structure Session where
  user : Option User := none
  /-- The client has proven a known key. -/
  authenticated : Bool := false
  /-- The client lets its agent be used. -/
  lendsAgent : Bool := false
  /-- The version of Git's protocol that the client asks for. -/
  gitProtocol : Option String := none
  inputs : List Session.Input := []
  deriving DecidableEq, Repr

namespace Session

/-- What happens in a session. -/
inductive Event where
  /-- The client has proven that it holds the key with this blob. -/
  | offerKey (blob : Bytes)
  | openChannel
  /-- The client wants connections to be forwarded to it. -/
  | requestForward
  | setEnv (channel : Nat) (name value : String)
  | lendAgent (channel : Nat)
  | exec (channel : Nat) (line : Bytes)
  | data (channel : Nat) (b : Bytes)
  | eof (channel : Nat)
  | close (channel : Nat)
  /-- The client is gone. -/
  | hangUp
  /-- A command takes the next message, if there is one. -/
  | take (command : Nat)
  /-- A command has ended. -/
  | ended (command : Nat)
  deriving DecidableEq, Repr

/-- What follows from an event. -/
inductive Effect where
  | count (m : Measurement)
  /-- The answer to a key, or to the request for a channel or for forwarding. -/
  | grant (allowed : Bool)
  /-- The client's agent can be used from now on. -/
  | attachAgent
  /-- The exec line is taken. -/
  | confirm (channel : Nat)
  | start (command : Nat) (line : String) (context : Context)
  /-- The exec line is not taken: the text is shown, and the channel ends with status 1. -/
  | refuse (channel : Nat) (text : String)
  /-- The command gets a message, or `none` after the last one. -/
  | give (command : Nat) (m : Option ClientMessage)
  deriving DecidableEq, Repr

def owner? (store : Identity.Store) (blob : Bytes) : Option User :=
  match Key.wireText blob with
  | .ok wire => store.find? wire
  | .error _ => none

/-- The name under which clients set the version of Git's protocol. -/
def protocolVariable : String := "GIT_PROTOCOL"

/-- What a client that has proven no key is told. -/
def unauthenticatedText : String := "not authenticated\n"

/-- What a client is told that wants a second command on a channel. -/
def secondCommandText : String := "only one command per channel\n"

/-- The number of the command whose input is open on a channel. -/
def commandOn? (s : Session) (channel : Nat) : Option Nat :=
  s.inputs.findIdx? fun i => i.isOpen && i.channel == channel

def onInput (s : Session) (command : Nat) (f : Input → Input) : Session :=
  { s with inputs := s.inputs.modify command f }

/-- How many messages may wait for a command. -/
def inputCapacity : Nat := 256

/-- Nothing more can wait for the command. -/
def Input.isFull (i : Input) : Bool := i.isRead && inputCapacity ≤ i.queue.length

/-- Something from the client has to wait, and all that comes behind it, until the command for
which it is has taken a message or has ended. -/
def holdsUp (s : Session) : Event → Bool
  | .data channel _ | .eof channel =>
    ((s.commandOn? channel).bind (s.inputs[·]?)).any Input.isFull
  | _ => false

/-- Something arrives for a command; if that has ended, nothing more is kept for it. -/
def Input.push (m : ClientMessage) (i : Input) : Input :=
  if i.isRead then { i with queue := i.queue ++ [m] } else { i with isOpen := false }

/-- The end arrives for a command. -/
def Input.pushEof (i : Input) : Input :=
  if i.isRead then { i with queue := i.queue ++ [.eof] } else i

/-- Nothing more arrives for a command. -/
def Input.shut (i : Input) : Input := { i with isOpen := false }

/-- The command has ended. -/
def Input.abandon (i : Input) : Input := { i with queue := [], isRead := false }

/-- What the command can take: a message, the end, or nothing as yet. -/
def Input.next? (i : Input) : Option (Option ClientMessage) :=
  match i.queue with
  | m :: _ => some (some m)
  | [] => if i.isOpen then none else some none

/-- The input of a command changes, if one runs on the channel. -/
def onChannel (s : Session) (channel : Nat) (f : Input → Input) : Session :=
  match s.commandOn? channel with
  | some n => s.onInput n f
  | none => s

def offerKey (store : Identity.Store) (s : Session) (blob : Bytes) : Session × List Effect :=
  match owner? store blob with
  | some user =>
    ({ s with user := some user, authenticated := true },
      [.count (.authAttempt true), .grant true])
  | none => (s, [.count (.authAttempt false), .grant false])

/-- A command is asked for. -/
def exec (s : Session) (channel : Nat) (line : Bytes) : Session × List Effect :=
  match s.user with
  | none => (s, [.refuse channel unauthenticatedText])
  | some user =>
    if (s.commandOn? channel).isSome then (s, [.refuse channel secondCommandText])
    else
      ({ s with inputs := s.inputs ++ [{ channel }] },
        [.confirm channel,
          .start s.inputs.length (Utf8.lossy line) ⟨user, s.lendsAgent, s.gitProtocol⟩])

def take (s : Session) (command : Nat) : Session × List Effect :=
  match s.inputs[command]? with
  | none => (s, [])
  | some i =>
    match i.next? with
    | none => (s, [])
    | some m => (s.onInput command fun i => { i with queue := i.queue.tail }, [.give command m])

def step (store : Identity.Store) (s : Session) : Event → Session × List Effect
  | .offerKey blob => s.offerKey store blob
  | .openChannel => (s, [.grant s.user.isSome])
  | .requestForward => (s, [.grant false])
  | .setEnv _ name value =>
    (if name = protocolVariable then { s with gitProtocol := some value } else s, [])
  | .lendAgent _ => ({ s with lendsAgent := true }, if s.lendsAgent then [] else [.attachAgent])
  | .exec channel line => s.exec channel line
  | .data channel b => (s.onChannel channel (.push (.data b)), [])
  | .eof channel => (s.onChannel channel .pushEof, [])
  | .close channel => (s.onChannel channel .shut, [])
  | .hangUp => ({ s with inputs := s.inputs.map .shut }, [.count .sessionClosed])
  | .take command => s.take command
  | .ended command => (s.onInput command .abandon, [])

def run (store : Identity.Store) (s : Session) : List Event → Session × List Effect
  | [] => (s, [])
  | e :: es =>
    let (s, effects) := s.step store e
    let (s, more) := s.run store es
    (s, effects ++ more)

/-- What is counted when a session starts. -/
def opening : List Effect := [.count .sessionOpened]

end Session

end ForgeGateway
