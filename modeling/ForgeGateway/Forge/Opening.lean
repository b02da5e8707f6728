import ForgeGateway.Agent.Exchange
import ForgeGateway.HostPins
import ForgeGateway.Key.Blob
import ForgeGateway.Key.Public
import ForgeGateway.Relay.Request

/-! # Opening a connection to a forge

The gateway logs in to the forge with the keys of the client's agent. The forge has to be
pinned and an agent has to be there before anything is sent. The key that the forge shows has
to be one of those pinned for it. Then the agent's keys are offered in its order until one is
accepted, each with the signatures that the forge wants. Last a channel is opened, the version of
Git's protocol is set if there is one, and the command is started.

What a key is, and which of the agent's keys can be used, is left to a `Key.Format`; the flags of
a signature are decided by the name of the algorithm that the agent's answer was read with.
`Opening.request` is what a stage asks of forge and agent, `Opening.resume` where the answer
leads, and `Opening.Run` relates all answers to the way that is taken. -/

namespace ForgeGateway.Forge

open ForgeGateway.Agent (AgentError Identity Signature)
open ForgeGateway.Relay (Failure)

/-- What forge and agent are asked. -/
inductive Ask (κ : Type) where
  /-- Connects to the forge, which shows its key. -/
  | connect (host : String)
  /-- Lists the agent's keys. -/
  | listKeys
  | offer (user : String) (key : κ)
  /-- Lets the agent sign. -/
  | sign (keyBlob data : Bytes) (flags : Nat)
  /-- Shows the forge what was signed, with the signature behind it. -/
  | prove (signed : Bytes)
  | openChannel
  | setEnv (name value : String)
  | exec (command : String)
  deriving DecidableEq, Repr

/-- What the forge says to a key, or to a signature that was made with it. -/
inductive Reply where
  | accepted
  | rejected
  /-- The key may do, if this is signed with it. -/
  | wanted (data : Bytes)
  /-- The connection is gone. -/
  | lost
  deriving DecidableEq, Repr

def Ask.Answer {κ : Type} : Ask κ → Type
  | .connect _ => Except String Bytes
  | .listKeys => Except AgentError (List Identity)
  | .offer _ _ | .prove _ => Reply
  | .sign _ _ _ => Except AgentError Signature
  | .openChannel | .setEnv _ _ | .exec _ => Except String Unit

/-- The connection that is to be made. -/
structure Target where
  host : String
  user : String
  gitProtocol : Option String
  command : String
  pins : HostPins
  deriving Repr

/-- A key that can be used, and the flags with which the agent is asked to sign. -/
structure Candidate (κ : Type) where
  key : κ
  flags : Nat
  deriving DecidableEq, Repr

/-- The stages. `left` are the agent's keys that have still to be tried, `total` is the number
of all of them. -/
inductive Opening (κ : Type) where
  | connecting
  | listing
  | offering (c : Candidate κ) (left : List Identity) (total : Nat)
  | signing (c : Candidate κ) (data : Bytes) (left : List Identity) (total : Nat)
  | proving (c : Candidate κ) (signed : Bytes) (left : List Identity) (total : Nat)
  | openingChannel
  | settingProtocol (version : String)
  | executing

/-- The connection is open, or why it is not. -/
abbrev Opening.Result := Except Failure Unit

namespace Opening

variable {κ : Type}

/-- Signatures with SHA-256 have to be asked for. -/
def sha256Flag : Nat := 2

/-- RSA keys sign with SHA-256. -/
def signsWith (i : Identity) : Option Key.SignatureHash × Nat :=
  if i.algorithm = "ssh-rsa" then (some .sha256, sha256Flag) else (none, 0)

/-- The key of an identity, if it can be used. -/
def candidate? (format : Key.Format κ) (i : Identity) : Option (Candidate κ) :=
  (format.read? (signsWith i).1 i.keyBlob).map fun key => ⟨key, (signsWith i).2⟩

/-- The name under which the version of Git's protocol is set. -/
def protocolVariable : String := "GIT_PROTOCOL"

def request (format : Key.Format κ) (t : Target) : Opening κ → Ask κ
  | .connecting => .connect t.host
  | .listing => .listKeys
  | .offering c _ _ => .offer t.user c.key
  | .signing c data _ _ => .sign (format.blob c.key) data c.flags
  | .proving _ signed _ _ => .prove signed
  | .openingChannel => .openChannel
  | .settingProtocol version => .setEnv protocolVariable version
  | .executing => .exec t.command

/-! ### Failures -/

def unpinned (host : String) : Failure :=
  .forge ("no pinned host key for " ++ host ++ "; refusing to connect")

def noAgent (host : String) : Failure :=
  .forge ("agent forwarding is required to authenticate to " ++ host ++
    "; reconnect with \x60ssh -A\x60 or set \x60ForwardAgent yes\x60")

def mismatch (host : String) : Failure := .forge ("host key mismatch for " ++ host)

def unreachable (host cause : String) : Failure :=
  .forge ("could not connect to " ++ host ++ ": " ++ cause)

def noKeys : Failure := .forge "forwarded agent holds no keys; add one with \x60ssh-add\x60"

def rejectedAll (t : Target) (total : Nat) : Failure :=
  .forge (t.host ++ " rejected all " ++ toString total ++ " forwarded keys for user " ++ t.user)

def lost (host : String) : Failure :=
  .forge (host ++ " closed the connection during authentication")

def noChannel (host cause : String) : Failure :=
  .forge ("could not open session on " ++ host ++ ": " ++ cause)

def noProtocol (cause : String) : Failure := .forge ("set GIT_PROTOCOL failed: " ++ cause)

def noExec (host cause : String) : Failure := .forge ("exec on " ++ host ++ " failed: " ++ cause)

/-! ### The way -/

def tryNext (format : Key.Format κ) (t : Target) (total : Nat) :
    List Identity → Progress (Opening κ) Result
  | [] => .done (.error (rejectedAll t total))
  | i :: left =>
    match candidate? format i with
    | some c => .more (.offering c left total)
    | none => tryNext format t total left

/-- Before anything is asked. -/
def start (t : Target) (forwarding : Bool) : Progress (Opening κ) Result :=
  if !t.pins.isKnown t.host then .done (.error (unpinned t.host))
  else if !forwarding then .done (.error (noAgent t.host))
  else .more .connecting

def onConnect (t : Target) : Except String Bytes → Progress (Opening κ) Result
  | .error cause => .done (.error (unreachable t.host cause))
  | .ok blob =>
    if t.pins.verify t.host (Key.fingerprint blob) then .more .listing
    else .done (.error (mismatch t.host))

def onKeys (format : Key.Format κ) (t : Target) :
    Except AgentError (List Identity) → Progress (Opening κ) Result
  | .error e => .done (.error (.ofAgent e))
  | .ok [] => .done (.error noKeys)
  | .ok keys => tryNext format t keys.length keys

/-- After the forge has seen a key, or a signature that was made with it. -/
def onReply (format : Key.Format κ) (t : Target) (c : Candidate κ) (left : List Identity)
    (total : Nat) : Reply → Progress (Opening κ) Result
  | .accepted => .more .openingChannel
  | .rejected => tryNext format t total left
  | .wanted data => .more (.signing c data left total)
  | .lost => .done (.error (lost t.host))

/-- What the forge is shown: what was signed and the signature's blob behind its length. -/
def signedData (data : Bytes) (s : Signature) : Bytes := data ++ Agent.lengthPrefixed s.toBlob

def onSigned (c : Candidate κ) (data : Bytes) (left : List Identity) (total : Nat) :
    Except AgentError Signature → Progress (Opening κ) Result
  | .error e => .done (.error (.ofAgent e))
  | .ok s => .more (.proving c (signedData data s) left total)

def onChannel (t : Target) : Except String Unit → Progress (Opening κ) Result
  | .error cause => .done (.error (noChannel t.host cause))
  | .ok () =>
    match t.gitProtocol with
    | some version => .more (.settingProtocol version)
    | none => .more .executing

/-- Where the answer to a stage's request leads. -/
def resume (format : Key.Format κ) (t : Target) :
    (s : Opening κ) → (s.request format t).Answer → Progress (Opening κ) Result
  | .connecting, a => onConnect t a
  | .listing, a => onKeys format t a
  | .offering c left total, a => onReply format t c left total a
  | .signing c data left total, a => onSigned c data left total a
  | .proving c _ left total, a => onReply format t c left total a
  | .openingChannel, a => onChannel t a
  | .settingProtocol _, a =>
    match (a : Except String Unit) with
    | .error cause => .done (.error (noProtocol cause))
    | .ok () => .more .executing
  | .executing, a =>
    match (a : Except String Unit) with
    | .error cause => .done (.error (noExec t.host cause))
    | .ok () => .done (.ok ())

/-! ### Runs -/

/-- A request with its answer. -/
structure Step (κ : Type) where
  ask : Ask κ
  answer : ask.Answer

/-- The steps from a stage to a result, for some answers. -/
inductive Run (format : Key.Format κ) (t : Target) :
    Progress (Opening κ) Result → List (Step κ) → Result → Prop where
  | done (r : Result) : Run format t (.done r) [] r
  | step (s : Opening κ) (answer : (s.request format t).Answer) {steps : List (Step κ)}
      {r : Result} (rest : Run format t (s.resume format t answer) steps r) :
      Run format t (.more s) (⟨s.request format t, answer⟩ :: steps) r

end Opening

end ForgeGateway.Forge
