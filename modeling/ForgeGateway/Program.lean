import ForgeGateway.CommandLine
import ForgeGateway.HostKey
import ForgeGateway.Identity.File
import ForgeGateway.Settings.Reading

/-! # From the arguments to a gateway

The program reads its settings, then the users, then its own key. The first thing that is
wrong ends it with a line on standard error. If all is in order it serves on two listeners,
each of which can fail by itself, until a signal comes. `Program.start` is the way to a
`Service`; how files are read is left open. -/

namespace ForgeGateway

/-- How much a record matters. -/
inductive Level where
  | info
  | error
  deriving DecidableEq, Repr

/-- A record in the program's log. -/
structure Record where
  level : Level := .info
  message : String
  error : Option String := none
  deriving DecidableEq, Repr

def Level.name : Level → String
  | .info => "INFO"
  | .error => "ERROR"

def Record.report (r : Record) : Json.Value :=
  .record ([("level", .text r.level.name), ("message", .text r.message)] ++
    match r.error with
    | some e => [("error", .text e)]
    | none => [])

/-- What the program listens with. -/
inductive Listener where
  | admin
  | ssh
  deriving DecidableEq, Repr

namespace Listener

/-- The address cannot be used. -/
def occupied : Listener → String → String
  | .admin, address => "failed to bind admin listener on " ++ address
  | .ssh, address => "failed to bind SSH listener on " ++ address

/-- The record of a listener that cannot use its address. -/
def failure (l : Listener) (address : String) : Record where
  level := .error
  message := match l with
    | .admin => "admin server failed"
    | .ssh => "SSH server failed"
  error := some (l.occupied address)

end Listener

namespace Program

/-- Why the program ends without serving. -/
inductive Fault where
  | usage (e : UsageError)
  | settings (e : Settings.LoadFault)
  | users (e : Identity.FileFault)
  | hostKey (e : HostKeyFault)
  deriving DecidableEq, Repr

namespace Fault

/-- The line of an error that is not about the arguments. -/
def errorLine (message : String) : String := "Error: " ++ message

/-- The line on standard error, if there is one. -/
def line? : Fault → Option String
  | .usage e => e.line?
  | .settings e => some (errorLine e.message)
  | .users e => some (errorLine e.headline)
  | .hostKey e => some (errorLine e.message)

def exitStatus : Fault → Nat
  | .usage e => e.exitStatus
  | _ => 1

end Fault

/-- All that is needed to serve. -/
structure Service where
  settings : Settings
  users : Identity.Store
  hostKey : Key.Private
  origin : HostKeySource

/-- What was logged on the way, and where it led. -/
structure Start where
  records : List Record
  outcome : Except Fault Service

/-- The first record, once the settings are there. -/
def starting : Record := { message := "starting gitgate" }

/-- The last record, after everything has ended. -/
def stopped : Record := { message := "gitgate shut down cleanly" }

/-- A signal that ends the program. -/
inductive Signal where
  | interrupt
  | terminate
  deriving DecidableEq, Repr

def Signal.record : Signal → Record
  | .interrupt => { message := "received SIGINT" }
  | .terminate => { message := "received SIGTERM" }

/-- From the settings to a service, given what the files and the keyring hold. -/
def Service.assemble (s : Settings) (userFile : Option String) (stock : HostKeyStock) :
    Except Fault Service :=
  match Identity.Store.load s.identityPath userFile with
  | .error e => .error (.users e)
  | .ok users =>
    match s.hostKey.load stock with
    | .error e => .error (.hostKey e)
    | .ok (hostKey, origin) => .ok { settings := s, users, hostKey, origin }

/-- From the arguments to a service. -/
def start {m : Type → Type} [Monad m] (read : String → m (Option String))
    (keyring : Option String) (args : List String) : m Start := do
  match CommandLine.parse args with
  | .error e => return ⟨[], .error (.usage e)⟩
  | .ok path =>
    match Settings.load path (← read path) with
    | .error e => return ⟨[], .error (.settings e)⟩
    | .ok s =>
      let userFile ← read s.identityPath
      let file ← match s.hostKey.path with
        | some path => read path
        | none => pure none
      return ⟨[starting], Service.assemble s userFile { file, keyring }⟩

end Program

end ForgeGateway
