import ForgeGateway.Metrics.Registry
import ForgeGateway.Relay.Capture
import ForgeGateway.Relay.Skip

/-! # Pulls and pushes

A pull is approved first, then the forge is connected and both directions are piped until the
forge is done. A push is connected first; the client is shown the forge's advertisement, its
pack is captured and shown to the gate, and only an approved pack is sent to the forge, whose
whole output then follows, without the advertisement.

`Flow` names the stages of both. `Flow.request` is what a stage asks, and `Flow.resume` says
where the answer leads and what is counted on the way. -/

namespace ForgeGateway.Relay

open ForgeGateway.Metrics (Measurement VerdictKind CommandKind)

/-- Who a command runs for. -/
structure Context where
  user : User
  /-- The client lets its agent be used. -/
  forwarding : Bool
  /-- The version of Git's protocol that the client asked for. -/
  gitProtocol : Option String
  deriving DecidableEq, Repr

/-- An accepted command and the conditions under which it runs. -/
structure Job where
  exec : Git.ExecLine
  context : Context
  limits : Limits
  deriving DecidableEq, Repr

/-- The kind under which a job is counted. -/
def Job.kind (job : Job) : CommandKind := .of job.exec.service

/-- The connection that a job needs. -/
def Job.dial (job : Job) : Dial :=
  ⟨job.exec.target, job.exec.commandLine, job.context.gitProtocol, job.context.forwarding⟩

/-- What the gate is asked: about the pack of a push, about the command itself for a pull. -/
def Job.approval (job : Job) (pack : Option Bytes) : Approval.Request :=
  ⟨job.exec.target.repository, job.context.user, pack⟩

/-- An exit status, or why there is none. -/
abbrev Result := Except Failure Nat

/-- The stages of a pull or a push. -/
inductive Flow where
  /-- The gate is asked about a pull. -/
  | consulting
  | dialling (started : Time)
  | prefetching (deadline : Time) (s : Prefetch)
  /-- The client is shown the advertisement. -/
  | advertising (p : Prefetched)
  | capturing (p : Prefetched) (deadline : Time) (b : PackBuffer)
  /-- The gate is asked about a push. -/
  | consultingPack (p : Prefetched) (pack : Bytes)
  | forwarding (p : Prefetched) (pack : Bytes)
  | endingInput (p : Prefetched)
  /-- The client is shown what came behind the advertisement. -/
  | replaying (rest : Bytes) (skip : Skip)
  | relaying (skip : Skip) (exit : Option Nat)
  | relayingOut (chunk : Bytes) (skip : Skip) (exit : Option Nat)
  | relayingErr (chunk : Bytes) (skip : Skip) (exit : Option Nat)
  | piping (exit : Option Nat) (clientOpen : Bool)
  | pipingOut (chunk : Bytes) (exit : Option Nat) (clientOpen : Bool)
  | pipingErr (chunk : Bytes) (exit : Option Nat) (clientOpen : Bool)
  | pipingSend (chunk : Bytes) (exit : Option Nat)
  | pipingEof (exit : Option Nat)
  /-- The connection is ended; the result stands. -/
  | closing (result : Result)

/-- What a stage leads to. -/
inductive Next where
  | stage (f : Flow)
  | ended (result : Result)
  /-- The command dies without a result. -/
  | aborted

namespace Flow

/-- The first stage of a job. -/
def start (job : Job) (now : Time) : Flow :=
  match job.exec.service with
  | .uploadPack => .consulting
  | .receivePack => .dialling now

def request (job : Job) : Flow → Request
  | .consulting => .consult (job.approval none)
  | .dialling started => .dial job.dial (started + job.limits.connect)
  | .prefetching deadline (.reading _) => .readForgeBy deadline
  | .prefetching deadline (.passing _ chunk) => .writeErrBy chunk deadline
  | .advertising p => .writeOut p.advertisement
  | .capturing _ deadline _ => .readClientBy deadline
  | .consultingPack _ pack => .consult (job.approval (some pack))
  | .forwarding _ pack => .send pack
  | .endingInput _ => .sendEof
  | .replaying rest _ => .writeOut rest
  | .relaying _ _ => .readForge
  | .relayingOut chunk _ _ => .writeOut chunk
  | .relayingErr chunk _ _ => .writeErr chunk
  | .piping _ true => .readEither
  | .piping _ false => .readForge
  | .pipingOut chunk _ _ => .writeOut chunk
  | .pipingErr chunk _ _ => .writeErr chunk
  | .pipingSend chunk _ => .send chunk
  | .pipingEof _ => .sendEof
  | .closing _ => .close

/-! ### Where answers lead -/

/-- Goes on to `f` if all went well, and else closes the connection. -/
def orClose (f : Flow) : Except Failure Unit → Next
  | .ok () => .stage f
  | .error e => .stage (.closing (.error e))

/-- The exit status of a forge that ended; it counts as success if it gave none. -/
def exitOr0 (exit : Option Nat) : Result := .ok (exit.getD 0)

/-- How a consultation is counted. -/
def verdictKind : Except Failure Approval.Verdict → VerdictKind
  | .error _ => .unavailable
  | .ok v => if v.isAllow then .allowed else .blocked

/-- What a consultation means for the command. -/
def decision : Except Failure Approval.Verdict → Except Failure Unit
  | .error f => .error f
  | .ok v => v.outcome

def onDial (job : Job) (now : Time) : Timed (Except Failure Unit) → Next
  | .late => .ended (.error (.connectLate job.exec.target.host job.limits.connect.seconds))
  | .got (.error f) => .ended (.error f)
  | .got (.ok ()) =>
    match job.exec.service with
    | .uploadPack => .stage (.piping none true)
    | .receivePack => .stage (.prefetching (now + job.limits.prefetch) (.reading []))

def onPrefetch (deadline : Time) : Progress Prefetch Prefetch.Result → Next
  | .more s => .stage (.prefetching deadline s)
  | .done (.error f) => .stage (.closing (.error f))
  | .done (.ok p) => .stage (.advertising p)

/-- Goes on with what was there before the deadline of the advertisement. -/
def inTime {α : Type} (job : Job) (goOn : α → Next) : Timed α → Next
  | .late => .stage (.closing (.error (Prefetch.late job.limits)))
  | .got a => goOn a

def onAdvertised (job : Job) (p : Prefetched) (now : Time) : Except Failure Unit → Next
  | .error f => .stage (.closing (.error f))
  | .ok () =>
    match Capture.deadline? now job.limits.capture with
    | none => .aborted
    | some deadline => .stage (.capturing p deadline (.empty job.limits.pack))

/-- After a step of taking in the pack. A push of nothing is over. -/
def onCapture (p : Prefetched) (deadline : Time) :
    Progress PackBuffer Capture.Result → Next × List Measurement
  | .more b => (.stage (.capturing p deadline b), [])
  | .done (.error f) => (.stage (.closing (.error f)), [])
  | .done (.ok pack) =>
    (.stage (if pack.isEmpty || Git.Packet.isFlushOnly pack then .closing (.ok 0)
      else .consultingPack p pack), [.pushBytes pack.length])

/-- After the end of the client's input was passed on. -/
def onInputEnded (p : Prefetched) : Except Failure Unit → Next
  | .error f => .stage (.closing (.error f))
  | .ok () =>
    let (rest, skip) := (Skip.mk p.length).filter p.buffer
    .stage (if rest.isEmpty then .relaying skip none else .replaying rest skip)

/-- After an event of the forge in a push. -/
def onRelay (skip : Skip) (exit : Option Nat) : ForgeRead → Next
  | .error f => .stage (.closing (.error f))
  | .ok none => .stage (.closing (exitOr0 exit))
  | .ok (some (.data chunk)) =>
    let (shown, skip) := skip.filter chunk
    .stage (if shown.isEmpty then .relaying skip exit else .relayingOut shown skip exit)
  | .ok (some (.stderr chunk)) => .stage (.relayingErr chunk skip exit)
  | .ok (some (.exit status)) => .stage (.relaying skip (some status))
  | .ok (some .eof) => .stage (.relaying skip exit)

/-- `pat` occurs in the wording. -/
def mentions (text pat : String) : Bool := Text.occursIn pat.toList text.toList

/-- Failures of the forge's channel that are usual at the end of a fetch. -/
def isBenign : Failure → Bool
  | .forge text => mentions text "early EOF" || mentions text "unexpected disconnect"
  | _ => false

/-- After an event of the forge in a pull. -/
def onPipeForge (exit : Option Nat) (clientOpen : Bool) : ForgeRead → Next
  | .error f => .stage (.closing (if isBenign f then exitOr0 exit else .error f))
  | .ok none => .stage (.closing (exitOr0 exit))
  | .ok (some (.data chunk)) => .stage (.pipingOut chunk exit clientOpen)
  | .ok (some (.stderr chunk)) => .stage (.pipingErr chunk exit clientOpen)
  | .ok (some (.exit status)) => .stage (.piping (some status) clientOpen)
  | .ok (some .eof) => .stage (.piping exit clientOpen)

/-- After a message of the client in a pull. -/
def onPipeClient (exit : Option Nat) : Option ClientMessage → Next
  | none => .stage (.closing (.error .clientGone))
  | some (.data chunk) => .stage (.pipingSend chunk exit)
  | some .eof => .stage (.pipingEof exit)

/-- After whichever came first in a pull. -/
def onPipe (exit : Option Nat) : EitherRead → Next
  | .client m => onPipeClient exit m
  | .forge r => onPipeForge exit true r

/-- Where the answer to a stage's request leads, and what is counted. -/
def resume (job : Job) (now : Time) :
    (f : Flow) → (f.request job).Answer → Next × List Measurement
  | .consulting, a =>
    (match decision a with
      | .ok () => .stage (.dialling now)
      | .error f => .ended (.error f), [.verdict (verdictKind a)])
  | .dialling started, a => (onDial job now a, [.connect (now - started).nanos])
  | .prefetching deadline (.reading buffer), a =>
    (inTime job (fun r => onPrefetch deadline (Prefetch.onRead buffer r)) a, [])
  | .prefetching deadline (.passing buffer _), a =>
    (inTime job (fun r => onPrefetch deadline (Prefetch.onWritten buffer r)) a, [])
  | .advertising p, a => (onAdvertised job p now a, [])
  | .capturing p deadline b, a => onCapture p deadline (Capture.onRead job.limits b a)
  | .consultingPack p pack, a =>
    (orClose (.forwarding p pack) (decision a), [.verdict (verdictKind a)])
  | .forwarding p _, a => (orClose (.endingInput p) a, [])
  | .endingInput p, a => (onInputEnded p a, [])
  | .replaying _ skip, a => (orClose (.relaying skip none) a, [])
  | .relaying skip exit, a => (onRelay skip exit a, [])
  | .relayingOut _ skip exit, a => (orClose (.relaying skip exit) a, [])
  | .relayingErr _ skip exit, a => (orClose (.relaying skip exit) a, [])
  | .piping exit true, a => (onPipe exit a, [])
  | .piping exit false, a => (onPipeForge exit false a, [])
  | .pipingOut _ exit clientOpen, a => (orClose (.piping exit clientOpen) a, [])
  | .pipingErr _ exit clientOpen, a => (orClose (.piping exit clientOpen) a, [])
  | .pipingSend _ exit, a => (orClose (.piping exit true) a, [])
  | .pipingEof exit, a => (orClose (.piping exit false) a, [])
  | .closing result, _ => (.ended result, [])

end Flow

end ForgeGateway.Relay
