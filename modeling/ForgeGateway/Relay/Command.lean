import ForgeGateway.Relay.Flow

/-! # Commands

A command starts with an exec line. If the line is accepted its flow runs; a failure, of the
line or of the flow, is reported on the client's error stream. The channel is finished last,
with the status of the flow or with 1. -/

namespace ForgeGateway.Relay

open ForgeGateway.Metrics (Measurement CommandKind)

/-- A command that waits for an answer. -/
inductive Active where
  | flowing (job : Job) (f : Flow)
  /-- The client is told why the command failed. -/
  | reporting (kind : CommandKind) (f : Failure)
  | finishing (status : Nat)

inductive Stage where
  | active (a : Active)
  | finished (status : Nat)
  /-- The command died: its channel is not finished. -/
  | aborted

namespace Active

def request : Active → Request
  | .flowing job f => f.request job
  | .reporting _ f => .writeErr (Bytes.ofString f.line)
  | .finishing status => .finish status

/-- What follows the result of a flow. -/
def conclude (kind : CommandKind) : Result → Stage × List Measurement
  | .ok status => (.active (.finishing status), [.command kind (status = 0)])
  | .error f => (.active (.reporting kind f), [])

/-- What follows a step of a flow. -/
def onNext (job : Job) : Next → Stage × List Measurement
  | .stage f => (.active (.flowing job f), [])
  | .ended result => conclude job.kind result
  | .aborted => (.aborted, [])

/-- Where the answer to a command's request leads, and what is counted. -/
def resume (now : Time) : (a : Active) → a.request.Answer → Stage × List Measurement
  | .flowing job f, a =>
    let (next, counted) := f.resume job now a
    let (stage, more) := onNext job next
    (stage, counted ++ more)
  | .reporting kind f, _ =>
    (.active (.finishing f.exitStatus), [.command kind (f.exitStatus = 0)])
  | .finishing status, _ => (.finished status, [])

end Active

/-- The first stage of a command. -/
def Stage.start (context : Context) (limits : Limits) (raw : String) (now : Time) : Stage :=
  match Git.ExecLine.parse raw with
  | .error e => .active (.reporting .rejected (.ofExec e))
  | .ok exec =>
    let job : Job := ⟨exec, context, limits⟩
    .active (.flowing job (Flow.start job now))

/-! ### Runs -/

/-- A request with its answer, the time of the answer, and what was counted. -/
structure Step where
  request : Request
  answer : request.Answer
  time : Time
  counted : List Measurement

/-- The steps of a command from one stage to another, for some answers of its surroundings. -/
inductive Run : Stage → List Step → Stage → Prop where
  | here (s : Stage) : Run s [] s
  | step (a : Active) (now : Time) (answer : a.request.Answer) {steps : List Step} {s : Stage}
      (rest : Run (a.resume now answer).1 steps s) :
      Run (.active a) (⟨a.request, answer, now, (a.resume now answer).2⟩ :: steps) s

end ForgeGateway.Relay
