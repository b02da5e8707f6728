import ForgeGateway.Proofs.Agent.Operations
import ForgeGateway.Proofs.Agent.Progress

/-! # Operations are serialised

`Serialised` puts together what holds of a schedule in which nothing is cancelled: at most one
channel is open or being opened, channels are asked for in the order of the queue, each call
takes its own course and depends on what it is told alone, refused calls leave no trace, and
every call returns if the surroundings are fair.  `operations_serialised` is the theorem. -/

namespace ForgeGateway.Agent

/-- The operations of a session do not get into each other's way. -/
structure Serialised (t : Timeouts) (s : Schedule) : Prop where
  /-- At every moment at most one channel is open or being opened. -/
  one_channel : ∀ n, (inUse (s.shown t n)).length ≤ 1
  /-- Each call asks for a channel at most once, in the order in which calls came to wait. -/
  in_order : ∀ n, (s.shown t n).filterMap Effect.asked? ++ (s.desk t n).waiting.map Prod.fst =
    (queued (s.heard n)).map Prod.fst
  /-- What is shown is what operations do that are alone and told the same; each of them takes
  its course, in which it closes its channel before it is counted and returns; and the counters
  stand at the numbers of operations that have returned so. -/
  accounts : ∀ n, ∃ ops, Account t (s.heard n) (s.shown t n) (s.desk t n) ops ∧
    ∀ operation ok,
      (Metrics.Registry.recordAll {}
          ((s.shown t n).filterMap Effect.measured?)).agentOperations.count (operation, .of ok) =
        ops.countP fun o => o.measurement? t == some (.agentOperation operation ok)
  /-- A call to sign with an unusable key returns at once, and the desk stays as it was. -/
  refused : ∀ n id blob data flags e, (s n).2 = .arrive id (.sign blob data flags) →
    Key.usable blob = .error e →
      s.desk t (n + 1) = s.desk t n ∧ s.effects t n = [.refuse id e]
  /-- No other call returns without having waited. -/
  refusals : ∀ n,
    (s.shown t n).filterMap Effect.refused? = (s.heard n).filterMap (·.2.refused?)
  /-- Every other call returns. -/
  returns : s.Fair t → ∀ n id r, (s n).2 = .arrive id r → r.refusal? = none →
    ∃ m, n < m ∧ s.Returns t id m

/-- **While nothing is cancelled, the operations of a session are serialised**, in whatever
order calls come and whatever the agent does on its channels. -/
theorem operations_serialised (t : Timeouts) (s : Schedule)
    (uncancelled : ∀ n id, (s n).2 ≠ .cancel id) : Serialised t s where
  one_channel n := by
    obtain ⟨ops, account⟩ := s.account (t := t) uncancelled n
    exact account.use_le_one
  in_order n := by
    obtain ⟨ops, account⟩ := s.account (t := t) uncancelled n
    exact account.asked
  accounts n := by
    obtain ⟨ops, account⟩ := s.account (t := t) uncancelled n
    exact ⟨ops, account, account.counted⟩
  refused n id blob data flags e arrives unusable := by
    have refusal : (Request.sign blob data flags).refusal? = some e := by
      simp [Request.refusal?, unusable]
    rw [Schedule.desk_succ, Schedule.effects, arrives]
    simp [Desk.step, refusal]
  refusals := s.refused t
  returns fair n id r arrives usable :=
    fair.returns arrives usable fun m _ => uncancelled m id

/-! ### A schedule -/

/-- Two calls to list identities come at once; the first one's channel does not open, and on the
second one's channel the agent does not answer.  A third one is told that there are none. -/
def sampleSchedule : Schedule :=
  .ofList
    [(0, .arrive 0 .identities), (0, .arrive 1 .identities), (0, .grant), (5000, .opened .late),
      (5000, .grant), (5001, .opened (.got true)), (5001, .sent (.got (.ok ()))),
      (15001, .received .late), (15001, .closed), (15001, .arrive 2 .identities), (15001, .grant),
      (15002, .opened (.got true)), (15002, .sent (.got (.ok ()))),
      (15003, .received (.got (some (Response.encode (.identities []))))), (15003, .closed)] 20000

theorem sampleSchedule_uncancelled (n id : Nat) : (sampleSchedule n).2 ≠ .cancel id := by
  rcases n with _ | _ | _ | _ | _ | _ | _ | _ | _ | _ | _ | _ | _ | _ | _ | n <;> exact nofun

theorem sampleSchedule_fair : sampleSchedule.Fair {} :=
  Schedule.ofList_fair rfl (by decide)

/-- The first two calls return and the third one succeeds; never is more than one channel in
use. -/
theorem operations_serialised_sample :
    (∀ n id, (sampleSchedule n).2 ≠ .cancel id) ∧ sampleSchedule.Fair {} ∧
      (∀ n, (inUse (sampleSchedule.shown {} n)).length ≤ 1) ∧
      ((sampleSchedule.shown {} 15).filterMap Effect.measured? =
        [.agentOperation "list_identities" false, .agentOperation "list_identities" false,
          .agentOperation "list_identities" true]) ∧
      (∃ m, 0 < m ∧ sampleSchedule.Returns {} 0 m) ∧
      ∃ m, 1 < m ∧ sampleSchedule.Returns {} 1 m := by
  have serialised := operations_serialised {} sampleSchedule sampleSchedule_uncancelled
  refine ⟨sampleSchedule_uncancelled, sampleSchedule_fair, serialised.one_channel, rfl, ?_, ?_⟩
  · exact serialised.returns sampleSchedule_fair 0 0 .identities rfl rfl
  · exact serialised.returns sampleSchedule_fair 1 1 .identities rfl rfl

end ForgeGateway.Agent
