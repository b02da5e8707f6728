import ForgeGateway.Proofs.Relay.Approved
import ForgeGateway.Proofs.Settings.Deadlines

/-! # The deadline that may not exist

Of the points in time by which a command waits for something, one has to be computed: that by which
the client's pack has to be there, as soon as a push has shown the advertisement.  Where it lies
beyond what a point in time can count, the command dies.  It dies in no other way, and then its
client's channel is never finished (`command_dies_iff`).  As settings are admitted with any length
of time, there are some under which every push dies that gets so far (`long_capture_kills`). -/

namespace ForgeGateway.Relay

open ForgeGateway.Git (ExecLine)

/-! ### The point in time -/

theorem Capture.deadline?_eq_none_iff {now : Time} {seconds : Nat} :
    Capture.deadline? now (seconds * 1000) = none ↔ instantBound ≤ now.seconds + seconds := by
  have whole : (now + seconds * 1000).seconds = now.seconds + seconds :=
    Nat.add_mul_div_right now seconds (by decide)
  unfold Capture.deadline? instantBound
  rw [whole]
  split <;> simp <;> omega

/-! ### How a command dies -/

section
variable {job : Job} {f : Flow} {steps : List Step} {s t u : Stage}

/-- The steps of a run say where it leads. -/
theorem Run.unique (run : Run s steps t) (other : Run s steps u) : t = u := by
  induction run with
  | here s =>
      cases other
      rfl
  | step a now answer _ ih =>
      cases other with
      | step _ _ _ rest => exact ih rest

theorem Flow.not_finishes (job : Job) (f : Flow) (answer : (f.request job).Answer) (now : Time)
    (counted : List Metrics.Measurement) :
    Step.finishes ⟨f.request job, answer, now, counted⟩ = false := by
  cases f with
  | prefetching deadline s => cases s <;> rfl
  | piping exit clientOpen => cases clientOpen <;> rfl
  | _ => rfl

theorem Flow.onAdvertised_ok (job : Job) (p : Prefetched) (now : Time) :
    Flow.onAdvertised job p now (.ok ()) = .aborted ↔
      Capture.deadline? now job.limits.capture = none := by
  unfold Flow.onAdvertised
  cases Capture.deadline? now job.limits.capture <;> simp

/-- A push that dies has shown the advertisement, and the deadline for its pack does not exist. -/
theorem Run.push_dies (push : job.exec.service = .receivePack) (stage : f.InPush)
    (run : Run (.active (.flowing job f)) steps .aborted) :
    ∃ before p now counted,
      steps = before ++ [⟨.writeOut p.advertisement, .ok (), now, counted⟩] ∧
      Run (.active (.flowing job f)) before (.active (.flowing job (.advertising p))) ∧
      before.countP Step.finishes = 0 ∧ Capture.deadline? now job.limits.capture = none := by
  induction steps generalizing f with
  | nil => cases run
  | cons st rest ih =>
      cases run with
      | step a now answer after =>
          have move := PushMove.of_resume now (Active.resume now (.flowing job f) answer).2
            push stage answer
          cases leads : (f.resume job now answer).1 with
          | stage g =>
              rw [leads] at move
              have next : (Active.resume now (.flowing job f) answer).1 =
                  .active (.flowing job g) := by
                simp only [Active.resume, leads, Active.onNext]
              rw [next] at after
              obtain ⟨before, p, now', counted, rfl, reaches, none, late⟩ :=
                ih move.inPush after
              refine ⟨_ :: before, p, now', counted, rfl, .cons next reaches, ?_, late⟩
              rw [List.countP_cons_of_neg, none]
              rw [Bool.not_eq_true]
              exact f.not_finishes job answer now _
          | ended result =>
              simp only [Active.resume, leads, Active.onNext] at after
              exact (after.hasResult (hasResult_conclude _ _)).elim
          | aborted =>
              rw [leads] at move
              have nothingLeft : rest = [] := by
                simp only [Active.resume, leads, Active.onNext] at after
                cases after
                rfl
              -- Of the moves of a push only one leads here.
              generalize same : (⟨f.request job, answer, now, _⟩ : Step) = st at move
              cases move with
              | @dies p _ counted =>
                  cases same
                  refine ⟨[], p, now, _, by rw [nothingLeft]; rfl, .here _, rfl, ?_⟩
                  exact (Flow.onAdvertised_ok job p now).1 leads

end

/-- With the last of these steps a push has shown the advertisement, at a time at which the deadline
for its pack is computed. -/
def SetsDeadline (context : Context) (limits : Limits) (raw : String) (started : Time)
    (steps : List Step) (now : Time) : Prop :=
  ∃ exec p before counted, ExecLine.parse raw = .ok exec ∧ exec.service = .receivePack ∧
    steps = before ++ [⟨.writeOut p.advertisement, .ok (), now, counted⟩] ∧
    Run (.start context limits raw started) before
      (.active (.flowing ⟨exec, context, limits⟩ (.advertising p)))

section
variable {context : Context} {limits : Limits} {raw : String} {started now : Time}
  {steps : List Step} {s : Stage}

theorem SetsDeadline.dies (sets : SetsDeadline context limits raw started steps now)
    (run : Run (.start context limits raw started) steps s)
    (late : Capture.deadline? now limits.capture = none) : s = .aborted := by
  obtain ⟨exec, p, before, counted, -, -, rfl, reaches⟩ := sets
  obtain ⟨t, first, last⟩ := run.split
  obtain rfl := reaches.unique first
  have next : (Active.resume now (.flowing ⟨exec, context, limits⟩ (.advertising p)) (.ok ())).1 =
      .aborted := by
    have aborts := (Flow.onAdvertised_ok ⟨exec, context, limits⟩ p now).2 late
    simp only [Active.resume, Flow.resume, aborts, Active.onNext]
  cases last with
  | step a _ _ after =>
      rw [next] at after
      cases after
      rfl

theorem Run.sets_of_aborted (run : Run (.start context limits raw started) steps .aborted) :
    steps.countP Step.finishes = 0 ∧ ∃ now, SetsDeadline context limits raw started steps now ∧
      Capture.deadline? now limits.capture = none := by
  cases parsed : ExecLine.parse raw with
  | error e =>
      unfold Stage.start at run
      rw [parsed] at run
      exact (run.hasResult trivial).elim
  | ok exec =>
      have start : Stage.start context limits raw started = .active (.flowing
          ⟨exec, context, limits⟩ (.start ⟨exec, context, limits⟩ started)) := by
        unfold Stage.start
        rw [parsed]
      have stage := Flow.ofService_start ⟨exec, context, limits⟩ started
      rw [start] at run
      cases service : exec.service with
      | uploadPack =>
          rw [service] at stage
          exact absurd rfl (run.pull_ne_aborted service stage)
      | receivePack =>
          rw [service] at stage
          obtain ⟨before, p, now, counted, rfl, reaches, none, late⟩ := run.push_dies service stage
          rw [← start] at reaches
          refine ⟨?_, now, ⟨exec, p, before, counted, parsed, service, rfl, reaches⟩,
            late⟩
          rw [List.countP_append, none]
          rfl

/-- **When a command dies.**  Under accepted settings every length of time is a positive number of
seconds of sixty-four bits.  A command dies exactly when it is a push that has shown the
advertisement at a time from which the length of time for its pack leads beyond what a point in
time can count; its client's channel is then never finished.  Every other command that has come to
its end has finished its client's channel, once. -/
theorem command_dies_iff {path : String} {contents : Option String} {settings : Settings}
    (loaded : Settings.load path contents = .ok settings)
    (run : Run (.start context settings.relayLimits raw started) steps s) :
    (∀ n ∈ settings.deadlines.all, 0 < n ∧ n < wordBound) ∧
    (s = .aborted ↔ ∃ now, SetsDeadline context settings.relayLimits raw started steps now ∧
      instantBound ≤ now.seconds + settings.deadlines.pushCapture) ∧
    ((∃ a, s = .active a) ∨ s = .aborted ∧ steps.countP Step.finishes = 0 ∨
      ∃ status, s = .finished status ∧ steps.countP Step.finishes = 1) := by
  refine ⟨Settings.deadlines_of_load loaded, ⟨?_, ?_⟩, ?_⟩
  · rintro rfl
    obtain ⟨-, now, sets, late⟩ := run.sets_of_aborted
    exact ⟨now, sets, Capture.deadline?_eq_none_iff.1 late⟩
  · rintro ⟨now, sets, late⟩
    exact sets.dies run (Capture.deadline?_eq_none_iff.2 late)
  · cases s with
    | active a => exact .inl ⟨a, rfl⟩
    | aborted => exact .inr (.inl ⟨rfl, run.sets_of_aborted.1⟩)
    | finished status =>
        obtain ⟨-, -, -, -, -, -, -, ⟨-, once⟩, -⟩ := command_life_cycle run
        exact .inr (.inr ⟨status, rfl, once⟩)

end

/-! ### Accepted settings -/

/-- Settings that leave all lengths of time as they are. -/
def plainSettings : String := "identity_store:\n  path: users\napproval:\n  url: gate\n"

theorem load_plainSettings :
    Settings.load "settings" (some plainSettings) =
      .ok { identityPath := "users", gate := { url := "gate" } } := by
  have reads : Settings.ofText? plainSettings =
      some { identityPath := "users", gate := { url := "gate" } } := by decide +kernel
  rw [Settings.load]
  simp only [reads]
  rfl

/-- Under the usual settings the push of one octet ends with the status of the forge. -/
theorem command_dies_iff_sample :
    ∃ steps, Run (.start sampleJob.context {} sampleLine 0) steps (.finished 0) ∧
      steps.countP Step.finishes = 1 := by
  obtain ⟨steps, run, -⟩ := sample_run
  obtain ⟨-, -, outcome⟩ := command_dies_iff load_plainSettings run
  rcases outcome with ⟨a, active⟩ | ⟨dead, -⟩ | ⟨status, -, once⟩
  · cases active
  · cases dead
  · exact ⟨steps, run, once⟩

/-- The push of one octet, where the client may take `capture` for it. -/
def sampleJobWithin (capture : Time) : Job := { sampleJob with limits := { capture } }

/-- The push is connected, and its advertisement is shown; there is no deadline for its pack. -/
theorem sample_run_dies {capture : Time} (late : Capture.deadline? 0 capture = none) :
    ∃ steps, Run (.start sampleJob.context { capture } sampleLine 0) steps .aborted := by
  have dies : ((Active.flowing (sampleJobWithin capture) (.advertising samplePrefetched)).resume 0
      (.ok ())).1 = .aborted := by
    have aborts := (Flow.onAdvertised_ok (sampleJobWithin capture) samplePrefetched 0).2 late
    simp only [Active.resume, Flow.resume, aborts, Active.onNext]
  rw [Stage.start_push parse_sampleLine rfl]
  exact ⟨_, .step (.flowing (sampleJobWithin capture) (.dialling 0)) 0 (.got (.ok ())) <|
    .cons (sample_advertised (sampleJobWithin capture) (0 + 30000)) <| .cons dies <| .here .aborted⟩

/-- Settings are accepted with a length of time for packs that no point in time can count, and
under them a push dies. -/
theorem long_capture_kills :
    ∃ settings, Settings.load "settings"
        (some (plainSettings ++ "timeouts:\n  push_capture: 9223372036854775808\n")) =
          .ok settings ∧
      ∃ steps, Run (.start sampleJob.context settings.relayLimits sampleLine 0) steps .aborted ∧
        steps.countP Step.finishes = 0 := by
  have reads : Settings.ofText?
      (plainSettings ++ "timeouts:\n  push_capture: 9223372036854775808\n") =
        some { identityPath := "users", gate := { url := "gate" },
               deadlines := { pushCapture := 9223372036854775808 } } := by decide +kernel
  refine ⟨_, by rw [Settings.load]; simp only [reads]; rfl, ?_⟩
  have late : Capture.deadline? 0 (9223372036854775808 * 1000) = none := by decide
  obtain ⟨steps, run⟩ := sample_run_dies late
  exact ⟨steps, run, run.sets_of_aborted.1⟩

end ForgeGateway.Relay
