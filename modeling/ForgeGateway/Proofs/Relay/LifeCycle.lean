import ForgeGateway.Proofs.Relay.Ending

/-! # From the exec line to the exit status

A command that comes to its end has a result: that of its flow, or the refusal of its exec line
(`Outcome`).  Behind the steps that led there, it reports a failure and finishes the client's
channel (`ending`).  While its flow runs, it connects to the forge at most once, and a connection
that was made is closed by the last step of the flow (`Course`).  `command_life_cycle` says so of
all runs. -/

namespace ForgeGateway.Relay

/-! ### Steps that open and close -/

namespace Step

def dials : Step → Bool
  | ⟨.dial _ _, _, _, _⟩ => true
  | _ => false

def connects : Step → Bool
  | ⟨.dial _ _, .got (.ok ()), _, _⟩ => true
  | _ => false

def closes : Step → Bool
  | ⟨.close, _, _, _⟩ => true
  | _ => false

def finishes : Step → Bool
  | ⟨.finish _, _, _, _⟩ => true
  | _ => false

/-- The step neither opens nor closes anything. -/
structure Inner (st : Step) : Prop where
  dials : st.dials = false
  closes : st.closes = false
  finishes : st.finishes = false

theorem Inner.connects {st : Step} (h : st.Inner) : st.connects = false := by
  unfold Step.connects
  split
  · cases h.dials
  · rfl

end Step

/-- The step that a flow takes at a stage. -/
def Flow.stepAt (job : Job) (f : Flow) (now : Time) (answer : (f.request job).Answer) : Step :=
  ⟨f.request job, answer, now, (Active.resume now (.flowing job f) answer).2⟩

/-! ### Flows up to their result -/

/-- The steps of a flow from one of its stages to its result, for some answers. -/
inductive FlowRun (job : Job) : Flow → List Step → Result → Prop where
  | last {f : Flow} {now : Time} {answer : (f.request job).Answer} {result : Result}
      (ends : (f.resume job now answer).1 = .ended result) :
      FlowRun job f [f.stepAt job now answer] result
  | step {f g : Flow} {now : Time} {answer : (f.request job).Answer} {steps : List Step}
      {result : Result} (leads : (f.resume job now answer).1 = .stage g)
      (rest : FlowRun job g steps result) :
      FlowRun job f (f.stepAt job now answer :: steps) result

/-- A command that runs a flow is inside the flow, behind its result, or dead. -/
theorem Run.flow_split {job : Job} {s : Stage} {steps : List Step} :
    ∀ {f : Flow}, Run (.active (.flowing job f)) steps s →
      (∃ g, s = .active (.flowing job g)) ∨ s = .aborted ∨
      ∃ body result tail, steps = body ++ tail ∧ FlowRun job f body result ∧
        Run (Active.conclude job.kind result).1 tail s := by
  induction steps with
  | nil =>
      intro f run
      cases run with
      | here => exact .inl ⟨f, rfl⟩
  | cons st rest ih =>
      intro f run
      cases run with
      | step a now answer run =>
          cases hn : (f.resume job now answer).1 with
          | stage g =>
              simp only [Active.resume, hn, Active.onNext] at run
              rcases ih run with inside | dead | ⟨body, result, tail, rfl, flow, after⟩
              · exact .inl inside
              · exact .inr (.inl dead)
              · exact .inr (.inr ⟨_ :: body, result, tail, rfl, .step hn flow, after⟩)
          | ended result =>
              simp only [Active.resume, hn, Active.onNext] at run
              exact .inr (.inr ⟨[_], result, rest, rfl, .last hn, run⟩)
          | aborted =>
              simp only [Active.resume, hn, Active.onNext] at run
              cases run with
              | here => exact .inr (.inl rfl)

/-- The last step of a flow is taken at a stage that the steps before it lead to. -/
theorem FlowRun.exists_last {job : Job} {f : Flow} {body : List Step} {result : Result}
    (run : FlowRun job f body result) :
    ∃ init g now answer, body = init ++ [Flow.stepAt job g now answer] ∧
      Run (.active (.flowing job f)) init (.active (.flowing job g)) ∧
      (g.resume job now answer).1 = .ended result := by
  induction run with
  | @last f now answer result ends => exact ⟨[], f, now, answer, rfl, .here _, ends⟩
  | @step f g now answer steps result leads rest ih =>
      obtain ⟨init, g', now', answer', rfl, before, ends⟩ := ih
      refine ⟨f.stepAt job now answer :: init, g', now', answer', rfl, ?_, ends⟩
      have next : (Active.resume now (.flowing job f) answer).1 = .active (.flowing job g) := by
        simp only [Active.resume, leads, Active.onNext]
      exact .cons next before

/-! ### The connection of a flow -/

def Flow.IsConnected : Flow → Prop
  | .consulting | .dialling _ => False
  | _ => True

/-- A connection stays: the flow does not come to its end at once. -/
def Next.KeepsConnection : Next → Prop
  | .stage f => f.IsConnected
  | .ended _ => False
  | .aborted => True

namespace Flow

variable {job : Job} (now : Time)

theorem keeps_orClose {f : Flow} (hf : f.IsConnected) (a : Except Failure Unit) :
    (orClose f a).KeepsConnection := by
  rcases a with e | _
  · trivial
  · exact hf

theorem keeps_onPrefetch (deadline : Time) (r : Progress Prefetch Prefetch.Result) :
    (onPrefetch deadline r).KeepsConnection := by
  rcases r with s | (e | p) <;> trivial

theorem keeps_onAdvertised (p : Prefetched) (a : Except Failure Unit) :
    (onAdvertised job p now a).KeepsConnection := by
  rcases a with e | _
  · trivial
  · unfold onAdvertised
    cases Capture.deadline? now job.limits.capture <;> trivial

theorem keeps_onCapture (p : Prefetched) (deadline : Time)
    (r : Progress PackBuffer Capture.Result) : (onCapture p deadline r).1.KeepsConnection := by
  rcases r with b | (e | pack)
  · trivial
  · trivial
  · unfold onCapture
    show Flow.IsConnected (if _ then _ else _)
    split <;> trivial

theorem keeps_onInputEnded (p : Prefetched) (a : Except Failure Unit) :
    (onInputEnded p a).KeepsConnection := by
  rcases a with e | _
  · trivial
  · unfold onInputEnded
    show Flow.IsConnected (if _ then _ else _)
    split <;> trivial

theorem keeps_onRelay (skip : Skip) (exit : Option Nat) (r : ForgeRead) :
    (onRelay skip exit r).KeepsConnection := by
  rcases r with e | _ | (chunk | chunk | status | _)
  · trivial
  · trivial
  · unfold onRelay
    show Flow.IsConnected (if _ then _ else _)
    split <;> trivial
  · trivial
  · trivial
  · trivial

theorem keeps_onPipeForge (exit : Option Nat) (clientOpen : Bool) (r : ForgeRead) :
    (onPipeForge exit clientOpen r).KeepsConnection := by
  rcases r with e | _ | (chunk | chunk | status | _) <;> trivial

theorem keeps_onPipe (exit : Option Nat) (r : EitherRead) : (onPipe exit r).KeepsConnection := by
  rcases r with m | r
  · rcases m with _ | (chunk | _) <;> trivial
  · exact keeps_onPipeForge exit true r

theorem keeps_resume {f : Flow} (hf : f.IsConnected) (notClosing : ∀ result, f ≠ .closing result)
    (answer : (f.request job).Answer) : (f.resume job now answer).1.KeepsConnection := by
  cases f with
  | consulting | dialling => exact hf.elim
  | prefetching deadline s =>
      cases s with
      | reading buffer =>
          rcases answer with r | _
          · exact keeps_onPrefetch deadline _
          · trivial
      | passing buffer chunk =>
          rcases answer with r | _
          · exact keeps_onPrefetch deadline _
          · trivial
  | advertising p => exact keeps_onAdvertised now p answer
  | capturing p deadline b => exact keeps_onCapture p deadline _
  | endingInput p => exact keeps_onInputEnded p answer
  | relaying skip exit => exact keeps_onRelay skip exit answer
  | piping exit clientOpen =>
      cases clientOpen with
      | false => exact keeps_onPipeForge exit false answer
      | true => exact keeps_onPipe exit answer
  | consultingPack p pack => exact keeps_orClose (by trivial) _
  | forwarding | replaying | relayingOut | relayingErr | pipingOut | pipingErr | pipingSend
  | pipingEof => exact keeps_orClose (by trivial) answer
  | closing result => exact absurd rfl (notClosing result)

/-- While a flow has a connection it opens nothing, and closes nothing before its last stage. -/
theorem stepAt_inner {f : Flow} (hf : f.IsConnected) (notClosing : ∀ result, f ≠ .closing result)
    (answer : (f.request job).Answer) : (f.stepAt job now answer).Inner := by
  cases f with
  | consulting | dialling => exact hf.elim
  | prefetching deadline s => cases s <;> exact ⟨rfl, rfl, rfl⟩
  | piping exit clientOpen => cases clientOpen <;> exact ⟨rfl, rfl, rfl⟩
  | closing result => exact absurd rfl (notClosing result)
  | _ => exact ⟨rfl, rfl, rfl⟩

end Flow

/-- What becomes of the connection in the steps of a flow. -/
inductive Course : List Step → Prop where
  /-- Nothing is opened. -/
  | undialled {body : List Step} (inner : ∀ st ∈ body, st.Inner) : Course body
  /-- No connection is made, and nothing follows. -/
  | unconnected (before : List Step) {d : Dial} {deadline now : Time}
      {a : Timed (Except Failure Unit)} {counted : List Metrics.Measurement}
      (inner : ∀ st ∈ before, st.Inner) (fails : a ≠ .got (.ok ())) :
      Course (before ++ [⟨.dial d deadline, a, now, counted⟩])
  /-- A connection is made and, with the last step, closed. -/
  | connected (before : List Step) {during : List Step} {d : Dial} {deadline now now' : Time}
      {counted counted' : List Metrics.Measurement} (inner : ∀ st ∈ before, st.Inner)
      (inner' : ∀ st ∈ during, st.Inner) :
      Course (before ++ ⟨.dial d deadline, .got (.ok ()), now, counted⟩ :: during ++
        [⟨.close, (), now', counted'⟩])

/-- A connection that is there is closed by the last step, and nothing else is opened or closed. -/
theorem FlowRun.closes_last {job : Job} {f : Flow} {body : List Step} {result : Result}
    (run : FlowRun job f body result) (hf : f.IsConnected) :
    ∃ during now counted, body = during ++ [⟨.close, (), now, counted⟩] ∧
      ∀ st ∈ during, st.Inner := by
  induction run with
  | @last f now answer result ends =>
      cases f with
      | closing => exact ⟨[], _, _, rfl, by simp⟩
      | _ =>
          have keeps := Flow.keeps_resume now hf (by simp) answer
          rw [ends] at keeps
          exact keeps.elim
  | @step f g now answer steps result leads rest ih =>
      by_cases closing : ∃ r, f = .closing r
      · obtain ⟨r, rfl⟩ := closing
        cases leads
      · have notClosing : ∀ r, f ≠ .closing r := fun r hr => closing ⟨r, hr⟩
        have keeps := Flow.keeps_resume now hf notClosing answer
        rw [leads] at keeps
        obtain ⟨during, now', counted, rfl, inner⟩ := ih keeps
        refine ⟨f.stepAt job now answer :: during, now', counted, rfl, ?_⟩
        exact List.forall_mem_cons.2 ⟨Flow.stepAt_inner now hf notClosing answer, inner⟩

theorem FlowRun.course_of_dialling {job : Job} {started : Time} {body : List Step}
    {result : Result} (run : FlowRun job (.dialling started) body result) : Course body := by
  cases run with
  | @last _ now answer _ ends =>
      refine .unconnected [] (by simp) ?_
      rintro rfl
      simp only [Flow.resume, Flow.onDial] at ends
      split at ends <;> cases ends
  | @step _ g now answer steps _ leads rest =>
      rcases answer with (e | _) | _
      · cases leads
      · have connected : g.IsConnected := by
          simp only [Flow.resume, Flow.onDial] at leads
          split at leads <;> cases leads <;> trivial
        obtain ⟨during, now', counted, rfl, inner⟩ := rest.closes_last connected
        exact .connected [] (by simp) inner
      · cases leads

theorem Course.cons {st : Step} {body : List Step} (hst : st.Inner) (h : Course body) :
    Course (st :: body) := by
  cases h with
  | undialled inner => exact .undialled (List.forall_mem_cons.2 ⟨hst, inner⟩)
  | @unconnected before d deadline now a counted inner fails =>
      exact .unconnected (st :: before) (List.forall_mem_cons.2 ⟨hst, inner⟩) fails
  | @connected before during d deadline now now' counted counted' inner inner' =>
      exact .connected (st :: before) (List.forall_mem_cons.2 ⟨hst, inner⟩) inner'

theorem FlowRun.course_of_consulting {job : Job} {body : List Step} {result : Result}
    (run : FlowRun job .consulting body result) : Course body := by
  cases run with
  | @last _ now answer _ ends =>
      exact .undialled (List.forall_mem_singleton.2 ⟨rfl, rfl, rfl⟩)
  | @step _ g now answer steps _ leads rest =>
      have dialling : g = .dialling now := by
        simp only [Flow.resume] at leads
        split at leads <;> cases leads
        rfl
      subst dialling
      exact .cons ⟨rfl, rfl, rfl⟩ rest.course_of_dialling

theorem FlowRun.course {job : Job} {now : Time} {body : List Step} {result : Result}
    (run : FlowRun job (.start job now) body result) : Course body := by
  unfold Flow.start at run
  split at run
  · exact run.course_of_consulting
  · exact run.course_of_dialling

section
variable {body : List Step}

theorem countP_inner {p : Step → Bool} (hp : ∀ st, st.Inner → p st = false)
    (inner : ∀ st ∈ body, st.Inner) : body.countP p = 0 := by
  rw [List.countP_eq_zero]
  intro st hst
  rw [hp st (inner st hst)]
  exact Bool.false_ne_true

/-- One connection at most is tried; those that were made are closed, and nothing else. -/
theorem Course.counts (h : Course body) :
    body.countP Step.dials ≤ 1 ∧ body.countP Step.closes = body.countP Step.connects ∧
      body.countP Step.finishes = 0 := by
  have none {l : List Step} (inner : ∀ st ∈ l, st.Inner) :
      l.countP Step.dials = 0 ∧ l.countP Step.connects = 0 ∧ l.countP Step.closes = 0 ∧
        l.countP Step.finishes = 0 :=
    ⟨countP_inner (fun _ h => h.dials) inner, countP_inner (fun _ h => h.connects) inner,
      countP_inner (fun _ h => h.closes) inner, countP_inner (fun _ h => h.finishes) inner⟩
  cases h with
  | undialled inner => simp [none inner]
  | @unconnected before d deadline now a counted inner fails =>
      have unconnected : Step.connects ⟨.dial d deadline, a, now, counted⟩ = false := by
        rcases a with (e | _) | _
        · rfl
        · exact absurd rfl fails
        · rfl
      simp [none inner, unconnected, Step.dials, Step.closes, Step.finishes]
  | @connected before during d deadline now now' counted counted' inner inner' =>
      simp [List.countP_cons, none inner, none inner', Step.dials, Step.connects, Step.closes,
        Step.finishes]

end

/-! ### The end of a command -/

def Stage.HasResult : Stage → Prop
  | .active (.flowing _ _) | .aborted => False
  | _ => True

theorem Run.hasResult {s t : Stage} {steps : List Step} (run : Run s steps t)
    (start : s.HasResult) : t.HasResult := by
  refine run.invariant (I := fun _ s => s.HasResult) ?_ (h := []) start
  intro h a now answer hI
  cases a with
  | flowing => exact hI.elim
  | reporting | finishing => trivial

theorem hasResult_conclude (kind : Metrics.CommandKind) (result : Result) :
    (Active.conclude kind result).1.HasResult := by
  cases result <;> trivial

theorem ending_counts {tail : List Step} {result : Result}
    (h : tail.map Step.request = ending result) :
    tail.countP Step.dials = 0 ∧ tail.countP Step.closes = 0 ∧ tail.countP Step.connects = 0 ∧
      tail.countP Step.finishes = 1 := by
  cases result with
  | ok status =>
      obtain ⟨⟨r, a, t, c⟩, rfl, hr⟩ := List.map_eq_singleton_iff.1 h
      cases hr
      exact ⟨rfl, rfl, rfl, rfl⟩
  | error e =>
      obtain ⟨⟨r, a, t, c⟩, rest, rfl, hr, hrest⟩ := List.map_eq_cons_iff.1 h
      obtain ⟨⟨r', a', t', c'⟩, rfl, hr'⟩ := List.map_eq_singleton_iff.1 hrest
      cases hr
      cases hr'
      exact ⟨rfl, rfl, rfl, rfl⟩

/-- What becomes of an exec line: it is refused, and nothing is done, or its flow runs. -/
inductive Outcome (context : Context) (limits : Limits) (raw : String) (now : Time) :
    List Step → Result → Prop where
  | refused {e : Git.ExecError} (parsed : Git.ExecLine.parse raw = .error e) :
      Outcome context limits raw now [] (.error (.ofExec e))
  | ran {exec : Git.ExecLine} {body : List Step} {result : Result}
      (parsed : Git.ExecLine.parse raw = .ok exec)
      (run : FlowRun ⟨exec, context, limits⟩ (.start ⟨exec, context, limits⟩ now) body result) :
      Outcome context limits raw now body result

theorem Run.outcome {context : Context} {limits : Limits} {raw : String} {now : Time}
    {steps : List Step} {status : Nat}
    (run : Run (.start context limits raw now) steps (.finished status)) :
    ∃ kind body result tail, steps = body ++ tail ∧ Outcome context limits raw now body result ∧
      Run (Active.conclude kind result).1 tail (.finished status) := by
  unfold Stage.start at run
  cases parsed : Git.ExecLine.parse raw with
  | error e =>
      rw [parsed] at run
      exact ⟨.rejected, [], .error (.ofExec e), steps, rfl, .refused parsed, run⟩
  | ok exec =>
      rw [parsed] at run
      rcases run.flow_split with ⟨g, inside⟩ | dead | ⟨body, result, tail, hsteps, flow, after⟩
      · cases inside
      · cases dead
      · exact ⟨_, body, result, tail, hsteps, .ran parsed flow, after⟩

theorem Outcome.course {context : Context} {limits : Limits} {raw : String} {now : Time}
    {body : List Step} {result : Result} (h : Outcome context limits raw now body result) :
    Course body := by
  cases h with
  | refused => exact .undialled (by simp)
  | ran parsed run => exact run.course

/-- **The life of a command.**  In every run that comes to its end there is a result, of the flow
or because the exec line was refused.  Behind it nothing is asked but what `ending` says: a
failure is reported in one line with the status 1, and the client's channel is finished, which
nothing before has done; the status of a flow without failure is its own.  Before the result at
most one connection to the forge is tried, and one that was made is closed, once.  A refused exec
line leads to no question to the gate, no connection, no look at the client's input and no
output. -/
theorem command_life_cycle {context : Context} {limits : Limits} {raw : String} {now : Time}
    {steps : List Step} {status : Nat}
    (run : Run (.start context limits raw now) steps (.finished status)) :
    ∃ body result tail, steps = body ++ tail ∧ Outcome context limits raw now body result ∧
      tail.map Step.request = ending result ∧ status = exitStatus result ∧
      (body.countP Step.finishes = 0 ∧ steps.countP Step.finishes = 1) ∧
      (Course body ∧ steps.countP Step.dials ≤ 1 ∧
        steps.countP Step.closes = steps.countP Step.connects) ∧
      ∀ e, Git.ExecLine.parse raw = .error e →
        consultations steps = [] ∧ steps.countP Step.dials = 0 ∧
        (∀ st ∈ steps, st.request.readsClient = false) ∧ offered steps = [] := by
  obtain ⟨kind, body, result, tail, rfl, outcome, after⟩ := run.outcome
  obtain ⟨requests, hstatus⟩ := after.concludes.2 status rfl
  obtain ⟨dials, closes, finishes⟩ := outcome.course.counts
  obtain ⟨dials', closes', connects', finishes'⟩ := ending_counts requests
  refine ⟨body, result, tail, rfl, outcome, requests, hstatus, ⟨finishes, ?_⟩,
    ⟨outcome.course, ?_, ?_⟩, ?_⟩
  · rw [List.countP_append, finishes, finishes']
  · rw [List.countP_append, dials']
    exact dials
  · rw [List.countP_append, List.countP_append, closes', connects', closes]
  · intro e refused
    have nothing : body = [] ∧ ∃ e, result = .error e := by
      cases outcome with
      | refused => exact ⟨rfl, _, rfl⟩
      | ran parsed => cases refused.symm.trans parsed
    obtain ⟨rfl, e', rfl⟩ := nothing
    obtain ⟨⟨r, a, t, c⟩, rest, rfl, hr, hrest⟩ := List.map_eq_cons_iff.1 requests
    obtain ⟨⟨r', a', t', c'⟩, rfl, hr'⟩ := List.map_eq_singleton_iff.1 hrest
    cases hr
    cases hr'
    exact ⟨rfl, rfl, by simp [Request.readsClient], rfl⟩

/-! ### A pull whose client goes away -/

theorem Stage.start_pull {context : Context} {limits : Limits} {raw : String} {now : Time}
    {exec : Git.ExecLine} (parsed : Git.ExecLine.parse raw = .ok exec)
    (pull : exec.service = .uploadPack) :
    Stage.start context limits raw now =
      .active (.flowing ⟨exec, context, limits⟩ .consulting) := by
  simp [Stage.start, parsed, Flow.start, pull]

def samplePullLine : String := "git-upload-pack 'github.com/a/b.git'"

/-- What is pulled with it, for whom, and under the usual limits. -/
def samplePull : Job :=
  ⟨⟨.uploadPack, ⟨"github.com", "a/b.git"⟩⟩, ⟨⟨"alice", "alice@example.com", "alice"⟩, true, none⟩,
    {}⟩

theorem parse_samplePullLine : Git.ExecLine.parse samplePullLine = .ok samplePull.exec := by rfl

/-- The pull is allowed and connected; then the client is gone. -/
theorem sample_pull_abandoned :
    ∃ steps, Run (.start samplePull.context samplePull.limits samplePullLine 0) steps
        (.finished 1) ∧
      steps.countP Step.connects = 1 ∧
      (steps.map Step.request).drop 4 =
        [.writeErr (Bytes.ofString "client disconnected\n"), .finish 1] := by
  have shown : Failure.clientGone.line = "client disconnected\n" := by decide
  rw [Stage.start_pull parse_samplePullLine rfl, ← shown]
  refine ⟨_, .step (.flowing samplePull .consulting) 0 (.ok {}) <|
    .step (.flowing samplePull (.dialling 0)) 0 (.got (.ok ())) <|
    .step (.flowing samplePull (.piping none true)) 0 (.client none) <|
    .step (.flowing samplePull (.closing (.error .clientGone))) 0 () <|
    .step (.reporting samplePull.kind .clientGone) 0 (.ok ()) <|
    .step (.finishing 1) 0 () <| .here (.finished 1), rfl, rfl⟩

theorem command_life_cycle_sample :
    ∃ steps, Run (.start samplePull.context samplePull.limits samplePullLine 0) steps
        (.finished 1) ∧
      steps.countP Step.connects = 1 ∧ steps.countP Step.closes = 1 ∧
      steps.countP Step.finishes = 1 ∧
      (steps.map Step.request).drop 4 =
        [.writeErr (Bytes.ofString "client disconnected\n"), .finish 1] := by
  obtain ⟨steps, run, connects, ending⟩ := sample_pull_abandoned
  obtain ⟨_, _, _, _, _, _, _, ⟨_, finishes⟩, ⟨_, _, closes⟩, _⟩ := command_life_cycle run
  exact ⟨steps, run, connects, closes.trans connects, finishes, ending⟩

end ForgeGateway.Relay
