import ForgeGateway.Proofs.Relay.PullRelay

/-! # What the client of a pull is shown

If nothing fails, the forge's events alone decide what the client is shown and with which status
the pull ends (`PullAnswer`).  The order in which the two sides were read leaves no trace: pulls
that read the same events show the same (`PullAnswer.unique`).  `pull_relay` puts this together
with what holds in every run, whatever fails. -/

namespace ForgeGateway.Relay

/-! ### Runs without a failure -/

def Step.fails : Step → Bool
  | ⟨.consult _, .error _, _, _⟩ => true
  | ⟨.consult _, .ok v, _, _⟩ => !v.isAllow
  | ⟨.dial _ _, .got (.ok ()), _, _⟩ => false
  | ⟨.dial _ _, _, _, _⟩ => true
  | ⟨.readForgeBy _, .got (.error _), _, _⟩ | ⟨.readForge, .error _, _, _⟩
  | ⟨.readEither, .forge (.error _), _, _⟩ => true
  | ⟨.readForgeBy _, .late, _, _⟩ | ⟨.readClientBy _, .late, _, _⟩
  | ⟨.writeErrBy _ _, .late, _, _⟩ => true
  | st => st.writeFails

/-- Nothing fails, and the client does not go away. -/
structure Smooth (h : List Step) : Prop where
  unfailing : ∀ st ∈ h, st.fails = false
  clientStays : ∀ st ∈ h, st.losesClient = false

theorem smooth_append {h k : List Step} : Smooth (h ++ k) ↔ Smooth h ∧ Smooth k := by
  constructor
  · rintro ⟨unfailing, stays⟩
    rw [List.forall_mem_append] at unfailing stays
    exact ⟨⟨unfailing.1, stays.1⟩, ⟨unfailing.2, stays.2⟩⟩
  · rintro ⟨hh, hk⟩
    exact ⟨List.forall_mem_append.2 ⟨hh.unfailing, hk.unfailing⟩,
      List.forall_mem_append.2 ⟨hh.clientStays, hk.clientStays⟩⟩

theorem smooth_singleton {st : Step} :
    Smooth [st] ↔ st.fails = false ∧ st.losesClient = false := by
  constructor
  · rintro ⟨unfailing, stays⟩
    exact ⟨unfailing st (List.mem_singleton_self st), stays st (List.mem_singleton_self st)⟩
  · rintro ⟨unfailing, stays⟩
    exact ⟨List.forall_mem_singleton.2 unfailing, List.forall_mem_singleton.2 stays⟩

theorem Step.writeFails_of_fails {st : Step} (h : st.fails = false) : st.writeFails = false := by
  unfold Step.fails at h
  split at h <;> first | rfl | cases h | exact h

theorem Smooth.allWritten {h : List Step} (hs : Smooth h) : AllWritten h :=
  fun st hst => Step.writeFails_of_fails (hs.unfailing st hst)

theorem fails_readStep_error (clientOpen : Bool) (e : Failure) (now : Time)
    (c : List Metrics.Measurement) : (readStep clientOpen (.error e) now c).fails = true := by
  cases clientOpen <;> rfl

theorem decision_of_isAllow {v : Approval.Verdict} (h : v.isAllow) :
    Flow.decision (.ok v) = .ok () := by
  have none : v.denial = none := Option.isNone_iff_eq_none.1 h
  simp only [Flow.decision, Approval.Verdict.outcome_eq, none]

/-! ### The forge's events -/

/-- What an event writes to the output. -/
def ForgeEvent.out : ForgeEvent → Bytes
  | .data b => b
  | _ => []

/-- What an event writes to the error stream. -/
def ForgeEvent.err : ForgeEvent → Bytes
  | .stderr b => b
  | _ => []

def ForgeEvent.status? : ForgeEvent → Option Nat
  | .exit status => some status
  | _ => none

def lastExit (events : List ForgeEvent) : Option Nat :=
  (events.filterMap ForgeEvent.status?).getLast?

/-- Everything that was read from the forge's channel. -/
def forgeReads (h : List Step) : List ForgeRead := h.filterMap Step.forgeRead?

/-- What the forge has written to its output, if it yields that. -/
def outputData : ForgeRead → Bytes
  | .ok (some (.data b)) => b
  | _ => []

theorem Step.data_eq (st : Step) : st.data = (st.forgeRead?.map outputData).getD [] := by
  unfold Step.data
  rcases st.forgeRead? with _ | (e | _ | (chunk | chunk | status | _)) <;> rfl

theorem flatten_map_forgeRead? (f : ForgeRead → Bytes) (h : List Step) :
    (h.map fun st => (st.forgeRead?.map f).getD []).flatten = ((forgeReads h).map f).flatten := by
  induction h with
  | nil => rfl
  | cons st h ih =>
      rw [List.map_cons, List.flatten_cons, ih]
      cases hr : st.forgeRead? with
      | none => simp [forgeReads, hr]
      | some r => simp [forgeReads, hr]

theorem received_eq (h : List Step) : received h = ((forgeReads h).map outputData).flatten := by
  rw [← flatten_map_forgeRead?, received, funext Step.data_eq]

theorem errReceived_eq (h : List Step) :
    errReceived h = ((forgeReads h).map errorData).flatten :=
  flatten_map_forgeRead? errorData h

/-- Events as they are read. -/
def asReads (events : List ForgeEvent) : List ForgeRead := events.map fun e => .ok (some e)

section
variable {h : List Step} {st : Step} {events : List ForgeEvent}

theorem forgeReads_snoc_none (hst : st.forgeRead? = none) :
    forgeReads (h ++ [st]) = forgeReads h := by
  simp [forgeReads, hst]

theorem forgeReads_snoc_some {r : ForgeRead} (hst : st.forgeRead? = some r) :
    forgeReads (h ++ [st]) = forgeReads h ++ [r] := by
  simp [forgeReads, hst]

theorem lastExit_snoc (e : ForgeEvent) :
    lastExit (events ++ [e]) = e.status?.or (lastExit events) := by
  unfold lastExit
  rw [List.filterMap_append]
  cases hs : e.status? with
  | none => simp [hs]
  | some status => simp [hs]

theorem outputData_event (e : ForgeEvent) : outputData (.ok (some e)) = e.out := by
  cases e <;> rfl

theorem errorData_event (e : ForgeEvent) : errorData (.ok (some e)) = e.err := by
  cases e <;> rfl

theorem flatten_map_asReads {f : ForgeRead → Bytes} {g : ForgeEvent → Bytes}
    (ends : f (.ok none) = []) (same : ∀ e, f (.ok (some e)) = g e) :
    ((asReads events ++ [Except.ok none]).map f).flatten = (events.map g).flatten := by
  have events_eq : (asReads events).map f = events.map g := by
    rw [asReads, List.map_map]
    exact List.map_congr_left fun e _ => same e
  rw [List.map_append, events_eq]
  simp [ends]

/-- Two event sequences that are read up to their end from one channel are the same. -/
theorem asReads_unique {events' : List ForgeEvent} {script : List ForgeRead}
    (h : asReads events ++ [.ok none] <+: script)
    (h' : asReads events' ++ [.ok none] <+: script) : events = events' := by
  induction events generalizing events' script with
  | nil =>
      cases events' with
      | nil => rfl
      | cons e' rest' =>
          obtain ⟨t, rfl⟩ := h
          have := (List.cons_prefix_cons.1 h').1
          cases this
  | cons e rest ih =>
      cases events' with
      | nil =>
          obtain ⟨t, rfl⟩ := h
          have := (List.cons_prefix_cons.1 h').1
          cases this
      | cons e' rest' =>
          obtain ⟨t, rfl⟩ := h
          obtain ⟨same, rest_prefix⟩ := List.cons_prefix_cons.1 h'
          cases same
          rw [ih (List.prefix_append _ t) rest_prefix]

end

/-! ### Exit statuses -/

/-- The exit status that a reading of the forge's channel yields. -/
def exitRead? : ForgeRead → Option Nat
  | .ok (some e) => e.status?
  | _ => none

/-- The exit statuses that were read, in order. -/
def exitsRead (h : List Step) : List Nat := (forgeReads h).filterMap exitRead?

section
variable {h : List Step} {st : Step}

theorem exitsRead_snoc_none (hst : st.forgeRead? = none) : exitsRead (h ++ [st]) = exitsRead h := by
  rw [exitsRead, forgeReads_snoc_none hst, exitsRead]

theorem exitsRead_snoc_some {r : ForgeRead} (hst : st.forgeRead? = some r) :
    exitsRead (h ++ [st]) = exitsRead h ++ (exitRead? r).toList := by
  rw [exitsRead, forgeReads_snoc_some hst, List.filterMap_append, exitsRead]
  cases hr : exitRead? r <;> simp [hr]

theorem exitsRead_snoc_status {status : Nat}
    (hst : st.forgeRead? = some (.ok (some (.exit status)))) :
    (exitsRead (h ++ [st])).getLast? = some status := by
  rw [exitsRead_snoc_some hst]
  exact List.getLast?_concat

theorem exitsRead_snoc_other {r : ForgeRead} (hst : st.forgeRead? = some r)
    (hr : exitRead? r = none) : exitsRead (h ++ [st]) = exitsRead h := by
  rw [exitsRead_snoc_some hst, hr]
  exact List.append_nil _

end

/-! ### What a pull answers -/

/-- A pull that read these events, up to the end of the forge's channel, and showed them. -/
structure PullAnswer (h : List Step) (status : Nat) (events : List ForgeEvent) : Prop where
  reads : forgeReads h = asReads events ++ [.ok none]
  shown : shown h = (events.map ForgeEvent.out).flatten
  errShown : errShown h = (events.map ForgeEvent.err).flatten
  status : status = (lastExit events).getD 0

/-- What the forge has said when a pull without a failure is at a stage. -/
def Answered (h : List Step) : Flow → Prop
  | .consulting | .dialling _ => forgeReads h = []
  | .piping exit _ | .pipingOut _ exit _ | .pipingErr _ exit _ | .pipingSend _ exit
  | .pipingEof exit => ∃ events, forgeReads h = asReads events ∧ exit = lastExit events
  | .closing result =>
    ∃ events, forgeReads h = asReads events ++ [.ok none] ∧
      result = .ok ((lastExit events).getD 0)
  | _ => False

section
variable {h : List Step} {st : Step} {exit : Option Nat}

theorem answered_snoc_none (ha : ∃ events, forgeReads h = asReads events ∧ exit = lastExit events)
    (hst : st.forgeRead? = none) :
    ∃ events, forgeReads (h ++ [st]) = asReads events ∧ exit = lastExit events := by
  rw [forgeReads_snoc_none hst]
  exact ha

theorem answered_snoc_event {e : ForgeEvent}
    (ha : ∃ events, forgeReads h = asReads events ∧ exit = lastExit events)
    (hst : st.forgeRead? = some (.ok (some e))) :
    ∃ events, forgeReads (h ++ [st]) = asReads events ∧
      e.status?.or exit = lastExit events := by
  obtain ⟨events, reads, rfl⟩ := ha
  refine ⟨events ++ [e], ?_, (lastExit_snoc e).symm⟩
  rw [forgeReads_snoc_some hst, reads]
  simp [asReads]

theorem PullMove.keeps_answered {job : Job} {f g : Flow} (move : PullMove job f st (.stage g))
    (ha : Smooth h → Answered h f) : Smooth (h ++ [st]) → Answered (h ++ [st]) g := by
  intro smooth
  obtain ⟨before, last⟩ := smooth_append.1 smooth
  obtain ⟨unfailing, stays⟩ := smooth_singleton.1 last
  have answered := ha before
  cases move with
  | clientGone => cases stays
  | unsent | unended | unshown | unshownErr => cases unfailing
  | broken | breaksOff =>
      rw [fails_readStep_error] at unfailing
      cases unfailing
  | allowed => exact (forgeReads_snoc_none rfl).trans answered
  | connected => exact ⟨[], (forgeReads_snoc_none rfl).trans answered, rfl⟩
  | clientData | clientEof | sent | ended | shown | shownErr =>
      exact answered_snoc_none answered rfl
  | done =>
      obtain ⟨events, reads, rfl⟩ := answered
      refine ⟨events, ?_, rfl⟩
      rw [forgeReads_snoc_some (forgeRead?_readStep ..), reads]
  | data | stderr | exits | outputEnds =>
      exact answered_snoc_event answered (forgeRead?_readStep ..)

end

section
variable {job : Job} {body : List Step} {result : Result}

/-- A pull without a failure ends at the end of the forge's channel. -/
theorem FlowRun.answered (pull : job.exec.service = .uploadPack)
    (run : FlowRun job .consulting body result) (smooth : Smooth body) :
    ∃ events, forgeReads body = asReads events ++ [.ok none] ∧
      result = .ok ((lastExit events).getD 0) := by
  obtain ⟨init, g, st, rfl, ha, last⟩ :=
    run.pull_invariant pull (P := fun h f => Smooth h → Answered h f)
      (fun _ _ _ _ move ha => move.keeps_answered ha) trivial fun _ => rfl
  obtain ⟨before, final⟩ := smooth_append.1 smooth
  obtain ⟨unfailing, -⟩ := smooth_singleton.1 final
  have answered := ha before
  cases last with
  | @denied a now c e h =>
      rcases a with e' | v
      · cases unfailing
      · have allows : v.isAllow = true := by simpa [Step.fails] using unfailing
        rw [decision_of_isAllow allows] at h
        cases h
  | @unconnected started d t a now c e h =>
      rcases a with (e' | _) | _
      · cases unfailing
      · exact absurd rfl h
      · cases unfailing
  | closed =>
      rw [forgeReads_snoc_none rfl]
      exact answered

/-- A pull without a failure shows the forge's events, and ends with its exit status. -/
theorem Run.pullAnswer (pull : job.exec.service = .uploadPack) {steps : List Step} {status : Nat}
    (run : Run (.active (.flowing job .consulting)) steps (.finished status))
    (smooth : Smooth steps) : ∃ events, PullAnswer steps status events := by
  rcases run.flow_split with ⟨g, inside⟩ | dead | ⟨body, result, tail, rfl, flow, after⟩
  · cases inside
  · cases dead
  · obtain ⟨smoothBody, -⟩ := smooth_append.1 smooth
    obtain ⟨events, reads, rfl⟩ := flow.answered pull smoothBody
    obtain ⟨requests, rfl⟩ := after.concludes.2 status rfl
    obtain ⟨⟨r, a, t, c⟩, rfl, hr⟩ := List.map_eq_singleton_iff.1 requests
    cases hr
    have balanced := flow.balanced pull smoothBody.allWritten
    refine ⟨events, ?_, ?_, ?_, rfl⟩
    · rw [forgeReads_snoc_none rfl, reads]
    · have out := balanced.out
      rw [List.append_nil, received_eq, reads] at out
      rw [shown_append, out, flatten_map_asReads rfl outputData_event]
      exact List.append_nil _
    · have err := balanced.err
      rw [List.append_nil, errReceived_eq, reads] at err
      rw [errShown_append, err, flatten_map_asReads rfl errorData_event]
      exact List.append_nil _

end

theorem PullAnswer.unique {h h' : List Step} {status status' : Nat}
    {events events' : List ForgeEvent} {script : List ForgeRead}
    (answer : PullAnswer h status events) (answer' : PullAnswer h' status' events')
    (same : forgeReads h <+: script) (same' : forgeReads h' <+: script) :
    Relay.shown h' = Relay.shown h ∧ Relay.errShown h' = Relay.errShown h ∧ status' = status := by
  rw [answer.reads] at same
  rw [answer'.reads] at same'
  obtain rfl := asReads_unique same same'
  exact ⟨answer'.shown.trans answer.shown.symm, answer'.errShown.trans answer.errShown.symm,
    answer'.status.trans answer.status.symm⟩

/-! ### All runs of a pull -/

/-- A run of an accepted pull from its exec line on. -/
def PullRun (steps : List Step) (s : Stage) : Prop :=
  ∃ context limits raw now exec, Git.ExecLine.parse raw = .ok exec ∧
    exec.service = .uploadPack ∧ Run (.start context limits raw now) steps s

/-- Everything that was read in the steps of a pull's flow was written, if no writing failed,
but for what is pending; behind the flow there is only its ending. -/
def PassesOn (job : Job) (steps : List Step) (s : Stage) : Prop :=
  ∃ body tail, steps = body ++ tail ∧ (AllWritten body → Balanced body s.pending) ∧
    (tail = [] ∨ ∃ result, FlowRun job .consulting body result ∧
      tail.map Step.request <+: ending result)

theorem Stage.pending_of_hasResult {s : Stage} (h : s.HasResult) : s.pending = {} := by
  cases s with
  | finished | aborted => rfl
  | active a =>
      cases a with
      | flowing => exact h.elim
      | reporting | finishing => rfl

theorem Run.passesOn {job : Job} (pull : job.exec.service = .uploadPack) {steps : List Step}
    {s : Stage} (run : Run (.active (.flowing job .consulting)) steps s) :
    PassesOn job steps s := by
  rcases run.flow_split with ⟨g, rfl⟩ | dead | ⟨body, result, tail, rfl, flow, after⟩
  · exact ⟨steps, [], (List.append_nil _).symm, run.balanced pull, .inl rfl⟩
  · exact absurd dead (run.pull_ne_aborted pull (by trivial))
  · have nothing : s.pending = {} :=
      Stage.pending_of_hasResult (after.hasResult (hasResult_conclude _ _))
    refine ⟨body, tail, rfl, ?_, .inr ⟨result, flow, after.concludes.1⟩⟩
    rw [nothing]
    exact flow.balanced pull

/-- **Pulls.**  In every run of an accepted pull, in whatever order the client and the forge are
read and whatever fails: the gate is asked once, and nothing is connected and no message of the
client taken before it has allowed the pull.  As long as no writing fails, what was read is passed
on, unmodified and in order.  Behind the end of the forge's input nothing more is sent and the
client is not read.  A client that went away ends the pull.  Pulls in which nothing fails and that
read the forge's channel alike show their clients the same and end with the same status, which is
the last that the forge gave. -/
theorem pull_relay {context : Context} {limits : Limits} {raw : String} {now : Time}
    {exec : Git.ExecLine} {steps : List Step} {s : Stage}
    (parsed : Git.ExecLine.parse raw = .ok exec) (pull : exec.service = .uploadPack)
    (run : Run (.start context limits raw now) steps s) :
    ((steps ≠ [] → AskedPull ⟨exec, context, limits⟩ steps) ∧
      ∀ before st after, steps = before ++ st :: after → st.dials ∨ st.request.readsClient →
        AllowedPull ⟨exec, context, limits⟩ before) ∧
    PassesOn ⟨exec, context, limits⟩ steps s ∧
    (∀ before st after, steps = before ++ st :: after → st.endsInput → Quiet after) ∧
    (∀ before st after, steps = before ++ st :: after → st.losesClient →
      after.map Step.request <+: .close :: ending (.error .clientGone) ∧
      ∀ status, s = .finished status →
        after.map Step.request = .close :: ending (.error .clientGone) ∧ status = 1) ∧
    ∀ status, s = .finished status → Smooth steps →
      (∃ events, PullAnswer steps status events) ∧
      ∀ steps' status' script, PullRun steps' (.finished status') → Smooth steps' →
        forgeReads steps <+: script → forgeReads steps' <+: script →
        Relay.shown steps' = Relay.shown steps ∧ Relay.errShown steps' = Relay.errShown steps ∧
          status' = status := by
  rw [Stage.start_pull parsed pull] at run
  refine ⟨⟨?_, ?_⟩, run.passesOn pull, ?_, ?_, ?_⟩
  · intro nonempty
    refine (run.pullGate pull).elim fun f hf => ?_
    cases f with
    | consulting => exact absurd hf.2 nonempty
    | _ => exact AllowedPull.asked hf.2
  · rintro before st after rfl hst
    exact run.allowed_before pull hst
  · rintro before st after rfl hst
    exact run.quiet_after pull hst
  · rintro before st after rfl lost
    exact run.ends_without_client pull lost
  · rintro status rfl smooth
    obtain ⟨events, answer⟩ := run.pullAnswer pull smooth
    refine ⟨⟨events, answer⟩, ?_⟩
    rintro steps' status' script ⟨context', limits', raw', now', exec', parsed', pull', run'⟩
      smooth' same same'
    rw [Stage.start_pull parsed' pull'] at run'
    obtain ⟨events', answer'⟩ := Run.pullAnswer pull' run' smooth'
    exact answer.unique answer' same same'

/-! ### A pull of one octet -/

/-- What the forge says: the octet 7 and the status 3. -/
def sampleEvents : List ForgeEvent := [.data [7], .exit 3]

theorem sample_pull_forge_first :
    ∃ steps, Run (.start samplePull.context samplePull.limits samplePullLine 0) steps
        (.finished 3) ∧
      Smooth steps ∧ forgeReads steps = asReads sampleEvents ++ [.ok none] ∧
      Relay.shown steps = [7] := by
  rw [Stage.start_pull parse_samplePullLine rfl]
  refine ⟨_, .step (.flowing samplePull .consulting) 0 (.ok {}) <|
    .step (.flowing samplePull (.dialling 0)) 0 (.got (.ok ())) <|
    .step (.flowing samplePull (.piping none true)) 0 (.forge (.ok (some (.data [7])))) <|
    .step (.flowing samplePull (.pipingOut [7] none true)) 0 (.ok ()) <|
    .step (.flowing samplePull (.piping none true)) 0 (.client (some .eof)) <|
    .step (.flowing samplePull (.pipingEof none)) 0 (.ok ()) <|
    .step (.flowing samplePull (.piping none false)) 0 (.ok (some (.exit 3))) <|
    .step (.flowing samplePull (.piping (some 3) false)) 0 (.ok none) <|
    .step (.flowing samplePull (.closing (.ok 3))) 0 () <|
    .step (.finishing 3) 0 () <| .here (.finished 3), ⟨?_, ?_⟩, rfl, rfl⟩
  · decide
  · decide

theorem sample_pull_client_first :
    ∃ steps, Run (.start samplePull.context samplePull.limits samplePullLine 0) steps
        (.finished 3) ∧
      Smooth steps ∧ forgeReads steps = asReads sampleEvents ++ [.ok none] := by
  rw [Stage.start_pull parse_samplePullLine rfl]
  refine ⟨_, .step (.flowing samplePull .consulting) 0 (.ok {}) <|
    .step (.flowing samplePull (.dialling 0)) 0 (.got (.ok ())) <|
    .step (.flowing samplePull (.piping none true)) 0 (.client (some (.data [1]))) <|
    .step (.flowing samplePull (.pipingSend [1] none)) 0 (.ok ()) <|
    .step (.flowing samplePull (.piping none true)) 0 (.client (some .eof)) <|
    .step (.flowing samplePull (.pipingEof none)) 0 (.ok ()) <|
    .step (.flowing samplePull (.piping none false)) 0 (.ok (some (.data [7]))) <|
    .step (.flowing samplePull (.pipingOut [7] none false)) 0 (.ok ()) <|
    .step (.flowing samplePull (.piping none false)) 0 (.ok (some (.exit 3))) <|
    .step (.flowing samplePull (.piping (some 3) false)) 0 (.ok none) <|
    .step (.flowing samplePull (.closing (.ok 3))) 0 () <|
    .step (.finishing 3) 0 () <| .here (.finished 3), ⟨?_, ?_⟩, rfl⟩
  · decide
  · decide

theorem pull_relay_sample :
    ∃ steps steps', PullRun steps (.finished 3) ∧ PullRun steps' (.finished 3) ∧
      AskedPull samplePull steps ∧ Relay.shown steps = [7] ∧ Relay.shown steps' = [7] := by
  obtain ⟨steps, run, smooth, reads, shown⟩ := sample_pull_forge_first
  obtain ⟨steps', run', smooth', reads'⟩ := sample_pull_client_first
  have isPull : PullRun steps (.finished 3) := ⟨_, _, _, _, _, parse_samplePullLine, rfl, run⟩
  have isPull' : PullRun steps' (.finished 3) := ⟨_, _, _, _, _, parse_samplePullLine, rfl, run'⟩
  obtain ⟨⟨asked, -⟩, -, -, -, same⟩ := pull_relay parse_samplePullLine rfl run
  refine ⟨steps, steps', isPull, isPull', asked ?_, shown, ?_⟩
  · rintro rfl
    cases shown
  · have sameReads : forgeReads steps' = forgeReads steps := reads'.trans reads.symm
    have answer := (same 3 rfl smooth).2 steps' 3 _ isPull' smooth' List.prefix_rfl
      (sameReads ▸ List.prefix_rfl)
    rw [answer.1, shown]

end ForgeGateway.Relay
