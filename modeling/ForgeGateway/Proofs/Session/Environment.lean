import ForgeGateway.Proofs.Relay.Approved
import ForgeGateway.Proofs.Session.Step

/-! # The version of Git's protocol that a forge is told

A client asks for a version of Git's protocol by setting a variable on one of its channels.  The
session keeps one version for all channels, the one that was asked for last
(`gitProtocol_after`), and a command has the version that is kept when it starts.  Hence a forge
is told the version that was asked for last before the exec line, on whatever channel that was
(`protocol_shared`).  That is the last one of the command's own channel as long as the client asks
on this channel only; otherwise it can be the version of another one (`protocol_leaks`). -/

namespace ForgeGateway.Session

open ForgeGateway.Relay (Context Limits Run Stage Step samplePull samplePullLine)

/-! ### What the client asks for -/

/-- The version of Git's protocol that the client asks for with the event. -/
def Event.version? : Event → Option String
  | .setEnv _ name value => if name = protocolVariable then some value else none
  | _ => none

def Event.isSetOn (channel : Nat) : Event → Bool
  | .setEnv here _ _ => here == channel
  | _ => false

/-- The version that was asked for last, on whatever channel. -/
def lastVersion? (events : List Event) : Option String :=
  (events.filterMap Event.version?).getLast?

/-- The version that was asked for last on the channel. -/
def lastVersionOn? (channel : Nat) (events : List Event) : Option String :=
  lastVersion? (events.filter (Event.isSetOn channel))

section
variable {store : Identity.Store} {s : Session} {events : List Event} {e : Event}
  {channel n : Nat} {raw : String} {context : Context}

theorem lastVersion?_snoc (events : List Event) (e : Event) :
    lastVersion? (events ++ [e]) = e.version?.or (lastVersion? events) := by
  unfold lastVersion?
  cases asks : e.version? with
  | none => simp [asks]
  | some value => simp [asks]

theorem lastVersion?_eq_none_iff :
    lastVersion? events = none ↔ ∀ e ∈ events, e.version? = none := by
  unfold lastVersion?
  rw [List.getLast?_eq_none_iff, List.filterMap_eq_nil_iff]

/-- Where all versions are asked for on one channel, the last one is the last one there. -/
theorem lastVersionOn?_eq
    (own : ∀ e ∈ events, e.version?.isSome = true → e.isSetOn channel = true) :
    lastVersionOn? channel events = lastVersion? events := by
  have same : (events.filter (Event.isSetOn channel)).filterMap Event.version? =
      events.filterMap Event.version? := by
    induction events with
    | nil => rfl
    | cons e events ih =>
        have rest := ih fun e' member => own e' (.tail _ member)
        rw [List.filter_cons]
        split
        next here => rw [List.filterMap_cons, List.filterMap_cons, rest]
        next elsewhere =>
          have unasked : e.version? = none := by
            rw [← Option.not_isSome_iff_eq_none]
            intro asks
            exact elsewhere (own e (.head _) asks)
          rw [List.filterMap_cons_none unasked, rest]
  unfold lastVersionOn? lastVersion?
  rw [same]

/-! ### What the session keeps of it -/

theorem step_gitProtocol (store : Identity.Store) (s : Session) (e : Event) :
    (s.step store e).1.gitProtocol = e.version?.or s.gitProtocol := by
  cases e with
  | setEnv channel name value =>
      rw [step, Event.version?]
      split <;> rfl
  | offerKey blob =>
      rw [step, offerKey]
      cases owner? store blob <;> rfl
  | exec channel line =>
      rw [step]
      rcases exec_cases s channel line with ⟨text, refused⟩ | ⟨user, -, -, starts⟩
      · rw [refused]
        rfl
      · rw [starts]
        rfl
  | data | eof | close =>
      rw [step, onChannel]
      split <;> rfl
  | take command =>
      rw [step, take]
      split
      next => rfl
      next => split <;> rfl
  | openChannel | requestForward | lendAgent | hangUp | ended => rfl

theorem gitProtocol_after (store : Identity.Store) (events : List Event) :
    (after store events).gitProtocol = lastVersion? events := by
  induction events using List.reverseRecOn with
  | nil => rfl
  | append_singleton events e ih => rw [after_snoc, step_gitProtocol, ih, lastVersion?_snoc]

theorem gitProtocol_of_start (starts : .start n raw context ∈ (s.step store e).2) :
    context.gitProtocol = s.gitProtocol := by
  have follows := step_follows store s e
  generalize (s.step store e).2 = effects at starts follows
  cases follows with
  | started channel line known =>
      simp only [List.mem_cons, reduceCtorEq, Effect.start.injEq, List.not_mem_nil, or_false,
        false_or] at starts
      obtain ⟨-, -, rfl⟩ := starts
      rfl
  | _ => simp at starts

end

/-- A command tells the forge the version that it has started with. -/
theorem Run.gitProtocol_of_dial {context : Context} {limits : Limits} {raw : String} {now : Time}
    {steps : List Step} {s : Stage} (run : Run (.start context limits raw now) steps s) {st : Step}
    (member : st ∈ steps) {d : Relay.Dial} {deadline : Time}
    (dials : st.request = .dial d deadline) : d.gitProtocol = context.gitProtocol := by
  have reaches : st.request.reachesOut = true := by
    rw [dials]
    rfl
  obtain ⟨exec, -, about⟩ := run.parsed_of_reachesOut ⟨st, member, reaches⟩
  have told := about st member
  rw [dials] at told
  obtain rfl : d = _ := told
  rfl

/-! ### The law -/

/-- **All channels share one version of Git's protocol.**  When a command connects to a forge, the
forge is told the version that the client asked for last before the exec line, on whatever channel,
and none if it has asked for none.  If the client has asked for versions on the command's own
channel only, this is the last one that it asked for there. -/
theorem protocol_shared {store : Identity.Store} {before : List Event} {channel n : Nat}
    {line : Bytes} {raw : String} {context : Context} {limits : Limits} {now : Time}
    {steps : List Step} {s : Stage}
    (starts : .start n raw context ∈ ((after store before).step store (.exec channel line)).2)
    (run : Run (.start context limits raw now) steps s) :
    ∀ st ∈ steps, ∀ d deadline, st.request = .dial d deadline →
      d.gitProtocol = lastVersion? before ∧
      (d.gitProtocol = none ↔ ∀ e ∈ before, e.version? = none) ∧
      ((∀ e ∈ before, e.version?.isSome = true → e.isSetOn channel = true) →
        d.gitProtocol = lastVersionOn? channel before) := by
  intro st member d deadline dials
  have told : d.gitProtocol = lastVersion? before := by
    rw [Run.gitProtocol_of_dial run member dials, gitProtocol_of_start starts, gitProtocol_after]
  refine ⟨told, ?_, ?_⟩
  · rw [told]
    exact lastVersion?_eq_none_iff
  · intro own
    rw [told, lastVersionOn?_eq own]

/-! ### Two channels -/

/-- For whom the pull of the samples runs, if this version is kept. -/
def sampleContext (version : Option String) : Context :=
  ⟨⟨"alice", "alice@example.com", "alice"⟩, false, version⟩

theorem sample_pull_dials (context : Context) :
    ∃ steps, Run (.start context {} samplePullLine 0) steps (.finished 1) ∧
      ∃ st ∈ steps, ∃ d deadline, st.request = .dial d deadline := by
  rw [Stage.start_pull Relay.parse_samplePullLine rfl]
  refine ⟨_, .step (.flowing ⟨samplePull.exec, context, {}⟩ .consulting) 0 (.ok {}) <|
    .step (.flowing ⟨samplePull.exec, context, {}⟩ (.dialling 0)) 0 (.got (.ok ())) <|
    .step (.flowing ⟨samplePull.exec, context, {}⟩ (.piping none true)) 0 (.client none) <|
    .step (.flowing ⟨samplePull.exec, context, {}⟩ (.closing (.error .clientGone))) 0 () <|
    .step (.reporting samplePull.kind .clientGone) 0 (.ok ()) <|
    .step (.finishing 1) 0 () <| .here (.finished 1), ?_⟩
  exact ⟨_, .tail _ (.head _), _, _, rfl⟩

/-- The client asks for two versions on channel 1, and sets another variable on channel 0. -/
def sampleSettings : List Event :=
  [.offerKey [0, 0, 0, 1, 97], .setEnv 1 protocolVariable "version=1", .setEnv 0 "LANG" "C",
    .setEnv 1 protocolVariable "version=2"]

theorem sample_starts (channel : Nat) :
    .start 0 samplePullLine (sampleContext (some "version=2")) ∈
      ((after sampleOwners sampleSettings).step sampleOwners
        (.exec channel (Bytes.ofString samplePullLine))).2 := by
  have state : after sampleOwners sampleSettings =
      { user := some ⟨"alice", "alice@example.com", "alice"⟩, authenticated := true,
        gitProtocol := some "version=2" } := by decide
  rw [state, step, exec, Utf8.lossy_ofString]
  exact .tail _ (.head _)

/-- The command on channel 1 has the version that was asked for there last. -/
theorem protocol_shared_sample :
    ∃ steps, Run (.start (sampleContext (some "version=2")) {} samplePullLine 0) steps
        (.finished 1) ∧
      ∃ st ∈ steps, ∃ d deadline, st.request = .dial d deadline ∧
        d.gitProtocol = some "version=2" ∧ lastVersionOn? 1 sampleSettings = some "version=2" := by
  obtain ⟨steps, run, st, member, d, deadline, dials⟩ :=
    sample_pull_dials (sampleContext (some "version=2"))
  obtain ⟨told, -, -⟩ := protocol_shared (sample_starts 1) run st member d deadline dials
  exact ⟨steps, run, st, member, d, deadline, dials, told, by decide⟩

/-- A command on channel 2, where nothing was asked for, tells the forge the version of channel
1. -/
theorem protocol_leaks :
    lastVersionOn? 2 sampleSettings = none ∧
    .start 0 samplePullLine (sampleContext (some "version=2")) ∈
      ((after sampleOwners sampleSettings).step sampleOwners
        (.exec 2 (Bytes.ofString samplePullLine))).2 ∧
    ∃ steps, Run (.start (sampleContext (some "version=2")) {} samplePullLine 0) steps
        (.finished 1) ∧
      ∃ st ∈ steps, ∃ d deadline, st.request = .dial d deadline ∧
        d.gitProtocol = some "version=2" := by
  refine ⟨by decide, sample_starts 2, ?_⟩
  obtain ⟨steps, run, st, member, d, deadline, dials⟩ :=
    sample_pull_dials (sampleContext (some "version=2"))
  exact ⟨steps, run, st, member, d, deadline, dials, Run.gitProtocol_of_dial run member dials⟩

end ForgeGateway.Session
