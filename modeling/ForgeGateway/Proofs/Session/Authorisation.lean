import ForgeGateway.Proofs.Session.Step

/-! # Whom the commands of a session run for

A client may prove several keys, open channels, lend its agent and ask for commands in any order.
What a session knows of it is read off the events: the user is the owner of the last known key that
was proven (`user_after_iff`), and the agent is lent from the first request on
(`lendsAgent_after_iff`).  Hence no channel is granted and no command starts before a key was
accepted, a command runs for the user of that key, and all commands use one agent
(`session_authorised`). -/

namespace ForgeGateway

open ForgeGateway.Metrics (Measurement Registry)

/-- A counter of attempts grows by one for each measurement of its outcome. -/
theorem Metrics.Registry.count_attempts_recordAll (r : Registry) (ms : List Measurement)
    (ok : Bool) :
    (r.recordAll ms).authAttempts.count (.of ok) =
      r.authAttempts.count (.of ok) + ms.count (.authAttempt ok) := by
  refine Registry.count_of_record authAttempts (fun r m => ?_) r ms
  cases m with
  | authAttempt accepted =>
      rw [record, Metrics.Tally.count_add]
      by_cases same : ok = accepted
      · simp [same]
      · simp [Metrics.Outcome.of_inj, same, Ne.symm same]
  | _ => simp [record]

namespace Session

/-! ### What the events say -/

/-- Of the keys that were proven, the last one with an owner is one of this user. -/
def ProvenLast (store : Identity.Store) (events : List Event) (user : User) : Prop :=
  ∃ first e later, events = first ++ e :: later ∧ e.proves? store = some user ∧
    ∀ e' ∈ later, e'.proves? store = none

/-- Whether the key that is shown has an owner, if one is shown. -/
def Event.attempt? (store : Identity.Store) : Event → Option Bool
  | .offerKey blob => some (owner? store blob).isSome
  | _ => none

def measured (effects : List Effect) : List Measurement :=
  effects.filterMap fun
    | .count m => some m
    | _ => none

section
variable {store : Identity.Store} {s : Session} {events : List Event} {e : Event} {user : User}
  {n : Nat} {line : String} {context : Relay.Context}

theorem provenLast_snoc_iff :
    ProvenLast store (events ++ [e]) user ↔
      e.proves? store = some user ∨ e.proves? store = none ∧ ProvenLast store events user := by
  constructor
  · rintro ⟨first, e', later, split, proves, silent⟩
    rcases position_snoc_iff.1 split with ⟨rfl, rfl, rfl⟩ | ⟨later, rfl, before⟩
    · exact .inl proves
    · refine .inr ⟨silent e (by simp), first, e', later, before, proves, ?_⟩
      intro e'' member
      exact silent e'' (by simp [member])
  · rintro (proves | ⟨silent, first, e', later, rfl, proves, before⟩)
    · exact ⟨events, e, [], rfl, proves, by simp⟩
    · refine ⟨first, e', later ++ [e], by simp, proves, ?_⟩
      intro e'' member
      rcases List.mem_append.1 member with earlier | now
      · exact before e'' earlier
      · rw [List.mem_singleton.1 now]
        exact silent

theorem user_after_iff : (after store events).user = some user ↔ ProvenLast store events user := by
  induction events using List.reverseRecOn with
  | nil =>
      constructor
      · intro known
        cases known
      · rintro ⟨first, e, later, split, -⟩
        simp at split
  | append_singleton events e ih =>
      rw [after_snoc, (step_known store _ e).1, Option.or_eq_some_iff, ih, provenLast_snoc_iff]

theorem isSome_user_after_iff :
    (after store events).user.isSome = true ↔ ∃ user, ProvenLast store events user := by
  rw [Option.isSome_iff_exists]
  simp only [user_after_iff]

theorem authenticated_after (store : Identity.Store) (events : List Event) :
    (after store events).authenticated = (after store events).user.isSome := by
  induction events using List.reverseRecOn with
  | nil => rfl
  | append_singleton events e ih =>
      obtain ⟨user, authenticated, -⟩ := step_known store (after store events) e
      rw [after_snoc, user, authenticated, ih, Option.isSome_or]

theorem Event.lends_iff : e.lends = true ↔ ∃ channel, e = .lendAgent channel := by
  cases e <;> simp [Event.lends]

theorem lendsAgent_after_iff :
    (after store events).lendsAgent = true ↔ ∃ channel, .lendAgent channel ∈ events := by
  induction events using List.reverseRecOn with
  | nil => simp [after, run]
  | append_singleton events e ih =>
      rw [after_snoc, (step_known store _ e).2.2, Bool.or_eq_true, Event.lends_iff]
      simp only [List.mem_append, List.mem_singleton, exists_or, ← ih]
      constructor
      · rintro (⟨channel, rfl⟩ | before)
        · exact .inr ⟨channel, rfl⟩
        · exact .inl before
      · rintro (before | ⟨channel, same⟩)
        · exact .inr before
        · exact .inl ⟨channel, same.symm⟩

/-! ### What follows from one event -/

theorem start_of_mem (starts : .start n line context ∈ (s.step store e).2) :
    s.user = some context.user ∧ context.forwarding = s.lendsAgent := by
  have follows := step_follows store s e
  generalize (s.step store e).2 = effects at starts follows
  cases follows with
  | started channel raw known =>
      simp only [List.mem_cons, reduceCtorEq, Effect.start.injEq, List.not_mem_nil, or_false,
        false_or] at starts
      obtain ⟨-, -, rfl⟩ := starts
      exact ⟨known, rfl⟩
  | _ => simp at starts

theorem count_attachAgent_step (store : Identity.Store) (s : Session) (e : Event) :
    (s.step store e).2.count .attachAgent + s.lendsAgent.toNat =
      (s.step store e).1.lendsAgent.toNat := by
  rw [(step_known store s e).2.2]
  have follows := step_follows store s e
  generalize (s.step store e).2 = effects at follows
  cases follows with
  | attached channel first => simp [first, Event.lends]
  | lent channel already => simp [already, Event.lends]
  | nothing silent =>
      have unlent : e.lends = false := by
        cases e with
        | lendAgent => cases silent
        | _ => rfl
      simp [unlent]
  | _ => simp [Event.lends]

theorem count_attempts_step (store : Identity.Store) (s : Session) (e : Event) (ok : Bool) :
    (measured (s.step store e).2).count (.authAttempt ok) =
      (e.attempt? store).toList.count ok := by
  have follows := step_follows store s e
  generalize (s.step store e).2 = effects at follows
  cases follows with
  | answered blob =>
      simp only [measured, Event.attempt?]
      cases (owner? store blob).isSome <;> cases ok <;> rfl
  | left => cases ok <;> rfl
  | nothing silent =>
      cases e with
      | offerKey => cases silent
      | _ => rfl
  | _ => rfl

/-! ### All events -/

/-- The agent is attached once, if it is lent. -/
theorem count_attachAgent (store : Identity.Store) (events : List Event) :
    (({} : Session).run store events).2.count .attachAgent =
      (after store events).lendsAgent.toNat := by
  induction events using List.reverseRecOn with
  | nil => rfl
  | append_singleton events e ih =>
      have one := count_attachAgent_step store (after store events) e
      rw [run_snoc_effects, List.count_append, ih, after_snoc]
      omega

theorem count_attempts (store : Identity.Store) (events : List Event) (ok : Bool) :
    (measured (({} : Session).run store events).2).count (.authAttempt ok) =
      (events.filterMap (Event.attempt? store)).count ok := by
  induction events using List.reverseRecOn with
  | nil => rfl
  | append_singleton events e ih =>
      have one := count_attempts_step store (after store events) e ok
      have last : [e].filterMap (Event.attempt? store) = (e.attempt? store).toList := by
        cases found : e.attempt? store <;> simp [found]
      rw [measured] at ih one ⊢
      rw [run_snoc_effects, List.filterMap_append, List.count_append, ih, one,
        List.filterMap_append, List.count_append, last]

end

/-! ### The law -/

/-- What a session does for its client after these events. -/
structure Authorised (store : Identity.Store) (events : List Event) : Prop where
  /-- A key is accepted if it has an owner. -/
  accepted : ∀ blob, .grant true ∈ ((after store events).step store (.offerKey blob)).2 ↔
    (owner? store blob).isSome = true
  /-- A key that is not accepted changes nothing. -/
  rejected : ∀ blob, owner? store blob = none →
    (after store events).step store (.offerKey blob) =
      (after store events, [.count (.authAttempt false), .grant false])
  /-- A channel is granted after a key was accepted. -/
  granted : .grant true ∈ ((after store events).step store .openChannel).2 ↔
    ∃ user, ProvenLast store events user
  /-- A command starts for the owner of the key that was accepted last, and it has the agent if
  that was lent before; the agent was attached once then. -/
  started : ∀ e n line context,
    .start n line context ∈ ((after store events).step store e).2 →
      ProvenLast store events context.user ∧
      (context.forwarding = true ↔ ∃ channel, .lendAgent channel ∈ events) ∧
      (context.forwarding = true →
        (({} : Session).run store events).2.count .attachAgent = 1)
  /-- For a client whose key was accepted a command starts on a channel that has none. -/
  admitted : ∀ user channel raw, ProvenLast store events user →
    (after store events).commandOn? channel = none →
      ∃ n context, .start n (Utf8.lossy raw) context ∈
        ((after store events).step store (.exec channel raw)).2
  /-- The flag says whether there is a user, and it stays. -/
  flag : (after store events).authenticated = (after store events).user.isSome ∧
    ((after store events).authenticated = true →
      ∀ later, (after store (events ++ later)).authenticated = true)
  /-- No second agent is attached. -/
  oneAgent : (({} : Session).run store events).2.count .attachAgent ≤ 1
  /-- The counters grow by the attempts. -/
  counted : ∀ (registry : Registry) ok,
    (registry.recordAll (measured (({} : Session).run store events).2)).authAttempts.count
        (.of ok) =
      registry.authAttempts.count (.of ok) + (events.filterMap (Event.attempt? store)).count ok

/-- **Who may do what in a session.**  Whatever comes in, and in whatever order. -/
theorem session_authorised (store : Identity.Store) (events : List Event) :
    Authorised store events where
  accepted blob := by
    have follows := step_follows store (after store events) (.offerKey blob)
    generalize ((after store events).step store (.offerKey blob)).2 = effects at follows
    cases follows with
    | answered => cases (owner? store blob).isSome <;> simp
    | nothing silent => cases silent
  rejected blob unknown := by rw [step, offerKey, unknown]
  granted := by
    rw [← isSome_user_after_iff, step]
    cases (after store events).user.isSome <;> simp
  started e n line context starts := by
    obtain ⟨known, lent⟩ := start_of_mem starts
    refine ⟨user_after_iff.1 known, ?_, ?_⟩
    · rw [lent, lendsAgent_after_iff]
    · intro forwarding
      rw [count_attachAgent, ← lent, forwarding]
      rfl
  admitted user channel raw proven free := by
    rw [step, exec, user_after_iff.2 proven, free]
    exact ⟨_, _, .tail _ (.head _)⟩
  flag := by
    refine ⟨authenticated_after store events, fun flagged later => ?_⟩
    rw [authenticated_after] at flagged ⊢
    exact isSome_user_after later flagged
  oneAgent := by
    rw [count_attachAgent]
    exact Bool.toNat_le _
  counted registry ok := by rw [Registry.count_attempts_recordAll, count_attempts]

/-- Of three keys one has an owner, and the client lends its agent. -/
def sampleLogin : List Event :=
  [.offerKey [], .openChannel, .offerKey [0, 0, 0, 1, 97], .offerKey [1], .lendAgent 0]

/-- The command runs for the owner, with an agent. -/
theorem session_authorised_sample :
    .start 0 "" ⟨sampleOwner, true, none⟩ ∈
        ((after sampleOwners sampleLogin).step sampleOwners (.exec 0 [])).2 ∧
      ProvenLast sampleOwners sampleLogin sampleOwner ∧
      (({} : Session).run sampleOwners sampleLogin).2.count .attachAgent = 1 := by
  have starts : .start 0 "" ⟨sampleOwner, true, none⟩ ∈
      ((after sampleOwners sampleLogin).step sampleOwners (.exec 0 [])).2 := by
    decide +kernel
  obtain ⟨proven, -, attached⟩ :=
    (session_authorised sampleOwners sampleLogin).started _ _ _ _ starts
  exact ⟨starts, proven, attached rfl⟩

end Session

end ForgeGateway
