import ForgeGateway.Proofs.Session.Commands

/-! # What a command gets of what its client sends

What the client sends on a channel reaches the command that was started there, and no other one,
in the order in which it was sent (`Starts.carries`): as long as the command runs, what it has taken
and what is still in its queue are together what was sent on its channel.  So it takes a prefix of
that, and is told of the end behind all of it.  The session takes in nothing for a full queue
(`Paced`), so that no queue grows beyond its bound and nothing is lost meanwhile.
`input_routed` puts this together. -/

namespace ForgeGateway.Session

open ForgeGateway.Relay (ClientMessage)

/-! ### What is sent and what is taken -/

/-- The event is the client's, not a command's. -/
def Event.ofClient : Event → Bool
  | .take _ | .ended _ => false
  | _ => true

/-- What the client sends on the channel with an event. -/
def Event.sent? (channel : Nat) : Event → Option ClientMessage
  | .data here b => if here = channel then some (.data b) else none
  | .eof here => if here = channel then some .eof else none
  | _ => none

/-- With the event the client closes the channel, or leaves. -/
def Event.Closes (channel : Nat) (e : Event) : Prop := e = .close channel ∨ e = .hangUp

instance (channel : Nat) (e : Event) : Decidable (e.Closes channel) :=
  inferInstanceAs (Decidable (_ ∨ _))

/-- The client has closed the channel, or left. -/
def Closed (channel : Nat) (since : List Event) : Prop := ∃ e ∈ since, e.Closes channel

/-- What the client sends on the channel until it closes it. -/
def sentOn (channel : Nat) : List Event → List ClientMessage
  | [] => []
  | e :: later =>
    if e.Closes channel then [] else (e.sent? channel).toList ++ sentOn channel later

/-- The messages that a command is given. -/
def givenTo (n : Nat) (effects : List Effect) : List ClientMessage :=
  effects.filterMap fun
    | .give m message => if m = n then message else none
    | _ => none

def takenBy (store : Identity.Store) (events : List Event) (n : Nat) : List ClientMessage :=
  givenTo n (({} : Session).run store events).2

def Input.arriving (i : Input) (e : Event) : List ClientMessage :=
  if i.isOpen = true ∧ i.isRead = true then (e.sent? i.channel).toList else []

section
variable {store : Identity.Store} {s : Session} {e : Event} {n channel : Nat} {i : Input}
  {before since later events : List Event} {line : Bytes}

theorem Event.Closes.sent? (closes : e.Closes channel) : e.sent? channel = none := by
  rcases closes with rfl | rfl <;> rfl

theorem sentOn_append_of_closed (closed : Closed channel since) :
    sentOn channel (since ++ later) = sentOn channel since := by
  induction since with
  | nil =>
      obtain ⟨e, member, -⟩ := closed
      cases member
  | cons e since ih =>
      rw [List.cons_append, sentOn, sentOn]
      split
      next => rfl
      next goesOn =>
        obtain ⟨e', member, closes⟩ := closed
        rcases List.mem_cons.1 member with rfl | behind
        · exact absurd closes goesOn
        · rw [ih ⟨e', behind, closes⟩]

theorem sentOn_append_of_open (kept : ¬Closed channel since) :
    sentOn channel (since ++ later) = sentOn channel since ++ sentOn channel later := by
  induction since with
  | nil => rfl
  | cons e since ih =>
      have goesOn : ¬e.Closes channel := fun closes => kept ⟨e, .head since, closes⟩
      have rest : ¬Closed channel since := fun ⟨e', member, closes⟩ =>
        kept ⟨e', .tail e member, closes⟩
      rw [List.cons_append, sentOn, sentOn, if_neg goesOn, if_neg goesOn, ih rest,
        List.append_assoc]

theorem isPrefix_sentOn (channel : Nat) (since later : List Event) :
    sentOn channel since <+: sentOn channel (since ++ later) := by
  by_cases closed : Closed channel since
  · exact ⟨[], by rw [List.append_nil, sentOn_append_of_closed closed]⟩
  · rw [sentOn_append_of_open closed]
    exact List.prefix_append _ _

theorem sentOn_snoc (kept : ¬Closed channel since) :
    sentOn channel (since ++ [e]) = sentOn channel since ++ (e.sent? channel).toList := by
  rw [sentOn_append_of_open kept, sentOn, sentOn, List.append_nil]
  split
  next closes => rw [closes.sent?, Option.toList_none]
  next => rfl

theorem freed_iff_closed (runs : .ended n ∉ since) :
    Freed channel n since ↔ Closed channel since := by
  constructor
  · rintro (closed | left | ⟨first, b, last, rfl, ended⟩)
    · exact ⟨_, closed, .inl rfl⟩
    · exact ⟨_, left, .inr rfl⟩
    · exact absurd (List.mem_append_left _ ended) runs
  · rintro ⟨e, member, rfl | rfl⟩
    · exact .inl member
    · exact .inr (.inl member)

/-! ### One event -/

theorem givenTo_append (n : Nat) (effects more : List Effect) :
    givenTo n (effects ++ more) = givenTo n effects ++ givenTo n more := List.filterMap_append

theorem take_effect (there : s.inputs[n]? = some i) :
    (s.take n).2 = (i.next?.map (Effect.give n)).toList := by
  simp only [take, there]
  cases i.next? <;> rfl

theorem Input.next?_eq_message_iff {m : ClientMessage} :
    i.next? = some (some m) ↔ [m] <+: i.queue := by
  unfold Input.next?
  cases i.queue with
  | nil => cases i.isOpen <;> simp
  | cons first queue => simp [List.cons_prefix_cons, eq_comm]

theorem Input.next?_eq_end_iff : i.next? = some none ↔ i.queue = [] ∧ i.isOpen = false := by
  unfold Input.next?
  cases i.queue with
  | nil => cases i.isOpen <;> simp
  | cons first queue => simp

theorem eq_take_of_give {m : Option ClientMessage} (given : .give n m ∈ (s.step store e).2) :
    e = .take n := by
  have follows := step_follows store s e
  generalize (s.step store e).2 = effects at given follows
  cases follows with
  | given command m' =>
      rw [List.mem_singleton] at given
      cases given
      rfl
  | _ => simp at given

theorem givenTo_eq_nil {effects : List Effect}
    (nothing : ∀ m, .give n m ∉ effects) : givenTo n effects = [] := by
  rw [givenTo, List.filterMap_eq_nil_iff]
  intro effect member
  split
  next m message =>
    split
    next mine =>
      subst mine
      exact absurd member (nothing _)
    next => rfl
  next => rfl

theorem givenTo_step (store : Identity.Store) (there : s.inputs[n]? = some i) (e : Event) :
    givenTo n (s.step store e).2 = if e = .take n then i.queue.head?.toList else [] := by
  split
  next takes =>
    subst takes
    rw [step, take_effect there, Input.next?]
    cases i.queue with
    | cons m queue => simp [givenTo]
    | nil => cases i.isOpen <;> simp [givenTo]
  next other => exact givenTo_eq_nil fun m given => other (eq_take_of_give given)

theorem Input.react_queue (i : Input) (runs : e ≠ .ended n) (untaken : e ≠ .take n) :
    (i.react n e).queue = i.queue ++ i.arriving e := by
  cases e with
  | data channel b =>
      by_cases here : i.channel = channel
      · subst here
        cases isOpen : i.isOpen <;> cases isRead : i.isRead <;>
          simp [react, arriving, Event.sent?, push, isOpen, isRead]
      · simp [react, arriving, Event.sent?, here, Ne.symm here]
  | eof channel =>
      by_cases here : i.channel = channel
      · subst here
        cases isOpen : i.isOpen <;> cases isRead : i.isRead <;>
          simp [react, arriving, Event.sent?, pushEof, isOpen, isRead]
      · simp [react, arriving, Event.sent?, here, Ne.symm here]
  | close channel =>
      by_cases here : i.isOpen = true ∧ i.channel = channel
      · simp [react, arriving, Event.sent?, shut, here]
      · simp [react, arriving, Event.sent?, here]
  | take command =>
      have other : command ≠ n := fun same => untaken (congrArg Event.take same)
      simp [react, arriving, Event.sent?, other]
  | ended command =>
      have other : command ≠ n := fun same => runs (congrArg Event.ended same)
      simp [react, arriving, Event.sent?, other]
  | offerKey | openChannel | requestForward | setEnv | lendAgent | exec | hangUp =>
      simp [react, arriving, Event.sent?, shut]

/-- What a command is given and what is left are what there was and what arrives. -/
theorem givenTo_append_react (store : Identity.Store) (there : s.inputs[n]? = some i)
    (runs : e ≠ .ended n) :
    givenTo n (s.step store e).2 ++ (i.react n e).queue = i.queue ++ i.arriving e := by
  rw [givenTo_step store there]
  split
  next takes =>
    subst takes
    have nothing : i.arriving (.take n) = [] := by simp [Input.arriving, Event.sent?]
    have left : (i.react n (.take n)).queue = i.queue.tail := by simp [Input.react]
    rw [nothing, left, List.append_nil]
    cases i.queue <;> rfl
  next other => rw [List.nil_append, i.react_queue runs other]

/-! ### All events -/

theorem takenBy_snoc (store : Identity.Store) (events : List Event) (e : Event) (n : Nat) :
    takenBy store (events ++ [e]) n =
      takenBy store events n ++ givenTo n ((after store events).step store e).2 := by
  rw [takenBy, run_snoc_effects, givenTo_append]
  rfl

theorem givenTo_step_of_unstarted (store : Identity.Store) (unstarted : s.inputs[n]? = none)
    (e : Event) : givenTo n (s.step store e).2 = [] := by
  refine givenTo_eq_nil fun m given => ?_
  obtain rfl := eq_take_of_give given
  rw [step, take] at given
  split at given
  next => simp at given
  next i there =>
    rw [unstarted] at there
    cases there

/-- A command has taken nothing before it has started. -/
theorem takenBy_of_unstarted (unstarted : (after store events).inputs.length ≤ n) :
    takenBy store events n = [] := by
  induction events using List.reverseRecOn with
  | nil => rfl
  | append_singleton events e ih =>
      have fewer : (after store events).inputs.length ≤ n := by
        rw [after_snoc] at unstarted
        rcases started_step store (after store events) e with ⟨-, same⟩ | ⟨-, more⟩ <;> omega
      rw [takenBy_snoc, ih fewer, givenTo_step_of_unstarted store (List.getElem?_eq_none fewer)]
      rfl

/-- While a command runs, what it has taken and what is in its queue are what was sent on its
channel; when it has ended, nothing is in its queue any more. -/
structure Carries (channel n : Nat) (since : List Event) (taken : List ClientMessage)
    (i : Input) : Prop where
  running : .ended n ∉ since → taken ++ i.queue = sentOn channel since
  ended : .ended n ∈ since → i.queue = [] ∧ taken <+: sentOn channel since

theorem Carries.isPrefix {taken : List ClientMessage}
    (carries : Carries channel n since taken i) : taken <+: sentOn channel since := by
  by_cases ended : .ended n ∈ since
  · exact (carries.ended ended).2
  · rw [← carries.running ended]
    exact List.prefix_append _ _

theorem Carries.step {taken : List ClientMessage} (carries : Carries channel n since taken i)
    (store : Identity.Store) (there : s.inputs[n]? = some i) (here : i.channel = channel)
    (isRead : i.isRead = true ↔ .ended n ∉ since) (isOpen : i.isOpen = true ↔ ¬Freed channel n since)
    (e : Event) :
    Carries channel n (since ++ [e]) (taken ++ givenTo n (s.step store e).2) (i.react n e) := by
  have more := carries.isPrefix.trans (isPrefix_sentOn channel since [e])
  by_cases last : e = .ended n
  · subst last
    have nothing : givenTo n (s.step store (.ended n)).2 = [] := rfl
    rw [nothing, List.append_nil]
    refine ⟨fun runs => absurd (by simp) runs, fun _ => ⟨?_, more⟩⟩
    simp [Input.react, Input.abandon]
  · have moved := givenTo_append_react store there last
    have earlier : .ended n ∈ since ++ [e] ↔ .ended n ∈ since := by
      simp [Ne.symm last]
    constructor
    · intro runs
      rw [earlier] at runs
      rw [List.append_assoc, moved, ← List.append_assoc, carries.running runs, Input.arriving, here]
      by_cases closed : Closed channel since
      · have shut : ¬(i.isOpen = true ∧ i.isRead = true) := fun h =>
          isOpen.1 h.1 ((freed_iff_closed runs).2 closed)
        rw [if_neg shut, List.append_nil, sentOn_append_of_closed closed]
      · have open_ : i.isOpen = true ∧ i.isRead = true :=
          ⟨isOpen.2 fun freed => closed ((freed_iff_closed runs).1 freed), isRead.2 runs⟩
        rw [if_pos open_, sentOn_snoc closed]
    · intro ended
      rw [earlier] at ended
      have unread : ¬(i.isOpen = true ∧ i.isRead = true) := fun h => isRead.1 h.2 ended
      rw [(carries.ended ended).1, Input.arriving, if_neg unread] at moved
      obtain ⟨nothing, empty⟩ := List.append_eq_nil_iff.1 moved
      rw [nothing, List.append_nil]
      exact ⟨empty, more⟩

theorem Starts.carries (starts : Starts store before channel line n) (since : List Event) :
    ∃ i, (after store (before ++ .exec channel line :: since)).inputs[n]? = some i ∧
      Carries channel n since (takenBy store (before ++ .exec channel line :: since) n) i := by
  induction since using List.reverseRecOn with
  | nil =>
      have number := (starts_iff.1 starts).2.2
      have outside : (after store before).inputs.length ≤ n := Nat.le_of_eq number.symm
      have untaken : takenBy store (before ++ [.exec channel line]) n = [] := by
        rw [takenBy_snoc, takenBy_of_unstarted outside,
          givenTo_step_of_unstarted store (List.getElem?_eq_none outside)]
        rfl
      refine ⟨{ channel := channel }, ?_, fun _ => ?_, nofun⟩
      · rw [starts.inputs, number, List.getElem?_concat_length]
      · rw [untaken]
        rfl
  | append_singleton since e ih =>
      obtain ⟨i, there, carries⟩ := ih
      obtain ⟨i', there', here, isRead, isOpen⟩ := starts.input since
      obtain rfl : i' = i := Option.some.inj (there'.symm.trans there)
      rw [← List.cons_append, ← List.append_assoc, after_snoc, takenBy_snoc]
      exact ⟨_, step_getElem? store (oneOpen_after store _) there e,
        carries.step store there here isRead isOpen e⟩

/-! ### A running command -/

/-- A command runs that was started on the channel, which has not been closed since. -/
def Running (store : Identity.Store) (events : List Event) (channel : Nat) : Prop :=
  ∃ before line n since, events = before ++ .exec channel line :: since ∧
    Starts store before channel line n ∧ ¬Closed channel since ∧ .ended n ∉ since

/-- An input that is open and read is that of a running command. -/
theorem running_of_input (there : (after store events).inputs[n]? = some i)
    (isOpen : i.isOpen = true) (isRead : i.isRead = true) : Running store events i.channel := by
  obtain ⟨before, line, since, rfl, starts⟩ := exists_starts there
  obtain ⟨i', there', -, read, kept⟩ := starts.input since
  obtain rfl : i' = i := Option.some.inj (there'.symm.trans there)
  have runs := read.1 isRead
  exact ⟨before, line, n, since, rfl, starts,
    fun closed => kept.1 isOpen ((freed_iff_closed runs).2 closed), runs⟩

theorem Event.isSome_sent?_iff :
    (e.sent? channel).isSome = true ↔ (∃ b, e = .data channel b) ∨ e = .eof channel := by
  cases e <;> simp [Event.sent?]

/-- What a client sends changes the input only that is open on the channel. -/
theorem react_of_sent (sent : (e.sent? channel).isSome = true)
    (elsewhere : ¬(i.isOpen = true ∧ i.channel = channel)) : i.react n e = i := by
  rcases Event.isSome_sent?_iff.1 sent with ⟨b, rfl⟩ | rfl
  · rw [Input.react, if_neg elsewhere]
  · rw [Input.react, if_neg elsewhere]

theorem react_of_ended (sent : (e.sent? channel).isSome = true) (ended : i.isRead = false) :
    i.react n e = i ∨ i.react n e = i.shut := by
  rcases Event.isSome_sent?_iff.1 sent with ⟨b, rfl⟩ | rfl
  · rw [Input.react]
    split
    next => exact .inr (by simp [Input.push, Input.shut, ended])
    next => exact .inl rfl
  · rw [Input.react]
    split
    next => exact .inl (by simp [Input.pushEof, ended])
    next => exact .inl rfl

/-- What a client sends has no effect but on inputs. -/
theorem step_sent (store : Identity.Store) (s : Session)
    (sent : (e.sent? channel).isSome = true) :
    (s.step store e).2 = [] ∧ { (s.step store e).1 with inputs := s.inputs } = s ∧
      (s.step store e).1.inputs.length = s.inputs.length := by
  rcases Event.isSome_sent?_iff.1 sent with ⟨b, rfl⟩ | rfl <;>
  · refine ⟨rfl, ?_, length_onChannel ..⟩
    rw [step, onChannel]
    split <;> rfl

/-! ### Queues with bounds -/

/-- What the client has sent, what of it is waiting, and what has happened in the session.  What is
waiting is taken in from the front, as long as it is not held up. -/
inductive Paced (store : Identity.Store) : List Event → List Event → List Event → Prop where
  | idle : Paced store [] [] []
  | send {sent waiting events : List Event} {e : Event} (paced : Paced store sent waiting events)
      (ofClient : e.ofClient = true) : Paced store (sent ++ [e]) (waiting ++ [e]) events
  | takeIn {sent waiting events : List Event} {e : Event}
      (paced : Paced store sent (e :: waiting) events)
      (free : (after store events).holdsUp e = false) :
      Paced store sent waiting (events ++ [e])
  | act {sent waiting events : List Event} {e : Event} (paced : Paced store sent waiting events)
      (ofCommand : e.ofClient = false) : Paced store sent waiting (events ++ [e])

theorem Paced.ofClient {sent waiting : List Event} (paced : Paced store sent waiting events) :
    ∀ e ∈ waiting, e.ofClient = true := by
  induction paced with
  | idle => exact nofun
  | send _ ofClient ih =>
      intro e member
      rcases List.mem_append.1 member with earlier | now
      · exact ih e earlier
      · rw [List.mem_singleton.1 now]
        exact ofClient
  | takeIn _ _ ih => exact fun e member => ih e (.tail _ member)
  | act _ _ ih => exact ih

theorem Paced.sent {sent waiting : List Event} (paced : Paced store sent waiting events) :
    sent = events.filter Event.ofClient ++ waiting := by
  induction paced with
  | idle => rfl
  | send paced ofClient ih => rw [ih, List.append_assoc]
  | takeIn paced free ih =>
      rw [ih, List.filter_append, List.append_assoc]
      simp [paced.ofClient _ (.head _)]
  | act paced ofCommand ih =>
      rw [ih, List.filter_append]
      simp [ofCommand]

/-- What is for an input that is open is held up exactly as long as that is full. -/
theorem holdsUp_eq (unique : s.OneOpen) (there : s.inputs[n]? = some i) (isOpen : i.isOpen = true)
    (sent : (e.sent? i.channel).isSome = true) : s.holdsUp e = i.isFull := by
  have found := (commandOn?_eq_some_iff unique).2 ⟨i, there, isOpen, rfl⟩
  rcases Event.isSome_sent?_iff.1 sent with ⟨b, rfl⟩ | rfl
  · simp [holdsUp, found, there]
  · simp [holdsUp, found, there]

theorem length_react_le (unique : s.OneOpen) (there : s.inputs[n]? = some i)
    (free : e.ofClient = true → s.holdsUp e = false)
    (bounded : i.queue.length ≤ inputCapacity) :
    (i.react n e).queue.length ≤ inputCapacity := by
  by_cases last : e = .ended n
  · subst last
    simp [Input.react, Input.abandon]
  · have moved := congrArg List.length (givenTo_append_react ⟨[], 0⟩ there last)
    rw [List.length_append, List.length_append, Input.arriving] at moved
    split at moved
    next active =>
      cases sent : e.sent? i.channel with
      | none =>
          rw [sent, Option.toList_none, List.length_nil] at moved
          omega
      | some m =>
          have client : e.ofClient = true := by
            rcases Event.isSome_sent?_iff.1 (Option.isSome_of_eq_some sent) with ⟨b, rfl⟩ | rfl <;>
              rfl
          have room : i.isFull = false := by
            rw [← holdsUp_eq unique there active.1 (Option.isSome_of_eq_some sent)]
            exact free client
          rw [Input.isFull, active.2, Bool.true_and, decide_eq_false_iff_not] at room
          rw [sent, Option.toList_some, List.length_singleton] at moved
          omega
    next =>
      rw [List.length_nil] at moved
      omega

theorem Paced.bounded {sent waiting : List Event} (paced : Paced store sent waiting events) :
    ∀ (n : Nat) (i : Input), (after store events).inputs[n]? = some i →
      i.queue.length ≤ inputCapacity := by
  have step (events : List Event) (e : Event)
      (free : e.ofClient = true → (after store events).holdsUp e = false)
      (ih : ∀ (n : Nat) (i : Input), (after store events).inputs[n]? = some i →
        i.queue.length ≤ inputCapacity) (n : Nat) (i : Input)
      (there : (after store (events ++ [e])).inputs[n]? = some i) :
      i.queue.length ≤ inputCapacity := by
    rw [after_snoc] at there
    rcases Nat.lt_or_ge n (after store events).inputs.length with inside | outside
    · have earlier := List.getElem?_eq_getElem inside
      have unique := oneOpen_after store events
      rw [step_getElem? store unique earlier] at there
      rw [← Option.some.inj there]
      exact length_react_le unique earlier free (ih n _ earlier)
    · obtain ⟨channel, line, -, -, -, -, rfl⟩ := step_new store outside there
      exact Nat.zero_le _
  induction paced with
  | idle => exact fun n i there => nomatch there
  | send paced ofClient ih => exact ih
  | takeIn paced free ih => exact step _ _ (fun _ => free) ih
  | act paced ofCommand ih =>
      refine step _ _ (fun ofClient => ?_) ih
      rw [ofCommand] at ofClient
      cases ofClient

end

/-! ### The law -/

/-- What command `n` gets of what was sent on its channel since it started. -/
structure Served (store : Identity.Store) (events : List Event) (channel n : Nat)
    (since : List Event) : Prop where
  /-- It has taken a prefix of what was sent. -/
  taken : takenBy store events n <+: sentOn channel since
  /-- While it runs, the rest of what was sent is in its queue. -/
  kept : .ended n ∉ since → ∃ i, (after store events).inputs[n]? = some i ∧
    takenBy store events n ++ i.queue = sentOn channel since
  /-- While it runs, it takes the next message if there is one. -/
  next : .ended n ∉ since → ∀ m, .give n (some m) ∈ ((after store events).step store (.take n)).2 ↔
    takenBy store events n ++ [m] <+: sentOn channel since
  /-- While it runs, it is told of the end when its channel is closed and all is taken. -/
  ending : .ended n ∉ since → (.give n none ∈ ((after store events).step store (.take n)).2 ↔
    Closed channel since ∧ takenBy store events n = sentOn channel since)
  /-- It is given nothing but when it takes it. -/
  own : ∀ e m, .give n m ∈ ((after store events).step store e).2 → e = .take n

theorem Starts.served {store : Identity.Store} {before : List Event} {channel n : Nat}
    {line : Bytes} (starts : Starts store before channel line n) (since : List Event) :
    Served store (before ++ .exec channel line :: since) channel n since := by
  obtain ⟨i, there, carries⟩ := starts.carries since
  obtain ⟨i', there', -, -, isOpen⟩ := starts.input since
  obtain rfl : i' = i := Option.some.inj (there'.symm.trans there)
  have given (m : Option ClientMessage) :
      .give n m ∈ ((after store (before ++ .exec channel line :: since)).step store (.take n)).2 ↔
        i'.next? = some m := by
    rw [step, take_effect there]
    simp
  refine ⟨carries.isPrefix, fun runs => ⟨i', there, carries.running runs⟩, ?_, ?_,
    fun e m => eq_take_of_give⟩
  · intro runs m
    rw [given, Input.next?_eq_message_iff, ← carries.running runs, List.prefix_append_right_inj]
  · intro runs
    rw [given, Input.next?_eq_end_iff, ← freed_iff_closed runs, ← carries.running runs,
      List.self_eq_append_right, ← Bool.not_eq_true, isOpen, Classical.not_not, and_comm]

/-- What is sent on the channel has no effect, and no input changes but that of a command that has
ended there, which may be closed. -/
structure Dropped (store : Identity.Store) (s : Session) (channel : Nat) (e : Event) : Prop where
  silent : (s.step store e).2 = []
  rest : { (s.step store e).1 with inputs := s.inputs } = s
  count : (s.step store e).1.inputs.length = s.inputs.length
  inputs : ∀ (n : Nat) (i : Input), s.inputs[n]? = some i →
    (s.step store e).1.inputs[n]? = some i ∨
      i.channel = channel ∧ i.isRead = false ∧ (s.step store e).1.inputs[n]? = some i.shut

/-- What comes of what the client sends. -/
structure Routed (store : Identity.Store) (events : List Event) : Prop where
  /-- Each command gets what is sent on its channel. -/
  served : ∀ before channel line since n, events = before ++ .exec channel line :: since →
    Starts store before channel line n → Served store events channel n since
  /-- What is sent on other channels is dropped. -/
  dropped : ∀ channel e, ¬Running store events channel → (e.sent? channel).isSome = true →
    Dropped store (after store events) channel e
  /-- If the session waits for full queues, nothing that was sent is lost, each command gets a
  prefix of it, and the queues keep their bound. -/
  paced : ∀ sent waiting, Paced store sent waiting events →
    sent = events.filter Event.ofClient ++ waiting ∧
    (∀ before channel line since n, events = before ++ .exec channel line :: since →
      Starts store before channel line n →
      takenBy store events n <+: sentOn channel (since ++ waiting)) ∧
    ∀ (n : Nat) (i : Input), (after store events).inputs[n]? = some i →
      i.queue.length ≤ inputCapacity

/-- **A command gets what its client sends to it.**  Whatever comes in, and in whatever order. -/
theorem input_routed (store : Identity.Store) (events : List Event) : Routed store events where
  served before channel line since n split starts := by
    rw [split]
    exact starts.served since
  dropped channel e idle sent := by
    obtain ⟨silent, rest, count⟩ := step_sent store (after store events) sent
    refine ⟨silent, rest, count, fun n i there => ?_⟩
    rw [step_getElem? store (oneOpen_after store events) there]
    by_cases here : i.isOpen = true ∧ i.channel = channel
    · have ended : i.isRead = false := by
        rw [← Bool.not_eq_true]
        intro isRead
        refine idle ?_
        rw [← here.2]
        exact running_of_input there here.1 isRead
      rcases react_of_ended (n := n) sent ended with same | shut
      · exact .inl (by rw [same])
      · exact .inr ⟨here.2, ended, by rw [shut]⟩
    · exact .inl (by rw [react_of_sent sent here])
  paced sent waiting paced := by
    refine ⟨paced.sent, ?_, paced.bounded⟩
    rintro before channel line since n rfl starts
    obtain ⟨i, -, carries⟩ := starts.carries since
    exact carries.isPrefix.trans (isPrefix_sentOn channel since waiting)

/-- The client starts a command. -/
def sampleStart : List Event := [.offerKey [0, 0, 0, 1, 97], .exec 0 []]

/-- It sends to this one and to a second one, and closes the channel of the second one. -/
def sampleTraffic : List Event :=
  [.data 0 [1], .data 1 [2], .eof 0, .data 0 [3], .take 1, .close 1, .take 0]

def sampleEvents : List Event := sampleStart ++ .exec 1 [] :: sampleTraffic

theorem starts_sample : Starts sampleOwners [.offerKey [0, 0, 0, 1, 97]] 0 [] 0 ∧
    Starts sampleOwners sampleStart 1 [] 1 :=
  ⟨⟨⟨sampleOwner, false, none⟩, by decide +kernel⟩, ⟨⟨sampleOwner, false, none⟩, by decide +kernel⟩⟩

/-- The first command has taken a message and can take the end of the file next, whatever the
client sends behind that; the second one has taken all and can be told of the end. -/
theorem input_routed_sample :
    (takenBy sampleOwners sampleEvents 0 = [.data [1]] ∧
      .give 0 (some .eof) ∈ ((after sampleOwners sampleEvents).step sampleOwners (.take 0)).2) ∧
    takenBy sampleOwners sampleEvents 1 = [.data [2]] ∧
      .give 1 none ∈ ((after sampleOwners sampleEvents).step sampleOwners (.take 1)).2 := by
  have routed := input_routed sampleOwners sampleEvents
  have first := routed.served _ 0 [] (.exec 1 [] :: sampleTraffic) 0 rfl starts_sample.1
  have second := routed.served sampleStart 1 [] sampleTraffic 1 rfl starts_sample.2
  have took : takenBy sampleOwners sampleEvents 0 = [.data [1]] := by decide +kernel
  have tookAll : takenBy sampleOwners sampleEvents 1 = [.data [2]] := by decide +kernel
  refine ⟨⟨took, (first.next (by decide) .eof).2 ?_⟩, tookAll,
    (second.ending (by decide)).2 ⟨?_, ?_⟩⟩
  · rw [took]
    exact ⟨[.data [3]], by decide⟩
  · exact ⟨.close 1, by decide, .inl rfl⟩
  · rw [tookAll]
    decide

end ForgeGateway.Session
