import ForgeGateway.Proofs.Positions
import ForgeGateway.Session

/-! # What one event does in a session

What becomes of a command's input by an event is a function of the event alone (`Input.react`,
`step_getElem?`): what is meant for a channel reaches the only input that is open there (`OneOpen`),
and no other one.  What can follow from an event is listed once (`Follows`), and so is what it does
to what is known of the client (`step_known`).  Runs take in one event after the other. -/

namespace ForgeGateway.Session

variable {store : Identity.Store} {s : Session} {n m channel : Nat} {i j : Input}

/-! ### The command on a channel -/

/-- On each channel at most one command has its input open. -/
def OneOpen (s : Session) : Prop :=
  ∀ (n m : Nat) (i j : Input), s.inputs[n]? = some i → s.inputs[m]? = some j →
    i.isOpen = true → j.isOpen = true → i.channel = j.channel → n = m

theorem commandOn?_eq_none_iff :
    s.commandOn? channel = none ↔
      ∀ (n : Nat) (i : Input), s.inputs[n]? = some i → i.isOpen = true → i.channel ≠ channel := by
  rw [commandOn?, List.findIdx?_eq_none_iff]
  constructor
  · intro none n i there isOpen same
    have closed := none i (List.mem_of_getElem? there)
    rw [isOpen, same, beq_self_eq_true] at closed
    cases closed
  · intro none i member
    obtain ⟨n, there⟩ := List.getElem?_of_mem member
    cases isOpen : i.isOpen with
    | false => rfl
    | true => exact beq_eq_false_iff_ne.2 (none n i there isOpen)

theorem commandOn?_eq_some_iff (unique : s.OneOpen) :
    s.commandOn? channel = some n ↔
      ∃ i, s.inputs[n]? = some i ∧ i.isOpen = true ∧ i.channel = channel := by
  constructor
  · intro found
    obtain ⟨inside, holds, -⟩ := List.findIdx?_eq_some_iff_getElem.1 found
    rw [Bool.and_eq_true, beq_iff_eq] at holds
    exact ⟨s.inputs[n], List.getElem?_eq_getElem inside, holds⟩
  · rintro ⟨i, there, isOpen, same⟩
    cases found : s.commandOn? channel with
    | none => exact absurd same (commandOn?_eq_none_iff.1 found n i there isOpen)
    | some m =>
        obtain ⟨inside, holds, -⟩ := List.findIdx?_eq_some_iff_getElem.1 found
        rw [Bool.and_eq_true, beq_iff_eq] at holds
        have there' : s.inputs[m]? = some s.inputs[m] := List.getElem?_eq_getElem inside
        rw [unique n m i _ there there' isOpen holds.1 (same.trans holds.2.symm)]

/-! ### What an event does to the input of a command -/

/-- The event frees the channel of the command: it is closed, or the client leaves, or something
arrives for the command after it has ended. -/
def Input.FreedBy (i : Input) (e : Event) : Prop :=
  e = .close i.channel ∨ e = .hangUp ∨ i.isRead = false ∧ ∃ b, e = .data i.channel b

theorem Input.freedBy_data_iff {b : Bytes} :
    i.FreedBy (.data channel b) ↔ i.isRead = false ∧ channel = i.channel := by
  rw [Input.FreedBy]
  constructor
  · rintro (h | h | ⟨ended, _, h⟩)
    · cases h
    · cases h
    · cases h
      exact ⟨ended, rfl⟩
  · rintro ⟨ended, rfl⟩
    exact .inr (.inr ⟨ended, b, rfl⟩)

theorem Input.freedBy_close_iff : i.FreedBy (.close channel) ↔ channel = i.channel := by
  rw [Input.FreedBy]
  constructor
  · rintro (h | h | ⟨-, _, h⟩)
    · cases h
      rfl
    · cases h
    · cases h
  · rintro rfl
    exact .inl rfl

theorem Input.push_flags (i : Input) (m : Relay.ClientMessage) :
    (i.push m).channel = i.channel ∧ (i.push m).isRead = i.isRead ∧
      (i.push m).isOpen = (i.isOpen && i.isRead) := by
  unfold Input.push
  split
  next read => exact ⟨rfl, rfl, by rw [read, Bool.and_true]⟩
  next ended => exact ⟨rfl, rfl, by rw [Bool.eq_false_iff.2 ended, Bool.and_false]⟩

theorem Input.pushEof_flags (i : Input) :
    i.pushEof.channel = i.channel ∧ i.pushEof.isRead = i.isRead ∧ i.pushEof.isOpen = i.isOpen := by
  unfold Input.pushEof
  split <;> exact ⟨rfl, rfl, rfl⟩

/-- The input `i` of command `n` becomes `i'` by the event. -/
structure Input.Hears (n : Nat) (e : Event) (i i' : Input) : Prop where
  channel : i'.channel = i.channel
  isRead : i'.isRead = true ↔ i.isRead = true ∧ e ≠ .ended n
  isOpen : i'.isOpen = true ↔ i.isOpen = true ∧ ¬ i.FreedBy e

theorem Input.Hears.quiet {e : Event} {i' : Input} (channel : i'.channel = i.channel)
    (isRead : i'.isRead = i.isRead) (isOpen : i'.isOpen = i.isOpen)
    (goesOn : e ≠ .ended n) (stays : i.isOpen = true → ¬ i.FreedBy e) : Input.Hears n e i i' where
  channel := channel
  isRead := by rw [isRead, and_iff_left goesOn]
  isOpen := by
    rw [isOpen]
    exact ⟨fun h => ⟨h, stays h⟩, And.left⟩

theorem onInput_getElem? {f : Input → Input} (there : s.inputs[n]? = some i) :
    (s.onInput m f).inputs[n]? = some (if m = n then f i else i) := by
  rw [onInput, List.getElem?_modify, there]
  rfl

theorem onChannel_getElem? {f : Input → Input} (unique : s.OneOpen)
    (there : s.inputs[n]? = some i) :
    (s.onChannel channel f).inputs[n]? =
      some (if i.isOpen = true ∧ i.channel = channel then f i else i) := by
  rw [onChannel]
  cases found : s.commandOn? channel with
  | none =>
      have closed : ¬ (i.isOpen = true ∧ i.channel = channel) := by
        rintro ⟨isOpen, same⟩
        exact commandOn?_eq_none_iff.1 found n i there isOpen same
      rw [if_neg closed]
      exact there
  | some m =>
      have same : m = n ↔ i.isOpen = true ∧ i.channel = channel := by
        constructor
        · rintro rfl
          obtain ⟨i', there', holds⟩ := (commandOn?_eq_some_iff unique).1 found
          rw [there] at there'
          cases there'
          exact holds
        · intro holds
          have here := (commandOn?_eq_some_iff unique).2 ⟨i, there, holds⟩
          exact Option.some.inj (found.symm.trans here)
      simp only [onInput_getElem? there, same]

/-- An exec line is refused and changes nothing, or it starts a command for the user. -/
theorem exec_cases (s : Session) (channel : Nat) (line : Bytes) :
    (∃ text, s.exec channel line = (s, [.refuse channel text])) ∨
      ∃ user, s.user = some user ∧ s.commandOn? channel = none ∧
        s.exec channel line = ({ s with inputs := s.inputs ++ [{ channel := channel }] },
          [.confirm channel,
            .start s.inputs.length (Utf8.lossy line) ⟨user, s.lendsAgent, s.gitProtocol⟩]) := by
  unfold exec
  split
  next => exact .inl ⟨_, rfl⟩
  next user known =>
    split
    next => exact .inl ⟨_, rfl⟩
    next free => exact .inr ⟨user, known, Option.not_isSome_iff_eq_none.1 free, rfl⟩

theorem take_getElem? (there : s.inputs[n]? = some i) (command : Nat) :
    (s.take command).1.inputs[n]? =
      some (if command = n then { i with queue := i.queue.tail } else i) := by
  unfold take
  split
  next absent =>
    have other : command ≠ n := by
      rintro rfl
      rw [absent] at there
      cases there
    rw [if_neg other]
    exact there
  next j here =>
    split
    next nothing =>
      have same : command = n → i.queue.tail = i.queue := by
        rintro rfl
        rw [here] at there
        cases there
        unfold Input.next? at nothing
        split at nothing
        next => cases nothing
        next empty => rw [empty, List.tail_nil]
      rw [there]
      split
      next mine => rw [same mine]
      next => rfl
    next => exact onInput_getElem? there

/-- What becomes of the input of command `n` by an event. -/
def Input.react (n : Nat) (i : Input) : Event → Input
  | .data channel b => if i.isOpen = true ∧ i.channel = channel then i.push (.data b) else i
  | .eof channel => if i.isOpen = true ∧ i.channel = channel then i.pushEof else i
  | .close channel => if i.isOpen = true ∧ i.channel = channel then i.shut else i
  | .hangUp => i.shut
  | .take command => if command = n then { i with queue := i.queue.tail } else i
  | .ended command => if command = n then i.abandon else i
  | _ => i

theorem step_getElem? (store : Identity.Store) (unique : s.OneOpen)
    (there : s.inputs[n]? = some i) (e : Event) :
    (s.step store e).1.inputs[n]? = some (i.react n e) := by
  cases e with
  | offerKey blob =>
      have same : (s.offerKey store blob).1.inputs = s.inputs := by
        unfold offerKey
        split <;> rfl
      rwa [step, same]
  | openChannel | requestForward | lendAgent => exact there
  | setEnv channel name value =>
      rw [step]
      split <;> exact there
  | exec channel line =>
      have inside := (List.getElem?_eq_some_iff.1 there).1
      rcases exec_cases s channel line with ⟨text, refused⟩ | ⟨user, -, -, starts⟩
      · rwa [step, refused]
      · rwa [step, starts, List.getElem?_append_left inside]
  | data | eof | close => exact onChannel_getElem? unique there
  | hangUp =>
      show (s.inputs.map Input.shut)[n]? = _
      rw [List.getElem?_map, there]
      rfl
  | take command => exact take_getElem? there command
  | ended command => exact onInput_getElem? there

theorem Input.react_hears (n : Nat) (i : Input) (e : Event) : i.Hears n e (i.react n e) := by
  cases e with
  | offerKey | openChannel | requestForward | setEnv | lendAgent | exec =>
      exact .quiet rfl rfl rfl nofun (fun _ => by simp [Input.FreedBy])
  | data channel b =>
      rw [Input.react]
      split
      next here =>
        obtain ⟨sameChannel, sameRead, isOpen⟩ := i.push_flags (.data b)
        refine ⟨sameChannel, ?_, ?_⟩
        · rw [sameRead, and_iff_left nofun]
        · rw [isOpen, Bool.and_eq_true, Input.freedBy_data_iff, and_iff_left here.2.symm,
            Bool.not_eq_false]
      next elsewhere =>
        refine .quiet rfl rfl rfl nofun fun isOpen freed => elsewhere ⟨isOpen, ?_⟩
        exact (Input.freedBy_data_iff.1 freed).2.symm
  | eof channel =>
      rw [Input.react]
      split
      next here =>
        obtain ⟨sameChannel, sameRead, sameOpen⟩ := i.pushEof_flags
        exact .quiet sameChannel sameRead sameOpen nofun (fun _ => by simp [Input.FreedBy])
      next elsewhere => exact .quiet rfl rfl rfl nofun (fun _ => by simp [Input.FreedBy])
  | close channel =>
      rw [Input.react]
      split
      next here =>
        refine ⟨rfl, (and_iff_left nofun).symm, ?_⟩
        rw [Input.freedBy_close_iff]
        exact ⟨nofun, fun h => absurd here.2.symm h.2⟩
      next elsewhere =>
        refine .quiet rfl rfl rfl nofun fun isOpen freed => elsewhere ⟨isOpen, ?_⟩
        exact (Input.freedBy_close_iff.1 freed).symm
  | hangUp =>
      refine ⟨rfl, (and_iff_left nofun).symm, ?_⟩
      exact ⟨nofun, fun h => absurd (.inr (.inl rfl)) h.2⟩
  | take command =>
      rw [Input.react]
      split <;> exact .quiet rfl rfl rfl nofun (fun _ => by simp [Input.FreedBy])
  | ended command =>
      rw [Input.react]
      split
      next mine =>
        refine ⟨rfl, ⟨nofun, fun h => absurd (congrArg Event.ended mine) h.2⟩, ?_⟩
        exact ⟨fun isOpen => ⟨isOpen, by simp [Input.FreedBy]⟩, And.left⟩
      next other =>
        refine .quiet rfl rfl rfl (fun h => ?_) (fun _ => by simp [Input.FreedBy])
        cases h
        exact other rfl

/-- What an event does to the input of a command. -/
theorem step_hears (store : Identity.Store) (unique : s.OneOpen) (there : s.inputs[n]? = some i)
    (e : Event) : ∃ i', (s.step store e).1.inputs[n]? = some i' ∧ i.Hears n e i' :=
  ⟨i.react n e, step_getElem? store unique there e, i.react_hears n e⟩

theorem length_onInput (s : Session) (command : Nat) (f : Input → Input) :
    (s.onInput command f).inputs.length = s.inputs.length := List.length_modify ..

theorem length_onChannel (s : Session) (channel : Nat) (f : Input → Input) :
    (s.onChannel channel f).inputs.length = s.inputs.length := by
  unfold onChannel
  split
  next => exact length_onInput ..
  next => rfl

theorem length_step (store : Identity.Store) (s : Session) {e : Event}
    (other : ∀ channel line, e ≠ .exec channel line) :
    (s.step store e).1.inputs.length = s.inputs.length := by
  cases e with
  | exec channel line => exact absurd rfl (other channel line)
  | offerKey blob =>
      show (s.offerKey store blob).1.inputs.length = _
      unfold offerKey
      split <;> rfl
  | setEnv channel name value =>
      rw [step]
      split <;> rfl
  | openChannel | requestForward | lendAgent => rfl
  | data | eof | close => exact length_onChannel ..
  | hangUp => exact List.length_map _
  | take command =>
      show (s.take command).1.inputs.length = _
      unfold take
      split
      next => rfl
      next =>
        split
        next => rfl
        next => exact length_onInput ..
  | ended => exact length_onInput ..

theorem step_new (store : Identity.Store) {e : Event} (outside : s.inputs.length ≤ n)
    (there : (s.step store e).1.inputs[n]? = some i) :
    ∃ channel line, e = .exec channel line ∧ s.user.isSome = true ∧
      s.commandOn? channel = none ∧ n = s.inputs.length ∧ i = { channel := channel } := by
  have inside := (List.getElem?_eq_some_iff.1 there).1
  by_cases exec : ∃ channel line, e = .exec channel line
  · obtain ⟨channel, line, rfl⟩ := exec
    rw [step] at there inside
    rcases exec_cases s channel line with ⟨text, refused⟩ | ⟨user, known, free, starts⟩
    · rw [refused] at inside
      exact absurd inside (Nat.not_lt.2 outside)
    · rw [starts] at there inside
      rw [List.length_append, List.length_singleton] at inside
      obtain rfl : n = s.inputs.length := by omega
      rw [List.getElem?_concat_length] at there
      exact ⟨channel, line, rfl, Option.isSome_of_eq_some known, free, rfl,
        (Option.some.inj there).symm⟩
  · have same := length_step store s fun channel line h => exec ⟨channel, line, h⟩
    omega

/-- On each channel there stays at most one command with its input open. -/
theorem OneOpen.step (unique : s.OneOpen) (store : Identity.Store) (e : Event) :
    (s.step store e).1.OneOpen := by
  -- An input that is open now was open before, or it is new, and there was none.
  have origin : ∀ (n : Nat) (i : Input), (s.step store e).1.inputs[n]? = some i → i.isOpen = true →
      (∃ i₀, s.inputs[n]? = some i₀ ∧ i₀.isOpen = true ∧ i₀.channel = i.channel) ∨
      n = s.inputs.length ∧ s.commandOn? i.channel = none := by
    intro n i there isOpen
    rcases Nat.lt_or_ge n s.inputs.length with inside | outside
    · have before := List.getElem?_eq_getElem inside
      obtain ⟨i', there', hears⟩ := step_hears store unique before e
      obtain rfl : i' = i := Option.some.inj (there'.symm.trans there)
      exact .inl ⟨_, before, (hears.isOpen.1 isOpen).1, hears.channel.symm⟩
    · obtain ⟨channel, line, -, -, free, new, rfl⟩ := step_new store outside there
      exact .inr ⟨new, free⟩
  intro n m i j there there' isOpen isOpen' same
  rcases origin n i there isOpen with ⟨i₀, before, open₀, here⟩ | ⟨new, free⟩
  · rcases origin m j there' isOpen' with ⟨j₀, before', open₁, here'⟩ | ⟨new', free'⟩
    · exact unique n m i₀ j₀ before before' open₀ open₁ (here.trans (same.trans here'.symm))
    · exact absurd (here.trans same) (commandOn?_eq_none_iff.1 free' n i₀ before open₀)
  · rcases origin m j there' isOpen' with ⟨j₀, before', open₁, here'⟩ | ⟨new', free'⟩
    · exact absurd (here'.trans same.symm) (commandOn?_eq_none_iff.1 free m j₀ before' open₁)
    · exact new.trans new'.symm

/-! ### What follows from an event -/

/-- Nothing has to follow from the event. -/
def Event.isSilent : Event → Bool
  | .setEnv _ _ _ | .data _ _ | .eof _ | .close _ | .take _ | .ended _ => true
  | _ => false

/-- What can follow from an event. -/
inductive Follows (store : Identity.Store) (s : Session) : Event → List Effect → Prop where
  | answered (blob : Bytes) : Follows store s (.offerKey blob)
      [.count (.authAttempt (owner? store blob).isSome), .grant (owner? store blob).isSome]
  | channel : Follows store s .openChannel [.grant s.user.isSome]
  | forward : Follows store s .requestForward [.grant false]
  | attached (channel : Nat) (first : s.lendsAgent = false) :
      Follows store s (.lendAgent channel) [.attachAgent]
  | lent (channel : Nat) (already : s.lendsAgent = true) : Follows store s (.lendAgent channel) []
  | refused (channel : Nat) (line : Bytes) (text : String) :
      Follows store s (.exec channel line) [.refuse channel text]
  | started {user : User} (channel : Nat) (line : Bytes) (known : s.user = some user) :
      Follows store s (.exec channel line) [.confirm channel,
        .start s.inputs.length (Utf8.lossy line) ⟨user, s.lendsAgent, s.gitProtocol⟩]
  | given (command : Nat) (m : Option Relay.ClientMessage) :
      Follows store s (.take command) [.give command m]
  | left : Follows store s .hangUp [.count .sessionClosed]
  | nothing {e : Event} (silent : e.isSilent = true) : Follows store s e []

theorem step_follows (store : Identity.Store) (s : Session) (e : Event) :
    Follows store s e (s.step store e).2 := by
  cases e with
  | offerKey blob =>
      have answer : (s.offerKey store blob).2 =
          [.count (.authAttempt (owner? store blob).isSome),
            .grant (owner? store blob).isSome] := by
        rw [offerKey]
        cases owner? store blob <;> rfl
      rw [step, answer]
      exact .answered blob
  | openChannel => exact .channel
  | requestForward => exact .forward
  | lendAgent channel =>
      rw [step]
      split
      next already => exact .lent channel already
      next first => exact .attached channel (Bool.eq_false_iff.2 first)
  | exec channel line =>
      rw [step]
      rcases exec_cases s channel line with ⟨text, refused⟩ | ⟨user, known, -, starts⟩
      · rw [refused]
        exact .refused channel line text
      · rw [starts]
        exact .started channel line known
  | take command =>
      rw [step, take]
      split
      next => exact .nothing rfl
      next =>
        split
        next => exact .nothing rfl
        next m _ => exact .given command m
  | hangUp => exact .left
  | setEnv | data | eof | close | ended => exact .nothing rfl

/-- The user whose key the event proves. -/
def Event.proves? (store : Identity.Store) : Event → Option User
  | .offerKey blob => owner? store blob
  | _ => none

/-- With the event the client lends its agent. -/
def Event.lends : Event → Bool
  | .lendAgent _ => true
  | _ => false

/-- What an event does to what is known of the client. -/
theorem step_known (store : Identity.Store) (s : Session) (e : Event) :
    (s.step store e).1.user = (e.proves? store).or s.user ∧
      (s.step store e).1.authenticated = ((e.proves? store).isSome || s.authenticated) ∧
      (s.step store e).1.lendsAgent = (e.lends || s.lendsAgent) := by
  cases e with
  | offerKey blob =>
      rw [step, offerKey, Event.proves?]
      cases owner? store blob <;> exact ⟨rfl, rfl, rfl⟩
  | exec channel line =>
      rw [step]
      rcases exec_cases s channel line with ⟨text, refused⟩ | ⟨user, -, -, starts⟩
      · rw [refused]
        exact ⟨rfl, rfl, rfl⟩
      · rw [starts]
        exact ⟨rfl, rfl, rfl⟩
  | setEnv channel name value =>
      rw [step]
      split <;> exact ⟨rfl, rfl, rfl⟩
  | data | eof | close =>
      rw [step, onChannel]
      split <;> exact ⟨rfl, rfl, rfl⟩
  | take command =>
      rw [step, take]
      split
      next => exact ⟨rfl, rfl, rfl⟩
      next => split <;> exact ⟨rfl, rfl, rfl⟩
  | openChannel | requestForward | lendAgent | hangUp | ended => exact ⟨rfl, rfl, rfl⟩

/-- A client stays known. -/
theorem isSome_user_step (store : Identity.Store) (e : Event) (known : s.user.isSome = true) :
    (s.step store e).1.user.isSome = true := by
  rw [(step_known store s e).1, Option.isSome_or, known, Bool.or_true]

/-! ### Runs -/

def after (store : Identity.Store) (events : List Event) : Session :=
  (({} : Session).run store events).1

theorem run_cons (store : Identity.Store) (s : Session) (e : Event) (events : List Event) :
    s.run store (e :: events) =
      (((s.step store e).1.run store events).1,
        (s.step store e).2 ++ ((s.step store e).1.run store events).2) := rfl

theorem run_append (store : Identity.Store) (s : Session) (events later : List Event) :
    s.run store (events ++ later) =
      (((s.run store events).1.run store later).1,
        (s.run store events).2 ++ ((s.run store events).1.run store later).2) := by
  induction events generalizing s with
  | nil => rfl
  | cons e events ih =>
      rw [List.cons_append, run_cons, run_cons, ih]
      simp only [List.append_assoc]

theorem after_snoc (store : Identity.Store) (events : List Event) (e : Event) :
    after store (events ++ [e]) = ((after store events).step store e).1 := by
  rw [after, run_append]
  rfl

theorem run_snoc_effects (store : Identity.Store) (events : List Event) (e : Event) :
    (({} : Session).run store (events ++ [e])).2 =
      (({} : Session).run store events).2 ++ ((after store events).step store e).2 := by
  rw [run_append]
  exact congrArg _ (List.append_nil _)

theorem isSome_user_after {store : Identity.Store} {events : List Event} (later : List Event)
    (known : (after store events).user.isSome = true) :
    (after store (events ++ later)).user.isSome = true := by
  induction later using List.reverseRecOn with
  | nil => rwa [List.append_nil]
  | append_singleton later e ih =>
      rw [← List.append_assoc, after_snoc]
      exact isSome_user_step store e ih

theorem oneOpen_after (store : Identity.Store) (events : List Event) :
    (after store events).OneOpen := by
  induction events using List.reverseRecOn with
  | nil => exact fun n m i j there => nomatch there
  | append_singleton events e ih =>
      rw [after_snoc]
      exact ih.step store e

def sampleOwner : User := ⟨"alice", "alice@example.com", "alice"⟩

/-- The owner of a key that is called `a`. -/
def sampleOwners : Identity.Store := ⟨[("a AAAAAWE=", sampleOwner)], 1⟩

end ForgeGateway.Session
