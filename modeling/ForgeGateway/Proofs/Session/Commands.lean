import ForgeGateway.Proofs.Session.Step

/-! # One command at a time on a channel

An exec line starts a command exactly if its channel is not occupied (`Occupied`): if no command
has started there, or the channel has been freed since (`Freed`).  What frees a channel is that it
is closed, that the client leaves, or that something arrives for a command that has ended; after
that a second command can start (`second_command`).  `one_at_a_time` puts this together.

The flags of a command's input remember what has happened since the command started: `step_hears`
says what one event does to them, and `Starts.input` follows by induction on the events. -/

namespace ForgeGateway.Session

variable {store : Identity.Store} {n channel : Nat} {i : Input}

/-! ### Commands since they started -/

/-- The exec line on the channel, behind the events `before`, starts command `n`. -/
def Starts (store : Identity.Store) (before : List Event) (channel : Nat) (line : Bytes) (n : Nat) :
    Prop :=
  ∃ context, .start n (Utf8.lossy line) context ∈
    ((after store before).step store (.exec channel line)).2

/-- The channel has been freed since command `n` started on it: it was closed, or the client left,
or something arrived for the command after it had ended. -/
def Freed (channel n : Nat) (since : List Event) : Prop :=
  .close channel ∈ since ∨ .hangUp ∈ since ∨
    ∃ first b last, since = first ++ .data channel b :: last ∧ .ended n ∈ first

/-- A command has started on the channel, which has not been freed since. -/
def Occupied (store : Identity.Store) (events : List Event) (channel : Nat) : Prop :=
  ∃ before line n since, events = before ++ .exec channel line :: since ∧
    Starts store before channel line n ∧ ¬ Freed channel n since

theorem starts_iff {before : List Event} {line : Bytes} :
    Starts store before channel line n ↔
      (after store before).user.isSome = true ∧ (after store before).commandOn? channel = none ∧
        n = (after store before).inputs.length := by
  rw [Starts, step, exec]
  split
  next stranger => simp [stranger]
  next user known =>
    rw [known]
    split
    next taken =>
      have occupied : (after store before).commandOn? channel ≠ none := by
        rwa [Option.isSome_iff_ne_none] at taken
      simp [occupied]
    next free => simp [Option.not_isSome_iff_eq_none.1 free]

theorem Starts.inputs {before : List Event} {line : Bytes}
    (starts : Starts store before channel line n) :
    (after store (before ++ [.exec channel line])).inputs =
      (after store before).inputs ++ [{ channel := channel }] := by
  obtain ⟨known, free, -⟩ := starts_iff.1 starts
  obtain ⟨user, known⟩ := Option.isSome_iff_exists.1 known
  have unoccupied : ¬ ((after store before).commandOn? channel).isSome = true := by
    rw [free]
    nofun
  rw [after_snoc, step, exec, known]
  simp only [if_neg unoccupied]

theorem freed_snoc_iff {since : List Event} {e : Event} :
    Freed channel n (since ++ [e]) ↔
      Freed channel n since ∨ e = .close channel ∨ e = .hangUp ∨
        .ended n ∈ since ∧ ∃ b, e = .data channel b := by
  constructor
  · rintro (closed | left | ⟨first, b, last, split, ended⟩)
    · rcases List.mem_append.1 closed with before | now
      · exact .inl (.inl before)
      · exact .inr (.inl (List.mem_singleton.1 now).symm)
    · rcases List.mem_append.1 left with before | now
      · exact .inl (.inr (.inl before))
      · exact .inr (.inr (.inl (List.mem_singleton.1 now).symm))
    · rcases position_snoc_iff.1 split with ⟨rfl, rfl, rfl⟩ | ⟨last, rfl, before⟩
      · exact .inr (.inr (.inr ⟨ended, b, rfl⟩))
      · exact .inl (.inr (.inr ⟨first, b, last, before, ended⟩))
  · rintro ((closed | left | ⟨first, b, last, rfl, ended⟩) | rfl | rfl | ⟨ended, b, rfl⟩)
    · exact .inl (List.mem_append_left _ closed)
    · exact .inr (.inl (List.mem_append_left _ left))
    · refine .inr (.inr ⟨first, b, last ++ [e], ?_, ended⟩)
      rw [List.append_assoc, List.cons_append]
    · exact .inl (List.mem_append_right _ List.mem_cons_self)
    · exact .inr (.inl (List.mem_append_right _ List.mem_cons_self))
    · exact .inr (.inr ⟨since, b, [], rfl, ended⟩)

/-- What the flags of a command's input say about the events since it started. -/
theorem Starts.input {before : List Event} {line : Bytes}
    (starts : Starts store before channel line n) (since : List Event) :
    ∃ i, (after store (before ++ .exec channel line :: since)).inputs[n]? = some i ∧
      i.channel = channel ∧ (i.isRead = true ↔ .ended n ∉ since) ∧
      (i.isOpen = true ↔ ¬ Freed channel n since) := by
  induction since using List.reverseRecOn with
  | nil =>
      have number := (starts_iff.1 starts).2.2
      refine ⟨{ channel := channel }, ?_, rfl, ?_, ?_⟩
      · rw [starts.inputs, number, List.getElem?_concat_length]
      · exact ⟨fun _ => List.not_mem_nil, fun _ => rfl⟩
      · refine ⟨fun _ => ?_, fun _ => rfl⟩
        rintro (closed | left | ⟨first, b, last, split, -⟩)
        · cases closed
        · cases left
        · cases (List.append_eq_nil_iff.1 split.symm).2
  | append_singleton since e ih =>
      obtain ⟨i, there, here, read, open_⟩ := ih
      obtain ⟨i', there', hears⟩ := step_hears store (oneOpen_after store _) there e
      refine ⟨i', ?_, hears.channel.trans here, ?_, ?_⟩
      · rw [← List.cons_append, ← List.append_assoc, after_snoc, there']
      · rw [hears.isRead, read, List.mem_append, List.mem_singleton, not_or]
        exact and_congr_right fun _ => ne_comm
      · have ended : i.isRead = false ↔ .ended n ∈ since := by
          rw [← Bool.not_eq_true, read, Classical.not_not]
        rw [hears.isOpen, open_, freed_snoc_iff, not_or, Input.FreedBy, here, ended]

theorem exists_starts {events : List Event}
    (there : (after store events).inputs[n]? = some i) :
    ∃ before line since, events = before ++ .exec i.channel line :: since ∧
      Starts store before i.channel line n := by
  induction events using List.reverseRecOn generalizing i with
  | nil => cases there
  | append_singleton events e ih =>
      rw [after_snoc] at there
      rcases Nat.lt_or_ge n (after store events).inputs.length with inside | outside
      · have earlier := List.getElem?_eq_getElem inside
        obtain ⟨i', there', hears⟩ := step_hears store (oneOpen_after store events) earlier e
        obtain rfl : i' = i := Option.some.inj (there'.symm.trans there)
        obtain ⟨before, line, since, split, starts⟩ := ih earlier
        rw [← hears.channel] at split starts
        refine ⟨before, line, since ++ [e], ?_, starts⟩
        rw [split, List.append_assoc, List.cons_append]
      · obtain ⟨channel, line, rfl, known, free, new, rfl⟩ := step_new store outside there
        exact ⟨events, line, [], rfl, starts_iff.2 ⟨known, free, new⟩⟩

/-- A channel is occupied exactly if a command has its input open there. -/
theorem occupied_iff {events : List Event} :
    Occupied store events channel ↔ ((after store events).commandOn? channel).isSome = true := by
  rw [Option.isSome_iff_exists]
  constructor
  · rintro ⟨before, line, n, since, rfl, starts, kept⟩
    obtain ⟨i, there, here, -, isOpen⟩ := starts.input since
    exact ⟨n, (commandOn?_eq_some_iff (oneOpen_after store _)).2 ⟨i, there, isOpen.2 kept, here⟩⟩
  · rintro ⟨n, found⟩
    obtain ⟨i, there, isOpen, rfl⟩ := (commandOn?_eq_some_iff (oneOpen_after store _)).1 found
    obtain ⟨before, line, since, rfl, starts⟩ := exists_starts there
    obtain ⟨i', there', -, -, kept⟩ := starts.input since
    obtain rfl : i' = i := Option.some.inj (there'.symm.trans there)
    exact ⟨before, line, n, since, rfl, starts, kept.1 isOpen⟩

theorem Occupied.isSome_user {events : List Event} (occupied : Occupied store events channel) :
    (after store events).user.isSome = true := by
  obtain ⟨before, line, n, since, rfl, starts, -⟩ := occupied
  exact isSome_user_after _ (starts_iff.1 starts).1

def started (effects : List Effect) : List Nat :=
  effects.filterMap fun
    | .start n _ _ => some n
    | _ => none

theorem started_append (effects later : List Effect) :
    started (effects ++ later) = started effects ++ started later := List.filterMap_append

theorem started_step (store : Identity.Store) (s : Session) (e : Event) :
    started (s.step store e).2 = [] ∧ (s.step store e).1.inputs.length = s.inputs.length ∨
      started (s.step store e).2 = [s.inputs.length] ∧
        (s.step store e).1.inputs.length = s.inputs.length + 1 := by
  by_cases other : ∀ channel line, e ≠ .exec channel line
  · refine .inl ⟨?_, length_step store s other⟩
    have follows := step_follows store s e
    generalize (s.step store e).2 = effects at follows
    cases follows with
    | refused channel line | started channel line => exact absurd rfl (other channel line)
    | _ => rfl
  · simp only [Classical.not_forall, Classical.not_not] at other
    obtain ⟨channel, line, rfl⟩ := other
    rw [step]
    rcases exec_cases s channel line with ⟨text, refused⟩ | ⟨user, -, -, starts⟩
    · rw [refused]
      exact .inl ⟨rfl, rfl⟩
    · rw [starts]
      exact .inr ⟨rfl, List.length_append⟩

/-- Commands are numbered in the order in which they start. -/
theorem started_run (store : Identity.Store) (events : List Event) :
    started (({} : Session).run store events).2 =
      List.range (after store events).inputs.length := by
  induction events using List.reverseRecOn with
  | nil => rfl
  | append_singleton events e ih =>
      rw [run_snoc_effects, started_append, ih, after_snoc]
      rcases started_step store (after store events) e with ⟨none, same⟩ | ⟨one, more⟩
      · rw [none, same, List.append_nil]
      · rw [one, more, List.range_succ]

/-! ### The law -/

theorem Freed.of_suffix {since : List Event} (before : List Event)
    (freed : Freed channel n since) : Freed channel n (before ++ since) := by
  rcases freed with closed | left | ⟨first, b, last, rfl, ended⟩
  · exact .inl (List.mem_append_right _ closed)
  · exact .inr (.inl (List.mem_append_right _ left))
  · refine .inr (.inr ⟨before ++ first, b, last, ?_, List.mem_append_right _ ended⟩)
    rw [List.append_assoc]

/-- What holds of the commands of a session after these events. -/
structure OneAtATime (store : Identity.Store) (events : List Event) : Prop where
  /-- Each command that has started has a number and an input of its own. -/
  numbered : started (({} : Session).run store events).2 =
    List.range (after store events).inputs.length
  /-- On an occupied channel an exec line is refused, and nothing changes. -/
  refused : ∀ channel line, Occupied store events channel →
    (after store events).step store (.exec channel line) =
      (after store events, [.refuse channel secondCommandText])
  /-- On any other channel the exec line of a client that has proven its key starts a command. -/
  admitted : ∀ channel line, ¬ Occupied store events channel →
    (after store events).user.isSome = true →
    Starts store events channel line (after store events).inputs.length
  /-- Between the starts of two commands on a channel it was freed. -/
  between : ∀ before channel line since line' later n m,
    events = before ++ .exec channel line :: since ++ .exec channel line' :: later →
    Starts store before channel line n →
    Starts store (before ++ .exec channel line :: since) channel line' m → Freed channel n since
  /-- On a channel that was never freed no two commands have started. -/
  single : ∀ channel, (∀ n, ¬ Freed channel n events) →
    ∀ (n m : Nat) (i j : Input), (after store events).inputs[n]? = some i →
      (after store events).inputs[m]? = some j → i.channel = channel → j.channel = channel → n = m

/-- **A channel has one command at a time.** An exec line starts a command exactly if no command
has started on its channel since that was last freed. -/
theorem one_at_a_time (store : Identity.Store) (events : List Event) : OneAtATime store events where
  numbered := started_run store events
  refused channel line occupied := by
    obtain ⟨user, known⟩ := Option.isSome_iff_exists.1 occupied.isSome_user
    rw [step, exec, known]
    exact if_pos (occupied_iff.1 occupied)
  admitted channel line free known := by
    rw [occupied_iff, Option.not_isSome_iff_eq_none] at free
    exact starts_iff.2 ⟨known, free, rfl⟩
  between before channel line since line' later n m split starts starts' := by
    have free := (starts_iff.1 starts').2.1
    by_contra kept
    have occupied : Occupied store (before ++ .exec channel line :: since) channel :=
      ⟨before, line, n, since, rfl, starts, kept⟩
    rw [occupied_iff, free] at occupied
    cases occupied
  single channel unfreed n m i j there there' here here' := by
    have isOpen : ∀ (n : Nat) (i : Input), (after store events).inputs[n]? = some i →
        i.channel = channel → i.isOpen = true := by
      intro n i there here
      obtain ⟨before, line, since, rfl, starts⟩ := exists_starts there
      obtain ⟨i', there', -, -, kept⟩ := starts.input since
      obtain rfl : i' = i := Option.some.inj (there'.symm.trans there)
      refine kept.2 fun freed => unfreed n ?_
      rw [← here, ← List.singleton_append, ← List.append_assoc]
      exact freed.of_suffix _
    exact oneOpen_after store events n m i j there there' (isOpen n i there here)
      (isOpen m j there' here') (here.trans here'.symm)

/-- Two commands start on one channel: something arrives for the first one after it has ended. -/
theorem second_command :
    started (({} : Session).run sampleOwners
      [.offerKey [0, 0, 0, 1, 97], .exec 0 [], .ended 0, .data 0 [], .exec 0 []]).2 = [0, 1] ∧
    (after sampleOwners
      [.offerKey [0, 0, 0, 1, 97], .exec 0 [], .ended 0, .data 0 [], .exec 0 []]).inputs.map
        Input.channel = [0, 0] := by
  decide

end ForgeGateway.Session
