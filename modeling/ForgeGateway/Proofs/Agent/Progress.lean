import ForgeGateway.Proofs.Agent.DeskRun

/-! # Every call returns

A schedule is `Fair` if time goes on without bound, the timeout of a deadline that has passed
fires, a free desk gives the next call its turn, and channels that are being closed are closed.  An
operation that times out waits no longer (`Desk.TimesOut.ends`).  In a fair schedule every turn ends
(`Schedule.Fair.turn_ends`), so that fewer and fewer calls are ahead of one that waits, and every
call that is not cancelled returns (`Schedule.Fair.returns`).  Calls may be cancelled all around
it. -/

namespace ForgeGateway.Agent

/-- What happens when the deadline of a turn has passed, if the turn has one. -/
def Turn.late? : Turn → Option Event
  | .opening _ => some (.opened .late)
  | .sending _ => some (.sent .late)
  | .receiving _ _ => some (.received .late)
  | .closing _ => none

namespace Desk

/-- A call waits, and so many are ahead of it. -/
def Ahead (d : Desk) (k id : Nat) (r : Request) : Prop :=
  ∃ pre post, d.waiting = pre ++ (id, r) :: post ∧ pre.length = k

/-- The operation whose turn it is waits for something with this deadline. -/
def WaitsUntil (d : Desk) (deadline : Time) : Prop :=
  ∃ id r turn, d.turn = some (id, r, turn) ∧ turn.deadline? = some deadline

/-- The event is that the time of the operation whose turn it is is up. -/
def TimesOut (d : Desk) (e : Event) : Prop :=
  ∃ id r turn, d.turn = some (id, r, turn) ∧ turn.late? = some e

/-- An operation that times out waits for nothing more. -/
theorem TimesOut.ends {t : Timeouts} {now deadline : Time} {d : Desk} {e : Event}
    (h : d.TimesOut e) : ¬ (d.step t now e).1.WaitsUntil deadline := by
  obtain ⟨id, r, turn, busy, late⟩ := h
  rintro ⟨id', r', turn', busy', waits⟩
  cases turn with
  | opening deadline' =>
    cases late
    simp [step, busy, finish] at busy'
  | sending deadline' =>
    cases late
    simp only [step, busy, Exchange.onSent, onProgress, Option.some.injEq, Prod.mk.injEq] at busy'
    obtain ⟨-, -, rfl⟩ := busy'
    cases waits
  | receiving deadline' buffer =>
    cases late
    simp only [step, busy, Exchange.onChunk, onProgress, Option.some.injEq, Prod.mk.injEq] at busy'
    obtain ⟨-, -, rfl⟩ := busy'
    cases waits
  | closing result => cases late

def HasTurn (d : Desk) (id : Nat) (r : Request) : Prop := ∃ turn, d.turn = some (id, r, turn)

namespace Move

variable {t : Timeouts} {now : Time} {d d' : Desk} {e : Event} {fx : List Effect}

theorem turn_step {id : Nat} {r : Request} {turn : Turn} (move : Move t now d e d' fx)
    (busy : d.turn = some (id, r, turn)) (uncancelled : e ≠ .cancel id) :
    d'.turn = some (id, r, turn) ∨
      ∃ next, TurnMove t now id r turn next fx ∧ d'.turn = next.map fun turn => (id, r, turn) := by
  cases move with
  | refuse => exact .inl busy
  | queue => exact .inl busy
  | grant free => simp [free] at busy
  | answer answer busy' move =>
    rw [busy] at busy'
    cases busy'
    exact .inr ⟨_, move, rfl⟩
  | giveUp busy' =>
    rw [busy] at busy'
    cases busy'
    exact absurd rfl uncancelled
  | leave => exact .inl busy
  | sweep => exact .inl busy
  | idle => exact .inl busy

/-- Over one event, no call comes to be ahead of one that waits, and if a turn is given one call
less is ahead. -/
theorem ahead_step {k id : Nat} {r : Request} (move : Move t now d e d' fx)
    (h : d.Ahead k id r) (uncancelled : e ≠ .cancel id) :
    d'.HasTurn id r ∨
      ∃ k', d'.Ahead k' id r ∧ k' ≤ k ∧ (d.turn = none → d'.turn ≠ none → k' < k) := by
  obtain ⟨pre, post, waiting, rfl⟩ := h
  have stays (d' : Desk) (same : d'.waiting = d.waiting)
      (turn : d.turn = none → d'.turn = none) :
      ∃ k', d'.Ahead k' id r ∧ k' ≤ pre.length ∧
        (d.turn = none → d'.turn ≠ none → k' < pre.length) :=
    ⟨_, ⟨pre, post, same.trans waiting, rfl⟩, Nat.le_refl _, fun free busy =>
      absurd (turn free) busy⟩
  cases move with
  | refuse => exact .inr (stays _ rfl fun free => free)
  | @queue j q usable =>
    refine .inr ⟨_, ⟨pre, post ++ [(j, q)], ?_, rfl⟩, Nat.le_refl _, fun free busy =>
      absurd free busy⟩
    simp [waiting]
  | grant free next =>
    rw [waiting] at next
    cases pre with
    | nil =>
      cases next
      exact .inl ⟨_, rfl⟩
    | cons head pre =>
      cases next
      exact .inr ⟨_, ⟨pre, post, rfl, rfl⟩, Nat.le_succ _, fun _ _ => Nat.lt_succ_self _⟩
  | answer answer busy => exact .inr (stays _ rfl fun free => by simp [free] at busy)
  | giveUp busy => exact .inr (stays _ rfl fun _ => rfl)
  | @leave j other =>
    have ne : id ≠ j := fun same => uncancelled (same ▸ rfl)
    refine .inr ⟨_, ⟨pre.filter (·.1 ≠ j), post.filter (·.1 ≠ j), ?_, rfl⟩,
      List.length_filter_le _ _, fun free busy => absurd free busy⟩
    simp [waiting, ne]
  | sweep => exact .inr (stays _ rfl fun free => free)
  | idle => exact .inr (stays _ rfl fun free => free)

end Move

end Desk

namespace Schedule

/-- As long as desks are in this state, the event is not put off for ever. -/
def Sees (s : Schedule) (t : Timeouts) (e : Event) (waits : Desk → Prop) : Prop :=
  ∀ n, waits (s.desk t n) → ∃ m, n ≤ m ∧ ((s m).2 = e ∨ ¬ waits (s.desk t m))

/-- What may be taken for granted about the surroundings of a desk. -/
structure Fair (s : Schedule) (t : Timeouts) : Prop where
  later : ∀ n, (s n).1 ≤ (s (n + 1)).1
  unbounded : ∀ time, ∃ n, time < (s n).1
  /-- As long as an operation waits behind its deadline, its timeout is not put off for ever. -/
  timely : ∀ n deadline, (s.desk t n).WaitsUntil deadline → deadline < (s n).1 →
    ∃ m, n ≤ m ∧ ((s.desk t m).TimesOut (s m).2 ∨ ¬ (s.desk t m).WaitsUntil deadline)
  /-- A free desk gives the next call its turn. -/
  grants : s.Sees t .grant fun d => d.turn = none ∧ d.waiting ≠ []
  /-- Closing a channel comes to its end. -/
  closes : ∀ id r result, s.Sees t .closed fun d => d.turn = some (id, r, .closing result)
  /-- Channels that cancelled operations have left are closed. -/
  sweeps : s.Sees t .sweep fun d => d.orphans ≠ []

/-- From a moment on, an operation is not cancelled. -/
def Uncancelled (s : Schedule) (id : Nat) (n : Nat) : Prop :=
  ∀ m, n ≤ m → (s m).2 ≠ .cancel id

def Returns (s : Schedule) (t : Timeouts) (id : Nat) (n : Nat) : Prop :=
  ∃ result, Effect.finish id result ∈ s.effects t n

variable {s : Schedule} {t : Timeouts} {n m : Nat}

theorem Uncancelled.from {id : Nat} (h : s.Uncancelled id n) (le : n ≤ m) :
    s.Uncancelled id m := fun k hk => h k (Nat.le_trans le hk)

/-- What holds at one moment and has ended at a later one, ends at a moment in between, unless
something else is seen before. -/
theorem exit {P : Desk → Prop} {Q : Nat → Prop} (h : P (s.desk t n)) (le : n ≤ m)
    (stop : Q m ∨ ¬ P (s.desk t m)) :
    ∃ k, n ≤ k ∧ P (s.desk t k) ∧ (Q k ∨ ¬ P (s.desk t (k + 1))) := by
  induction le with
  | refl =>
    rcases stop with q | gone
    · exact ⟨n, Nat.le_refl n, h, .inl q⟩
    · exact absurd h gone
  | @step m le ih =>
    by_cases hm : P (s.desk t m)
    · rcases stop with q | gone
      · by_cases next : P (s.desk t (m + 1))
        · exact ⟨m + 1, Nat.le_succ_of_le le, next, .inl q⟩
        · exact ⟨m, le, hm, .inr next⟩
      · exact ⟨m, le, hm, .inr gone⟩
    · exact ih (.inr hm)

/-- A rank that grows at no moment is no higher later on, unless the end is reached. -/
theorem persists {A : Nat → Nat → Prop} {B : Prop} {k : Nat} (h : A n k) (le : n ≤ m)
    (step : ∀ m k, n ≤ m → A m k → B ∨ ∃ k', A (m + 1) k' ∧ k' ≤ k) :
    B ∨ ∃ k', A m k' ∧ k' ≤ k := by
  induction le with
  | refl => exact .inr ⟨k, h, Nat.le_refl k⟩
  | @step m le ih =>
    rcases ih with done | ⟨k', here, le'⟩
    · exact .inl done
    · rcases step m k' le here with done | ⟨k'', here, le''⟩
      · exact .inl done
      · exact .inr ⟨k'', here, Nat.le_trans le'' le'⟩

/-! ### One turn -/

theorem turn_step {id : Nat} {r : Request} {turn : Turn}
    (busy : (s.desk t n).turn = some (id, r, turn)) (uncancelled : (s n).2 ≠ .cancel id) :
    (s.desk t (n + 1)).turn = some (id, r, turn) ∨
      ∃ next, TurnMove t (s n).1 id r turn next (s.effects t n) ∧
        (s.desk t (n + 1)).turn = next.map fun turn => (id, r, turn) :=
  (s.move n).turn_step busy uncancelled

namespace Fair

theorem le_of_le (fair : s.Fair t) (le : n ≤ m) : (s n).1 ≤ (s m).1 := by
  induction le with
  | refl => exact Nat.le_refl _
  | step _ ih => exact Nat.le_trans ih (fair.later _)

/-- An operation does not wait behind its deadline for ever. -/
theorem stops_waiting (fair : s.Fair t) {deadline : Time}
    (waits : (s.desk t n).WaitsUntil deadline) (passed : deadline < (s n).1) :
    ∃ m, n ≤ m ∧ ¬ (s.desk t m).WaitsUntil deadline := by
  obtain ⟨m, le, fires | ended⟩ := fair.timely n deadline waits passed
  · refine ⟨m + 1, Nat.le_succ_of_le le, ?_⟩
    rw [desk_succ]
    exact fires.ends
  · exact ⟨m, le, ended⟩

/-- No operation waits for the same deadline for ever. -/
theorem deadline_passes (fair : s.Fair t) (n : Nat) (deadline : Time) :
    ∃ m, n ≤ m ∧ ¬ (s.desk t m).WaitsUntil deadline := by
  obtain ⟨m, hm⟩ := fair.unbounded deadline
  by_cases waits : (s.desk t (max n m)).WaitsUntil deadline
  · have late := Nat.lt_of_lt_of_le hm (fair.le_of_le (Nat.le_max_right n m))
    obtain ⟨k, le, ended⟩ := fair.stops_waiting waits late
    exact ⟨k, Nat.le_trans (Nat.le_max_left n m) le, ended⟩
  · exact ⟨max n m, Nat.le_max_left n m, waits⟩

theorem closing_returns (fair : s.Fair t) {id : Nat} {r : Request}
    {result : Except AgentError Answer}
    (busy : (s.desk t n).turn = some (id, r, .closing result))
    (uncancelled : s.Uncancelled id n) :
    ∃ m, n ≤ m ∧ s.Returns t id m ∧ (s.desk t (m + 1)).turn = none := by
  obtain ⟨m, le, stop⟩ := fair.closes id r result n busy
  obtain ⟨k, le, here, stop⟩ :=
    exit (P := fun d => d.turn = some (id, r, .closing result))
      (Q := fun m => (s m).2 = .closed) busy le stop
  rcases stop with closed | gone
  · refine ⟨k, le, ⟨result, ?_⟩, ?_⟩
    · simp [effects, closed, Desk.step, here, Desk.finish]
    · rw [desk_succ]
      simp [closed, Desk.step, here, Desk.finish]
  · rcases turn_step here (uncancelled k le) with same | ⟨next, move, after⟩
    · exact absurd same gone
    · generalize hfx : s.effects t k = fx at move
      cases move with
      | more _ exchange => simp [Turn.exchange?] at exchange
      | done _ exchange => simp [Turn.exchange?] at exchange
      | closed => exact ⟨k, le, ⟨result, by simp [hfx]⟩, after⟩

theorem exchange_returns (fair : s.Fair t) {id : Nat} {r : Request} {turn : Turn}
    {deadline : Time} (busy : (s.desk t n).turn = some (id, r, turn))
    (exchange : turn.exchange? = some deadline) (uncancelled : s.Uncancelled id n) :
    ∃ m, n ≤ m ∧ s.Returns t id m ∧ (s.desk t (m + 1)).turn = none := by
  obtain ⟨m, le, passed⟩ := fair.deadline_passes n deadline
  obtain ⟨k, le, ⟨turn, here, exchange⟩, stop⟩ :=
    exit (Q := fun _ => False)
      (P := fun d => ∃ turn, d.turn = some (id, r, turn) ∧ turn.exchange? = some deadline)
      ⟨turn, busy, exchange⟩ le
      (.inr fun ⟨turn, busy, exchange⟩ =>
        passed ⟨id, r, turn, busy, Turn.deadline_of_exchange exchange⟩)
  have gone := stop.resolve_left fun h => h
  rcases turn_step here (uncancelled k le) with same | ⟨next, move, after⟩
  · exact absurd ⟨turn, same, exchange⟩ gone
  · generalize hfx : s.effects t k = fx at move
    cases move with
    | unopened => simp [Turn.exchange?] at exchange
    | opened => simp [Turn.exchange?] at exchange
    | more buffer exchange' =>
      -- another chunk has come, with the same deadline
      rw [exchange] at exchange'
      cases exchange'
      exact absurd ⟨_, after, rfl⟩ gone
    | done result =>
      obtain ⟨m, le', returns, free⟩ :=
        fair.closing_returns after (uncancelled.from (Nat.le_succ_of_le le))
      exact ⟨m, by omega, returns, free⟩
    | closed => simp [Turn.exchange?] at exchange

theorem turn_returns (fair : s.Fair t) {id : Nat} {r : Request} {turn : Turn}
    (busy : (s.desk t n).turn = some (id, r, turn)) (uncancelled : s.Uncancelled id n) :
    ∃ m, n ≤ m ∧ s.Returns t id m ∧ (s.desk t (m + 1)).turn = none := by
  cases turn with
  | opening deadline =>
    obtain ⟨m, le, passed⟩ := fair.deadline_passes n deadline
    obtain ⟨k, le, here, stop⟩ :=
      exit (Q := fun _ => False) (P := fun d => d.turn = some (id, r, .opening deadline))
        busy le (.inr fun busy => passed ⟨id, r, _, busy, rfl⟩)
    have gone := stop.resolve_left fun h => h
    rcases turn_step here (uncancelled k le) with same | ⟨next, move, after⟩
    · exact absurd same gone
    · generalize hfx : s.effects t k = fx at move
      cases move with
      | unopened _ e => exact ⟨k, le, ⟨.error e, by simp [hfx]⟩, after⟩
      | opened =>
        obtain ⟨m, le', returns, free⟩ :=
          fair.exchange_returns after rfl (uncancelled.from (Nat.le_succ_of_le le))
        exact ⟨m, by omega, returns, free⟩
      | more _ exchange => simp [Turn.exchange?] at exchange
      | done _ exchange => simp [Turn.exchange?] at exchange
  | sending => exact fair.exchange_returns busy rfl uncancelled
  | receiving => exact fair.exchange_returns busy rfl uncancelled
  | closing => exact fair.closing_returns busy uncancelled

/-- Every turn ends, be it that its operation is cancelled. -/
theorem turn_ends (fair : s.Fair t) (n : Nat) : ∃ m, n ≤ m ∧ (s.desk t m).turn = none := by
  cases free : (s.desk t n).turn with
  | none => exact ⟨n, Nat.le_refl n, free⟩
  | some x =>
    obtain ⟨id, r, turn⟩ := x
    by_cases uncancelled : s.Uncancelled id n
    · obtain ⟨m, le, -, free⟩ := fair.turn_returns free uncancelled
      exact ⟨m + 1, by omega, free⟩
    · simp only [Uncancelled, Classical.not_forall, Classical.not_not] at uncancelled
      obtain ⟨m, le, cancelled⟩ := uncancelled
      -- up to its cancellation the operation keeps its turn, unless it returns before
      obtain ⟨k, le, ⟨turn, here⟩, stop⟩ :=
        exit (P := fun d => ∃ turn, d.turn = some (id, r, turn))
          (Q := fun m => (s m).2 = .cancel id) ⟨turn, free⟩ le (.inl cancelled)
      refine ⟨k + 1, by omega, ?_⟩
      by_cases now : (s k).2 = .cancel id
      · rw [desk_succ]
        simp [now, Desk.step, Desk.cancel, here]
      · have gone := stop.resolve_left now
        rcases turn_step here now with same | ⟨next, -, after⟩
        · exact absurd ⟨turn, same⟩ gone
        · cases next with
          | none => exact after
          | some next => exact absurd ⟨next, after⟩ gone

end Fair

/-! ### The queue -/

theorem ahead_later {k id : Nat} {r : Request} (h : (s.desk t n).Ahead k id r)
    (uncancelled : s.Uncancelled id n) (le : n ≤ m) :
    (∃ j, n ≤ j ∧ (s.desk t j).HasTurn id r) ∨ ∃ k', (s.desk t m).Ahead k' id r ∧ k' ≤ k := by
  refine persists (A := fun m k => (s.desk t m).Ahead k id r) h le fun m k le here => ?_
  rcases (s.move m).ahead_step here (uncancelled m le) with turn | ⟨k', here, le', -⟩
  · exact .inl ⟨m + 1, Nat.le_succ_of_le le, turn⟩
  · exact .inr ⟨k', here, le'⟩

namespace Fair

theorem has_turn (fair : s.Fair t) {k id : Nat} {r : Request}
    (h : (s.desk t n).Ahead k id r) (uncancelled : s.Uncancelled id n) :
    ∃ m, n ≤ m ∧ (s.desk t m).HasTurn id r := by
  induction k using Nat.strongRecOn generalizing n with
  | ind k ih =>
    obtain ⟨m, le, free⟩ := fair.turn_ends n
    rcases ahead_later h uncancelled le with had | ⟨k', here, le'⟩
    · exact had
    have waits : (s.desk t m).turn = none ∧ (s.desk t m).waiting ≠ [] := by
      obtain ⟨pre, post, waiting, -⟩ := here
      exact ⟨free, by simp [waiting]⟩
    obtain ⟨i, lei, stop⟩ := fair.grants m waits
    obtain ⟨j, lej, ⟨free, waiting⟩, stop⟩ :=
      exit (P := fun d => d.turn = none ∧ d.waiting ≠ []) (Q := fun m => (s m).2 = .grant)
        waits lei stop
    rcases ahead_later here (uncancelled.from le) lej with ⟨i, le', had⟩ | ⟨k'', here, le''⟩
    · exact ⟨i, by omega, had⟩
    have uncancelled' := uncancelled.from (Nat.le_trans le lej)
    rcases (s.move j).ahead_step here (uncancelled' j (Nat.le_refl j)) with
      turn | ⟨l, there, -, fewer⟩
    · exact ⟨j + 1, by omega, turn⟩
    -- the desk has given a turn, so that one call less is ahead
    have busy : (s.desk t (j + 1)).turn ≠ none := by
      rcases stop with granted | gone
      · rw [desk_succ]
        obtain ⟨⟨id', r'⟩, rest, next⟩ := List.exists_cons_of_ne_nil waiting
        simp [granted, Desk.step, free, next]
      · intro free
        obtain ⟨pre, post, waiting, -⟩ := there
        exact gone ⟨free, by simp [waiting]⟩
    have less := fewer free busy
    obtain ⟨i, le', had⟩ :=
      ih l (by omega) there (uncancelled'.from (Nat.le_succ j))
    exact ⟨i, by omega, had⟩

/-- **Every call that comes to wait and is not cancelled returns.** -/
theorem returns (fair : s.Fair t) {id : Nat} {r : Request} (arrives : (s n).2 = .arrive id r)
    (usable : r.refusal? = none) (uncancelled : s.Uncancelled id n) :
    ∃ m, n < m ∧ s.Returns t id m := by
  have queued : (s.desk t (n + 1)).Ahead (s.desk t n).waiting.length id r := by
    refine ⟨(s.desk t n).waiting, [], ?_, rfl⟩
    rw [desk_succ]
    simp [arrives, Desk.step, usable]
  have uncancelled' := uncancelled.from (Nat.le_succ n)
  obtain ⟨m, le, turn, busy⟩ := fair.has_turn queued uncancelled'
  obtain ⟨k, le', returns, -⟩ := fair.turn_returns busy (uncancelled'.from le)
  exact ⟨k, by omega, returns⟩

end Fair

/-! ### Schedules in which nothing happens any more -/

/-- Some events, and then nothing but the passing of time. -/
def ofList (es : List (Time × Event)) (rest : Nat) : Schedule :=
  fun n => es.getD n (rest + n, .sweep)

theorem ofList_rest (es : List (Time × Event)) (rest n : Nat) :
    ofList es rest (n + es.length) = (rest + (n + es.length), .sweep) := by
  unfold ofList
  rw [List.getD_eq_getElem?_getD, List.getElem?_eq_none (Nat.le_add_left _ _)]
  rfl

theorem ofList_idle {es : List (Time × Event)} {rest : Nat}
    (ends : (ofList es rest).desk t es.length = {}) (n : Nat) :
    (ofList es rest).desk t (n + es.length) = {} := by
  induction n with
  | zero =>
    rw [Nat.zero_add]
    exact ends
  | succ n ih =>
    rw [Nat.add_right_comm, desk_succ, ih, ofList_rest]
    rfl

theorem ofList_fair {es : List (Time × Event)} {rest : Nat}
    (ends : (ofList es rest).desk t es.length = {})
    (later : ∀ n < es.length, (ofList es rest n).1 ≤ (ofList es rest (n + 1)).1) :
    (ofList es rest).Fair t := by
  have ended (waits : Desk → Prop) (idle : ¬ waits {}) (n : Nat) :
      ∃ m, n ≤ m ∧ ¬ waits ((ofList es rest).desk t m) := by
    refine ⟨n + es.length, Nat.le_add_right n _, ?_⟩
    rw [ofList_idle ends]
    exact idle
  have sees (e : Event) (waits : Desk → Prop) (idle : ¬ waits {}) :
      (ofList es rest).Sees t e waits := by
    intro n _
    obtain ⟨m, le, ended⟩ := ended waits idle n
    exact ⟨m, le, .inr ended⟩
  refine ⟨fun n => ?_, fun time => ?_, fun n deadline _ _ => ?_, sees _ _ (by simp),
    fun _ _ _ => sees _ _ (by simp), sees _ _ (by simp)⟩
  · by_cases h : n < es.length
    · exact later n h
    · obtain ⟨k, rfl⟩ := Nat.exists_eq_add_of_le' (Nat.le_of_not_lt h)
      rw [Nat.add_right_comm, ofList_rest, ofList_rest]
      exact Nat.add_le_add_left (Nat.add_le_add_right (Nat.le_succ k) _) _
  · have late (time : Nat) : time < rest + (time + 1 + es.length) := by omega
    refine ⟨time + 1 + es.length, ?_⟩
    rw [ofList_rest]
    exact late time
  · obtain ⟨m, le, idle⟩ :=
      ended (fun d => d.WaitsUntil deadline) (by simp [Desk.WaitsUntil]) n
    exact ⟨m, le, .inr idle⟩

end Schedule

end ForgeGateway.Agent
