import ForgeGateway.Proofs.Agent.Progress
import ForgeGateway.Scenario.AgentDesk

/-! # Operations that are cancelled

An operation can be cancelled at any moment.  Its channel, if it has one, is then left to be
closed by itself, and closed it is, once (`Cancellation.balance`, `Cancellation.closed`).
Nothing makes the next operation wait for that: `Schedule.AsksAfterCloses` says that every
channel has been closed when the next one is asked for, and this is so exactly when the channels
that were left are closed before a free desk gives the next turn
(`Schedule.SweepsBeforeTurns`). -/

namespace ForgeGateway.Agent

namespace Effect

/-- The operation that has obtained its channel, on which it makes its request. -/
def obtained? : Effect → Option Nat
  | .send id _ => some id
  | _ => none

def closed? : Effect → Option Nat
  | .close id => some id
  | _ => none

end Effect

def obtained (fx : List Effect) : List Nat := fx.filterMap Effect.obtained?

def closings (fx : List Effect) : List Nat := fx.filterMap Effect.closed?

@[simp] theorem obtained_nil : obtained [] = [] := rfl

@[simp] theorem closings_nil : closings [] = [] := rfl

@[simp] theorem obtained_append (fx gx : List Effect) :
    obtained (fx ++ gx) = obtained fx ++ obtained gx := List.filterMap_append

@[simp] theorem closings_append (fx gx : List Effect) :
    closings (fx ++ gx) = closings fx ++ closings gx := List.filterMap_append

/-! ### What one event does to channels -/

/-- The operation itself, if its turn holds a channel. -/
def Turn.held (id : Nat) (turn : Turn) : List Nat := if turn.holdsChannel then [id] else []

theorem Turn.held_exchange {id : Nat} {turn : Turn} {deadline : Time}
    (h : turn.exchange? = some deadline) : turn.held id = [id] := by
  unfold held
  rw [if_pos (Turn.holdsChannel_iff.mpr ⟨deadline, h⟩)]

/-- A turn holds its channel from when it obtains it until it closes it. -/
theorem TurnMove.balance {t : Timeouts} {now : Time} {id : Nat} {r : Request} {turn : Turn}
    {next : Option Turn} {fx : List Effect} (move : TurnMove t now id r turn next fx) :
    obtained fx ++ turn.held id = closings fx ++ (next.map fun x => x.held id).getD [] := by
  cases move with
  | unopened => rfl
  | opened => rfl
  | more buffer exchange => exact Turn.held_exchange exchange
  | done result exchange =>
    rw [Turn.held_exchange exchange]
    rfl
  | closed => rfl

namespace Desk

/-- The operation whose turn it is, if it holds a channel. -/
def holding (d : Desk) : List Nat := (d.turn.map fun x => x.2.2.held x.1).getD []

/-- The operations whose channels are open. -/
def openChannels (d : Desk) : List Nat := d.orphans ++ d.holding

theorem cancel_turn (d : Desk) (id : Nat) (r : Request) (turn : Turn) :
    (d.cancel id).turn ≠ some (id, r, turn) := by
  unfold cancel
  split
  · rename_i j q stage busy
    split
    · exact nofun
    · rename_i other
      rw [busy]
      intro same
      cases same
      exact other rfl
  · rename_i free
    rw [free]
    exact nofun

theorem cancel_waiting {d : Desk} {id : Nat} (waits : ∀ r turn, d.turn ≠ some (id, r, turn))
    (r : Request) : (id, r) ∉ (d.cancel id).waiting := by
  unfold cancel
  split
  · rename_i j q stage busy
    split
    · rename_i same
      rw [same] at busy
      exact absurd busy (waits q stage)
    · simp
  · simp

namespace Move

variable {t : Timeouts} {now : Time} {d d' : Desk} {e : Event} {fx : List Effect}

/-- A channel that is obtained is open, and an open one stays open until it is closed. -/
theorem balance (move : Move t now d e d' fx) (id : Nat) :
    (obtained fx).count id + d.openChannels.count id =
      (closings fx).count id + d'.openChannels.count id := by
  cases move with
  | refuse => rfl
  | queue => rfl
  | grant free =>
    simp only [openChannels, holding, free]
    rfl
  | @answer j r turn e next fx answer busy move =>
    have own := congrArg (List.count id) move.balance
    rw [List.count_append, List.count_append] at own
    simp only [openChannels, holding, busy, List.count_append, Option.map_some, Option.getD_some,
      Option.map_map, Function.comp_def]
    omega
  | @giveUp j r turn busy =>
    have left : (if turn.holdsChannel then d.orphans ++ [j] else d.orphans) =
        d.orphans ++ turn.held j := by
      unfold Turn.held
      split <;> simp
    simp only [openChannels, holding, busy, left]
    simp
  | leave => rfl
  | @sweep j rest left =>
    have none : obtained [.close j] = [] := rfl
    have one : closings [.close j] = [j] := rfl
    simp only [openChannels, left, none, one, List.count_append, List.count_cons, List.count_nil]
    have same : holding { d with orphans := rest } = d.holding := rfl
    rw [same]
    omega
  | idle => rfl

/-- A channel is asked for when a free desk gives the next call its turn. -/
theorem asks {id : Nat} (move : Move t now d e d' fx) (asked : .openChannel id ∈ fx) :
    e = .grant ∧ d.turn = none ∧ d.waiting ≠ [] := by
  cases move with
  | grant free next => exact ⟨rfl, free, by simp [next]⟩
  | answer _ _ move => cases move <;> simp at asked
  | refuse => simp at asked
  | sweep => simp at asked
  | _ => cases asked

/-- If turns are given only when no channel is left, at most one is left, and none while an
operation has its turn. -/
theorem left_le_one (move : Move t now d e d' fx)
    (h : (d.turn ≠ none → d.orphans = []) ∧ d.orphans.length ≤ 1)
    (swept : e = .grant → d.turn = none → d.waiting ≠ [] → d.orphans = []) :
    (d'.turn ≠ none → d'.orphans = []) ∧ d'.orphans.length ≤ 1 := by
  obtain ⟨none, one⟩ := h
  cases move with
  | grant free next =>
    have nothing := swept rfl free (by simp [next])
    exact ⟨fun _ => nothing, one⟩
  | answer _ busy => exact ⟨fun _ => none (by simp [busy]), one⟩
  | giveUp busy =>
    refine ⟨fun turn => absurd rfl turn, ?_⟩
    simp only [none (by simp [busy])]
    split <;> simp
  | sweep left =>
    rw [left] at one none
    refine ⟨fun turn => absurd (none turn) (by simp), ?_⟩
    exact Nat.le_of_succ_le one
  | _ => exact ⟨none, one⟩

theorem left_step {id : Nat} {pre post : List Nat} (move : Move t now d e d' fx)
    (left : d.orphans = pre ++ id :: post) :
    Effect.close id ∈ fx ∨ ∃ pre' post', d'.orphans = pre' ++ id :: post' ∧
      pre'.length ≤ pre.length ∧ (e = .sweep → pre'.length < pre.length) := by
  have stays (d' : Desk) (more : List Nat) (h : d'.orphans = d.orphans ++ more)
      (other : e ≠ .sweep) :
      ∃ pre' post', d'.orphans = pre' ++ id :: post' ∧ pre'.length ≤ pre.length ∧
        (e = .sweep → pre'.length < pre.length) := by
    refine ⟨pre, post ++ more, ?_, Nat.le_refl _, fun same => absurd same other⟩
    simp [h, left]
  cases move with
  | refuse => exact .inr (stays _ [] (by simp) (by simp))
  | queue => exact .inr (stays _ [] (by simp) (by simp))
  | grant => exact .inr (stays _ [] (by simp) (by simp))
  | answer answer =>
    refine .inr (stays _ [] (by simp) ?_)
    intro same
    simp [same, Event.isAnswer] at answer
  | @giveUp j r turn busy =>
    refine .inr (stays _ (turn.held j) ?_ (by simp))
    simp only [Turn.held]
    split <;> simp
  | leave => exact .inr (stays _ [] (by simp) (by simp))
  | sweep first =>
    rw [left] at first
    cases pre with
    | nil =>
      cases first
      exact .inl (by simp)
    | cons head pre =>
      cases first
      exact .inr ⟨pre, post, rfl, Nat.le_succ _, fun _ => Nat.lt_succ_self _⟩
  | idle _ swept =>
    refine .inr (stays _ [] (by simp) fun same => ?_)
    simp [swept same] at left

end Move

end Desk

namespace Schedule

variable {s : Schedule} {t : Timeouts} {n m : Nat}

/-- When a channel is asked for, every channel that was obtained has been closed. -/
def AsksAfterCloses (s : Schedule) (t : Timeouts) : Prop :=
  ∀ n id, .openChannel id ∈ s.effects t n →
    ∀ j, (obtained (s.shown t n)).count j = (closings (s.shown t n)).count j

/-- When a free desk gives the next call its turn, the channels that were left are closed. -/
def SweepsBeforeTurns (s : Schedule) (t : Timeouts) : Prop :=
  ∀ n, (s n).2 = .grant → (s.desk t n).turn = none → (s.desk t n).waiting ≠ [] →
    (s.desk t n).orphans = []

/-- Channels are obtained as often as they are closed or still open. -/
theorem balance (n id : Nat) : (obtained (s.shown t n)).count id =
    (closings (s.shown t n)).count id + (s.desk t n).openChannels.count id := by
  induction n with
  | zero => rfl
  | succ n ih =>
    have here := (s.move (t := t) n).balance id
    rw [shown_succ, obtained_append, closings_append, List.count_append, List.count_append]
    omega

theorem asksAfterCloses_iff : s.AsksAfterCloses t ↔ s.SweepsBeforeTurns t := by
  constructor
  · intro asks n granted free waiting
    obtain ⟨⟨id, r⟩, rest, next⟩ := List.exists_cons_of_ne_nil waiting
    have asked : .openChannel id ∈ s.effects t n := by
      simp [effects, granted, Desk.step, free, next]
    have none (j : Nat) : (s.desk t n).openChannels.count j = 0 := by
      have closed := asks n id asked j
      have all := balance (s := s) (t := t) n j
      omega
    have nothing : (s.desk t n).openChannels = [] :=
      List.eq_nil_iff_forall_not_mem.mpr fun j => List.count_eq_zero.mp (none j)
    exact (List.append_eq_nil_iff.mp nothing).1
  · intro swept n id asked j
    obtain ⟨granted, free, waiting⟩ := (s.move n).asks asked
    have nothing : (s.desk t n).openChannels = [] := by
      simp [Desk.openChannels, Desk.holding, free, swept n granted free waiting]
    rw [balance, nothing]
    rfl

theorem openChannels_le_one (swept : s.SweepsBeforeTurns t) (n : Nat) :
    (s.desk t n).openChannels.length ≤ 1 := by
  have inv : ((s.desk t n).turn ≠ none → (s.desk t n).orphans = []) ∧
      (s.desk t n).orphans.length ≤ 1 := by
    induction n with
    | zero => exact ⟨fun _ => rfl, Nat.zero_le 1⟩
    | succ n ih => exact (s.move n).left_le_one ih (swept n)
  unfold Desk.openChannels Desk.holding
  cases free : (s.desk t n).turn with
  | none => simpa using inv.2
  | some x =>
    rw [inv.1 (by simp [free])]
    simp only [Option.map_some, Option.getD_some, Turn.held]
    split <;> simp

theorem Fair.closes_left (fair : s.Fair t) {id : Nat} (orphan : id ∈ (s.desk t n).orphans) :
    ∃ m, n ≤ m ∧ .close id ∈ s.effects t m := by
  obtain ⟨pre, post, left⟩ := List.append_of_mem orphan
  clear orphan
  generalize hk : pre.length = k
  induction k using Nat.strongRecOn generalizing n pre post with
  | ind k ih =>
    obtain ⟨i, lei, stop⟩ := fair.sweeps n (by simp [left])
    obtain ⟨j, lej, some, stop⟩ :=
      exit (P := fun d => d.orphans ≠ []) (Q := fun m => (s m).2 = .sweep) (by simp [left])
        lei stop
    have later := persists (n := n) (m := j) (B := ∃ m, n ≤ m ∧ .close id ∈ s.effects t m)
      (A := fun m k => ∃ pre post, (s.desk t m).orphans = pre ++ id :: post ∧ pre.length = k)
      ⟨pre, post, left, hk⟩ lej fun m k le ⟨pre, post, left, hk⟩ => by
        rcases (s.move m).left_step left with closed | ⟨pre', post', left', le', -⟩
        · exact .inl ⟨m, le, closed⟩
        · exact .inr ⟨_, ⟨pre', post', left', rfl⟩, hk ▸ le'⟩
    rcases later with closed | ⟨k', ⟨pre', post', left', hk'⟩, le'⟩
    · exact closed
    rcases (s.move j).left_step left' with closed | ⟨pre'', post'', left'', -, fewer⟩
    · exact ⟨j, lej, closed⟩
    · rcases stop with sweep | none
      · have less := fewer sweep
        obtain ⟨m, le, closed⟩ := ih pre''.length (by omega) pre'' post'' left'' rfl
        exact ⟨m, by omega, closed⟩
      · exact absurd (by simp [left'']) none

end Schedule

/-! ### Cancellation -/

/-- What cancellations do to the operations of a session, and when they keep serialised. -/
structure Cancellation (t : Timeouts) (s : Schedule) : Prop where
  /-- Each channel that is obtained is open until it is closed, and is closed once. -/
  balance : ∀ n id, (obtained (s.shown t n)).count id =
    (closings (s.shown t n)).count id + (s.desk t n).openChannels.count id
  /-- The channel of a cancelled operation is closed. -/
  closed : s.Fair t → ∀ n id, id ∈ (s.desk t n).orphans →
    ∃ m, n ≤ m ∧ .close id ∈ s.effects t m
  /-- A cancelled operation gives up its turn at once. -/
  released : ∀ n id, (s n).2 = .cancel id → ∀ r turn,
    (s.desk t (n + 1)).turn ≠ some (id, r, turn)
  /-- One that had no turn yet gives up its place in the queue. -/
  left : ∀ n id, (s n).2 = .cancel id → (∀ r turn, (s.desk t n).turn ≠ some (id, r, turn)) →
    ∀ r, (id, r) ∉ (s.desk t (n + 1)).waiting
  /-- Calls that are not cancelled return, whatever becomes of the others. -/
  returns : s.Fair t → ∀ n id r, (s n).2 = .arrive id r → r.refusal? = none →
    s.Uncancelled id n → ∃ m, n < m ∧ s.Returns t id m
  /-- Every channel is closed before the next one is asked for exactly if those that cancelled
  operations leave are closed before the next turn. -/
  in_turn : s.AsksAfterCloses t ↔ s.SweepsBeforeTurns t
  /-- Then at most one channel is open at every moment. -/
  one_channel : s.SweepsBeforeTurns t → ∀ n, (s.desk t n).openChannels.length ≤ 1

/-- **Cancelled operations leave nothing behind but, for a while, their channels**, and
operations stay serialised exactly if no turn is given in that while. -/
theorem operations_cancelled (t : Timeouts) (s : Schedule) : Cancellation t s where
  balance := s.balance
  closed fair _ _ := fair.closes_left
  released n id cancelled := by
    rw [Schedule.desk_succ, cancelled]
    exact Desk.cancel_turn _ id
  left n id cancelled waits := by
    rw [Schedule.desk_succ, cancelled]
    exact Desk.cancel_waiting waits
  returns fair _ _ _ := fair.returns
  in_turn := Schedule.asksAfterCloses_iff
  one_channel := Schedule.openChannels_le_one

/-- Two calls to list identities come at once, and the agent is silent; the first one is
cancelled, and the second one has its turn before the first one's channel is closed. -/
def racingSchedule : Schedule :=
  .ofList
    [(0, .arrive 0 .identities), (0, .arrive 1 .identities), (0, .grant),
      (0, .opened (.got true)), (0, .sent (.got (.ok ()))), (1000, .cancel 0), (1000, .grant),
      (1000, .opened (.got true)), (1000, .sweep), (1000, .sent (.got (.ok ()))),
      (1000, .cancel 1), (1000, .sweep)] 20000

/-- Two channels are open at once in a fair schedule: the second one is asked for before the
first one is closed. -/
theorem channels_overlap : racingSchedule.Fair {} ∧ ¬ racingSchedule.AsksAfterCloses {} ∧
    (racingSchedule.desk {} 8).openChannels = [0, 1] := by
  refine ⟨Schedule.ofList_fair rfl (by decide), fun asks => ?_, rfl⟩
  have asked : racingSchedule.effects {} 6 = [.openChannel 1] := rfl
  have closed := asks 6 1 (by simp [asked]) 0
  revert closed
  decide

end ForgeGateway.Agent

namespace ForgeGateway.Scenario

/-- So it goes with two calls that are cancelled at the same moment. -/
example :
    (serve { openings := [.channel 0 { sends := [.chunks []] }, .stall] }
      [⟨0, 0, .identities, some 1000⟩, ⟨1, 0, .identities, some 1000⟩]).world.log.reverse =
    [(0, .openChannel 0), (0, .send 0 [0, 0, 0, 1, 11]), (1000, .openChannel 1),
      (1000, .close 0)] := by decide

end ForgeGateway.Scenario
