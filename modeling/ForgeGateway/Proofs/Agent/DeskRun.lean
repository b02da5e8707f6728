import ForgeGateway.Agent.Desk

/-! # What a desk does over many events

`Desk.after` and `Desk.shown` follow a desk through a list of events, `Schedule` is such a list
without an end.  `Desk.Move` says once what a single event can do (`Desk.move`): a turn goes on
by a `TurnMove`, and every other event is about the queue, a cancelled operation or a channel
that one has left.  What an answer does depends on the turn alone (`Desk.step_answer`). -/

namespace ForgeGateway.Agent

/-! ### One event -/

/-- The event answers something that the operation whose turn it is has asked for. -/
def Event.isAnswer : Event → Bool
  | .opened _ | .sent _ | .received _ | .closed => true
  | .arrive .. | .grant | .cancel _ | .sweep => false

/-- The deadline of an operation that makes its exchange. -/
def Turn.exchange? : Turn → Option Time
  | .sending deadline | .receiving deadline _ => some deadline
  | .opening _ | .closing _ => none

/-- The deadline of an operation that waits for an answer with a deadline. -/
def Turn.deadline? : Turn → Option Time
  | .opening deadline | .sending deadline | .receiving deadline _ => some deadline
  | .closing _ => none

theorem Turn.deadline_of_exchange {turn : Turn} {deadline : Time}
    (h : turn.exchange? = some deadline) : turn.deadline? = some deadline := by
  cases turn with
  | opening => simp [Turn.exchange?] at h
  | closing => simp [Turn.exchange?] at h
  | sending => exact h
  | receiving => exact h

theorem Turn.holdsChannel_iff {turn : Turn} :
    turn.holdsChannel = true ↔ ∃ deadline, turn.exchange? = some deadline := by
  cases turn <;> simp [Turn.holdsChannel, Turn.exchange?]

/-- How a turn can go on, or end. -/
inductive TurnMove (t : Timeouts) (now : Time) (id : Nat) (r : Request) :
    Turn → Option Turn → List Effect → Prop
  | unopened (deadline : Time) (e : AgentError) :
      TurnMove t now id r (.opening deadline) none
        [.count r.operation false, .finish id (.error e)]
  | opened (deadline : Time) :
      TurnMove t now id r (.opening deadline) (some (.sending (now + t.exchange)))
        [.send id r.encode]
  | more {turn : Turn} {deadline : Time} (buffer : Bytes)
      (exchange : turn.exchange? = some deadline) :
      TurnMove t now id r turn (some (.receiving deadline buffer)) []
  | done {turn : Turn} {deadline : Time} (result : Except AgentError Answer)
      (exchange : turn.exchange? = some deadline) :
      TurnMove t now id r turn (some (.closing result)) [.close id]
  | closed (result : Except AgentError Answer) :
      TurnMove t now id r (.closing result) none
        [.count r.operation (Desk.isOk result), .finish id result]

namespace Desk

variable {t : Timeouts} {now : Time} {d d' : Desk} {e : Event} {fx : List Effect}

/-- What an event can do at a desk. -/
inductive Move (t : Timeouts) (now : Time) (d : Desk) : Event → Desk → List Effect → Prop
  | refuse {id : Nat} {r : Request} {e : AgentError} (refusal : r.refusal? = some e) :
      Move t now d (.arrive id r) d [.refuse id e]
  | queue {id : Nat} {r : Request} (usable : r.refusal? = none) :
      Move t now d (.arrive id r) { d with waiting := d.waiting ++ [(id, r)] } []
  | grant {id : Nat} {r : Request} {rest : List (Nat × Request)} (free : d.turn = none)
      (next : d.waiting = (id, r) :: rest) :
      Move t now d .grant
        { d with waiting := rest, turn := some (id, r, .opening (now + t.opening)) }
        [.openChannel id]
  | answer {id : Nat} {r : Request} {turn : Turn} {e : Event} {next : Option Turn}
      {fx : List Effect} (isAnswer : e.isAnswer = true) (busy : d.turn = some (id, r, turn))
      (move : TurnMove t now id r turn next fx) :
      Move t now d e { d with turn := next.map fun turn => (id, r, turn) } fx
  | giveUp {id : Nat} {r : Request} {turn : Turn} (busy : d.turn = some (id, r, turn)) :
      Move t now d (.cancel id)
        { d with
          turn := none
          orphans := if turn.holdsChannel then d.orphans ++ [id] else d.orphans } []
  | leave {id : Nat} (other : ∀ r turn, d.turn ≠ some (id, r, turn)) :
      Move t now d (.cancel id) { d with waiting := d.waiting.filter (·.1 ≠ id) } []
  | sweep {id : Nat} {rest : List Nat} (left : d.orphans = id :: rest) :
      Move t now d .sweep { d with orphans := rest } [.close id]
  | idle {e : Event} (noCall : ∀ id r, e ≠ .arrive id r) (swept : e = .sweep → d.orphans = []) :
      Move t now d e d []

theorem move_onProgress {id : Nat} {r : Request} {turn : Turn} {deadline : Time}
    (answer : e.isAnswer = true) (busy : d.turn = some (id, r, turn))
    (exchange : turn.exchange? = some deadline) (p : Progress Bytes Exchange.Outcome) :
    Move t now d e (d.onProgress id r deadline p).1 (d.onProgress id r deadline p).2 := by
  cases p with
  | more buffer => exact .answer answer busy (.more buffer exchange)
  | done o => exact .answer answer busy (.done o.result exchange)

theorem move (t : Timeouts) (now : Time) (d : Desk) (e : Event) :
    Move t now d e (d.step t now e).1 (d.step t now e).2 := by
  cases e with
  | arrive id r =>
    simp only [step]
    split
    · exact .refuse ‹_›
    · exact .queue ‹_›
  | grant =>
    simp only [step]
    split
    · exact .grant ‹_› ‹_›
    · exact .idle nofun nofun
  | opened answer =>
    simp only [step]
    split
    · rename_i id r deadline busy
      rcases answer with opens | _
      · cases opens with
        | false => exact .answer rfl busy (.unopened deadline _)
        | true => exact .answer rfl busy (.opened deadline)
      · exact .answer rfl busy (.unopened deadline _)
    · exact .idle nofun nofun
  | sent answer =>
    simp only [step]
    split
    · exact move_onProgress rfl ‹_› rfl _
    · exact .idle nofun nofun
  | received answer =>
    simp only [step]
    split
    · exact move_onProgress rfl ‹_› rfl _
    · exact .idle nofun nofun
  | closed =>
    simp only [step]
    split
    · exact .answer rfl ‹_› (.closed _)
    · exact .idle nofun nofun
  | cancel id =>
    simp only [step, cancel]
    split
    · rename_i j r turn busy
      split
      · rename_i same
        exact same ▸ .giveUp busy
      · rename_i other
        exact .leave fun r' turn' h => other (by simp_all)
    · rename_i free
      exact .leave fun r turn h => by simp [free] at h
  | sweep =>
    simp only [step]
    split
    · exact .sweep ‹_›
    · exact .idle nofun fun _ => ‹_›

/-- What an answer does depends on the turn alone, and it changes nothing else. -/
theorem step_answer (answer : e.isAnswer = true) :
    d.step t now e =
      ({ d with turn := (step t now { turn := d.turn } e).1.turn },
        (step t now { turn := d.turn } e).2) := by
  obtain ⟨waiting, turn, orphans⟩ := d
  have onProgress (id : Nat) (r : Request) (turn : Turn) (deadline : Time)
      (p : Progress Bytes Exchange.Outcome) :
      onProgress ⟨waiting, some (id, r, turn), orphans⟩ id r deadline p =
        (⟨waiting, (onProgress { turn := some (id, r, turn) } id r deadline p).1.turn, orphans⟩,
          (onProgress { turn := some (id, r, turn) } id r deadline p).2) := by
    cases p <;> rfl
  rcases turn with _ | ⟨id, r, turn⟩
  · cases e <;> first | rfl | cases answer
  · cases e with
    | opened a =>
      cases turn <;> try rfl
      rcases a with opens | _
      · cases opens <;> rfl
      · rfl
    | sent a =>
      cases turn <;> try rfl
      exact onProgress id r _ _ _
    | received a =>
      cases turn <;> try rfl
      exact onProgress id r _ _ _
    | closed => cases turn <;> rfl
    | _ => cases answer

/-! ### Many events -/

def after (t : Timeouts) (d : Desk) : List (Time × Event) → Desk
  | [] => d
  | (now, e) :: rest => after t (d.step t now e).1 rest

/-- What the desk does over some events. -/
def shown (t : Timeouts) (d : Desk) : List (Time × Event) → List Effect
  | [] => []
  | (now, e) :: rest => (d.step t now e).2 ++ shown t (d.step t now e).1 rest

theorem after_concat (d : Desk) (es : List (Time × Event)) (now : Time) (e : Event) :
    d.after t (es ++ [(now, e)]) = ((d.after t es).step t now e).1 := by
  induction es generalizing d with
  | nil => rfl
  | cons x rest ih => exact ih _

theorem shown_concat (d : Desk) (es : List (Time × Event)) (now : Time) (e : Event) :
    d.shown t (es ++ [(now, e)]) = d.shown t es ++ ((d.after t es).step t now e).2 := by
  induction es generalizing d with
  | nil => simp [shown, after]
  | cons x rest ih => simp [shown, after, ih]

end Desk

/-! ### Without an end -/

/-- What happens at a desk, moment by moment and without an end. -/
abbrev Schedule : Type := Nat → Time × Event

namespace Schedule

variable {t : Timeouts} {s : Schedule} {n m : Nat}

/-- What has happened before a moment. -/
def heard (s : Schedule) (n : Nat) : List (Time × Event) := (List.range n).map s

def desk (s : Schedule) (t : Timeouts) (n : Nat) : Desk := ({} : Desk).after t (s.heard n)

def effects (s : Schedule) (t : Timeouts) (n : Nat) : List Effect :=
  ((s.desk t n).step t (s n).1 (s n).2).2

/-- What the desk has done before a moment. -/
def shown (s : Schedule) (t : Timeouts) (n : Nat) : List Effect :=
  ({} : Desk).shown t (s.heard n)

theorem heard_succ (s : Schedule) (n : Nat) : s.heard (n + 1) = s.heard n ++ [s n] := by
  unfold heard
  rw [List.range_succ, List.map_append]
  rfl

theorem desk_succ (s : Schedule) (n : Nat) :
    s.desk t (n + 1) = ((s.desk t n).step t (s n).1 (s n).2).1 := by
  unfold desk
  rw [heard_succ]
  exact Desk.after_concat _ _ _ _

theorem shown_succ (s : Schedule) (n : Nat) :
    s.shown t (n + 1) = s.shown t n ++ s.effects t n := by
  unfold shown
  rw [heard_succ]
  exact Desk.shown_concat _ _ _ _

theorem move (s : Schedule) (n : Nat) :
    Desk.Move t (s n).1 (s.desk t n) (s n).2 (s.desk t (n + 1)) (s.effects t n) := by
  rw [desk_succ]
  exact Desk.move _ _ _ _

end Schedule

end ForgeGateway.Agent
