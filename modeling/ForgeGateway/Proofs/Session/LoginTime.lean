import ForgeGateway.Session.Watch

/-! # How long a client may take to log in

The watch over a connection tells the client at most once that it is late
(`length_serveFrom_le`), and leaves the result of the connection alone (`serveFrom_result`).  It
does so when the time to log in is over (`serve_told`).  But this time runs from the end of the
greetings, not from the beginning of the connection: as long as the greetings take, so much later
the client is told (`login_time_from_greeting`, `greeting_extends_login_time`). -/

namespace ForgeGateway.Session

/-- The connection is still open, and nobody has logged in on it. -/
def Timeline.IsPendingAt (l : Timeline) (now : Time) : Prop :=
  past l.ended now = false ∧ past l.authenticated now = false

/-- The moments are in order, and those are among them at which something happens or is due. -/
structure Timeline.Covers (l : Timeline) (timeout : Time) (moments : List Time) : Prop where
  sorted : moments.Pairwise (· < ·)
  greeted : ∀ g, l.greeted = some g → g ∈ moments
  due : ∀ g, l.greeted = some g → g + timeout ∈ moments
  ended : ∀ e, l.ended = some e → e ∈ moments

section
variable {ρ : Type} {timeout t : Time} {l : Timeline} {result : ρ} {w : Watch}
  {moments : List Time}

theorem Timeline.past_some {a now : Time} : past (some a) now = true ↔ a ≤ now :=
  decide_eq_true_iff

/-- Whoever is told is not watched any more. -/
theorem Watch.look_late {authenticated : Bool} (late : (w.look t authenticated).2 = true) :
    (w.look t authenticated).1 = .done := by
  cases w with
  | greeting => cases late
  | armed deadline =>
      rw [look] at late ⊢
      split
      next => rfl
      next early =>
        rw [if_neg early] at late
        cases late
  | done => cases late

namespace Timeline

theorem happens_later {event : Option Time} {rest : List Time}
    (covers : ∀ a, event = some a → a ∈ t :: rest) (notNow : ¬ event = some t) :
    ∀ a, event = some a → a ∈ rest := by
  intro a happens
  rcases List.mem_cons.1 (covers a happens) with rfl | later
  · exact absurd happens notNow
  · exact later

/-! ### The result, and how often the client is told -/

theorem serveFrom_result (covers : ∀ e, l.ended = some e → e ∈ moments) :
    (l.serveFrom timeout result w moments).2 = l.ended.map fun _ => result := by
  induction moments generalizing w with
  | nil =>
      cases ended : l.ended with
      | none => rfl
      | some e => cases covers e ended
  | cons t rest ih =>
      rw [serveFrom]
      dsimp only
      split
      next ended =>
        rw [ended]
        rfl
      next goesOn => exact ih (happens_later covers goesOn)

theorem serveFrom_done : (l.serveFrom timeout result .done moments).1 = [] := by
  induction moments with
  | nil => rfl
  | cons t rest ih =>
      have idle : (if l.greeted = some t then Watch.done.greeted timeout t else .done) = .done := by
        split <;> rfl
      rw [serveFrom, idle]
      dsimp only
      split
      next => rfl
      next => exact ih

/-- At whatever moments the watch is looked at, the client is told at most once. -/
theorem length_serveFrom_le : (l.serveFrom timeout result w moments).1.length ≤ 1 := by
  induction moments generalizing w with
  | nil => exact Nat.zero_le 1
  | cons t rest ih =>
      rw [serveFrom]
      generalize (if l.greeted = some t then w.greeted timeout t else w) = w'
      dsimp only
      split
      next => exact Nat.zero_le 1
      next =>
        split
        next late =>
          rw [Watch.look_late late, serveFrom_done]
          exact Nat.le_refl 1
        next => exact ih

/-! ### When the client is told -/

/-- While the watch runs, the client is told at the deadline, or it has ended or logged in by
then. -/
theorem serveFrom_armed {deadline : Time} (sorted : moments.Pairwise (· < ·))
    (due : deadline ∈ moments) (covers : ∀ e, l.ended = some e → e ∈ moments) :
    (l.serveFrom timeout result (.armed deadline) moments).1 =
      if past l.ended deadline || past l.authenticated deadline then [] else [deadline] := by
  induction moments with
  | nil => cases due
  | cons t rest ih =>
      obtain ⟨first, sorted⟩ := List.pairwise_cons.1 sorted
      have running : (if l.greeted = some t then (Watch.armed deadline).greeted timeout t
          else .armed deadline) = .armed deadline := by
        split <;> rfl
      have notBefore : t ≤ deadline := by
        rcases List.mem_cons.1 due with rfl | later
        · exact Nat.le_refl deadline
        · exact Nat.le_of_lt (first deadline later)
      rw [serveFrom, running]
      dsimp only
      split
      next ended =>
        have isOver : past l.ended deadline = true := by
          rw [ended]
          exact past_some.2 notBefore
        rw [isOver, Bool.true_or, if_pos rfl]
      next goesOn =>
        have later := happens_later covers goesOn
        rw [Watch.look]
        rcases List.mem_cons.1 due with rfl | due
        · -- The time is over: the client is told, unless it has logged in.
          have isOpen : past l.ended deadline = false := by
            cases ended : l.ended with
            | none => rfl
            | some e => exact decide_eq_false (Nat.not_le.2 (first e (later e ended)))
          rw [if_pos (Nat.le_refl deadline), serveFrom_done, isOpen, Bool.false_or]
          cases past l.authenticated deadline <;> rfl
        · rw [if_neg (Nat.not_le.2 (first deadline due))]
          exact ih sorted due later

theorem serveFrom_ungreeted (silent : l.greeted = none) :
    (l.serveFrom timeout result .greeting moments).1 = [] := by
  induction moments with
  | nil => rfl
  | cons t rest ih =>
      have waiting : ¬ l.greeted = some t := by
        rw [silent]
        exact nofun
      rw [serveFrom, if_neg waiting]
      dsimp only
      split
      next => rfl
      next => exact ih

/-- Before the end of the greetings nothing is told; from then on the watch runs. -/
theorem serveFrom_greeting {g : Time} (greeted : l.greeted = some g)
    (sorted : moments.Pairwise (· < ·)) (begins : ∀ g, l.greeted = some g → g ∈ moments)
    (due : g + timeout ∈ moments)
    (covers : ∀ e, l.ended = some e → e ∈ moments) :
    (l.serveFrom timeout result .greeting moments).1 =
      if past l.ended (g + timeout) || past l.authenticated (g + timeout) then []
      else [g + timeout] := by
  induction moments with
  | nil => cases due
  | cons t rest ih =>
      by_cases here : l.greeted = some t
      · obtain rfl : g = t := Option.some.inj (greeted.symm.trans here)
        have starts : l.serveFrom timeout result .greeting (g :: rest) =
            l.serveFrom timeout result (.armed (g + timeout)) (g :: rest) := by
          simp only [serveFrom, if_pos here, Watch.greeted]
        rw [starts]
        exact serveFrom_armed sorted due covers
      · obtain ⟨first, sorted⟩ := List.pairwise_cons.1 sorted
        have begins := happens_later begins here
        have early : t < g + timeout := Nat.lt_add_right timeout (first g (begins g greeted))
        rw [serveFrom, if_neg here]
        dsimp only
        split
        next ended =>
          have isOver : past l.ended (g + timeout) = true := by
            rw [ended]
            exact past_some.2 (Nat.le_of_lt early)
          rw [isOver, Bool.true_or, if_pos rfl]
        next goesOn =>
          have due := (List.mem_cons.1 due).resolve_left (Nat.ne_of_gt early)
          exact ih sorted begins due (happens_later covers goesOn)

theorem disconnect?_of_greeted {g : Time} (greeted : l.greeted = some g) :
    l.disconnect? timeout =
      if past l.ended (g + timeout) || past l.authenticated (g + timeout) then none
      else some (g + timeout) := by
  unfold disconnect?
  rw [greeted]
  show (if past l.ended (g + timeout) = true then none
    else if (Watch.look (g + timeout) (past l.authenticated (g + timeout))
      (.armed (g + timeout))).2 = true then some (g + timeout) else none) = _
  rw [Watch.look, if_pos (Nat.le_refl _)]
  cases past l.ended (g + timeout) <;> cases past l.authenticated (g + timeout) <;> rfl

theorem serve_told (covers : l.Covers timeout moments) :
    (l.serve timeout result moments).1 = (l.disconnect? timeout).toList := by
  unfold serve
  cases greeted : l.greeted with
  | none =>
      rw [serveFrom_ungreeted greeted]
      unfold disconnect?
      rw [greeted]
      rfl
  | some g =>
      rw [serveFrom_greeting greeted covers.sorted covers.greeted (covers.due g greeted)
        covers.ended, disconnect?_of_greeted greeted]
      split <;> rfl

end Timeline

/-- **The time to log in runs from the end of the greetings.**  If a connection is looked at
whenever something happens or is due on it, then its result is its own.  A client with which
greetings have been exchanged at `g` is told at `g + timeout` that it is late, if then the
connection is still open and nobody has logged in, and never otherwise.  So nobody is told who logs
in within the time, or has not been greeted; and who is told is told after at least this time, and
after exactly this time only if the greetings took none.  At whatever moments else the connection
is looked at, the client is told at most once. -/
theorem login_time_from_greeting (covers : l.Covers timeout moments) (result : ρ) :
    (l.serve timeout result moments).2 = l.ended.map (fun _ => result) ∧
    (∀ g, l.greeted = some g →
      (l.IsPendingAt (g + timeout) → (l.serve timeout result moments).1 = [g + timeout]) ∧
      (¬ l.IsPendingAt (g + timeout) → (l.serve timeout result moments).1 = [])) ∧
    (∀ a, l.authenticated = some a → a < timeout → (l.serve timeout result moments).1 = []) ∧
    (l.greeted = none → (l.serve timeout result moments).1 = []) ∧
    (∀ t ∈ (l.serve timeout result moments).1,
      timeout ≤ t ∧ (t = timeout ↔ l.greeted = some 0)) ∧
    ∀ others, (l.serve timeout result others).1.length ≤ 1 := by
  have whenPending {g : Time} (greeted : l.greeted = some g)
      (pending : l.IsPendingAt (g + timeout)) :
      (l.serve timeout result moments).1 = [g + timeout] := by
    rw [Timeline.serve_told covers, Timeline.disconnect?_of_greeted greeted, pending.1, pending.2]
    rfl
  have otherwise {g : Time} (greeted : l.greeted = some g)
      (settled : ¬ l.IsPendingAt (g + timeout)) : (l.serve timeout result moments).1 = [] := by
    rw [Timeline.serve_told covers, Timeline.disconnect?_of_greeted greeted]
    have isOver : (Timeline.past l.ended (g + timeout) ||
        Timeline.past l.authenticated (g + timeout)) = true := by
      rw [← Bool.not_eq_false, Bool.or_eq_false_iff]
      exact settled
    rw [isOver]
    rfl
  have ungreeted (silent : l.greeted = none) : (l.serve timeout result moments).1 = [] :=
    Timeline.serveFrom_ungreeted silent
  refine ⟨Timeline.serveFrom_result covers.ended,
    fun g greeted => ⟨whenPending greeted, otherwise greeted⟩, ?_, ungreeted, ?_,
    fun others => Timeline.length_serveFrom_le⟩
  · intro a known early
    cases greeted : l.greeted with
    | none => exact ungreeted greeted
    | some g =>
        refine otherwise greeted fun pending => ?_
        have inTime : Timeline.past l.authenticated (g + timeout) = true := by
          rw [known, Timeline.past_some]
          exact Nat.le_trans (Nat.le_of_lt early) (Nat.le_add_left timeout g)
        rw [pending.2] at inTime
        cases inTime
  · intro t told
    cases greeted : l.greeted with
    | none =>
        rw [ungreeted greeted] at told
        cases told
    | some g =>
        by_cases pending : l.IsPendingAt (g + timeout)
        · rw [whenPending greeted pending, List.mem_singleton] at told
          rw [told, Option.some.injEq]
          exact ⟨Nat.le_add_left timeout g, Nat.add_eq_right⟩
        · rw [otherwise greeted pending] at told
          cases told

end

/-! ### Slow greetings -/

/-- A client is greeted at once and logs in in time; its connection ends with the result 7. -/
theorem login_time_from_greeting_sample :
    (⟨some 0, some 5000, some 900000⟩ : Timeline).serve 600000 7 [0, 600000, 900000] =
      ([], some 7) := by
  have covers : (⟨some 0, some 5000, some 900000⟩ : Timeline).Covers 600000
      [0, 600000, 900000] := by
    refine ⟨by decide, ?_, ?_, ?_⟩
    · rintro _ ⟨⟩
      exact .head _
    · rintro _ ⟨⟩
      exact .tail _ (.head _)
    · rintro _ ⟨⟩
      exact .tail _ (.tail _ (.head _))
  obtain ⟨outcome, -, loggedIn, -⟩ := login_time_from_greeting covers 7
  exact Prod.ext (loggedIn 5000 rfl (by decide)) outcome

/-- Greetings that take nine minutes leave the client nineteen, where it should have ten: it is
told nothing until then, though all that time nobody has logged in. -/
theorem greeting_extends_login_time :
    (⟨some 540000, none, none⟩ : Timeline).IsPendingAt 1139999 ∧
    (⟨some 540000, none, none⟩ : Timeline).serve 600000 7 [540000, 600000, 1139999, 1140000] =
      ([1140000], none) := by
  exact ⟨⟨rfl, rfl⟩, by decide⟩

end ForgeGateway.Session
