import ForgeGateway.Arrivals

/-! # What a reader makes of what arrives

What a reader has got to by a time depends on nothing but what has arrived by then
(`Reader.upTo_progress`), and it has its result as soon as what has arrived is enough for one
(`Reader.upTo_soonest`).  What it takes away stands at the front of the row, and tells all that it
has read (`Reader.upTo_taken`). -/

namespace ForgeGateway

/-! ### What has arrived -/

namespace Arrivals

variable {α : Type}

def arrived (q : Arrivals α) (t : Time) : List α := (q.takeWhile (·.1 ≤ t)).map Prod.snd

def later (q : Arrivals α) (t : Time) : Arrivals α := q.dropWhile (·.1 ≤ t)

theorem arrived_cons_of_le {t u : Time} (h : t ≤ u) (a : α) (rest : Arrivals α) :
    arrived ((t, a) :: rest) u = a :: arrived rest u := by
  rw [arrived, List.takeWhile_cons_of_pos (by simpa using h)]
  rfl

theorem arrived_cons_of_lt {t u : Time} (h : u < t) (a : α) (rest : Arrivals α) :
    arrived ((t, a) :: rest) u = [] := by
  rw [arrived, List.takeWhile_cons_of_neg (by simpa using h)]
  rfl

theorem later_cons_of_le {t u : Time} (h : t ≤ u) (a : α) (rest : Arrivals α) :
    later ((t, a) :: rest) u = later rest u := List.dropWhile_cons_of_pos (by simpa using h)

theorem later_cons_of_lt {t u : Time} (h : u < t) (a : α) (rest : Arrivals α) :
    later ((t, a) :: rest) u = (t, a) :: rest := List.dropWhile_cons_of_neg (by simpa using h)

theorem arrived_prefix (q : Arrivals α) {t u : Time} (h : t ≤ u) :
    q.arrived t <+: q.arrived u := by
  induction q with
  | nil => exact List.prefix_refl _
  | cons e rest ih =>
      obtain ⟨since, a⟩ := e
      by_cases there : since ≤ t
      · rw [arrived_cons_of_le there, arrived_cons_of_le (Nat.le_trans there h)]
        exact (List.prefix_cons_inj a).2 ih
      · rw [arrived_cons_of_lt (Nat.lt_of_not_le there)]
        exact List.nil_prefix

/-- What has arrived, cut somewhere, is cut there in the row. -/
theorem arrived_split {q : Arrivals α} {t : Time} {as bs : List α} {a : α}
    (split : q.arrived t = as ++ a :: bs) :
    ∃ before u behind, q = before ++ (u, a) :: behind ∧ before.map Prod.snd = as ∧ u ≤ t := by
  obtain ⟨before, others, cut, ahead, next⟩ := List.map_eq_append_iff.1 split
  obtain ⟨⟨u, a'⟩, rest, rfl, rfl, -⟩ := List.map_eq_cons_iff.1 next
  have there : u ≤ t := by
    have member : (u, a') ∈ q.takeWhile (·.1 ≤ t) := by simp [cut]
    simpa using List.all_eq_true.1 List.all_takeWhile _ member
  obtain ⟨behind, whole⟩ := List.takeWhile_prefix (l := q) (·.1 ≤ t)
  refine ⟨before, u, rest ++ behind, ?_, ahead, there⟩
  rw [← whole, cut, List.append_assoc, List.cons_append]

end Arrivals

namespace Reader

variable {α σ ρ : Type} {R : Reader α σ ρ} {limit now u : Time} {s s' : σ} {r : ρ}
  {q : Arrivals α}

/-! ### Reading without a clock -/

def through (R : Reader α σ ρ) : σ → List α → Progress σ ρ
  | s, [] => .more s
  | s, a :: rest =>
    match R.step s a with
    | .done r => .done r
    | .more s => R.through s rest

theorem through_cons_of_done {a : α} (h : R.step s a = .done r) (rest : List α) :
    R.through s (a :: rest) = .done r := by
  rw [through, h]

theorem through_cons_of_more {a : α} (h : R.step s a = .more s') (rest : List α) :
    R.through s (a :: rest) = R.through s' rest := by
  rw [through, h]

theorem through_append_of_done {as : List α} (h : R.through s as = .done r) (more : List α) :
    R.through s (as ++ more) = .done r := by
  induction as generalizing s with
  | nil => cases h
  | cons a as ih =>
      rw [List.cons_append]
      cases step : R.step s a with
      | done r' =>
          rw [through_cons_of_done step] at h ⊢
          exact h
      | more s₁ =>
          rw [through_cons_of_more step] at h ⊢
          exact ih h

theorem through_append_of_more {as : List α} (h : R.through s as = .more s') (more : List α) :
    R.through s (as ++ more) = R.through s' more := by
  induction as generalizing s with
  | nil =>
      cases h
      rfl
  | cons a as ih =>
      rw [List.cons_append]
      cases step : R.step s a with
      | done r' =>
          rw [through_cons_of_done step] at h
          cases h
      | more s₁ =>
          rw [through_cons_of_more step] at h ⊢
          exact ih h

theorem through_of_prefix {as bs : List α} (front : as <+: bs) (h : R.through s as = .done r) :
    R.through s bs = .done r := by
  obtain ⟨more, rfl⟩ := front
  exact through_append_of_done h more

/-! ### Reading by the clock -/

theorem upTo_cons_of_lt {t : Time} (h : limit < max now t) (a : α) (rest : Arrivals α) :
    R.upTo limit now s ((t, a) :: rest) = ⟨limit, .more s, (t, a) :: rest⟩ := by
  rw [upTo, if_neg (Nat.not_le.2 h)]

theorem upTo_cons_of_done {t : Time} {a : α} (h : max now t ≤ limit)
    (step : R.step s a = .done r) (rest : Arrivals α) :
    R.upTo limit now s ((t, a) :: rest) =
      ⟨max now t, .done r, if R.lasts a then (t, a) :: rest else rest⟩ := by
  rw [upTo, if_pos h, step]

theorem upTo_cons_of_more {t : Time} {a : α} (h : max now t ≤ limit)
    (step : R.step s a = .more s') (rest : Arrivals α) :
    R.upTo limit now s ((t, a) :: rest) = R.upTo limit (max now t) s' rest := by
  rw [upTo, if_pos h, step]

/-- What arrives by the limit tells how far a reader gets. -/
theorem upTo_progress (h : now ≤ limit) :
    (R.upTo limit now s q).progress = R.through s (q.arrived limit) := by
  induction q generalizing now s with
  | nil => rfl
  | cons e rest ih =>
      obtain ⟨t, a⟩ := e
      by_cases inTime : t ≤ limit
      · have there : max now t ≤ limit := Nat.max_le.2 ⟨h, inTime⟩
        rw [Arrivals.arrived_cons_of_le inTime]
        cases step : R.step s a with
        | done r => rw [upTo_cons_of_done there step, through_cons_of_done step]
        | more s' => rw [upTo_cons_of_more there step, through_cons_of_more step, ih there]
      · have late : limit < max now t :=
          Nat.lt_of_lt_of_le (Nat.lt_of_not_le inTime) (Nat.le_max_right now t)
        rw [Arrivals.arrived_cons_of_lt (Nat.lt_of_not_le inTime), upTo_cons_of_lt late]
        rfl

/-- Without a result a reader stays up to the limit, and leaves what arrives later. -/
theorem upTo_of_more (h : now ≤ limit) (more : R.through s (q.arrived limit) = .more s') :
    R.upTo limit now s q = ⟨limit, .more s', q.later limit⟩ := by
  induction q generalizing now s with
  | nil =>
      cases more
      rfl
  | cons e rest ih =>
      obtain ⟨t, a⟩ := e
      by_cases inTime : t ≤ limit
      · have there : max now t ≤ limit := Nat.max_le.2 ⟨h, inTime⟩
        rw [Arrivals.arrived_cons_of_le inTime] at more
        cases step : R.step s a with
        | done r =>
            rw [through_cons_of_done step] at more
            cases more
        | more s₁ =>
            rw [through_cons_of_more step] at more
            rw [upTo_cons_of_more there step, ih there more, Arrivals.later_cons_of_le inTime]
      · have late : limit < max now t :=
          Nat.lt_of_lt_of_le (Nat.lt_of_not_le inTime) (Nat.le_max_right now t)
        rw [Arrivals.arrived_cons_of_lt (Nat.lt_of_not_le inTime)] at more
        cases more
        rw [upTo_cons_of_lt late, Arrivals.later_cons_of_lt (Nat.lt_of_not_le inTime)]

/-- A reader has its result as soon as what has arrived is enough for one. -/
theorem upTo_soonest (h : now ≤ limit) (done : (R.upTo limit now s q).progress = .done r) :
    now ≤ (R.upTo limit now s q).time ∧ (R.upTo limit now s q).time ≤ limit ∧
      R.through s (q.arrived (R.upTo limit now s q).time) = .done r ∧
      ∀ u, now ≤ u → u < (R.upTo limit now s q).time →
        ∃ s', R.through s (q.arrived u) = .more s' := by
  induction q generalizing now s with
  | nil => cases done
  | cons e rest ih =>
      obtain ⟨t, a⟩ := e
      by_cases inTime : t ≤ limit
      · have there : max now t ≤ limit := Nat.max_le.2 ⟨h, inTime⟩
        -- Up to the time of the first thing nothing has arrived.
        have before (u : Time) (soon : u < t) :
            ∃ s', R.through s (Arrivals.arrived ((t, a) :: rest) u) = .more s' := by
          rw [Arrivals.arrived_cons_of_lt soon]
          exact ⟨s, rfl⟩
        cases step : R.step s a with
        | done r' =>
            rw [upTo_cons_of_done there step] at done ⊢
            cases done
            refine ⟨Nat.le_max_left _ _, there, ?_, fun u late soon => ?_⟩
            · rw [Arrivals.arrived_cons_of_le (Nat.le_max_right _ _), through_cons_of_done step]
            · by_cases passed : t ≤ u
              · exact absurd (Nat.max_le.2 ⟨late, passed⟩) (Nat.not_le.2 soon)
              · exact before u (Nat.lt_of_not_le passed)
        | more s₁ =>
            rw [upTo_cons_of_more there step] at done ⊢
            obtain ⟨start, inLimit, enough, soonest⟩ := ih there done
            refine ⟨Nat.le_trans (Nat.le_max_left _ _) start, inLimit, ?_, fun u late soon => ?_⟩
            · rw [Arrivals.arrived_cons_of_le (Nat.le_trans (Nat.le_max_right _ _) start),
                through_cons_of_more step, enough]
            · by_cases passed : t ≤ u
              · rw [Arrivals.arrived_cons_of_le passed, through_cons_of_more step]
                exact soonest u (Nat.max_le.2 ⟨late, passed⟩) soon
              · exact before u (Nat.lt_of_not_le passed)
      · rw [upTo_cons_of_lt (Nat.lt_of_lt_of_le (Nat.lt_of_not_le inTime) (Nat.le_max_right _ _))]
          at done
        cases done

/-- Where what is ahead is not enough for a result, the next thing brings it when it arrives. -/
theorem upTo_of_done {before rest : Arrivals α} {t : Time} {a : α} (h : now ≤ limit)
    (inTime : t ≤ limit) (ordered : ∀ e ∈ before, e.1 ≤ t)
    (more : R.through s (before.map Prod.snd) = .more s') (step : R.step s' a = .done r) :
    R.upTo limit now s (before ++ (t, a) :: rest) =
      ⟨max now t, .done r, if R.lasts a then (t, a) :: rest else rest⟩ := by
  induction before generalizing now s with
  | nil =>
      cases more
      exact upTo_cons_of_done (Nat.max_le.2 ⟨h, inTime⟩) step rest
  | cons e before ih =>
      obtain ⟨u, b⟩ := e
      obtain ⟨first, ordered⟩ := List.forall_mem_cons.1 ordered
      have there : max now u ≤ limit := Nat.max_le.2 ⟨h, Nat.le_trans first inTime⟩
      rw [List.map_cons] at more
      rw [List.cons_append]
      cases next : R.step s b with
      | done r' =>
          rw [through_cons_of_done next] at more
          cases more
      | more s₁ =>
          rw [through_cons_of_more next] at more
          rw [upTo_cons_of_more there next, ih there ordered more, Nat.max_assoc,
            Nat.max_eq_right first]

/-- What a reader has taken away, with what it has seen that is there for good, is all it has read.
What is there for good is taken away only where the reader has gone on behind it. -/
theorem upTo_taken (R : Reader α σ ρ) (limit now : Time) (s : σ) (q : Arrivals α) :
    ∃ taken, q = taken ++ (R.upTo limit now s q).left ∧
      (∀ e ∈ taken, R.lasts e.2 = true → ∃ s₁ s₂, R.step s₁ e.2 = .more s₂) ∧
      ((R.upTo limit now s q).progress = R.through s (taken.map Prod.snd) ∨
        ∃ t a rest, (R.upTo limit now s q).left = (t, a) :: rest ∧ R.lasts a = true ∧
          (R.upTo limit now s q).progress = R.through s (taken.map Prod.snd ++ [a])) := by
  induction q generalizing now s with
  | nil => exact ⟨[], rfl, nofun, .inl rfl⟩
  | cons e rest ih =>
      obtain ⟨t, a⟩ := e
      by_cases there : max now t ≤ limit
      · cases step : R.step s a with
        | done r =>
            rw [upTo_cons_of_done there step]
            by_cases lasts : R.lasts a = true
            · rw [if_pos lasts]
              refine ⟨[], rfl, nofun, .inr ⟨t, a, rest, rfl, lasts, ?_⟩⟩
              exact (through_cons_of_done step []).symm
            · rw [if_neg lasts]
              refine ⟨[(t, a)], rfl, ?_, .inl (through_cons_of_done step []).symm⟩
              exact List.forall_mem_singleton.2 fun lasting => absurd lasting lasts
        | more s₁ =>
            rw [upTo_cons_of_more there step]
            obtain ⟨taken, split, passed, tells⟩ := ih (max now t) s₁
            refine ⟨(t, a) :: taken, congrArg _ split, ?_, ?_⟩
            · exact List.forall_mem_cons.2 ⟨fun _ => ⟨s, s₁, step⟩, passed⟩
            · simp only [List.map_cons, List.cons_append, through_cons_of_more step]
              exact tells
      · rw [upTo_cons_of_lt (Nat.lt_of_not_le there)]
        exact ⟨[], rfl, nofun, .inl rfl⟩

end Reader

end ForgeGateway
