import ForgeGateway.Metrics.Registry
import ForgeGateway.Proofs.Agent.DeskRun

/-! # One operation after the other

An `Operation` is a call that has had its turn, with what it was told in its turn; it can be
replayed at a desk of its own (`Operation.effects`), where it takes a `Course`.  While nothing is
cancelled, what a desk shows is what the operations show by themselves, one after the other and
in the order in which they came to wait: that is the desk's `Account`, which every moment of a
schedule has (`Schedule.account`).  What follows from it for channels and counters is read off
the courses. -/

namespace ForgeGateway

/-- A counter of agent operations grows by one for each measurement that names it. -/
theorem Metrics.Registry.count_recordAll (r : Metrics.Registry) (ms : List Metrics.Measurement)
    (operation : String) (ok : Bool) :
    (r.recordAll ms).agentOperations.count (operation, .of ok) =
      r.agentOperations.count (operation, .of ok) + ms.count (.agentOperation operation ok) := by
  refine Registry.count_of_record agentOperations (fun r m => ?_) r ms
  cases m with
  | agentOperation operation' ok' =>
      rw [record, Tally.count_add]
      by_cases same : operation = operation' ∧ ok = ok'
      · obtain ⟨rfl, rfl⟩ := same
        simp
      · have other : ¬ (operation' = operation ∧ ok' = ok) := fun h => same ⟨h.1.symm, h.2.symm⟩
        simp [Outcome.of_inj, same, other]
  | _ => simp [record]

namespace Agent

/-! ### What effects and events say -/

namespace Effect

/-- The operation that returns without having waited, and why. -/
def refused? : Effect → Option (Nat × AgentError)
  | .refuse id e => some (id, e)
  | _ => none

/-- The operation that asks for its channel. -/
def asked? : Effect → Option Nat
  | .openChannel id => some id
  | _ => none

/-- The operation that returns from its turn, with its result. -/
def returned? : Effect → Option (Nat × Except AgentError Answer)
  | .finish id result => some (id, result)
  | _ => none

def measured? : Effect → Option Metrics.Measurement
  | .count operation ok => some (.agentOperation operation ok)
  | _ => none

/-- The operations that use a channel, after an effect: each does from when it asks for its
channel until it returns, and the channel is open or being opened no longer than that. -/
def use (inUse : List Nat) : Effect → List Nat
  | .openChannel id => inUse ++ [id]
  | .finish id _ => inUse.erase id
  | .refuse .. | .send .. | .close _ | .count .. => inUse

end Effect

/-- The operations that use a channel after some effects. -/
def inUse (fx : List Effect) : List Nat := fx.foldl Effect.use []

/-- The effects of operations that have waited for their turns. -/
def served (fx : List Effect) : List Effect := fx.filter (·.refused?.isNone)

def Event.queued? : Event → Option (Nat × Request)
  | .arrive id r => if r.refusal?.isNone then some (id, r) else none
  | _ => none

def Event.refused? : Event → Option (Nat × AgentError)
  | .arrive id r => r.refusal?.map fun e => (id, e)
  | _ => none

/-- The calls that came to wait, in order. -/
def queued (es : List (Time × Event)) : List (Nat × Request) := es.filterMap (·.2.queued?)

@[simp] theorem queued_append (es es' : List (Time × Event)) :
    queued (es ++ es') = queued es ++ queued es' := List.filterMap_append

@[simp] theorem served_append (fx gx : List Effect) :
    served (fx ++ gx) = served fx ++ served gx := List.filter_append ..

/-! ### The course of an operation -/

/-- What an operation has shown so far, by the stage of its turn; `none` is its end. -/
inductive Course (id : Nat) (r : Request) : Option Turn → List Effect → Prop
  | asking (deadline : Time) : Course id r (some (.opening deadline)) [.openChannel id]
  | unopened (e : AgentError) :
      Course id r none [.openChannel id, .count r.operation false, .finish id (.error e)]
  | exchanging {turn : Turn} {deadline : Time} (exchange : turn.exchange? = some deadline) :
      Course id r (some turn) [.openChannel id, .send id r.encode]
  | closing (result : Except AgentError Answer) :
      Course id r (some (.closing result)) [.openChannel id, .send id r.encode, .close id]
  | returned (result : Except AgentError Answer) :
      Course id r none
        [.openChannel id, .send id r.encode, .close id,
          .count r.operation (Desk.isOk result), .finish id result]

namespace Course

variable {id : Nat} {r : Request} {turn : Turn} {stage next : Option Turn} {fx gx : List Effect}

/-- A move of the turn carries the course on. -/
theorem move {t : Timeouts} {now : Time} (h : Course id r (some turn) fx)
    (m : TurnMove t now id r turn next gx) : Course id r next (fx ++ gx) := by
  cases m with
  | unopened deadline e =>
    cases h with
    | asking => exact .unopened e
    | exchanging exchange => simp [Turn.exchange?] at exchange
  | opened deadline =>
    cases h with
    | asking => exact .exchanging rfl
    | exchanging exchange => simp [Turn.exchange?] at exchange
  | more buffer exchange =>
    cases h with
    | asking => simp [Turn.exchange?] at exchange
    | exchanging => exact .exchanging rfl
    | closing => simp [Turn.exchange?] at exchange
  | done result exchange =>
    cases h with
    | asking => simp [Turn.exchange?] at exchange
    | exchanging => exact .closing result
    | closing => simp [Turn.exchange?] at exchange
  | closed result =>
    cases h with
    | exchanging exchange => simp [Turn.exchange?] at exchange
    | closing => exact .returned result

theorem use_le_one (h : Course id r stage fx) : (inUse fx).length ≤ 1 := by
  cases h <;> simp [inUse, Effect.use]

theorem use_end (h : Course id r none fx) : inUse fx = [] := by
  cases h <;> simp [inUse, Effect.use]

theorem asked (h : Course id r stage fx) : fx.filterMap Effect.asked? = [id] := by
  cases h <;> rfl

/-- An operation is counted once when it returns, under its own name and by how it ends. -/
theorem measured (h : Course id r stage fx) :
    fx.filterMap Effect.measured? =
      ((fx.findSome? Effect.returned?).map
        fun x => .agentOperation r.operation (Desk.isOk x.2)).toList := by
  cases h <;> rfl

end Course

theorem TurnMove.served_eq {t : Timeouts} {now : Time} {id : Nat} {r : Request} {turn : Turn}
    {next : Option Turn} {gx : List Effect} (h : TurnMove t now id r turn next gx) :
    served gx = gx := by
  cases h <;> rfl

/-! ### Operations -/

/-- A call that has its turn, or has had it, with what it was told from the turn's beginning
on. -/
structure Operation where
  id : Nat
  request : Request
  told : List (Time × Event)

namespace Operation

def call (o : Operation) : Nat × Request := (o.id, o.request)

/-- The desk at which the operation is alone. -/
def desk (o : Operation) (t : Timeouts) : Desk :=
  ({ waiting := [o.call] } : Desk).after t o.told

/-- What the operation does when it is alone and told the same. -/
def effects (o : Operation) (t : Timeouts) : List Effect :=
  ({ waiting := [o.call] } : Desk).shown t o.told

/-- What the operation returns when it is alone and told the same. -/
def result? (o : Operation) (t : Timeouts) : Option (Except AgentError Answer) :=
  ((o.effects t).findSome? Effect.returned?).map Prod.snd

/-- What is counted for the operation, if it has returned. -/
def measurement? (t : Timeouts) (o : Operation) : Option Metrics.Measurement :=
  (o.result? t).map fun result => .agentOperation o.request.operation (Desk.isOk result)

/-- What the operation was told is that its turn begins, and then only answers. -/
def Begun (o : Operation) : Prop :=
  ∃ now answers, o.told = (now, .grant) :: answers ∧ ∀ x ∈ answers, x.2.isAnswer = true

/-- The operation is told one thing more. -/
def hear (o : Operation) (now : Time) (e : Event) : Operation :=
  { o with told := o.told ++ [(now, e)] }

theorem desk_hear (o : Operation) (t : Timeouts) (now : Time) (e : Event) :
    (o.hear now e).desk t = ((o.desk t).step t now e).1 := Desk.after_concat _ _ _ _

theorem effects_hear (o : Operation) (t : Timeouts) (now : Time) (e : Event) :
    (o.hear now e).effects t = o.effects t ++ ((o.desk t).step t now e).2 :=
  Desk.shown_concat _ _ _ _

theorem Begun.hear {o : Operation} (h : o.Begun) (now : Time) {e : Event}
    (answer : e.isAnswer = true) : (o.hear now e).Begun := by
  obtain ⟨start, answers, told, all⟩ := h
  refine ⟨start, answers ++ [(now, e)], ?_, ?_⟩
  · simp [Operation.hear, told]
  · intro x hx
    rcases List.mem_append.mp hx with hx | hx
    · exact all x hx
    · rw [List.mem_singleton.mp hx]
      exact answer

/-- The operation at the beginning of its turn. -/
def begin (id : Nat) (r : Request) (now : Time) : Operation := ⟨id, r, [(now, .grant)]⟩

theorem begun_begin (id : Nat) (r : Request) (now : Time) : (begin id r now).Begun :=
  ⟨now, [], rfl, by simp⟩

end Operation

/-! ### The account of a desk -/

/-- A desk that has heard `es` and shown `fx` has served `ops`. -/
structure Account (t : Timeouts) (es : List (Time × Event)) (fx : List Effect) (d : Desk)
    (ops : List Operation) : Prop where
  /-- Turns are had in the order in which calls came to wait. -/
  order : queued es = ops.map Operation.call ++ d.waiting
  /-- Each operation does what it would do alone, and nothing else is done. -/
  alone : served fx = ops.flatMap fun o => o.effects t
  /-- What one operation is told, no other is told. -/
  told : (ops.flatMap Operation.told).Sublist es
  begun : ∀ o ∈ ops, o.Begun
  /-- All operations but the last have returned. -/
  past : ∀ o ∈ ops.dropLast, Course o.id o.request none (o.effects t)
  /-- The last one has come as far as the desk's turn says. -/
  present : ∀ o ∈ ops.getLast?, Course o.id o.request (d.turn.map (·.2.2)) (o.effects t)

/-- The account with the operation of the present turn apart from those that have returned. -/
structure Ledger (t : Timeouts) (es : List (Time × Event)) (fx : List Effect) (d : Desk)
    (past : List Operation) (present : Option Operation) : Prop where
  order : queued es = (past ++ present.toList).map Operation.call ++ d.waiting
  alone : served fx = (past ++ present.toList).flatMap fun o => o.effects t
  told : ((past ++ present.toList).flatMap Operation.told).Sublist es
  begun : ∀ o ∈ past ++ present.toList, o.Begun
  past : ∀ o ∈ past, Course o.id o.request none (o.effects t)
  /-- The desk has the turn that the operation has by itself. -/
  present : match present with
    | none => d.turn = none
    | some o => ∃ turn, d.turn = some (o.id, o.request, turn) ∧ o.desk t = { turn := d.turn } ∧
        Course o.id o.request (some turn) (o.effects t)
  orphans : d.orphans = []

namespace Ledger

variable {t : Timeouts} {es : List (Time × Event)} {fx gx : List Effect} {d : Desk}
  {past : List Operation} {present : Option Operation} {now : Time} {e : Event}

theorem empty (t : Timeouts) : Ledger t [] [] {} [] none :=
  ⟨rfl, rfl, .slnil, by simp, by simp, rfl, rfl⟩

theorem idle (h : Ledger t es fx d past present) (quiet : e.queued? = none)
    (silent : served gx = []) : Ledger t (es ++ [(now, e)]) (fx ++ gx) d past present where
  order := by
    rw [queued_append, h.order]
    simp [queued, quiet]
  alone := by simp [h.alone, silent]
  told := h.told.trans (List.sublist_append_left _ _)
  begun := h.begun
  past := h.past
  present := h.present
  orphans := h.orphans

theorem queue {id : Nat} {r : Request} (h : Ledger t es fx d past present)
    (usable : r.refusal? = none) :
    Ledger t (es ++ [(now, .arrive id r)]) fx { d with waiting := d.waiting ++ [(id, r)] }
      past present where
  order := by
    rw [queued_append, h.order, List.append_assoc]
    simp [queued, Event.queued?, usable]
  alone := h.alone
  told := h.told.trans (List.sublist_append_left _ _)
  begun := h.begun
  past := h.past
  present := h.present
  orphans := h.orphans

theorem grant {id : Nat} {r : Request} {rest : List (Nat × Request)}
    (h : Ledger t es fx d past none)
    (next : d.waiting = (id, r) :: rest) :
    Ledger t (es ++ [(now, .grant)]) (fx ++ [.openChannel id])
      { d with waiting := rest, turn := some (id, r, .opening (now + t.opening)) }
      past (some (.begin id r now)) where
  order := by
    rw [queued_append, h.order, next]
    simp [queued, Event.queued?, Operation.call, Operation.begin]
  alone := by
    rw [served_append, h.alone]
    simp [served, Effect.refused?, Operation.effects, Operation.begin, Operation.call,
      Desk.shown, Desk.step]
  told := by
    rw [Option.toList_some, List.flatMap_append]
    refine List.Sublist.append ?_ ?_
    · simpa using h.told
    · simp [Operation.begin]
  begun := by
    intro o ho
    rcases List.mem_append.mp ho with ho | ho
    · exact h.begun o (by simpa using ho)
    · rw [List.mem_singleton.mp ho]
      exact Operation.begun_begin id r now
  past := h.past
  present := ⟨_, rfl, rfl, .asking _⟩
  orphans := h.orphans

theorem answer {o : Operation} {turn : Turn} {next : Option Turn}
    (h : Ledger t es fx d past (some o)) (answer : e.isAnswer = true)
    (busy : d.turn = some (o.id, o.request, turn))
    (move : TurnMove t now o.id o.request turn next gx)
    (step : d.step t now e = ({ d with turn := next.map fun x => (o.id, o.request, x) }, gx)) :
    ∃ past' present', Ledger t (es ++ [(now, e)]) (fx ++ gx)
      { d with turn := next.map fun x => (o.id, o.request, x) } past' present' := by
  obtain ⟨order, alone, told, begun, hpast, ⟨turn', busy', desk, course⟩, orphans⟩ := h
  obtain rfl : turn' = turn := by simp_all
  -- alone, the operation takes the same step
  have own : d.step t now e =
      ({ d with turn := (Desk.step t now { turn := d.turn } e).1.turn },
        (Desk.step t now { turn := d.turn } e).2) := Desk.step_answer answer
  rw [step] at own
  have hdesk : (o.hear now e).desk t =
      { turn := next.map fun x => (o.id, o.request, x) } := by
    rw [Operation.desk_hear, desk, Desk.step_answer answer]
    simp_all
  have hfx : (o.hear now e).effects t = o.effects t ++ gx := by
    rw [Operation.effects_hear, desk]
    simp_all
  have course' := course.move move
  rw [← hfx] at course'
  have quiet : e.queued? = none := by
    cases e <;> first | rfl | cases answer
  have order' : queued (es ++ [(now, e)]) =
      (past ++ [o.hear now e]).map Operation.call ++ d.waiting := by
    rw [queued_append, order]
    simp [queued, quiet, Operation.call, Operation.hear]
  have alone' : served (fx ++ gx) = (past ++ [o.hear now e]).flatMap fun o => o.effects t := by
    rw [served_append, alone]
    simp [hfx, move.served_eq]
  have told' : ((past ++ [o.hear now e]).flatMap Operation.told).Sublist (es ++ [(now, e)]) := by
    have split : (past ++ [o.hear now e]).flatMap Operation.told =
        (past ++ [o]).flatMap Operation.told ++ [(now, e)] := by
      simp [Operation.hear]
    rw [split]
    exact told.append_right _
  have begun' : ∀ x ∈ past ++ [o.hear now e], x.Begun := by
    intro x hx
    rcases List.mem_append.mp hx with hx | hx
    · exact begun x (List.mem_append_left _ hx)
    · rw [List.mem_singleton.mp hx]
      exact (begun o (by simp)).hear now answer
  cases next with
  | none =>
    refine ⟨past ++ [o.hear now e], none, ?_, ?_, ?_, ?_, ?_, rfl, orphans⟩
    · simpa using order'
    · simpa using alone'
    · simpa using told'
    · simpa using begun'
    · intro x hx
      rcases List.mem_append.mp hx with hx | hx
      · exact hpast x hx
      · rw [List.mem_singleton.mp hx]
        exact course'
  | some next =>
    exact ⟨past, some (o.hear now e), order', alone', told', begun', hpast,
      ⟨next, rfl, hdesk, course'⟩, orphans⟩

/-- Every event that cancels nothing keeps the ledger. -/
theorem step (h : Ledger t es fx d past present) (uncancelled : ∀ id, e ≠ .cancel id) :
    ∃ past' present', Ledger t (es ++ [(now, e)]) (fx ++ (d.step t now e).2)
      (d.step t now e).1 past' present' := by
  have move := Desk.move t now d e
  generalize hstep : d.step t now e = x at move
  obtain ⟨d', gx⟩ := x
  cases move with
  | refuse refusal =>
    exact ⟨past, present, h.idle (by simp [Event.queued?, refusal]) rfl⟩
  | queue usable =>
    refine ⟨past, present, ?_⟩
    simpa using h.queue usable
  | grant free next =>
    cases present with
    | none => exact ⟨past, _, h.grant next⟩
    | some o =>
      obtain ⟨turn, busy, -⟩ := h.present
      simp [free] at busy
  | answer answer busy move =>
    cases present with
    | none =>
      have free := h.present
      simp [busy] at free
    | some o =>
      obtain ⟨turn, busy', -⟩ := h.present
      rw [busy] at busy'
      cases busy'
      exact h.answer answer busy move hstep
  | giveUp => exact absurd rfl (uncancelled _)
  | leave => exact absurd rfl (uncancelled _)
  | sweep left => simp [h.orphans] at left
  | idle noCall =>
    refine ⟨past, present, h.idle ?_ rfl⟩
    cases e with
    | arrive id r => exact absurd rfl (noCall id r)
    | _ => rfl

theorem account (h : Ledger t es fx d past present) :
    Account t es fx d (past ++ present.toList) where
  order := h.order
  alone := h.alone
  told := h.told
  begun := h.begun
  past := by
    intro o ho
    cases present with
    | none => exact h.past o ((List.dropLast_sublist _).subset (by simpa using ho))
    | some x => exact h.past o (by simpa using ho)
  present := by
    intro o ho
    cases present with
    | none =>
      have free := h.present
      simp only at free
      rw [free]
      exact h.past o (List.mem_of_getLast? (by simpa using ho))
    | some x =>
      obtain ⟨turn, busy, -, course⟩ := h.present
      obtain rfl : x = o := by simpa using ho
      rw [busy]
      exact course

end Ledger

namespace Schedule

variable {t : Timeouts} {s : Schedule}

/-- While nothing is cancelled, the desk has a ledger at every moment. -/
theorem ledger (uncancelled : ∀ n id, (s n).2 ≠ .cancel id) (n : Nat) :
    ∃ past present, Ledger t (s.heard n) (s.shown t n) (s.desk t n) past present := by
  induction n with
  | zero => exact ⟨[], none, .empty t⟩
  | succ n ih =>
    obtain ⟨past, present, h⟩ := ih
    rw [heard_succ, shown_succ, desk_succ]
    exact h.step (uncancelled n)

/-- **While nothing is cancelled, the desk can be accounted for at every moment.** -/
theorem account (uncancelled : ∀ n id, (s n).2 ≠ .cancel id) (n : Nat) :
    ∃ ops, Account t (s.heard n) (s.shown t n) (s.desk t n) ops := by
  obtain ⟨past, present, h⟩ := ledger (t := t) uncancelled n
  exact ⟨_, h.account⟩

end Schedule

/-! ### What follows from the account -/

theorem inUse_append (fx gx : List Effect) :
    inUse (fx ++ gx) = gx.foldl Effect.use (inUse fx) := List.foldl_append ..

theorem inUse_served (fx : List Effect) : inUse (served fx) = inUse fx := by
  suffices h : ∀ u, (served fx).foldl Effect.use u = fx.foldl Effect.use u from h []
  induction fx with
  | nil => exact fun _ => rfl
  | cons f fx ih =>
    intro u
    cases f <;> exact ih _

theorem inUse_past {t : Timeouts} {ops : List Operation}
    (h : ∀ o ∈ ops, Course o.id o.request none (o.effects t)) :
    inUse (ops.flatMap fun o => o.effects t) = [] := by
  induction ops with
  | nil => rfl
  | cons o ops ih =>
    have here := (h o List.mem_cons_self).use_end
    have rest := ih fun o ho => h o (List.mem_cons_of_mem _ ho)
    rw [List.flatMap_cons, inUse_append, here]
    exact rest

namespace Account

variable {t : Timeouts} {es : List (Time × Event)} {fx : List Effect} {d : Desk}
  {ops : List Operation}

theorem split (h : Account t es fx d ops) :
    ops = [] ∨ ∃ past o, ops = past ++ [o] ∧
      (∀ x ∈ past, Course x.id x.request none (x.effects t)) ∧
      ∃ stage, Course o.id o.request stage (o.effects t) := by
  rcases List.eq_nil_or_concat ops with rfl | ⟨past, o, rfl⟩
  · exact .inl rfl
  · refine .inr ⟨past, o, by simp, ?_, _, h.present o (by simp)⟩
    intro x hx
    exact h.past x (by simpa using hx)

theorem course (h : Account t es fx d ops) :
    ∀ o ∈ ops, ∃ stage, Course o.id o.request stage (o.effects t) := by
  intro o ho
  rcases h.split with rfl | ⟨past, last, rfl, returned, stage, course⟩
  · simp at ho
  · rcases List.mem_append.mp ho with ho | ho
    · exact ⟨none, returned o ho⟩
    · rw [List.mem_singleton.mp ho]
      exact ⟨stage, course⟩

theorem use_le_one (h : Account t es fx d ops) : (inUse fx).length ≤ 1 := by
  rw [← inUse_served, h.alone]
  rcases h.split with rfl | ⟨past, last, rfl, returned, stage, course⟩
  · simp [inUse]
  · rw [List.flatMap_append, inUse_append, inUse_past returned, List.flatMap_singleton]
    exact course.use_le_one

theorem filterMap_eq (h : Account t es fx d ops) {β : Type} (f : Effect → Option β)
    (refuse : ∀ id e, f (.refuse id e) = none) :
    fx.filterMap f = ops.flatMap fun o => (o.effects t).filterMap f := by
  have same : (fun g : Effect => if g.refused?.isNone then f g else none) = f := by
    funext g
    cases g with
    | refuse id e => exact (refuse id e).symm
    | _ => rfl
  rw [← List.filterMap_flatMap, ← h.alone, served, List.filterMap_filter, same]

/-- Channels are asked for once by each call, and in the order in which the calls came to
wait. -/
theorem asked (h : Account t es fx d ops) :
    fx.filterMap Effect.asked? ++ d.waiting.map Prod.fst = (queued es).map Prod.fst := by
  have own : ops.map (fun o => (o.effects t).filterMap Effect.asked?) =
      ops.map fun o => [o.id] := by
    refine List.map_congr_left fun o ho => ?_
    obtain ⟨stage, course⟩ := h.course o ho
    exact course.asked
  rw [h.filterMap_eq _ fun _ _ => rfl, List.flatMap_def, own, ← List.flatMap_def,
    ← List.map_eq_flatMap, h.order, List.map_append, List.map_map]
  rfl

theorem measured (h : Account t es fx d ops) :
    fx.filterMap Effect.measured? = ops.filterMap (Operation.measurement? t) := by
  have own : ops.map (fun o => (o.effects t).filterMap Effect.measured?) =
      ops.map fun o => (o.measurement? t).toList := by
    refine List.map_congr_left fun o ho => ?_
    obtain ⟨stage, course⟩ := h.course o ho
    rw [course.measured, Operation.measurement?, Operation.result?, Option.map_map]
    rfl
  rw [h.filterMap_eq _ fun _ _ => rfl, List.flatMap_def, own]
  clear h own
  induction ops with
  | nil => rfl
  | cons o ops ih =>
    rw [List.map_cons, List.flatten_cons, ih, List.filterMap_cons]
    cases o.measurement? t <;> rfl

/-- The counters of agent operations stand at the numbers of calls that have returned so. -/
theorem counted (h : Account t es fx d ops) (operation : String) (ok : Bool) :
    (Metrics.Registry.recordAll {} (fx.filterMap Effect.measured?)).agentOperations.count
        (operation, .of ok) =
      ops.countP fun o => o.measurement? t == some (.agentOperation operation ok) := by
  rw [Metrics.Registry.count_recordAll, h.measured, List.count_filterMap]
  exact Nat.zero_add _

end Account

/-! ### Refused calls -/

theorem Desk.Move.refused {t : Timeouts} {now : Time} {d d' : Desk} {e : Event}
    {fx : List Effect} (move : Desk.Move t now d e d' fx) :
    fx.filterMap Effect.refused? = e.refused?.toList := by
  cases move with
  | refuse refusal => simp [Effect.refused?, Event.refused?, refusal]
  | queue usable => simp [Event.refused?, usable]
  | answer answer busy move =>
    have none : e.refused? = none := by
      cases e <;> first | rfl | cases answer
    rw [none]
    cases move <;> rfl
  | idle noCall =>
    cases e with
    | arrive id r => exact absurd rfl (noCall id r)
    | _ => rfl
  | _ => rfl

theorem Schedule.refused (s : Schedule) (t : Timeouts) (n : Nat) :
    (s.shown t n).filterMap Effect.refused? = (s.heard n).filterMap (·.2.refused?) := by
  induction n with
  | zero => rfl
  | succ n ih =>
    rw [shown_succ, heard_succ, List.filterMap_append, List.filterMap_append, ih,
      (s.move n).refused]
    cases h : (s n).2.refused? <;> simp [h]

end Agent

end ForgeGateway
