import ForgeGateway.Proofs.Relay.Push
import ForgeGateway.Proofs.Relay.PullOutput

/-! # How far the advertisement is read

The forge's output is read event by event until its advertisement is there (`PrefetchRun`).  The
first events that tell whether there is one (`Decided`) are all that is read, and what they tell
is what the whole output tells up to the end of it (`advertised`, `writtenBeforeEnd`):
`advertisement_uncut`.  The induction is on the steps of a run; what it carries is which events
were read, that they decide nothing yet, and that everything written in them is in the buffer
(`Reached`). -/

namespace ForgeGateway.Relay

open ForgeGateway.Git (Packet)

/-! ### Events up to the end of the output -/

/-- The forge writes nothing more: it gives its status, ends its output or closes its channel. -/
def endsOutput : Option ForgeEvent → Bool
  | some (.exit _) | some .eof | none => true
  | some (.data _) | some (.stderr _) => false

def writtenBeforeEnd : List (Option ForgeEvent) → Bytes
  | [] => []
  | e :: later => if endsOutput e then [] else outputData (.ok e) ++ writtenBeforeEnd later

def OutputEnded (events : List (Option ForgeEvent)) : Prop := ∃ e ∈ events, endsOutput e = true

/-- These events tell whether there is an advertisement: its end is there, or a length that
announces no packet, or the output has ended. -/
def Decided (events : List (Option ForgeEvent)) : Prop :=
  OutputEnded events ∨ Packet.advertisementEnd (writtenBeforeEnd events) ≠ .ok none

/-- The `n`th event is the first one that tells whether there is an advertisement. -/
structure DecidedBy (events : List (Option ForgeEvent)) (n : Nat) : Prop where
  le : n ≤ events.length
  decided : Decided (events.take n)
  least : ∀ m < n, ¬ Decided (events.take m)

/-- What the advertisement is if the forge writes `b` before its output ends: its length and its
octets, or why there is none. -/
def advertised (b : Bytes) : Except Failure (Nat × Bytes) :=
  match Packet.advertisementEnd b with
  | .error e => .error (.ofFraming e)
  | .ok none => .error .noAdvertisement
  | .ok (some m) => .ok (m, b.take m)

section
variable {events later : List (Option ForgeEvent)} {e : Option ForgeEvent}

theorem not_outputEnded_nil : ¬ OutputEnded [] := nofun

theorem outputEnded_cons :
    OutputEnded (e :: later) ↔ endsOutput e = true ∨ OutputEnded later := by
  constructor
  · rintro ⟨x, member, ends⟩
    rcases List.mem_cons.1 member with rfl | behind
    · exact .inl ends
    · exact .inr ⟨x, behind, ends⟩
  · rintro (ends | ⟨x, behind, ends⟩)
    · exact ⟨e, List.mem_cons_self, ends⟩
    · exact ⟨x, List.mem_cons_of_mem e behind, ends⟩

theorem outputEnded_append :
    OutputEnded (events ++ later) ↔ OutputEnded events ∨ OutputEnded later := by
  induction events with
  | nil => exact ⟨.inr, fun h => h.resolve_left not_outputEnded_nil⟩
  | cons e events ih => rw [List.cons_append, outputEnded_cons, outputEnded_cons, ih, or_assoc]

theorem writtenBeforeEnd_of_ended (ended : OutputEnded events) :
    writtenBeforeEnd (events ++ later) = writtenBeforeEnd events := by
  induction events with
  | nil => exact absurd ended not_outputEnded_nil
  | cons e events ih =>
      rw [List.cons_append, writtenBeforeEnd, writtenBeforeEnd]
      split
      next => rfl
      next goesOn => rw [ih ((outputEnded_cons.1 ended).resolve_left goesOn)]

theorem writtenBeforeEnd_of_open (goesOn : ¬ OutputEnded events) :
    writtenBeforeEnd (events ++ later) = writtenBeforeEnd events ++ writtenBeforeEnd later := by
  induction events with
  | nil => rfl
  | cons e events ih =>
      rw [outputEnded_cons, not_or] at goesOn
      rw [List.cons_append, writtenBeforeEnd, writtenBeforeEnd, if_neg goesOn.1, if_neg goesOn.1,
        ih goesOn.2, List.append_assoc]

theorem writtenBeforeEnd_singleton (e : Option ForgeEvent) :
    writtenBeforeEnd [e] = outputData (.ok e) := by
  rcases e with _ | (chunk | chunk | status | _)
  · rfl
  · exact List.append_nil chunk
  · rfl
  · rfl
  · rfl

theorem writtenBeforeEnd_snoc (goesOn : ¬ OutputEnded events) :
    writtenBeforeEnd (events ++ [e]) = writtenBeforeEnd events ++ outputData (.ok e) := by
  rw [writtenBeforeEnd_of_open goesOn, writtenBeforeEnd_singleton]

theorem outputData_of_ends (ends : endsOutput e = true) : outputData (.ok e) = [] := by
  rcases e with _ | (chunk | chunk | status | _)
  · rfl
  · cases ends
  · rfl
  · rfl
  · rfl

theorem not_decided_iff :
    ¬ Decided events ↔
      ¬ OutputEnded events ∧ Packet.advertisementEnd (writtenBeforeEnd events) = .ok none := by
  rw [Decided, not_or, Ne, Classical.not_not]

theorem Decided.append (early : Decided events) : Decided (events ++ later) := by
  by_cases ended : OutputEnded events
  · exact .inl (outputEnded_append.2 (.inl ended))
  · refine .inr ?_
    have found := early.resolve_left ended
    rw [writtenBeforeEnd_of_open ended, Packet.advertisementEnd_append _ _ found]
    exact found

theorem Decided.advertised_eq (early : Decided events) :
    advertised (writtenBeforeEnd (events ++ later)) = advertised (writtenBeforeEnd events) := by
  by_cases ended : OutputEnded events
  · rw [writtenBeforeEnd_of_ended ended]
  · have found := early.resolve_left ended
    rw [writtenBeforeEnd_of_open ended, advertised, advertised,
      Packet.advertisementEnd_append _ _ found]
    split
    next => rfl
    next undecided => exact absurd undecided found
    next m there =>
      rw [List.take_append_of_le_length (Packet.le_length_of_advertisementEnd there)]

end

section
variable {events : List (Option ForgeEvent)} {n k : Nat}

theorem Decided.mono (early : Decided (events.take n)) (le : n ≤ k) : Decided (events.take k) := by
  have front : events.take n <+: events.take k := List.take_prefix_take_left le
  obtain ⟨later, eq⟩ := front
  rw [← eq]
  exact early.append

theorem DecidedBy.unique (decides : DecidedBy events n) (decides' : DecidedBy events k) :
    k = n := by
  rcases Nat.lt_trichotomy k n with less | same | more
  · exact absurd decides'.decided (decides.least k less)
  · exact same
  · exact absurd decides.decided (decides'.least n more)

theorem DecidedBy.append (decides : DecidedBy events n) (later : List (Option ForgeEvent)) :
    DecidedBy (events ++ later) n where
  le := by
    have := decides.le
    rw [List.length_append]
    omega
  decided := by
    rw [List.take_append_of_le_length decides.le]
    exact decides.decided
  least m less := by
    have := decides.le
    rw [List.take_append_of_le_length (by omega)]
    exact decides.least m less

theorem DecidedBy.lt_of (decides : DecidedBy events n) (undecided : ¬ Decided (events.take k)) :
    k < n := by
  rcases Nat.lt_or_ge k n with less | behind
  · exact less
  · exact absurd (decides.decided.mono behind) undecided

theorem DecidedBy.advertised_eq (decides : DecidedBy events n) :
    advertised (writtenBeforeEnd events) = advertised (writtenBeforeEnd (events.take n)) := by
  have whole : advertised (writtenBeforeEnd (events.take n ++ events.drop n)) = _ :=
    decides.decided.advertised_eq
  rwa [List.take_append_drop] at whole

end

/-! ### Steps -/

/-- The steps in which the advertisement is read, from one of the stages of that, for some
answers.  They end inside, or with the stage that follows. -/
inductive PrefetchRun (job : Job) (deadline : Time) : Prefetch → List Step → Flow → Prop where
  | here (s : Prefetch) : PrefetchRun job deadline s [] (.prefetching deadline s)
  | last {s : Prefetch} {now : Time} {answer : ((Flow.prefetching deadline s).request job).Answer}
      {f : Flow} (leads : ((Flow.prefetching deadline s).resume job now answer).1 = .stage f)
      (behind : ∀ s', f ≠ .prefetching deadline s') :
      PrefetchRun job deadline s [(Flow.prefetching deadline s).stepAt job now answer] f
  | step {s s' : Prefetch} {now : Time}
      {answer : ((Flow.prefetching deadline s).request job).Answer} {steps : List Step} {f : Flow}
      (leads : ((Flow.prefetching deadline s).resume job now answer).1 =
        .stage (.prefetching deadline s'))
      (rest : PrefetchRun job deadline s' steps f) :
      PrefetchRun job deadline s ((Flow.prefetching deadline s).stepAt job now answer :: steps) f

/-- One step in which the advertisement is read and nothing fails. -/
inductive PrefetchMove (deadline : Time) : Prefetch → Step → Flow → Prop where
  | more {buffer chunk now c}
      (h : Packet.advertisementEnd (buffer ++ chunk) = .ok none) :
      PrefetchMove deadline (.reading buffer)
        ⟨.readForgeBy deadline, .got (.ok (some (.data chunk))), now, c⟩
        (.prefetching deadline (.reading (buffer ++ chunk)))
  | found {buffer chunk m now c} (h : Packet.advertisementEnd (buffer ++ chunk) = .ok (some m)) :
      PrefetchMove deadline (.reading buffer)
        ⟨.readForgeBy deadline, .got (.ok (some (.data chunk))), now, c⟩
        (.advertising ⟨buffer ++ chunk, m⟩)
  | malformed {buffer chunk e now c} (h : Packet.advertisementEnd (buffer ++ chunk) = .error e) :
      PrefetchMove deadline (.reading buffer)
        ⟨.readForgeBy deadline, .got (.ok (some (.data chunk))), now, c⟩
        (.closing (.error (.ofFraming e)))
  | passing {buffer chunk now c} :
      PrefetchMove deadline (.reading buffer)
        ⟨.readForgeBy deadline, .got (.ok (some (.stderr chunk))), now, c⟩
        (.prefetching deadline (.passing buffer chunk))
  | passed {buffer chunk now c} :
      PrefetchMove deadline (.passing buffer chunk)
        ⟨.writeErrBy chunk deadline, .got (.ok ()), now, c⟩
        (.prefetching deadline (.reading buffer))
  | ended {buffer e now c} (h : endsOutput e = true) :
      PrefetchMove deadline (.reading buffer) ⟨.readForgeBy deadline, .got (.ok e), now, c⟩
        (.closing (.error .noAdvertisement))

section
variable {job : Job} {deadline now : Time} {s : Prefetch} {f : Flow}

theorem PrefetchMove.of_leads {answer : ((Flow.prefetching deadline s).request job).Answer}
    (leads : ((Flow.prefetching deadline s).resume job now answer).1 = .stage f)
    (unfailing : ((Flow.prefetching deadline s).stepAt job now answer).fails = false) :
    PrefetchMove deadline s ((Flow.prefetching deadline s).stepAt job now answer) f := by
  cases s with
  | reading buffer =>
      rcases answer with (e | event) | _
      · cases unfailing
      · rcases event with _ | (chunk | chunk | status | _)
        · cases leads
          exact .ended rfl
        · rw [Flow.resume_output] at leads
          cases answered : Packet.advertisementEnd (buffer ++ chunk) with
          | error e =>
              rw [answered] at leads
              cases leads
              exact .malformed answered
          | ok end? =>
              rw [answered] at leads
              cases end? with
              | none =>
                  cases leads
                  exact .more answered
              | some m =>
                  cases leads
                  exact .found answered
        · cases leads
          exact .passing
        · cases leads
          exact .ended rfl
        · cases leads
          exact .ended rfl
      · cases unfailing
  | passing buffer chunk =>
      rcases answer with (e | _) | _
      · cases unfailing
      · cases leads
        exact .passed
      · cases unfailing

/-- What one move keeps, a run without a failure keeps. -/
theorem PrefetchRun.invariant {I : List Step → Flow → Prop}
    (keep : ∀ h s st f, PrefetchMove deadline s st f → I h (.prefetching deadline s) →
      I (h ++ [st]) f)
    {steps : List Step} (run : PrefetchRun job deadline s steps f)
    (unfailing : ∀ st ∈ steps, st.fails = false) {h : List Step}
    (start : I h (.prefetching deadline s)) : I (h ++ steps) f := by
  induction run generalizing h with
  | here s => rwa [List.append_nil]
  | last leads behind =>
      exact keep h _ _ _ (.of_leads leads (unfailing _ List.mem_cons_self)) start
  | step leads rest ih =>
      obtain ⟨first, others⟩ := List.forall_mem_cons.1 unfailing
      have next := ih others (keep h _ _ _ (.of_leads leads first) start)
      rwa [List.append_assoc, List.singleton_append] at next

theorem PrefetchRun.append {s' : Prefetch} {steps steps' : List Step}
    (run : PrefetchRun job deadline s steps (.prefetching deadline s'))
    (rest : PrefetchRun job deadline s' steps' f) :
    PrefetchRun job deadline s (steps ++ steps') f := by
  generalize reached : Flow.prefetching deadline s' = g at run
  induction run with
  | here s =>
      cases reached
      exact rest
  | last leads behind => exact absurd reached.symm (behind s')
  | step leads more ih => exact .step leads (ih reached)

end

theorem PrefetchRun.run {job : Job} {deadline : Time} {s : Prefetch} {steps : List Step} {f : Flow}
    (run : PrefetchRun job deadline s steps f) :
    Run (.active (.flowing job (.prefetching deadline s))) steps (.active (.flowing job f)) := by
  have next : ∀ {g : Flow} {f : Flow} {now : Time} {answer : (g.request job).Answer},
      (g.resume job now answer).1 = .stage f →
      (Active.resume now (.flowing job g) answer).1 = .active (.flowing job f) := by
    intro g f now answer leads
    simp only [Active.resume, leads, Active.onNext]
  induction run with
  | here s => exact .here _
  | last leads behind => exact .cons (next leads) (.here _)
  | step leads rest ih => exact .cons (next leads) ih

/-! ### What is known on the way -/

/-- What reading the advertisement came to. -/
def Flow.prefetched? : Flow → Option (Except Failure (Nat × Bytes))
  | .advertising p => some (.ok (p.length, p.advertisement))
  | .closing (.error e) => some (.error e)
  | _ => none

theorem Flow.ne_prefetching {f : Flow} {answer : Except Failure (Nat × Bytes)}
    (known : f.prefetched? = some answer) (deadline : Time) (s : Prefetch) :
    f ≠ .prefetching deadline s := by
  rintro rfl
  cases known

/-- These events were read, and this is what was written in them. -/
structure HasRead (h : List Step) (events : List (Option ForgeEvent)) : Prop where
  reads : forgeReads h = events.map .ok
  received : received h = writtenBeforeEnd events

/-- What is known when a stage is reached. -/
inductive Reached (deadline : Time) (h : List Step) (events : List (Option ForgeEvent)) :
    Flow → Prop where
  | reading {buffer} (read : HasRead h events) (undecided : ¬ Decided events)
      (all : buffer = writtenBeforeEnd events) (short : h.length ≤ 2 * events.length) :
      Reached deadline h events (.prefetching deadline (.reading buffer))
  | passing {buffer chunk} (read : HasRead h events) (undecided : ¬ Decided events)
      (all : buffer = writtenBeforeEnd events) (short : h.length < 2 * events.length) :
      Reached deadline h events (.prefetching deadline (.passing buffer chunk))
  | settled {f} (read : HasRead h events) (decides : DecidedBy events events.length)
      (short : h.length < 2 * events.length)
      (answer : f.prefetched? = some (advertised (writtenBeforeEnd events)))
      (all : ∀ p, f = .advertising p → p.buffer = writtenBeforeEnd events) :
      Reached deadline h events f

section
variable {deadline : Time} {h : List Step} {st : Step} {events : List (Option ForgeEvent)}
  {e : Option ForgeEvent}

theorem HasRead.event (known : HasRead h events) (goesOn : ¬ OutputEnded events)
    (read : st.forgeRead? = some (.ok e)) : HasRead (h ++ [st]) (events ++ [e]) where
  reads := by
    rw [forgeReads_snoc_some read, known.reads, List.map_append]
    rfl
  received := by
    have data : st.data = outputData (.ok e) := by
      rw [Step.data_eq, read]
      rfl
    rw [received_append, received_cons, received_nil, List.append_nil, data, known.received,
      writtenBeforeEnd_snoc goesOn]

theorem HasRead.other (known : HasRead h events) (read : st.forgeRead? = none) :
    HasRead (h ++ [st]) events where
  reads := by rw [forgeReads_snoc_none read, known.reads]
  received := by
    have data : st.data = [] := by
      rw [Step.data_eq, read]
      rfl
    rw [received_append, received_cons, received_nil, data, List.append_nil, List.append_nil,
      known.received]

theorem not_decided_nil : ¬ Decided [] := by
  rintro (ended | found)
  · exact not_outputEnded_nil ended
  · exact found (Packet.advertisementEndFrom_of_incomplete rfl)

theorem DecidedBy.snoc (undecided : ¬ Decided events) (decided : Decided (events ++ [e])) :
    DecidedBy (events ++ [e]) (events ++ [e]).length where
  le := Nat.le_refl _
  decided := by rwa [List.take_length]
  least m less early := by
    rw [List.length_append, List.length_singleton] at less
    rw [List.take_append_of_le_length (by omega)] at early
    have all : Decided (events.take events.length) := early.mono (by omega)
    rw [List.take_length] at all
    exact undecided all

theorem decided_snoc_iff (undecided : ¬ Decided events) :
    Decided (events ++ [e]) ↔
      endsOutput e = true ∨
        Packet.advertisementEnd (writtenBeforeEnd events ++ outputData (.ok e)) ≠ .ok none := by
  have goesOn : ¬ OutputEnded events := fun ended => undecided (.inl ended)
  rw [Decided, outputEnded_append, or_iff_right goesOn, outputEnded_cons,
    or_iff_left not_outputEnded_nil, writtenBeforeEnd_snoc goesOn]

theorem not_decided_snoc_iff (undecided : ¬ Decided events) :
    ¬ Decided (events ++ [e]) ↔
      endsOutput e = false ∧
        Packet.advertisementEnd (writtenBeforeEnd events ++ outputData (.ok e)) = .ok none := by
  rw [decided_snoc_iff undecided, not_or, Bool.not_eq_true, Ne, Classical.not_not]

theorem Reached.settle {f : Flow} (known : HasRead h events) (undecided : ¬ Decided events)
    (short : h.length ≤ 2 * events.length) (read : st.forgeRead? = some (.ok e))
    (decided : Decided (events ++ [e]))
    (answer : f.prefetched? = some (advertised (writtenBeforeEnd events ++ outputData (.ok e))))
    (all : ∀ p, f = .advertising p → p.buffer = writtenBeforeEnd events ++ outputData (.ok e)) :
    Reached deadline (h ++ [st]) (events ++ [e]) f := by
  have goesOn : ¬ OutputEnded events := fun ended => undecided (.inl ended)
  refine .settled (known.event goesOn read) (.snoc undecided decided) ?_ ?_ ?_
  · rw [List.length_append, List.length_append, List.length_singleton, List.length_singleton]
    omega
  · rw [writtenBeforeEnd_snoc goesOn, answer]
  · rw [writtenBeforeEnd_snoc goesOn]
    exact all

/-- What is known before a step, and what the step shows. -/
theorem Reached.move {s : Prefetch} {f : Flow} (move : PrefetchMove deadline s st f)
    (before : Reached deadline h events (.prefetching deadline s)) :
    ∃ events', Reached deadline (h ++ [st]) events' f := by
  cases before with
  | settled known decides short answer all => cases answer
  | passing known undecided all short =>
      cases move with
      | passed =>
          refine ⟨events, .reading (known.other rfl) undecided all ?_⟩
          rw [List.length_append, List.length_singleton]
          omega
  | reading known undecided all short =>
      -- All that was written is in the buffer, so that the step looks at all that is written now.
      subst all
      obtain ⟨goesOn, undeclared⟩ := not_decided_iff.1 undecided
      cases move with
      | @more _ chunk _ _ still =>
          refine ⟨events ++ [some (.data chunk)], .reading (known.event goesOn rfl) ?_ ?_ ?_⟩
          · exact (not_decided_snoc_iff undecided).2 ⟨rfl, still⟩
          · rw [writtenBeforeEnd_snoc goesOn]
            rfl
          · rw [List.length_append, List.length_append, List.length_singleton,
              List.length_singleton]
            omega
      | @found _ chunk m _ _ there =>
          refine ⟨events ++ [some (.data chunk)], .settle known undecided short rfl ?_ ?_ ?_⟩
          · rw [decided_snoc_iff undecided]
            exact .inr (fun still => by cases there.symm.trans still)
          · rw [advertised]
            simp only [outputData, there]
            rfl
          · rintro p ⟨⟩
            rfl
      | @malformed _ chunk e _ _ fault =>
          refine ⟨events ++ [some (.data chunk)], .settle known undecided short rfl ?_ ?_ nofun⟩
          · rw [decided_snoc_iff undecided]
            exact .inr (fun still => by cases fault.symm.trans still)
          · rw [advertised]
            simp only [outputData, fault]
            rfl
      | @passing _ chunk _ _ =>
          have silent : outputData (.ok (some (.stderr chunk))) = [] := rfl
          refine ⟨events ++ [some (.stderr chunk)], .passing (known.event goesOn rfl) ?_ ?_ ?_⟩
          · rw [not_decided_snoc_iff undecided, silent, List.append_nil]
            exact ⟨rfl, undeclared⟩
          · rw [writtenBeforeEnd_snoc goesOn, silent, List.append_nil]
          · rw [List.length_append, List.length_append, List.length_singleton,
              List.length_singleton]
            omega
      | @ended _ e _ _ ends =>
          refine ⟨events ++ [e], .settle known undecided short rfl ?_ ?_ nofun⟩
          · exact (decided_snoc_iff undecided).2 (.inl ends)
          · rw [outputData_of_ends ends, List.append_nil, advertised, undeclared]
            rfl

end

/-! ### Reading a sequence of events -/

/-- What becomes of the advertisement if the forge's channel yields these events, the `n`th of
which is the first one that tells whether there is an advertisement. -/
structure Prefetches (job : Job) (deadline : Time) (events : List (Option ForgeEvent)) (n : Nat) :
    Prop where
  /-- The events up to that one lead the command to the answer that the output of the forge
  gives. -/
  answers : ∃ steps f, PrefetchRun job deadline (.reading []) steps f ∧
    Run (.active (.flowing job (.prefetching deadline (.reading [])))) steps
      (.active (.flowing job f)) ∧
    (∀ st ∈ steps, st.fails = false) ∧ forgeReads steps = (events.take n).map .ok ∧
    f.prefetched? = some (advertised (writtenBeforeEnd events))
  /-- Whenever reading is finished and nothing has failed, just these events were read, the answer
  is the one that the output of the forge gives, and what was read is kept. -/
  finished : ∀ steps f, PrefetchRun job deadline (.reading []) steps f →
    (∀ st ∈ steps, st.fails = false) → forgeReads steps <+: events.map .ok →
    (∀ s, f ≠ .prefetching deadline s) →
    forgeReads steps = (events.take n).map .ok ∧
      f.prefetched? = some (advertised (writtenBeforeEnd events)) ∧
      ∀ p, f = .advertising p → p.buffer = received steps
  /-- Until it is finished fewer events were read, and only so many steps are taken. -/
  before : ∀ steps s, PrefetchRun job deadline (.reading []) steps (.prefetching deadline s) →
    (∀ st ∈ steps, st.fails = false) → forgeReads steps <+: events.map .ok →
    (forgeReads steps).length < n ∧ steps.length < 2 * n

section
variable {job : Job} {deadline : Time} {events : List (Option ForgeEvent)} {n : Nat}
  {steps : List Step}

/-- What a run without a failure knows. -/
theorem PrefetchRun.reached {f : Flow} (run : PrefetchRun job deadline (.reading []) steps f)
    (unfailing : ∀ st ∈ steps, st.fails = false) :
    ∃ seen, Reached deadline steps seen f := by
  refine run.invariant (I := fun h f => ∃ seen, Reached deadline h seen f) ?_ unfailing (h := []) ?_
  · rintro h s st f move ⟨seen, before⟩
    exact before.move move
  · exact ⟨[], .reading ⟨rfl, rfl⟩ not_decided_nil rfl (Nat.le_refl 0)⟩

theorem HasRead.isPrefix {h : List Step} {seen : List (Option ForgeEvent)} (known : HasRead h seen)
    (front : forgeReads h <+: events.map .ok) : seen <+: events := by
  rw [known.reads] at front
  exact (List.prefix_map_iff_of_injective fun _ _ => Except.ok.inj).1 front

theorem Reached.read {h : List Step} {seen : List (Option ForgeEvent)} {f : Flow}
    (known : Reached deadline h seen f) : HasRead h seen := by
  cases known with
  | reading read | passing read | settled read => exact read

theorem Reached.finished_iff {h : List Step} {seen : List (Option ForgeEvent)} {f : Flow}
    (known : Reached deadline h seen f) :
    (∀ s, f ≠ .prefetching deadline s) ↔ Decided seen := by
  cases known with
  | reading read undecided =>
      exact ⟨fun finished => absurd rfl (finished _), fun decided => absurd decided undecided⟩
  | passing read undecided =>
      exact ⟨fun finished => absurd rfl (finished _), fun decided => absurd decided undecided⟩
  | settled read decides short answer =>
      have decided := decides.decided
      rw [List.take_length] at decided
      exact ⟨fun _ => decided, fun _ => Flow.ne_prefetching answer deadline⟩

theorem HasRead.eq_of_reads {h : List Step} {seen : List (Option ForgeEvent)}
    (known : HasRead h seen) (reads : forgeReads h = events.map .ok) : seen = events := by
  have same : seen.map .ok = events.map (Except.ok (ε := Failure)) := known.reads.symm.trans reads
  exact (List.map_inj_right fun _ _ => Except.ok.inj).1 same

/-- Each event can be read, and what is read for the client can be passed on. -/
theorem PrefetchRun.exists_event (job : Job) (deadline : Time) (buffer : Bytes)
    (e : Option ForgeEvent) :
    ∃ steps f, PrefetchRun job deadline (.reading buffer) steps f ∧
      (∀ st ∈ steps, st.fails = false) ∧ forgeReads steps = [.ok e] ∧
      ((∃ b, f = .prefetching deadline (.reading b)) ∨ ∀ s, f ≠ .prefetching deadline s) := by
  -- The read that takes the event, where what follows it is known.
  have read : ∀ f, ((Flow.prefetching deadline (.reading buffer)).resume job 0 (.got (.ok e))).1 =
      .stage f → (∀ s, f ≠ .prefetching deadline s) →
      ∃ steps f, PrefetchRun job deadline (.reading buffer) steps f ∧
        (∀ st ∈ steps, st.fails = false) ∧ forgeReads steps = [.ok e] ∧
        ((∃ b, f = .prefetching deadline (.reading b)) ∨ ∀ s, f ≠ .prefetching deadline s) := by
    intro f leads finished
    exact ⟨_, f, .last leads finished, List.forall_mem_singleton.2 rfl, rfl, .inr finished⟩
  rcases e with _ | (chunk | chunk | status | _)
  · exact read _ rfl (Flow.ne_prefetching rfl deadline)
  · cases answered : Packet.advertisementEnd (buffer ++ chunk) with
    | error e =>
        refine read (.closing (.error (.ofFraming e))) ?_ (Flow.ne_prefetching rfl deadline)
        rw [Flow.resume_output, answered]
    | ok end? =>
        cases end? with
        | none =>
            have leads : ((Flow.prefetching deadline (.reading buffer)).resume job 0
                (.got (.ok (some (.data chunk))))).1 =
                .stage (.prefetching deadline (.reading (buffer ++ chunk))) := by
              rw [Flow.resume_output, answered]
            exact ⟨_, _, .step leads (.here _), List.forall_mem_singleton.2 rfl, rfl,
              .inl ⟨_, rfl⟩⟩
        | some m =>
            refine read (.advertising ⟨buffer ++ chunk, m⟩) ?_ (Flow.ne_prefetching rfl deadline)
            rw [Flow.resume_output, answered]
  · have leads : ((Flow.prefetching deadline (.reading buffer)).resume job 0
        (.got (.ok (some (.stderr chunk))))).1 =
        .stage (.prefetching deadline (.passing buffer chunk)) := rfl
    have back : ((Flow.prefetching deadline (.passing buffer chunk)).resume job 0
        (.got (.ok ()))).1 = .stage (.prefetching deadline (.reading buffer)) := rfl
    refine ⟨_, _, .step leads (.step back (.here _)), ?_, rfl, .inl ⟨buffer, rfl⟩⟩
    exact List.forall_mem_cons.2 ⟨rfl, List.forall_mem_singleton.2 rfl⟩
  · exact read _ rfl (Flow.ne_prefetching rfl deadline)
  · exact read _ rfl (Flow.ne_prefetching rfl deadline)

/-- As many events can be read as it takes. -/
theorem PrefetchRun.exists_reading (job : Job) (deadline : Time) (decides : DecidedBy events n)
    {k : Nat} (le : k ≤ n) :
    ∃ steps f, PrefetchRun job deadline (.reading []) steps f ∧
      (∀ st ∈ steps, st.fails = false) ∧ forgeReads steps = (events.take k).map .ok ∧
      ((∃ b, f = .prefetching deadline (.reading b)) ∨ ∀ s, f ≠ .prefetching deadline s) := by
  induction k with
  | zero => exact ⟨[], _, .here _, nofun, rfl, .inl ⟨[], rfl⟩⟩
  | succ k ih =>
      obtain ⟨steps, f, run, unfailing, reads, stage⟩ := ih (by omega)
      obtain ⟨seen, known⟩ := run.reached unfailing
      rcases stage with ⟨b, rfl⟩ | finished
      · have inside : k < events.length := by
          have := decides.le
          omega
        obtain ⟨more, f, rest, unfailing', read, stage⟩ :=
          exists_event job deadline b events[k]
        refine ⟨steps ++ more, f, run.append rest, ?_, ?_, stage⟩
        · exact List.forall_mem_append.2 ⟨unfailing, unfailing'⟩
        · rw [forgeReads, List.filterMap_append, ← forgeReads, ← forgeReads, reads, read,
            List.take_add_one, List.getElem?_eq_getElem inside, List.map_append]
          rfl
      · have early := known.finished_iff.1 finished
        rw [known.read.eq_of_reads reads] at early
        exact absurd early (decides.least k (by omega))

/-- **The advertisement does not depend on how the forge's output is cut.**  Looking for its end
after each chunk gives the answer that the whole output gives, and an answer that was given once
is the answer for all that may follow.  So reading the advertisement depends on nothing but what
the forge writes before its output ends. -/
theorem advertisement_uncut (job : Job) (deadline : Time) (events : List (Option ForgeEvent))
    (n : Nat) (decides : DecidedBy events n) :
    (∀ chunks, Packet.scan [] chunks = Packet.advertisementEnd chunks.flatten) ∧
    (∀ b later, Packet.advertisementEnd b ≠ .ok none →
      Packet.advertisementEnd (b ++ later) = Packet.advertisementEnd b) ∧
    Prefetches job deadline events n := by
  have finished : ∀ steps f, PrefetchRun job deadline (.reading []) steps f →
      (∀ st ∈ steps, st.fails = false) → forgeReads steps <+: events.map .ok →
      (∀ s, f ≠ .prefetching deadline s) →
      forgeReads steps = (events.take n).map .ok ∧
        f.prefetched? = some (advertised (writtenBeforeEnd events)) ∧
        ∀ p, f = .advertising p → p.buffer = received steps := by
    intro steps f run unfailing front behind
    obtain ⟨seen, known⟩ := run.reached unfailing
    obtain ⟨later, rfl⟩ := known.read.isPrefix front
    cases known with
    | reading | passing => exact absurd rfl (behind _)
    | settled read settles short answer all =>
        obtain rfl := decides.unique (settles.append later)
        refine ⟨?_, ?_, ?_⟩
        · rw [List.take_left, read.reads]
        · have whole := decides.advertised_eq
          rw [List.take_left] at whole
          rw [whole, answer]
        · rw [read.received]
          exact all
  refine ⟨fun chunks => ?_, Packet.advertisementEnd_append, ?_, finished, ?_⟩
  · exact Packet.scan_eq (Packet.advertisementEndFrom_of_incomplete rfl) chunks
  · obtain ⟨steps, f, run, unfailing, reads, -⟩ :=
      PrefetchRun.exists_reading job deadline decides (Nat.le_refl n)
    have front : forgeReads steps <+: events.map .ok := by
      rw [reads, List.map_take]
      exact List.take_prefix _ _
    obtain ⟨seen, known⟩ := run.reached unfailing
    have decided : Decided seen := by
      rw [known.read.eq_of_reads reads]
      exact decides.decided
    have answer := finished steps f run unfailing front (known.finished_iff.2 decided)
    exact ⟨steps, f, run, run.run, unfailing, reads, answer.2.1⟩
  · intro steps s run unfailing front
    obtain ⟨seen, known⟩ := run.reached unfailing
    obtain ⟨later, rfl⟩ := known.read.isPrefix front
    have undecided : ¬ Decided seen := fun decided => known.finished_iff.2 decided s rfl
    have short : steps.length ≤ 2 * seen.length := by
      cases known with
      | reading read undecided all short => exact short
      | passing read undecided all short => exact Nat.le_of_lt short
      | settled read settles short answer => exact Nat.le_of_lt short
    have count : (forgeReads steps).length = seen.length := by
      rw [known.read.reads, List.length_map]
    have less : seen.length < n := decides.lt_of (by rwa [List.take_left])
    omega

end

/-- An advertisement of one flush packet, cut in two. -/
def sampleOutput : List (Option ForgeEvent) :=
  [some (.data [48, 48]), some (.stderr [33]), some (.data [48, 48, 7]), none]

theorem advertisementEnd_sampleOutput :
    Packet.advertisementEnd (writtenBeforeEnd sampleOutput) = .ok (some 4) := by
  have flush : Packet.front (writtenBeforeEnd sampleOutput) = .complete .flush 4 := rfl
  exact Packet.advertisementEndFrom_of_flush flush

theorem sampleOutput_decided : DecidedBy sampleOutput 3 where
  le := by decide
  decided := by
    refine .inr ?_
    show Packet.advertisementEnd (writtenBeforeEnd sampleOutput) ≠ .ok none
    rw [advertisementEnd_sampleOutput]
    nofun
  least m less := by
    have still : Packet.advertisementEnd [48, 48] = .ok none :=
      Packet.advertisementEndFrom_of_incomplete rfl
    match m, less with
    | 0, _ => exact not_decided_nil
    | 1, _ => exact not_decided_iff.2 ⟨by simp [sampleOutput, OutputEnded, endsOutput], still⟩
    | 2, _ => exact not_decided_iff.2 ⟨by simp [sampleOutput, OutputEnded, endsOutput], still⟩

/-- The third event ends the reading, and the octet behind the advertisement is no part of it. -/
theorem advertisement_uncut_sample :
    DecidedBy sampleOutput 3 ∧ Prefetches sampleJob 30000 sampleOutput 3 ∧
    advertised (writtenBeforeEnd sampleOutput) = .ok (4, [48, 48, 48, 48]) := by
  refine ⟨sampleOutput_decided, ?_, ?_⟩
  · exact (advertisement_uncut sampleJob 30000 sampleOutput 3 sampleOutput_decided).2.2
  · rw [advertised, advertisementEnd_sampleOutput]
    rfl

end ForgeGateway.Relay
