import ForgeGateway.Proofs.Agent.Answers
import ForgeGateway.Proofs.Agent.Understood
import ForgeGateway.Proofs.Arrivals

/-! # One exchange with an agent

The result of an exchange is settled once its request could not be written, or has been written and
what has come tells the result: by its octets, or by the end of the channel behind them (`Settled`).
How the octets are cut into chunks is not told by anything.  An exchange ends when its result is
settled, with that result, and otherwise at its deadline (`exchange_determined`).

An answer that is not of its kind is taken for malformed, with one exception: octets behind the two
strings of a signature are not looked at, and such a signature is taken (`surplus_taken`). -/

namespace ForgeGateway.Agent.Exchange

/-- The octets of the chunks ahead of the end of a channel. -/
def octets : List (Option Bytes) → Bytes
  | [] | none :: _ => []
  | some chunk :: rest => chunk ++ octets rest

/-- What the octets that have come tell about a request, or else the end of the channel. -/
inductive Tells (r : Request) (b : Bytes) (ended : Prop) : Except AgentError Answer → Prop
  | octets {res : Except AgentError Answer} (told : Told r b res) : Tells r b ended res
  | ended (untold : ∀ res, ¬ Told r b res) (closed : ended) :
      Tells r b ended (.error .channelClosed)

/-- The result of an exchange stands by a point in time. -/
inductive Settled (r : Request) (sent : Writing) (queue : Arrivals (Option Bytes)) (u : Time) :
    Except AgentError Answer → Prop
  | unsent {t : Time} {e : AgentError} (failed : sent = some (t, .error e)) (past : t ≤ u) :
      Settled r sent queue u (.error e)
  | told {t : Time} {res : Except AgentError Answer} (written : sent = some (t, .ok ()))
      (past : t ≤ u) (tells : Tells r (octets (queue.arrived u)) (none ∈ queue.arrived u) res) :
      Settled r sent queue u res

section
variable {timeout start t u : Time} {r : Request} {sent : Writing}
  {queue : Arrivals (Option Bytes)} {b : Bytes} {res res' : Except AgentError Answer}

/-! ### Chunk by chunk -/

theorem Tells.unique {ended : Prop} (h : Tells r b ended res) (h' : Tells r b ended res') :
    res = res' := by
  cases h with
  | octets told =>
      cases h' with
      | octets told' => exact told.unique told'
      | ended untold => exact absurd told (untold _)
  | ended untold =>
      cases h' with
      | octets told' => exact absurd told' (untold _)
      | ended => rfl

/-- However the octets are cut, what they tell is found. -/
theorem through_iff_tells (untold : ∀ res, ¬ Told r b res) (chunks : List (Option Bytes)) :
    (∃ left, (reader timeout r).through b chunks = .done ⟨res, left⟩) ↔
      Tells r (b ++ octets chunks) (none ∈ chunks) res := by
  -- The buffer grows along the chunks, and tells nothing until one of them makes it tell.
  induction chunks generalizing b with
  | nil =>
      rw [octets, List.append_nil]
      constructor
      · rintro ⟨left, done⟩
        cases done
      · intro tells
        cases tells with
        | octets told => exact absurd told (untold res)
        | ended _ closed => cases closed
  | cons chunk chunks ih =>
      cases chunk with
      | none =>
          rw [octets, List.append_nil]
          have closed : Tells r b (none ∈ none :: chunks) (.error .channelClosed) :=
            .ended untold List.mem_cons_self
          constructor
          · rintro ⟨left, done⟩
            cases done
            exact closed
          · intro tells
            rw [tells.unique closed]
            exact ⟨b, rfl⟩
      | some chunk =>
          have same : none ∈ some chunk :: chunks ↔ none ∈ chunks := by
            rw [List.mem_cons, or_iff_right nofun]
          have step : (reader timeout r).step b (some chunk) = read r (b ++ chunk) := rfl
          rw [octets, ← List.append_assoc]
          rcases read_cases r (b ++ chunk) with ⟨-, more⟩ | ⟨o, done, told⟩
          · rw [Reader.through_cons_of_more (step.trans more), ih (untold_iff.2 more)]
            simp only [same]
          · rw [Reader.through_cons_of_done (step.trans done)]
            have found : Tells r (b ++ chunk ++ octets chunks) (none ∈ some chunk :: chunks)
                o.result := .octets (told.append _)
            constructor
            · rintro ⟨left, same⟩
              cases same
              exact found
            · intro tells
              rw [tells.unique found]
              exact ⟨o.buffer, rfl⟩

theorem untold_nil (r : Request) (res : Except AgentError Answer) : ¬ Told r [] res :=
  untold_iff.2 rfl res

theorem through_nil_iff_tells (timeout : Time) {chunks : List (Option Bytes)} :
    (∃ left, (reader timeout r).through [] chunks = .done ⟨res, left⟩) ↔
      Tells r (octets chunks) (none ∈ chunks) res := through_iff_tells (untold_nil r) chunks

/-! ### Settled results -/

/-- Once a request is written, a result stands when what has arrived is read as that. -/
theorem settled_iff_through (timeout : Time) (written : sent = some (t, .ok ())) (past : t ≤ u) :
    Settled r sent queue u res ↔
      ∃ left, (reader timeout r).through [] (queue.arrived u) = .done ⟨res, left⟩ := by
  rw [through_nil_iff_tells]
  constructor
  · rintro (⟨failed, -⟩ | ⟨-, -, tells⟩)
    · rw [written] at failed
      cases failed
    · exact tells
  · exact .told written past

theorem Settled.past {a : Except AgentError Unit} (h : Settled r (some (t, a)) queue u res) :
    t ≤ u := by
  cases h with
  | unsent failed past =>
      cases failed
      exact past
  | told written past tells =>
      cases written
      exact past

/-- A result that stands does so for good. -/
theorem Settled.mono (h : Settled r sent queue t res) (later : t ≤ u) :
    Settled r sent queue u res := by
  cases h with
  | unsent failed past => exact .unsent failed (Nat.le_trans past later)
  | told written past tells =>
      have past' := Nat.le_trans past later
      obtain ⟨left, done⟩ := (settled_iff_through 0 written past).1 (.told written past tells)
      exact (settled_iff_through 0 written past').2
        ⟨left, Reader.through_of_prefix (queue.arrived_prefix later) done⟩

theorem Settled.unique (h : Settled r sent queue u res) (h' : Settled r sent queue u res') :
    res = res' := by
  cases h with
  | unsent failed past =>
      cases h' with
      | unsent failed' past' =>
          rw [failed] at failed'
          cases failed'
          rfl
      | told written past' tells =>
          rw [failed] at written
          cases written
  | told written past tells =>
      cases h' with
      | unsent failed past' =>
          rw [written] at failed
          cases failed
      | told written' past' tells' => exact tells.unique tells'

theorem Settled.recut {queue' : Arrivals (Option Bytes)} (h : Settled r sent queue u res)
    (sameOctets : octets (queue'.arrived u) = octets (queue.arrived u))
    (sameEnd : none ∈ queue'.arrived u ↔ none ∈ queue.arrived u) :
    Settled r sent queue' u res := by
  cases h with
  | unsent failed past => exact .unsent failed past
  | told written past tells =>
      refine .told written past ?_
      rw [sameOctets]
      simp only [sameEnd]
      exact tells

/-! ### Runs -/

theorem max_le_deadline (there : t ≤ start + timeout) : max start t ≤ start + timeout :=
  Nat.max_le.2 ⟨Nat.le_add_right _ _, there⟩

theorem upTo_of_unsent {limit : Time} {e : AgentError} (there : max start t ≤ limit) :
    upTo timeout r limit start (some (t, .error e)) queue =
      ⟨max start t, .done ⟨.error e, []⟩, queue⟩ := by
  rw [upTo, if_pos there]
  rfl

theorem upTo_of_written {limit : Time} (there : max start t ≤ limit) :
    upTo timeout r limit start (some (t, .ok ())) queue =
      (reader timeout r).upTo limit (max start t) [] queue := by
  rw [upTo, if_pos there]
  rfl

theorem run_of_late (late : ∀ t a, sent = some (t, a) → start + timeout < t) :
    run timeout r start sent queue =
      ⟨start + timeout, .error (.timeout timeout.nanos), queue⟩ := by
  match sent with
  | none => rfl
  | some (t, a) =>
      have passed : start + timeout < max start t :=
        Nat.lt_of_lt_of_le (late t a rfl) (Nat.le_max_right _ _)
      rw [run, upTo, if_neg (Nat.not_le.2 passed)]
      rfl

/-- When an exchange ends: as soon as a result stands, or at the deadline without one. -/
inductive EndsInTime (timeout : Time) (r : Request) (start : Time) (sent : Writing)
    (queue : Arrivals (Option Bytes)) (e : Ended) : Prop
  | settled (started : start ≤ e.time) (inTime : e.time ≤ start + timeout)
      (stands : Settled r sent queue e.time e.result)
      (soonest : ∀ u, start ≤ u → u < e.time → ∀ res, ¬ Settled r sent queue u res) :
      EndsInTime timeout r start sent queue e
  | late (unsettled : ∀ res, ¬ Settled r sent queue (start + timeout) res)
      (time : e.time = start + timeout) (result : e.result = .error (.timeout timeout.nanos)) :
      EndsInTime timeout r start sent queue e

theorem endsInTime_of_late (late : ∀ t a, sent = some (t, a) → start + timeout < t) :
    EndsInTime timeout r start sent queue (run timeout r start sent queue) := by
  rw [run_of_late late]
  refine .late (fun res settled => ?_) rfl rfl
  match sent with
  | none =>
      cases settled with
      | unsent failed past => cases failed
      | told written past tells => cases written
  | some (t, a) => exact Nat.not_le.2 (late t a rfl) settled.past

theorem endsInTime_of_unsent {e : AgentError} (there : t ≤ start + timeout) :
    EndsInTime timeout r start (some (t, .error e)) queue
      (run timeout r start (some (t, .error e)) queue) := by
  have inTime := max_le_deadline there
  rw [run, upTo_of_unsent inTime]
  refine .settled (Nat.le_max_left _ _) inTime (.unsent rfl (Nat.le_max_right _ _)) ?_
  intro u started before res settled
  exact Nat.not_le.2 before (Nat.max_le.2 ⟨started, settled.past⟩)

theorem endsInTime_of_written (there : t ≤ start + timeout) :
    EndsInTime timeout r start (some (t, .ok ())) queue
      (run timeout r start (some (t, .ok ())) queue) := by
  have inTime := max_le_deadline there
  rw [run, upTo_of_written inTime]
  cases progress : (reader timeout r).through [] (queue.arrived (start + timeout)) with
  | more b =>
      rw [Reader.upTo_of_more inTime progress]
      refine .late (fun res settled => ?_) rfl rfl
      obtain ⟨left, done⟩ := (settled_iff_through timeout rfl there).1 settled
      rw [progress] at done
      cases done
  | done o =>
      have done : ((reader timeout r).upTo (start + timeout) (max start t) [] queue).progress =
          .done o := (Reader.upTo_progress inTime).trans progress
      obtain ⟨started, within, enough, soonest⟩ := Reader.upTo_soonest inTime done
      simp only [done]
      refine .settled (Nat.le_trans (Nat.le_max_left _ _) started) within ?_ ?_
      · have past := Nat.le_trans (Nat.le_max_right _ _) started
        exact (settled_iff_through timeout rfl past).2 ⟨_, enough⟩
      · intro u begun before res settled
        obtain ⟨left, early⟩ := (settled_iff_through timeout rfl settled.past).1 settled
        obtain ⟨b, more⟩ := soonest u (Nat.max_le.2 ⟨begun, settled.past⟩) before
        rw [more] at early
        cases early

theorem endsInTime (timeout : Time) (r : Request) (start : Time) (sent : Writing)
    (queue : Arrivals (Option Bytes)) :
    EndsInTime timeout r start sent queue (run timeout r start sent queue) := by
  match sent with
  | none => exact endsInTime_of_late nofun
  | some (t, a) =>
      by_cases there : t ≤ start + timeout
      · match a with
        | .error e => exact endsInTime_of_unsent there
        | .ok () => exact endsInTime_of_written there
      · refine endsInTime_of_late fun t' a' same => ?_
        cases same
        exact Nat.lt_of_not_le there

theorem result_of_settled (h : Settled r sent queue (start + timeout) res) :
    (run timeout r start sent queue).result = res := by
  cases endsInTime timeout r start sent queue with
  | settled started inTime stands soonest => exact (stands.mono inTime).unique h
  | late unsettled => exact absurd h (unsettled res)

theorem soonest_of_settled (h : Settled r sent queue (start + timeout) res) :
    let time := (run timeout r start sent queue).time
    start ≤ time ∧ time ≤ start + timeout ∧ Settled r sent queue time res ∧
      ∀ u, start ≤ u → u < time → ∀ res', ¬ Settled r sent queue u res' := by
  cases endsInTime timeout r start sent queue with
  | settled started inTime stands soonest =>
      rw [result_of_settled h] at stands
      exact ⟨started, inTime, stands, soonest⟩
  | late unsettled => exact absurd h (unsettled res)

theorem late_of_unsettled (h : ∀ res, ¬ Settled r sent queue (start + timeout) res) :
    (run timeout r start sent queue).time = start + timeout ∧
      (run timeout r start sent queue).result = .error (.timeout timeout.nanos) := by
  cases endsInTime timeout r start sent queue with
  | settled started inTime stands soonest => exact absurd (stands.mono inTime) (h _)
  | late unsettled time result => exact ⟨time, result⟩

end

/-! ### What is read -/

/-- How far an exchange has got with the chunks that it has taken away, where others are left. -/
inductive ReadAs (r : Request) (taken left : Arrivals (Option Bytes)) :
    Progress Bytes Outcome → Prop
  | told {o : Outcome} (told : Told r (octets (taken.map Prod.snd)) o.result) :
      ReadAs r taken left (.done o)
  | ended {o : Outcome} {t : Time} {behind : Arrivals (Option Bytes)}
      (untold : ∀ res, ¬ Told r (octets (taken.map Prod.snd)) res)
      (closed : left = (t, none) :: behind) (result : o.result = .error .channelClosed) :
      ReadAs r taken left (.done o)
  | more {b : Bytes} (untold : ∀ res, ¬ Told r (octets (taken.map Prod.snd)) res) :
      ReadAs r taken left (.more b)

section
variable {start t limit : Time}

theorem octets_append {as : List (Option Bytes)} (whole : none ∉ as) (bs : List (Option Bytes)) :
    octets (as ++ bs) = octets as ++ octets bs := by
  induction as with
  | nil => rfl
  | cons a as ih =>
      obtain ⟨first, rest⟩ := not_or.1 (mt List.mem_cons.2 whole)
      cases a with
      | none => exact absurd rfl first
      | some chunk => rw [List.cons_append, octets, octets, ih rest, List.append_assoc]

/-- What chunks tell is found, or nothing has been told. -/
theorem through_cases (timeout : Time) (r : Request) (chunks : List (Option Bytes)) :
    (∃ o, (reader timeout r).through [] chunks = .done o ∧
        Tells r (octets chunks) (none ∈ chunks) o.result) ∨
      ∃ b, (reader timeout r).through [] chunks = .more b ∧
        ∀ res, ¬ Told r (octets chunks) res := by
  cases reached : (reader timeout r).through [] chunks with
  | done o => exact .inl ⟨o, rfl, (through_nil_iff_tells timeout).1 ⟨o.buffer, reached⟩⟩
  | more b =>
      refine .inr ⟨b, rfl, fun res told => ?_⟩
      obtain ⟨b', done⟩ := (through_nil_iff_tells timeout).2 (.octets told)
      rw [reached] at done
      cases done

/-- What the chunks tell that were taken away is how far an exchange has got. -/
theorem upTo_reads (timeout : Time) (r : Request) (queue : Arrivals (Option Bytes))
    (there : max start t ≤ limit) :
    let e := upTo timeout r limit start (some (t, .ok ())) queue
    ∃ taken, queue = taken ++ e.left ∧ (∀ c ∈ taken, c.2 ≠ none) ∧
      ReadAs r taken e.left e.progress := by
  rw [upTo_of_written there]
  obtain ⟨taken, split, passed, tells⟩ :=
    (reader timeout r).upTo_taken limit (max start t) [] queue
  have whole : ∀ c ∈ taken, c.2 ≠ none := by
    intro c member ended
    obtain ⟨b, b', step⟩ := passed c member (by rw [ended]; rfl)
    rw [ended] at step
    cases step
  have chunks : none ∉ taken.map Prod.snd := fun member => by
    obtain ⟨c, there, ended⟩ := List.mem_map.1 member
    exact whole c there ended
  refine ⟨taken, split, whole, ?_⟩
  rcases tells with progress | ⟨t', a, behind, left, lasts, progress⟩
  · rcases through_cases timeout r (taken.map Prod.snd) with
      ⟨o, reached, tells⟩ | ⟨b, reached, untold⟩
    · rw [progress, reached]
      generalize result : o.result = res at tells
      cases tells with
      | octets told => exact .told (by rwa [result])
      | ended _ closed => exact absurd closed chunks
    · rw [progress, reached]
      exact .more untold
  · obtain rfl : a = none := Option.isNone_iff_eq_none.1 lasts
    have same : octets (taken.map Prod.snd ++ [none]) = octets (taken.map Prod.snd) := by
      rw [octets_append chunks, octets, List.append_nil]
    rcases through_cases timeout r (taken.map Prod.snd ++ [none]) with
      ⟨o, reached, tells⟩ | ⟨b, reached, untold⟩
    · rw [progress, reached]
      rw [same] at tells
      generalize result : o.result = res at tells
      cases tells with
      | octets told => exact .told (by rwa [result])
      | ended untold _ => exact .ended untold left result
    · rw [progress, reached]
      rw [same] at untold
      exact .more untold

end

/-! ### The whole of it -/

/-- What determines how an exchange ends. -/
structure Determined (timeout : Time) (r : Request) (start : Time) (sent : Writing)
    (queue : Arrivals (Option Bytes)) : Prop where
  /-- A result that stands by the deadline is the result. -/
  settled : ∀ res, Settled r sent queue (start + timeout) res →
    (run timeout r start sent queue).result = res
  /-- It is there as soon as it stands. -/
  soonest : ∀ res, Settled r sent queue (start + timeout) res →
    let time := (run timeout r start sent queue).time
    start ≤ time ∧ time ≤ start + timeout ∧ Settled r sent queue time res ∧
      ∀ u, start ≤ u → u < time → ∀ res', ¬ Settled r sent queue u res'
  /-- Otherwise the deadline decides, at its time. -/
  late : (∀ res, ¬ Settled r sent queue (start + timeout) res) →
    (run timeout r start sent queue).time = start + timeout ∧
      (run timeout r start sent queue).result = .error (.timeout timeout.nanos)
  /-- A complete message at the front is understood. -/
  answered : ∀ t payload behind, sent = some (t, .ok ()) → t ≤ start + timeout →
    payload ≠ [] → payload.length ≤ maxMessageLength →
    octets (queue.arrived (start + timeout)) = frame payload ++ behind →
    r.Understands payload (run timeout r start sent queue).result
  /-- Behind what has been told nothing counts. -/
  front : ∀ t front behind res, sent = some (t, .ok ()) → t ≤ start + timeout →
    octets (queue.arrived (start + timeout)) = front ++ behind → Told r front res →
    (run timeout r start sent queue).result = res
  /-- It does not matter how the octets are cut, and when each chunk comes. -/
  recut : ∀ queue' : Arrivals (Option Bytes),
    octets (queue'.arrived (start + timeout)) = octets (queue.arrived (start + timeout)) →
    (none ∈ queue'.arrived (start + timeout) ↔ none ∈ queue.arrived (start + timeout)) →
    (run timeout r start sent queue').result = (run timeout r start sent queue).result

/-- **An exchange is determined by the octets that come in time**, and by whether the channel ends
behind them, once its request is written. -/
theorem exchange_determined (timeout : Time) (r : Request) (start : Time) (sent : Writing)
    (queue : Arrivals (Option Bytes)) : Determined timeout r start sent queue where
  settled res := result_of_settled
  soonest res := soonest_of_settled
  late := late_of_unsettled
  answered t payload behind written there nonempty short whole := by
    have understood := (Request.understands_iff (r := r) nonempty (small_of_short short)).2 rfl
    have told : Told r (octets (queue.arrived (start + timeout)))
        (Response.decode payload >>= r.accept) := by
      rw [whole]
      exact .answered nonempty short understood behind
    rw [result_of_settled (.told written there (.octets told))]
    exact understood
  front t front behind res written there whole told := by
    have all : Told r (octets (queue.arrived (start + timeout))) res := by
      rw [whole]
      exact told.append behind
    exact result_of_settled (.told written there (.octets all))
  recut queue' sameOctets sameEnd := by
    by_cases settled : ∃ res, Settled r sent queue (start + timeout) res
    · obtain ⟨res, stands⟩ := settled
      rw [result_of_settled stands, result_of_settled (stands.recut sameOctets sameEnd)]
    · have unsettled : ∀ res, ¬ Settled r sent queue (start + timeout) res :=
        fun res stands => settled ⟨res, stands⟩
      have unsettled' : ∀ res, ¬ Settled r sent queue' (start + timeout) res :=
        fun res stands => unsettled res (stands.recut sameOctets.symm sameEnd.symm)
      rw [(late_of_unsettled unsettled).2, (late_of_unsettled unsettled').2]

/-- A signature with an octet behind its two strings. -/
def surplusAnswer : Bytes := [14, 0, 0, 0, 10, 0, 0, 0, 1, 97, 0, 0, 0, 0, 7]

/-- A signature with an octet behind its two strings is taken, although no answer is written so. -/
theorem surplus_taken :
    (run 10000 (.sign [] [] 0) 0 (some (0, .ok ())) [(0, some (frame surplusAnswer))]).result =
        .ok (.signature ⟨"a", []⟩) ∧
      ∀ response : Response, response.payload ≠ surplusAnswer := by
  constructor
  · have spelled : (Response.signature ⟨"a", []⟩).Spells surplusAnswer.tail :=
      .signature ⟨"a", []⟩ [7]
    have understood : (Request.sign [] [] 0).Understands surplusAnswer
        (.ok (.signature ⟨"a", []⟩)) := .signature spelled
    have told := Told.answered (by decide) (by decide) understood []
    exact result_of_settled (.told rfl (Nat.zero_le _) (.octets told))
  · intro response written
    cases response with
    | failure => cases written
    | identities keys => cases (List.cons.inj written).1
    | signature s =>
        have blob : s.toBlob = [0, 0, 0, 1, 97, 0, 0, 0, 0, 7] :=
          lengthPrefixed_inj.1 (List.cons.inj written).2
        -- The blob is read as the signature without its last octet.
        have read : Signature.ofBlob s.toBlob = .ok ⟨"a", []⟩ := by
          rw [blob]
          exact (Signature.ofBlob_eq_ok_iff (by decide)).2 ⟨[7], rfl⟩
        have same : Signature.ofBlob s.toBlob = .ok s :=
          (Signature.ofBlob_eq_ok_iff (by rw [blob]; decide)).2 (List.prefix_refl _)
        rw [read] at same
        cases same
        exact absurd blob (by decide)

end ForgeGateway.Agent.Exchange
