import ForgeGateway.Proofs.Arrivals
import ForgeGateway.Proofs.Relay.PackLimits
import ForgeGateway.Relay.Capture
import Mathlib.Data.List.Induction

/-! # A pack in time

Taking in a pack ends with the first message that is the end of the client's file, a chunk that the
buffer refuses, or the client's absence (`Capture.Decides`).  It ends when that message is there,
and at the deadline if it is not there by then, whatever else arrives (`Capture.captured_in_time`).
The deadline is one point in time for all messages, and has to be one that the clock can count;
where it is not, nothing is taken in at all. -/

namespace ForgeGateway.Relay.Capture

def ofChunks (chunks : List Bytes) : List (Option ClientMessage) :=
  chunks.map fun chunk => some (.data chunk)

/-- How taking in a pack ends with a message, where chunks have been taken in before. -/
inductive EndsWith (limits : PackLimits) (chunks : List Bytes) :
    Option ClientMessage → Result → Prop
  | eof : EndsWith limits chunks (some .eof) (.ok chunks.flatten)
  | refused {chunk : Bytes} {f : Failure}
      (refused : ((PackBuffer.after limits chunks).push chunk).1 = .error f) :
      EndsWith limits chunks (some (.data chunk)) (.error f)
  | gone : EndsWith limits chunks none (.error .clientGone)

/-- The first message that ends the taking in, with nothing but accepted chunks ahead of it. -/
structure Decides (limits : PackLimits) (queue : Arrivals (Option ClientMessage))
    (chunks : List Bytes) (t : Time) (m : Option ClientMessage)
    (behind : Arrivals (Option ClientMessage)) (r : Result) : Prop where
  split : ∃ before, queue = before ++ (t, m) :: behind ∧ before.map Prod.snd = ofChunks chunks
  taken : ∀ result ∈ PackBuffer.results limits chunks, result = .ok ()
  ends : EndsWith limits chunks m r

/-- The chunks that come ahead of everything else. -/
def leadingChunks : Arrivals (Option ClientMessage) → List Bytes
  | (_, some (.data chunk)) :: rest => chunk :: leadingChunks rest
  | _ => []

abbrev AllTaken (limits : PackLimits) (chunks : List Bytes) : Prop :=
  ∀ result ∈ PackBuffer.results limits chunks, result = .ok ()

section
variable {limits : Limits} {b b' : PackBuffer} {chunks : List Bytes} {chunk : Bytes}
  {m : Option ClientMessage} {f : Failure} {r : Result} {queue : Arrivals (Option ClientMessage)}

/-! ### One message -/

theorem step_taken (pushed : b.push chunk = (.ok (), b')) :
    (reader limits).step b (some (.data chunk)) = .more b' := by
  simp only [reader, onRead, pushed]

theorem step_refused (refused : (b.push chunk).1 = .error f) :
    (reader limits).step b (some (.data chunk)) = .done (.error f) := by
  simp only [reader, onRead]
  split
  next pushed =>
    rw [pushed] at refused
    cases refused
    rfl
  next pushed =>
    rw [pushed] at refused
    cases refused

theorem step_ends (taken : AllTaken limits.pack chunks) (ends : EndsWith limits.pack chunks m r) :
    (reader limits).step (PackBuffer.after limits.pack chunks) m = .done r := by
  obtain ⟨allowed, holds⟩ := PackBuffer.taken_iff limits.pack chunks
  cases ends with
  | eof => exact congrArg Progress.done (holds (allowed.1 taken)).intoPack_eq
  | refused refused => exact step_refused refused
  | gone => rfl

/-- A message ends the taking in, or it is a chunk that is taken in too. -/
theorem ends_or_taken (taken : AllTaken limits.pack chunks) (m : Option ClientMessage) :
    (∃ r, EndsWith limits.pack chunks m r) ∨
      ∃ chunk, m = some (.data chunk) ∧ AllTaken limits.pack (chunks ++ [chunk]) ∧
        (reader limits).step (PackBuffer.after limits.pack chunks) m =
          .more (PackBuffer.after limits.pack (chunks ++ [chunk])) := by
  match m with
  | none => exact .inl ⟨_, .gone⟩
  | some .eof => exact .inl ⟨_, .eof⟩
  | some (.data chunk) =>
      cases pushed : (PackBuffer.after limits.pack chunks).push chunk with
      | mk result b =>
          cases result with
          | error f => exact .inl ⟨_, .refused (by rw [pushed])⟩
          | ok _ =>
              refine .inr ⟨chunk, rfl, ?_, ?_⟩
              · rw [AllTaken, PackBuffer.results_snoc, List.forall_mem_append,
                  List.forall_mem_singleton, pushed]
                exact ⟨taken, rfl⟩
              · rw [step_taken pushed, PackBuffer.after_snoc, pushed]

/-! ### Many messages -/

theorem through_chunks (taken : AllTaken limits.pack chunks) :
    (reader limits).through (.empty limits.pack) (ofChunks chunks) =
      .more (PackBuffer.after limits.pack chunks) := by
  induction chunks using List.reverseRecOn with
  | nil => rfl
  | append_singleton chunks chunk ih =>
      rw [AllTaken, PackBuffer.results_snoc, List.forall_mem_append,
        List.forall_mem_singleton] at taken
      obtain ⟨taken, last⟩ := taken
      rw [ofChunks, List.map_append, ← ofChunks, Reader.through_append_of_more (ih taken),
        PackBuffer.after_snoc]
      exact Reader.through_cons_of_more (step_taken (Prod.ext last rfl)) []

theorem exists_end {messages : List (Option ClientMessage)} (taken : AllTaken limits.pack chunks)
    (done : (reader limits).through (PackBuffer.after limits.pack chunks) messages = .done r) :
    ∃ more m rest, messages = ofChunks more ++ m :: rest ∧
      AllTaken limits.pack (chunks ++ more) ∧ EndsWith limits.pack (chunks ++ more) m r := by
  induction messages generalizing chunks with
  | nil => cases done
  | cons m messages ih =>
      rcases ends_or_taken taken m with ⟨r', ends⟩ | ⟨chunk, rfl, taken', step⟩
      · rw [Reader.through_cons_of_done (step_ends taken ends)] at done
        cases done
        exact ⟨[], m, messages, rfl, by rwa [List.append_nil], by rwa [List.append_nil]⟩
      · rw [Reader.through_cons_of_more step] at done
        obtain ⟨more, m, rest, split, taken, ends⟩ := ih taken' done
        rw [List.append_assoc, List.singleton_append] at taken ends
        exact ⟨chunk :: more, m, rest, congrArg _ split, taken, ends⟩

/-- What has arrived by a time gives a result exactly if the message that decides is there. -/
theorem exists_decides {t : Time}
    (done : (reader limits).through (.empty limits.pack) (queue.arrived t) = .done r) :
    ∃ chunks u m behind, Decides limits.pack queue chunks u m behind r ∧ u ≤ t := by
  have start : AllTaken limits.pack [] := nofun
  obtain ⟨chunks, m, rest, split, taken, ends⟩ := exists_end start done
  obtain ⟨before, u, behind, rfl, ahead, there⟩ := Arrivals.arrived_split split
  exact ⟨chunks, u, m, behind, ⟨⟨before, rfl, ahead⟩, taken, ends⟩, there⟩

theorem le_of_deadline? {now length deadline : Time} (set : deadline? now length = some deadline) :
    now ≤ deadline := by
  unfold deadline? at set
  split at set
  next =>
    cases set
    exact Nat.le_add_right now length
  next => cases set

theorem leadingChunks_ofChunks {before : Arrivals (Option ClientMessage)}
    (ahead : before.map Prod.snd = ofChunks chunks) (rest : Arrivals (Option ClientMessage)) :
    leadingChunks (before ++ rest) = chunks ++ leadingChunks rest := by
  induction before generalizing chunks with
  | nil =>
      obtain rfl := List.map_eq_nil_iff.1 ahead.symm
      rfl
  | cons e before ih =>
      obtain ⟨t, m⟩ := e
      obtain ⟨chunk, others, rfl, rfl, behind⟩ := List.map_eq_cons_iff.1 ahead.symm
      rw [List.cons_append, leadingChunks, ih behind.symm, List.cons_append]

theorem pack_eq_leadingChunks {start : Time} {e : Ended} {pack : Bytes}
    (ended : run limits start queue = some e) (captured : e.result = .ok pack) :
    pack = (leadingChunks queue).flatten := by
  obtain ⟨deadline, set, rfl⟩ := Option.map_eq_some_iff.1 ended
  rw [runBy] at captured
  simp only [Reader.upTo_progress (le_of_deadline? set)] at captured
  generalize progress : (reader limits).through (.empty limits.pack) (queue.arrived _) = p
    at captured
  cases p with
  | more b => cases captured
  | done r =>
      obtain rfl : r = .ok pack := captured
      obtain ⟨chunks, u, m, behind, ⟨⟨before, rfl, ahead⟩, -, ends⟩, -⟩ := exists_decides progress
      cases ends with
      | eof =>
          have ended : leadingChunks ((u, some .eof) :: behind) = [] := rfl
          rw [leadingChunks_ofChunks ahead, ended, List.append_nil]

end

/-- **A pack is taken in in time.**  Let the deadline be one that the clock can count.  If the
message that decides is there by then, the result is the one it brings, at the time of its arrival
or at the start if that is later, and nothing behind it is looked at.  Otherwise the deadline decides, at its
time, however much arrives before.  Of the client's messages a pack that was taken in shows nothing
but the octets ahead of the end of its file, so that those who send the same octets get the same
pack. -/
theorem captured_in_time (limits : Limits) (start : Time)
    (queue : Arrivals (Option ClientMessage)) (ordered : queue.Pairwise (·.1 ≤ ·.1))
    (countable : (start + limits.capture).seconds < instantBound) :
    (∀ chunks t m behind r, Decides limits.pack queue chunks t m behind r →
      t ≤ start + limits.capture →
      run limits start queue =
        some ⟨max start t, r, if m.isNone then (t, m) :: behind else behind⟩) ∧
    ((∀ chunks t m behind r, Decides limits.pack queue chunks t m behind r →
        start + limits.capture < t) →
      run limits start queue =
        some ⟨start + limits.capture, .error (.packLate limits.capture.seconds),
          queue.later (start + limits.capture)⟩) ∧
    ∀ e pack, run limits start queue = some e → e.result = .ok pack →
      pack = (leadingChunks queue).flatten ∧
      ∀ limits' start' queue' e' pack', run limits' start' queue' = some e' →
        e'.result = .ok pack' →
        (leadingChunks queue).flatten = (leadingChunks queue').flatten → pack = pack' := by
  have set : deadline? start limits.capture = some (start + limits.capture) := if_pos countable
  have inTime : start ≤ start + limits.capture := Nat.le_add_right _ _
  simp only [run, set, Option.map_some, Option.some.injEq]
  refine ⟨?decided, ?late, ?packs⟩
  case decided =>
    rintro chunks t m behind r ⟨⟨before, rfl, ahead⟩, taken, ends⟩ there
    have earlier : ∀ e ∈ before, e.1 ≤ t := fun e member =>
      (List.pairwise_append.1 ordered).2.2 e member (t, m) List.mem_cons_self
    have lead : (reader limits).through (.empty limits.pack) (before.map Prod.snd) =
        .more (PackBuffer.after limits.pack chunks) := by
      rw [ahead]
      exact through_chunks taken
    rw [runBy, Reader.upTo_of_done inTime there earlier lead (step_ends taken ends)]
    rfl
  case late =>
    intro late
    cases progress : (reader limits).through (.empty limits.pack)
        (queue.arrived (start + limits.capture)) with
    | more b =>
        rw [runBy, Reader.upTo_of_more inTime progress]
        rfl
    | done r =>
        obtain ⟨chunks, t, m, behind, decides, there⟩ := exists_decides progress
        exact absurd (late chunks t m behind r decides) (Nat.not_lt.2 there)
  case packs =>
    intro e pack ended captured
    have whole : run limits start queue = some e := by
      rw [run, set, Option.map_some, ended]
    refine ⟨pack_eq_leadingChunks whole captured, ?_⟩
    intro limits' start' queue' e' pack' ended' captured' same
    rw [pack_eq_leadingChunks whole captured, pack_eq_leadingChunks ended' captured', same]

/-- Two chunks, the second one too large, and the end of the file. -/
def sampleQueue : Arrivals (Option ClientMessage) :=
  [(1, some (.data [7])), (4, some (.data [8])), (9, some .eof)]

/-- The second chunk brings the failure when it arrives, and the end of the file is not read. -/
theorem captured_in_time_sample :
    run { pack := ⟨1, 10⟩, capture := 100 } 3 sampleQueue =
      some ⟨4, .error (.packTooLarge 1), [(9, some .eof)]⟩ := by
  have taken : ∀ result ∈ PackBuffer.results ⟨1, 10⟩ [[7]], result = .ok () :=
    List.forall_mem_singleton.2 rfl
  have decides : Decides ⟨1, 10⟩ sampleQueue [[7]] 4 (some (.data [8])) [(9, some .eof)]
      (.error (.packTooLarge 1)) :=
    ⟨⟨[(1, some (.data [7]))], rfl, rfl⟩, taken, .refused rfl⟩
  exact (captured_in_time { pack := ⟨1, 10⟩, capture := 100 } 3 sampleQueue (by decide)
    (by decide)).1 _ _ _ _ _ decides (by decide)

/-- The end of the file is there at once, and yet nothing is taken in: the client may take so long
that the deadline cannot be set. -/
theorem deadline_out_of_range :
    Decides ⟨1073741824, 10000⟩ [(0, some .eof)] [] 0 (some .eof) [] (.ok []) ∧
      ¬∃ e, run { capture := 9223372036854775808 * 1000 } 0 [(0, some .eof)] = some e := by
  refine ⟨⟨⟨[], rfl, rfl⟩, nofun, .eof⟩, ?_⟩
  rintro ⟨e, ended⟩
  have unset : deadline? 0 (9223372036854775808 * 1000) = none := by decide
  rw [run, unset] at ended
  cases ended

end ForgeGateway.Relay.Capture
