import ForgeGateway.Forge.Stream
import ForgeGateway.Proofs.Relay.PullOutput

/-! # Reading the forge's channel to some point

A command reads the forge's channel event by event, and each reading takes messages from the
front of what the channel will yield (`Stream.takes_read`).  Over any number of readings the exit
statuses that were read are those among the messages that were taken, and an orderly end was read
if the channel was closed, and only if it was closed or had given an exit status
(`Reads.taken`). -/

namespace ForgeGateway.Forge

open ForgeGateway.Relay (ForgeRead exitRead?)

/-! ### Messages -/

def Message.exit? : Message → Option Nat
  | .exit status => some status
  | _ => none

/-- The exit statuses among messages, in order. -/
def exits (ms : List Message) : List Nat := ms.filterMap Message.exit?

theorem exits_append (ms rest : List Message) : exits (ms ++ rest) = exits ms ++ exits rest :=
  List.filterMap_append

section
variable {s s' : Stream} {m : Message} {r : ForgeRead} {used ms rest : List Message}

theorem exits_singleton (m : Message) : exits [m] = m.exit?.toList := by
  cases m <;> rfl

theorem Message.read?_extended (kind : Nat) (b : Bytes) :
    (Message.extended kind b).read? = if kind = 1 then some (.ok (some (.stderr b))) else none := by
  unfold Message.read?
  split <;> simp_all

theorem Message.exit?_of_passed (h : m.read? = none) : m.exit? = none ∧ m ≠ .close := by
  cases m with
  | extended | other => exact ⟨rfl, Message.noConfusion⟩
  | _ => cases h

theorem Message.exitRead?_of_read (h : m.read? = some r) : exitRead? r = m.exit? := by
  cases m with
  | extended kind b =>
      rw [Message.read?_extended] at h
      split at h
      · cases h
        rfl
      · cases h
  | other => cases h
  | _ =>
      cases h
      rfl

theorem Message.read?_eq_end_iff : m.read? = some (.ok none) ↔ m = .close := by
  cases m with
  | extended kind b =>
      rw [Message.read?_extended]
      split <;> simp
  | _ => simp [Message.read?]

/-! ### One reading -/

/-- What was taken for one reading, and what it yields. -/
structure Takes (s : Stream) (used : List Message) (r : ForgeRead) (s' : Stream) : Prop where
  exits : exits used = (exitRead? r).toList
  seen : s'.exitSeen = true ↔ s.exitSeen = true ∨ Forge.exits used ≠ []
  closed : .close ∈ used → r = .ok none
  ends : r = .ok none → .close ∈ used ∨ s.exitSeen = true

/-- Messages that are passed over before a reading do not matter to it. -/
theorem Takes.cons (hm : m.read? = none) (h : Takes s used r s') : Takes s (m :: used) r s' := by
  obtain ⟨noExit, open'⟩ := Message.exit?_of_passed hm
  have same : Forge.exits (m :: used) = Forge.exits used := List.filterMap_cons_none noExit
  have closes : .close ∈ m :: used ↔ .close ∈ used := by simp [open'.symm]
  refine ⟨?_, ?_, ?_, ?_⟩
  · rw [same, h.exits]
  · rw [same, h.seen]
  · rw [closes]
    exact h.closed
  · rw [closes]
    exact h.ends

theorem takes_atEnd (s : Stream) : Takes s [] s.atEnd s := by
  unfold Stream.atEnd
  by_cases seen : s.exitSeen
  · rw [if_pos seen]
    exact ⟨rfl, by simp [exits], by simp, fun _ => .inr seen⟩
  · rw [if_neg seen]
    exact ⟨rfl, by simp [exits], by simp, by simp⟩

theorem takes_message (s : Stream) (hm : m.read? = some r) :
    Takes s [m] r (s.take (some m)).2 := by
  have gives : exits [m] = (exitRead? r).toList := by
    rw [exits_singleton, Message.exitRead?_of_read hm]
  refine ⟨gives, ?_, ?_, ?_⟩
  · rw [exits_singleton]
    cases m <;> simp [Stream.take, Message.exit?]
  · intro closes
    have isClose : m = .close := (List.mem_singleton.1 closes).symm
    rw [Message.read?_eq_end_iff.2 isClose] at hm
    exact (Option.some.inj hm).symm
  · rintro rfl
    exact .inl (List.mem_singleton.2 (Message.read?_eq_end_iff.1 hm).symm)

theorem Stream.takes_read (s : Stream) (ms : List Message) :
    ∃ used, ms = used ++ (s.read ms).2.2 ∧ Takes s used (s.read ms).1 (s.read ms).2.1 := by
  induction ms with
  | nil => exact ⟨[], rfl, takes_atEnd s⟩
  | cons m rest ih =>
      cases hm : m.read? with
      | some r =>
          have read : s.read (m :: rest) = (r, (s.take (some m)).2, rest) := by
            simp only [Stream.read, Stream.take, hm]
          rw [read]
          exact ⟨[m], rfl, takes_message s hm⟩
      | none =>
          have unseen : (s.take (some m)).2 = s := by
            cases m with
            | exit => cases hm
            | _ => rfl
          have passed : s.take (some m) = (none, s) := Prod.ext hm unseen
          have read : s.read (m :: rest) = s.read rest := by
            simp only [Stream.read, passed]
          rw [read]
          obtain ⟨used, front, takes⟩ := ih
          exact ⟨m :: used, congrArg (m :: ·) front, takes.cons hm⟩

/-! ### Many readings -/

/-- The readings `rs` of a channel that will yield `ms`, behind which it will yield `rest`. -/
inductive Reads : Stream → List Message → List ForgeRead → List Message → Prop where
  | nil (s : Stream) (ms : List Message) : Reads s ms [] ms
  | cons {s : Stream} {ms : List Message} {rs : List ForgeRead} {rest : List Message}
      (more : Reads (s.read ms).2.1 (s.read ms).2.2 rs rest) :
      Reads s ms ((s.read ms).1 :: rs) rest

/-- What was taken for some readings, and what they yield. -/
structure Taken (s : Stream) (used : List Message) (rs : List ForgeRead) : Prop where
  exits : exits used = rs.filterMap exitRead?
  closed : .close ∈ used → .ok none ∈ rs
  ends : .ok none ∈ rs → .close ∈ used ∨ s.exitSeen = true ∨ Forge.exits used ≠ []

theorem taken_nil (s : Stream) : Taken s [] [] :=
  ⟨rfl, by simp, by simp⟩

theorem Takes.followed {more : List Message} {rs : List ForgeRead} (h : Takes s used r s')
    (hs : Taken s' more rs) : Taken s (used ++ more) (r :: rs) := by
  refine ⟨?_, ?_, ?_⟩
  · rw [exits_append, h.exits, hs.exits]
    cases hr : exitRead? r <;> simp [hr]
  · intro closes
    rcases List.mem_append.1 closes with first | later
    · exact List.mem_cons.2 (.inl (h.closed first).symm)
    · exact List.mem_cons_of_mem _ (hs.closed later)
  · intro ends
    rw [List.mem_append, exits_append, ne_eq, List.append_eq_nil_iff,
      Classical.not_and_iff_not_or_not]
    rcases List.mem_cons.1 ends with first | later
    · rcases h.ends first.symm with closes | seen
      · exact .inl (.inl closes)
      · exact .inr (.inl seen)
    · rcases hs.ends later with closes | seen | given
      · exact .inl (.inr closes)
      · rcases h.seen.1 seen with before | now
        · exact .inr (.inl before)
        · exact .inr (.inr (.inl now))
      · exact .inr (.inr (.inr given))

theorem Reads.taken {rs : List ForgeRead} (h : Reads s ms rs rest) :
    ∃ used, ms = used ++ rest ∧ Taken s used rs := by
  induction h with
  | nil s ms => exact ⟨[], rfl, taken_nil s⟩
  | @cons s ms rs rest more ih =>
      obtain ⟨used, front, takes⟩ := s.takes_read ms
      obtain ⟨later, front', taken⟩ := ih
      refine ⟨used ++ later, ?_, takes.followed taken⟩
      rw [List.append_assoc, ← front']
      exact front

end

end ForgeGateway.Forge
