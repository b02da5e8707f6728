import ForgeGateway.Proofs.Relay.PackBuffer
import Mathlib.Algebra.Ring.Nat
import Mathlib.Data.List.Induction

/-! # How a pack buffer keeps its limits

`PackBuffer.pushAll` offers chunks to a buffer one after the other, whatever becomes of each.  At
every time the buffer has taken in just the chunks that came since the last refusal
(`PackBuffer.after_holds`), so that it never holds more than the limits allow and its pack is
never miscounted.  A chunk is refused exactly if it makes the chunks since then too many or too
long (`PackBuffer.Holds.push_eq_error_iff`), and from then on the buffer is a new one.
`limits_kept` puts this together. -/

namespace ForgeGateway.Relay

/-! ### What the limits allow -/

namespace PackLimits

variable (limits : PackLimits) (chunks : List Bytes)

/-- More chunks than allowed.  Empty ones do not count. -/
def TooMany : Prop := limits.maxChunks < chunks.countP (!·.isEmpty)

/-- Longer together than allowed. -/
def TooLong : Prop := limits.maxBytes < chunks.flatten.length

/-- Within both limits. -/
structure Allows : Prop where
  few : ¬ limits.TooMany chunks
  short : ¬ limits.TooLong chunks

/-- What is said of chunks that are not allowed.  Being too many goes before being too long. -/
inductive Forbids : Failure → Prop
  | tooMany (many : limits.TooMany chunks) : Forbids (.tooManyChunks limits.maxChunks)
  | tooLong (few : ¬ limits.TooMany chunks) (long : limits.TooLong chunks) :
      Forbids (.packTooLarge limits.maxBytes)

variable {limits chunks} {chunk : Bytes}

theorem allows_nil : limits.Allows [] := ⟨Nat.not_lt_zero _, Nat.not_lt_zero _⟩

theorem Allows.front {more : List Bytes} (h : limits.Allows (chunks ++ more)) :
    limits.Allows chunks := by
  obtain ⟨few, short⟩ := h
  simp only [TooMany, TooLong, List.countP_append, List.flatten_append, List.length_append]
    at few short
  constructor
  · unfold TooMany
    omega
  · unfold TooLong
    omega

theorem Forbids.unique {f f' : Failure} (h : limits.Forbids chunks f)
    (h' : limits.Forbids chunks f') : f = f' := by
  cases h with
  | tooMany many =>
      cases h' with
      | tooMany => rfl
      | tooLong few => exact absurd many few
  | tooLong few =>
      cases h' with
      | tooMany many => exact absurd many few
      | tooLong => rfl

theorem exists_forbids_iff : (∃ f, limits.Forbids chunks f) ↔ ¬ limits.Allows chunks := by
  constructor
  · rintro ⟨-, many | ⟨-, long⟩⟩ ⟨few, short⟩
    · exact few many
    · exact short long
  · intro refused
    by_cases many : limits.TooMany chunks
    · exact ⟨_, .tooMany many⟩
    · by_cases long : limits.TooLong chunks
      · exact ⟨_, .tooLong many long⟩
      · exact absurd ⟨many, long⟩ refused

theorem Allows.nonempty_of_forbids {f : Failure} (h : limits.Allows chunks)
    (forbidden : limits.Forbids (chunks ++ [chunk]) f) : chunk ≠ [] := by
  rintro rfl
  refine exists_forbids_iff.1 ⟨f, forbidden⟩ ⟨?_, ?_⟩
  · simpa [TooMany] using h.few
  · simpa [TooLong] using h.short

end PackLimits

/-! ### One chunk -/

namespace PackBuffer

variable {b : PackBuffer} {limits : PackLimits} {chunks : List Bytes} {chunk : Bytes} {f : Failure}

theorem Holds.allows (h : b.Holds limits chunks) : limits.Allows chunks := by
  constructor
  · have count := h.count_le
    rw [h.chunks_eq, ← List.countP_eq_length_filter] at count
    exact Nat.not_lt.2 count
  · have total := h.total_le
    rw [h.total_eq] at total
    exact Nat.not_lt.2 total

/-- A chunk is taken in, or it is refused and the buffer is a new one. -/
theorem Holds.push_cases (h : b.Holds limits chunks) (chunk : Bytes) :
    (∃ b', b.push chunk = (.ok (), b') ∧ b'.Holds limits (chunks ++ [chunk])) ∨
      ∃ f, b.push chunk = (.error f, .empty limits) ∧ limits.Forbids (chunks ++ [chunk]) f := by
  have count : b.chunks.length = chunks.countP (!·.isEmpty) := by
    rw [h.chunks_eq, List.countP_eq_length_filter]
  cases pushed : b.push chunk with
  | mk result b' =>
      cases result with
      | ok _ => exact .inl ⟨b', rfl, h.push pushed⟩
      | error f =>
          refine .inr ⟨f, ?_⟩
          unfold PackBuffer.push at pushed
          rw [h.limits_eq] at pushed
          split at pushed
          next => cases pushed
          next filled =>
            have counted : (chunks ++ [chunk]).countP (!·.isEmpty) = b.chunks.length + 1 := by
              rw [List.countP_append, List.countP_singleton, if_pos (by simpa using filled), count]
            split at pushed
            next full =>
              cases pushed
              refine ⟨rfl, .tooMany ?_⟩
              rw [PackLimits.TooMany, counted]
              omega
            next room =>
              split at pushed
              next long =>
                cases pushed
                refine ⟨rfl, .tooLong ?_ ?_⟩
                · rw [PackLimits.TooMany, counted]
                  omega
                · simpa [PackLimits.TooLong, ← h.total_eq] using long
              next => cases pushed

theorem Holds.push_eq_error_iff (h : b.Holds limits chunks) :
    (b.push chunk).1 = .error f ↔ limits.Forbids (chunks ++ [chunk]) f := by
  rcases h.push_cases chunk with ⟨b', pushed, held⟩ | ⟨f', pushed, forbidden⟩
  · rw [pushed]
    refine ⟨nofun, fun forbidden => ?_⟩
    exact absurd held.allows (PackLimits.exists_forbids_iff.1 ⟨f, forbidden⟩)
  · rw [pushed]
    constructor
    · intro same
      cases same
      exact forbidden
    · intro other
      rw [forbidden.unique other]

theorem Holds.push_eq_ok_iff (h : b.Holds limits chunks) :
    (b.push chunk).1 = .ok () ↔ limits.Allows (chunks ++ [chunk]) := by
  rcases h.push_cases chunk with ⟨b', pushed, held⟩ | ⟨f, pushed, forbidden⟩
  · rw [pushed]
    exact iff_of_true rfl held.allows
  · rw [pushed]
    exact iff_of_false nofun (PackLimits.exists_forbids_iff.1 ⟨f, forbidden⟩)

/-! ### Many chunks -/

/-- Chunks are offered one after the other.  What becomes of each, and the buffer in the end. -/
def pushAll (b : PackBuffer) : List Bytes → List (Except Failure Unit) × PackBuffer
  | [] => ([], b)
  | chunk :: rest =>
    let (result, b) := b.push chunk
    let (results, b) := b.pushAll rest
    (result :: results, b)

/-- What becomes of chunks that are offered to a new buffer. -/
def results (limits : PackLimits) (chunks : List Bytes) : List (Except Failure Unit) :=
  ((empty limits).pushAll chunks).1

/-- A new buffer after chunks were offered to it. -/
def after (limits : PackLimits) (chunks : List Bytes) : PackBuffer :=
  ((empty limits).pushAll chunks).2

theorem pushAll_snoc (b : PackBuffer) (chunks : List Bytes) (chunk : Bytes) :
    b.pushAll (chunks ++ [chunk]) =
      ((b.pushAll chunks).1 ++ [((b.pushAll chunks).2.push chunk).1],
        ((b.pushAll chunks).2.push chunk).2) := by
  induction chunks generalizing b with
  | nil => rfl
  | cons first chunks ih =>
      show ((b.push first).1 :: ((b.push first).2.pushAll (chunks ++ [chunk])).1,
        ((b.push first).2.pushAll (chunks ++ [chunk])).2) = _
      rw [ih]
      rfl

theorem results_snoc (limits : PackLimits) (chunks : List Bytes) (chunk : Bytes) :
    results limits (chunks ++ [chunk]) =
      results limits chunks ++ [((after limits chunks).push chunk).1] := by
  rw [results, pushAll_snoc]
  rfl

theorem after_snoc (limits : PackLimits) (chunks : List Bytes) (chunk : Bytes) :
    after limits (chunks ++ [chunk]) = ((after limits chunks).push chunk).2 := by
  rw [after, pushAll_snoc]
  rfl

/-- At every time a buffer holds the chunks since the last that was refused. -/
theorem after_holds (limits : PackLimits) (chunks : List Bytes) :
    ∃ since, since <:+ chunks ∧ (after limits chunks).Holds limits since := by
  induction chunks using List.reverseRecOn with
  | nil => exact ⟨[], List.suffix_refl _, Holds.empty limits⟩
  | append_singleton chunks chunk ih =>
      obtain ⟨since, latest, held⟩ := ih
      rw [after_snoc]
      rcases held.push_cases chunk with ⟨b', pushed, held⟩ | ⟨f, pushed, -⟩
      · rw [pushed]
        refine ⟨since ++ [chunk], ?_, held⟩
        obtain ⟨before, rfl⟩ := latest
        exact ⟨before, (List.append_assoc _ _ _).symm⟩
      · rw [pushed]
        exact ⟨[], List.nil_suffix, Holds.empty limits⟩

/-- All chunks are taken in exactly if all together are allowed, and then the buffer holds them. -/
theorem taken_iff (limits : PackLimits) (chunks : List Bytes) :
    ((∀ result ∈ results limits chunks, result = .ok ()) ↔ limits.Allows chunks) ∧
      (limits.Allows chunks → (after limits chunks).Holds limits chunks) := by
  induction chunks using List.reverseRecOn with
  | nil => exact ⟨iff_of_true nofun PackLimits.allows_nil, fun _ => Holds.empty limits⟩
  | append_singleton chunks chunk ih =>
      obtain ⟨taken, holds⟩ := ih
      rw [results_snoc, after_snoc, List.forall_mem_append, List.forall_mem_singleton, taken]
      refine ⟨⟨fun ⟨allowed, last⟩ => (holds allowed).push_eq_ok_iff.1 last, fun allowed => ?_⟩, ?_⟩
      · exact ⟨allowed.front, (holds allowed.front).push_eq_ok_iff.2 allowed⟩
      · intro allowed
        rcases (holds allowed.front).push_cases chunk with ⟨b', pushed, held⟩ | ⟨f, -, forbidden⟩
        · rw [pushed]
          exact held
        · exact absurd allowed (PackLimits.exists_forbids_iff.1 ⟨f, forbidden⟩)

/-! ### The whole of it -/

/-- What is true of a buffer at all times. -/
structure Sound (b : PackBuffer) (limits : PackLimits) : Prop where
  limits_eq : b.limits = limits
  total_eq : b.total = (b.chunks.map List.length).sum
  total_le : b.total ≤ limits.maxBytes
  count_le : b.chunks.length ≤ limits.maxChunks
  nonempty : ∀ chunk ∈ b.chunks, chunk ≠ []
  intoPack_eq : b.intoPack = .ok b.chunks.flatten

theorem Holds.sound (h : b.Holds limits chunks) : b.Sound limits where
  limits_eq := h.limits_eq
  total_eq := by
    rw [← List.length_flatten, h.chunks_eq, List.flatten_filter_not_isEmpty, h.total_eq]
  total_le := h.total_le
  count_le := h.count_le
  nonempty chunk kept := by
    rw [h.chunks_eq, List.mem_filter] at kept
    simpa using kept.2
  intoPack_eq := by
    rw [h.intoPack_eq, h.chunks_eq, List.flatten_filter_not_isEmpty]

/-- **A pack buffer keeps its limits**, whatever is offered to it.  It is sound at all times.  Up to
the first refusal it holds the chunks that are not empty; the first refusal comes with the first
chunk, not itself empty, with which there are too many or too long ones, and says which; and after
a refusal the buffer is as good as new.  No sum that is made is larger than what was offered. -/
theorem limits_kept (limits : PackLimits) (chunks : List Bytes) :
    (after limits chunks).Sound limits ∧
    ((∀ result ∈ results limits chunks, result = .ok ()) ↔ limits.Allows chunks) ∧
    (limits.Allows chunks → (after limits chunks).chunks = chunks.filter (!·.isEmpty)) ∧
    ∀ chunk,
      (∀ f, (∀ result ∈ results limits chunks, result = .ok ()) ∧
          ((after limits chunks).push chunk).1 = .error f ↔
        limits.Allows chunks ∧ chunk ≠ [] ∧ limits.Forbids (chunks ++ [chunk]) f) ∧
      (∀ f, ((after limits chunks).push chunk).1 = .error f → ∀ later,
        ((after limits chunks).push chunk).2.pushAll later = (empty limits).pushAll later) ∧
      (after limits chunks).total + chunk.length ≤ (chunks ++ [chunk]).flatten.length := by
  obtain ⟨since, ⟨earlier, rfl⟩, held⟩ := after_holds limits chunks
  obtain ⟨taken, holds⟩ := taken_iff limits (earlier ++ since)
  refine ⟨held.sound, taken, fun allowed => (holds allowed).chunks_eq, fun chunk => ⟨?_, ?_, ?_⟩⟩
  · intro f
    rw [taken]
    constructor
    · rintro ⟨allowed, refused⟩
      have forbidden := (holds allowed).push_eq_error_iff.1 refused
      exact ⟨allowed, allowed.nonempty_of_forbids forbidden, forbidden⟩
    · rintro ⟨allowed, -, forbidden⟩
      exact ⟨allowed, (holds allowed).push_eq_error_iff.2 forbidden⟩
  · intro f refused later
    rcases held.push_cases chunk with ⟨b', pushed, -⟩ | ⟨f', pushed, -⟩
    · rw [pushed] at refused
      cases refused
    · rw [pushed]
  · rw [held.total_eq]
    simp only [List.flatten_append, List.length_append, List.flatten_singleton]
    omega

/-- With one chunk allowed, an empty one is let in beside it and the next is not; after that the
buffer starts again. -/
example : results ⟨10, 1⟩ [[1], [], [2], [3]] =
    [.ok (), .ok (), .error (.tooManyChunks 1), .ok ()] := rfl

end PackBuffer

end ForgeGateway.Relay
