import ForgeGateway.Agent.Message
import ForgeGateway.Proofs.Bytes.Utf8

/-! # What a reader takes

`c.Passes b c'` says that a cursor has moved from `c` to `c'` over the octets `b`.  Every
reader succeeds exactly on the octets that its writer gives: a number on its four octets
(`number_eq_ok_iff`), an octet string or a text on itself behind its length
(`string_ok_iff`, `text_ok_iff`).  Lengths are written modulo `2 ^ 32`, so that the last two have
to be shorter than that, as they are with less than that in front of the cursor
(`string_eq_ok_iff`, `text_eq_ok_iff`). -/

namespace ForgeGateway.Agent

/-- How many numbers four octets tell apart. -/
def word32Span : Nat := 4294967296

@[simp] theorem length_lengthPrefixed (b : Bytes) : (lengthPrefixed b).length = 4 + b.length := by
  rw [lengthPrefixed, List.length_append, Bytes.length_word32]

theorem bind_eq_ok_iff {ε α β : Type} {first : Except ε α} {second : α → Except ε β} {b : β} :
    first >>= second = .ok b ↔ ∃ a, first = .ok a ∧ second a = .ok b := by
  constructor
  · intro h
    cases first with
    | error e => cases h
    | ok a => exact ⟨a, rfl, h⟩
  · rintro ⟨a, rfl, h⟩
    exact h

theorem orMalformed_bind_eq_ok_iff {α β : Type} {first : Except MessageFault α}
    {second : α → Except AgentError β} {b : β} :
    orMalformed first >>= second = .ok b ↔ ∃ a, first = .ok a ∧ second a = .ok b := by
  cases first with
  | error fault => exact ⟨nofun, nofun⟩
  | ok a =>
      constructor
      · intro h
        exact ⟨a, rfl, h⟩
      · rintro ⟨_, same, h⟩
        cases same
        exact h

namespace Cursor

/-- The cursor has moved over the octets `b`. -/
structure Passes (c : Cursor) (b : Bytes) (c' : Cursor) : Prop where
  rest : c.rest = b ++ c'.rest
  offset : c'.offset = c.offset + b.length

section
variable {c d e : Cursor} {a b : Bytes} {field : Field}

/-! ### Moving -/

theorem Passes.eq (h : c.Passes b d) : d = ⟨c.offset + b.length, d.rest⟩ := by
  rw [← h.offset]

theorem passes_start_iff {p : Bytes} :
    (start p).Passes b d ↔ p = b ++ d.rest ∧ d.offset = b.length := by
  constructor
  · intro h
    have moved := h.offset
    rw [start, Nat.zero_add] at moved
    exact ⟨h.rest, moved⟩
  · rintro ⟨rest, offset⟩
    refine ⟨rest, ?_⟩
    rw [start, Nat.zero_add, offset]

theorem passes_nil_iff : c.Passes [] d ↔ d = c := by
  constructor
  · intro h
    rw [h.eq, List.length_nil, Nat.add_zero]
    obtain ⟨offset, rest⟩ := c
    exact congrArg (Cursor.mk offset) h.rest.symm
  · rintro rfl
    exact ⟨rfl, rfl⟩

theorem Passes.trans (first : c.Passes a d) (second : d.Passes b e) : c.Passes (a ++ b) e where
  rest := by rw [first.rest, second.rest, List.append_assoc]
  offset := by rw [second.offset, first.offset, List.length_append, Nat.add_assoc]

theorem Passes.split (h : c.Passes (a ++ b) e) : ∃ d, c.Passes a d ∧ d.Passes b e := by
  refine ⟨⟨c.offset + a.length, b ++ e.rest⟩, ⟨?_, rfl⟩, ⟨rfl, ?_⟩⟩
  · rw [h.rest, List.append_assoc]
  · rw [h.offset, List.length_append, Nat.add_assoc]

theorem Passes.length_le (h : c.Passes b d) : b.length + d.rest.length = c.rest.length := by
  rw [h.rest, List.length_append]

/-! ### Readers -/

theorem take_eq_ok_iff {n : Nat} :
    c.take field n = .ok (b, d) ↔ b.length = n ∧ c.Passes b d := by
  unfold take
  constructor
  · intro h
    split at h
    next => cases h
    next enough =>
      cases h
      have length : (c.rest.take n).length = n := List.length_take_of_le (by omega)
      refine ⟨length, (List.take_append_drop n c.rest).symm, ?_⟩
      rw [length]
  · rintro ⟨rfl, moved⟩
    have length := moved.length_le
    rw [if_neg (by omega), moved.rest, List.take_left, List.drop_left, ← moved.offset]

theorem octet_eq_ok_iff {n : Nat} :
    c.octet field = .ok (n, d) ↔ ∃ x : UInt8, x.toNat = n ∧ c.Passes [x] d := by
  obtain ⟨offset, rest⟩ := c
  constructor
  · intro h
    cases rest with
    | nil => cases h
    | cons x rest =>
        cases h
        exact ⟨x, rfl, rfl, rfl⟩
  · rintro ⟨x, rfl, moved⟩
    have there : rest = x :: d.rest := moved.rest
    subst there
    rw [moved.eq]
    rfl

theorem number_eq_ok_iff {n : Nat} :
    c.number field = .ok (n, d) ↔ n < word32Span ∧ c.Passes (Bytes.word32 n) d := by
  unfold number
  constructor
  · intro h
    split at h
    next => cases h
    next m rest there =>
      cases h
      obtain ⟨octets, small⟩ := Bytes.word32_of_word32? there
      exact ⟨small, octets, rfl⟩
  · rintro ⟨small, moved⟩
    rw [moved.rest, Bytes.word32?_word32_append small, moved.eq]
    rfl

theorem string_ok_iff :
    c.string field = .ok (b, d) ↔ b.length < word32Span ∧ c.Passes (lengthPrefixed b) d := by
  unfold string
  constructor
  · intro h
    split at h
    next => cases h
    next n behind read =>
      obtain ⟨short, length⟩ := number_eq_ok_iff.1 read
      obtain ⟨rfl, octets⟩ := take_eq_ok_iff.1 h
      exact ⟨short, length.trans octets⟩
  · rintro ⟨short, moved⟩
    obtain ⟨behind, length, octets⟩ := moved.split
    have read : c.number field = .ok (b.length, behind) := number_eq_ok_iff.2 ⟨short, length⟩
    rw [read]
    exact take_eq_ok_iff.2 ⟨rfl, octets⟩

theorem text_ok_iff {s : String} :
    c.text field = .ok (s, d) ↔ (Bytes.ofString s).length < word32Span ∧
      c.Passes (lengthPrefixed (Bytes.ofString s)) d := by
  have octets : c.string field = .ok (Bytes.ofString s, d) ↔ _ := string_ok_iff
  rw [← octets]
  unfold text
  constructor
  · intro h
    split at h
    next => cases h
    next b behind read =>
      split at h
      next => cases h
      next t decoded =>
        cases h
        rw [Utf8.decode?_eq_some_iff] at decoded
        rw [← decoded]
        exact read
  · intro read
    have decoded : Utf8.decode? (Bytes.ofString s) = some s := Utf8.decode?_eq_some_iff.2 rfl
    rw [read]
    simp only [decoded]

theorem Passes.short (small : c.rest.length < word32Span) (h : c.Passes (lengthPrefixed b) d) :
    b.length < word32Span := by
  have fits := h.length_le
  rw [length_lengthPrefixed] at fits
  omega

theorem string_eq_ok_iff (small : c.rest.length < word32Span) :
    c.string field = .ok (b, d) ↔ c.Passes (lengthPrefixed b) d := by
  rw [string_ok_iff, and_iff_right_of_imp (Passes.short small)]

theorem text_eq_ok_iff {s : String} (small : c.rest.length < word32Span) :
    c.text field = .ok (s, d) ↔ c.Passes (lengthPrefixed (Bytes.ofString s)) d := by
  rw [text_ok_iff, and_iff_right_of_imp (Passes.short small)]

end

end Cursor

end ForgeGateway.Agent
