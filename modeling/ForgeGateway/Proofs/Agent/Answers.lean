import ForgeGateway.Forge.Opening
import ForgeGateway.Proofs.Agent.Reading

/-! # What is kept of an answer

An answer is passed on in the form in which the gateway writes it.  `answers_kept` compares
this with the octets that the agent sent.  Failures and lists of keys are written as they were
read, and nothing may be missing from an answer or stand behind it.  A signature is written as
it was read exactly if its blob ends with the second of its two strings: what is behind that is
dropped (`surplus_dropped`), and the forge is not shown it. -/

namespace ForgeGateway.Agent

/-! ### Writing what was read -/

theorem lengthPrefixed_inj {b d : Bytes} : lengthPrefixed b = lengthPrefixed d ↔ b = d := by
  constructor
  · intro same
    exact List.append_inj_right same rfl
  · rintro rfl
    rfl

theorem Response.encode_eq_iff {r : Response} {p : Bytes} :
    r.encode = Bytes.word32 p.length ++ p ↔ r.payload = p := lengthPrefixed_inj

theorem Response.Spells.payload_eq {r : Response} {body : Bytes} (spelled : r.Spells body)
    (unsigned : ∀ s, r ≠ .signature s) : r.payload = r.opcode :: body := by
  cases spelled with
  | failure => rfl
  | identities named => rfl
  | signature s surplus => exact absurd rfl (unsigned s)

theorem Response.Spells.blob {s : Signature} {body : Bytes}
    (spelled : (Response.signature s).Spells body) :
    ∃ blob, s.toBlob <+: blob ∧ body = lengthPrefixed blob := by
  cases spelled with
  | signature s surplus => exact ⟨s.toBlob ++ surplus, ⟨surplus, rfl⟩, rfl⟩

/-! ### Surplus and missing octets -/

section
variable {p : Bytes} {r : Response}

theorem Response.decode_surplus (read : Response.decode p = .ok r) {x : Bytes} (nonempty : x ≠ [])
    (small : (p ++ x).length < word32Span) :
    Response.decode (p ++ x) = .error (.malformed (.trailing x.length)) := by
  have shorter : p.length < word32Span := by
    rw [List.length_append] at small
    omega
  obtain ⟨body, spelled, rfl⟩ := (Response.decode_eq_ok_iff shorter).1 read
  have emptiness : ¬ x.isEmpty = true := fun h => nonempty (List.isEmpty_iff.1 h)
  rw [Response.decode_append_of_spells spelled x small, if_neg emptiness]

theorem Response.decode_cut (small : p.length < word32Span) (read : Response.decode p = .ok r)
    {n : Nat} (cut : n < p.length) : ∃ e, Response.decode (p.take n) = .error e := by
  cases front : Response.decode (p.take n) with
  | error e => exact ⟨e, rfl⟩
  | ok early =>
      have missing : p.drop n ≠ [] := by
        rw [Ne, List.drop_eq_nil_iff]
        omega
      have refused := Response.decode_surplus front missing (by rwa [List.take_append_drop])
      rw [List.take_append_drop, read] at refused
      cases refused

end

/-! ### The whole of it -/

/-- What is kept of the octets `p` of an answer. -/
structure Kept (p : Bytes) : Prop where
  /-- An answer is read from what it spells and from nothing else. -/
  spelled : ∀ r, Response.decode p = .ok r ↔ ∃ body, r.Spells body ∧ p = r.opcode :: body
  /-- Failures and lists of keys are kept. -/
  unsigned : ∀ r, Response.decode p = .ok r → (∀ s, r ≠ .signature s) →
    r.encode = Bytes.word32 p.length ++ p
  /-- The front of a signature's blob is kept, and all of it if nothing is behind that. -/
  signed : ∀ s, Response.decode p = .ok (.signature s) →
    ∃ blob, p = 14 :: lengthPrefixed blob ∧ s.toBlob <+: blob ∧
      ((Response.signature s).encode = Bytes.word32 p.length ++ p ↔ s.toBlob = blob) ∧
      ∀ data, Forge.Opening.signedData data s = data ++ lengthPrefixed blob ↔ s.toBlob = blob
  /-- Nothing may stand behind an answer. -/
  surplus : ∀ r x, Response.decode p = .ok r → x ≠ [] → (p ++ x).length < word32Span →
    Response.decode (p ++ x) = .error (.malformed (.trailing x.length))
  /-- Nothing may be missing from an answer. -/
  missing : ∀ r n, Response.decode p = .ok r → n < p.length →
    ∃ e, Response.decode (p.take n) = .error e

/-- What is kept of an answer, for every payload whose length has room in four octets. -/
theorem answers_kept (p : Bytes) (small : p.length < word32Span) : Kept p where
  spelled r := Response.decode_eq_ok_iff small
  unsigned r read unsigned := by
    obtain ⟨body, spelled, rfl⟩ := (Response.decode_eq_ok_iff small).1 read
    exact Response.encode_eq_iff.2 (spelled.payload_eq unsigned)
  signed s read := by
    obtain ⟨body, spelled, rfl⟩ := (Response.decode_eq_ok_iff small).1 read
    obtain ⟨blob, front, rfl⟩ := spelled.blob
    refine ⟨blob, rfl, front, ?_, ?_⟩
    · rw [Response.encode_eq_iff]
      show Response.opcode (.signature s) :: lengthPrefixed s.toBlob = _ ↔ _
      rw [List.cons.injEq, and_iff_right rfl, lengthPrefixed_inj]
    · intro data
      rw [Forge.Opening.signedData, List.append_right_inj, lengthPrefixed_inj]
  surplus r x read nonempty behind := Response.decode_surplus read nonempty behind
  missing r n read cut := Response.decode_cut small read cut

/-- An agent answers with an empty signature of a kind `rs`, which is kept. -/
theorem answers_kept_sample :
    ([14, 0, 0, 0, 10, 0, 0, 0, 2, 114, 115, 0, 0, 0, 0] : Bytes).length < word32Span ∧
    Kept [14, 0, 0, 0, 10, 0, 0, 0, 2, 114, 115, 0, 0, 0, 0] ∧
    Response.decode [14, 0, 0, 0, 10, 0, 0, 0, 2, 114, 115, 0, 0, 0, 0] =
      .ok (.signature ⟨"rs", []⟩) := by
  have kept := answers_kept [14, 0, 0, 0, 10, 0, 0, 0, 2, 114, 115, 0, 0, 0, 0] (by decide)
  refine ⟨by decide, kept, ?_⟩
  exact (kept.spelled _).2 ⟨_, .signature ⟨"rs", []⟩ [], rfl⟩

/-- An octet behind the two strings of a signature is dropped. -/
theorem surplus_dropped :
    ∃ r, Response.decode [14, 0, 0, 0, 10, 0, 0, 0, 1, 97, 0, 0, 0, 0, 7] = .ok r ∧
      r.encode ≠
        Bytes.word32 15 ++ [14, 0, 0, 0, 10, 0, 0, 0, 1, 97, 0, 0, 0, 0, 7] := by
  have spelled :
      (Response.signature ⟨"a", []⟩).Spells [0, 0, 0, 10, 0, 0, 0, 1, 97, 0, 0, 0, 0, 7] :=
    .signature ⟨"a", []⟩ [7]
  refine ⟨.signature ⟨"a", []⟩, ?_, by decide⟩
  exact (Response.decode_eq_ok_iff (by decide)).2 ⟨_, spelled, rfl⟩

end ForgeGateway.Agent
