import ForgeGateway.Identity.KeyLine
import ForgeGateway.Proofs.Bytes.Base64
import ForgeGateway.Proofs.Text.Split

/-! # What a line of authorised keys carries

The wire text of a key is the name of its algorithm, a space, and the base64 of the blob.  The name
is whatever stands in the blob, with spaces perhaps, but base64 has none: behind the last space of
a wire text stands the whole blob, so no two blobs share a wire text (`Key.wireText_inj`).  A line
`Carries` the octets that its second word says in base64; what is read from it is their wire text
(`wireText_of_carries`), and nothing else on the line makes a difference to that. -/

namespace ForgeGateway

namespace Key

theorem wireText_eq_ok_iff {blob : Bytes} {wire : String} : wireText blob = .ok wire ↔
    ∃ name, Agent.keyAlgorithm blob = .ok name ∧ wire = name ++ " " ++ Base64.encode blob := by
  unfold wireText
  cases Agent.keyAlgorithm blob with
  | error fault => simp
  | ok name => simp [eq_comm]

theorem wireText_inj {blob blob' : Bytes} {wire : String} (h : wireText blob = .ok wire)
    (h' : wireText blob' = .ok wire) : blob = blob' := by
  obtain ⟨name, -, rfl⟩ := wireText_eq_ok_iff.1 h
  obtain ⟨name', -, same⟩ := wireText_eq_ok_iff.1 h'
  have no_space : ∀ b : Bytes, ' ' ∉ (Base64.encode b).toList := by
    intro b
    rw [Base64.encode, String.toList_ofList]
    exact (Base64.writes_groups b).space_not_mem
  have parts : name.toList ++ ' ' :: (Base64.encode blob).toList =
      name'.toList ++ ' ' :: (Base64.encode blob').toList := by
    simpa using congrArg String.toList same
  have texts := Text.eq_of_append_cons_eq (no_space blob) (no_space blob') parts
  rw [String.toList_inj] at texts
  rw [← Option.some_inj, ← Base64.decode?_encode, texts, Base64.decode?_encode]

end Key

namespace Identity

/-- The second word of the line is the base64 of these octets. -/
def Carries (line : String) (blob : Bytes) : Prop :=
  ∃ algorithm encoded rest, Text.words line.toList = algorithm :: encoded :: rest ∧
    Base64.decode? (String.ofList encoded) = some blob

section
variable {line wire : String} {blob blob' : Bytes}

theorem Carries.unique (h : Carries line blob) (h' : Carries line blob') : blob = blob' := by
  obtain ⟨_, encoded, _, words, decoded⟩ := h
  obtain ⟨_, encoded', _, words', decoded'⟩ := h'
  obtain ⟨-, rfl, -⟩ : _ ∧ encoded = encoded' ∧ _ := by simpa using words.symm.trans words'
  exact Option.some.inj (decoded.symm.trans decoded')

/-- What is read from a line: the wire text of what it carries, if its first word is what stands
before the first space of that. -/
theorem parseKeyLine_eq_ok_iff : parseKeyLine line = .ok wire ↔
    ∃ algorithm encoded rest blob, Text.words line.toList = algorithm :: encoded :: rest ∧
      Base64.decode? (String.ofList encoded) = some blob ∧ Key.wireText blob = .ok wire ∧
      beforeSpace wire = String.ofList algorithm := by
  constructor
  · intro h
    unfold parseKeyLine at h
    split at h
    next algorithm encoded rest words =>
      split at h
      next => cases h
      next blob decoded =>
      split at h
      next => cases h
      next wire' written =>
      split at h
      next declared =>
        cases h
        exact ⟨algorithm, encoded, rest, blob, words, decoded, written, declared⟩
      next => cases h
    next => cases h
  · rintro ⟨algorithm, encoded, rest, blob, words, decoded, written, declared⟩
    simp only [parseKeyLine, words, decoded, written, declared, if_true]

theorem exists_carried (h : parseKeyLine line = .ok wire) :
    ∃ blob, Carries line blob ∧ Key.wireText blob = .ok wire := by
  obtain ⟨algorithm, encoded, rest, blob, words, decoded, written, -⟩ := parseKeyLine_eq_ok_iff.1 h
  exact ⟨blob, ⟨algorithm, encoded, rest, words, decoded⟩, written⟩

theorem wireText_of_carries (h : parseKeyLine line = .ok wire) (carries : Carries line blob) :
    Key.wireText blob = .ok wire := by
  obtain ⟨blob', carries', written⟩ := exists_carried h
  rw [carries.unique carries', written]

theorem carries_iff (h : parseKeyLine line = .ok wire) :
    Carries line blob ↔ Key.wireText blob = .ok wire := by
  refine ⟨wireText_of_carries h, ?_⟩
  intro written
  obtain ⟨blob', carries, written'⟩ := exists_carried h
  rw [Key.wireText_inj written written']
  exact carries

end

end Identity

end ForgeGateway
