import ForgeGateway.Key.Public
import ForgeGateway.Proofs.Agent.Reading

/-! # The names of public keys

A key blob says what kind of key it holds.  The key that is read from it has the name that stands
there (`Public.names_of_ofBlob?`), and is written under it again (`Public.names_blob`); so the
algorithm of a key is the name that anyone else reads from its blob.  What is asked of other ways to
read and write keys is that they keep the name (`Format.KeepsNames`). -/

namespace ForgeGateway.Key

open ForgeGateway.Agent (lengthPrefixed Names word32Span)

namespace Wire

variable {b s rest : Bytes} {name : String}

theorem string?_eq_some_iff :
    string? b = some (s, rest) ↔ s.length < word32Span ∧ b = lengthPrefixed s ++ rest := by
  unfold string?
  constructor
  · intro h
    split at h
    next n behind there =>
      obtain ⟨rfl, short⟩ := Bytes.word32_of_word32? there
      split at h
      next => cases h
      next enough =>
        cases h
        have length : (behind.take n).length = n := List.length_take_of_le (by omega)
        refine ⟨by rwa [length], ?_⟩
        rw [lengthPrefixed, length, List.append_assoc, List.take_append_drop]
    next => cases h
  · rintro ⟨short, rfl⟩
    rw [lengthPrefixed, List.append_assoc, Bytes.word32?_word32_append short]
    simp

theorem text?_eq_some_iff : text? b = some (name, rest) ↔
    (Bytes.ofString name).length < word32Span ∧
      b = lengthPrefixed (Bytes.ofString name) ++ rest := by
  rw [← string?_eq_some_iff]
  simp only [text?, Option.bind_eq_bind, Option.bind_eq_some_iff, Utf8.decode?_eq_some_iff]
  constructor
  · rintro ⟨⟨s, behind⟩, read, t, rfl, same⟩
    cases same
    exact read
  · intro read
    exact ⟨_, read, name, rfl, rfl⟩

end Wire

namespace Public

variable {b : Bytes} {key : Public}

def algorithms : List String :=
  ["ssh-ed25519", "ssh-rsa", "ecdsa-sha2-nistp256", "ecdsa-sha2-nistp384", "ecdsa-sha2-nistp521"]

theorem algorithm_mem (key : Public) : key.algorithm ∈ algorithms := by
  rcases key with point | ⟨exponent, modulus⟩ | ⟨curve, point⟩
  · simp [algorithm, algorithms]
  · simp [algorithm, algorithms]
  · cases curve <;> simp [algorithm, algorithms, Curve.name]

/-- They can all stand at the start of a blob. -/
theorem fits_of_mem_algorithms : ∀ name ∈ algorithms,
    name ≠ "" ∧ (Bytes.ofString name).length < word32Span := by
  decide +kernel

theorem text?_of_ofBlob? (h : ofBlob? b = some key) :
    ∃ rest, Wire.text? b = some (key.algorithm, rest) := by
  simp only [ofBlob?, Option.bind_eq_bind, Option.bind_eq_some_iff] at h
  obtain ⟨⟨name, rest⟩, read, h⟩ := h
  refine ⟨rest, read.trans ?_⟩
  suffices named : name = key.algorithm by rw [named]
  split at h
  next ed25519 =>
    obtain ⟨⟨point, behind⟩, -, h⟩ := Option.bind_eq_some_iff.1 h
    split at h
    next => cases h; exact ed25519
    next => cases h
  next rsa =>
    obtain ⟨⟨exponent, behind⟩, -, h⟩ := Option.bind_eq_some_iff.1 h
    obtain ⟨⟨modulus, behind⟩, -, h⟩ := Option.bind_eq_some_iff.1 h
    split at h
    next => cases h; exact rsa
    next => cases h
  next =>
    obtain ⟨curve, found, h⟩ := Option.bind_eq_some_iff.1 h
    obtain ⟨⟨curveName, behind⟩, -, h⟩ := Option.bind_eq_some_iff.1 h
    obtain ⟨⟨octets, behind⟩, -, h⟩ := Option.bind_eq_some_iff.1 h
    obtain ⟨point, -, h⟩ := Option.bind_eq_some_iff.1 h
    have named := List.find?_some found
    split at h
    next => cases h; exact beq_iff_eq.1 named
    next => cases h

/-- A key that is read from a blob has the name at the start of the blob. -/
theorem names_of_ofBlob? (h : ofBlob? b = some key) : Names b key.algorithm := by
  obtain ⟨rest, read⟩ := text?_of_ofBlob? h
  obtain ⟨short, rfl⟩ := Wire.text?_eq_some_iff.1 read
  exact ⟨(fits_of_mem_algorithms _ key.algorithm_mem).1, short, List.prefix_append _ _⟩

theorem names_blob (key : Public) : Names key.blob key.algorithm := by
  obtain ⟨named, short⟩ := fits_of_mem_algorithms _ key.algorithm_mem
  exact ⟨named, short, List.prefix_append _ _⟩

end Public

/-- A key is written under the name that it was read with. -/
def Format.KeepsNames {κ : Type} (format : Format κ) : Prop :=
  ∀ hash b key name, format.read? hash b = some key → Names b name → Names (format.blob key) name

theorem Public.keepsNames_format : format.KeepsNames := by
  intro hash b key name read named
  rw [named.unique (names_of_ofBlob? read)]
  exact key.names_blob

end ForgeGateway.Key
