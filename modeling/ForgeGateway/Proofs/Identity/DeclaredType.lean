import ForgeGateway.Proofs.Agent.Reading
import ForgeGateway.Proofs.Identity.KeyLine
import ForgeGateway.Proofs.Text.Words

/-! # The type of a key as its line declares it

The first word of a line declares the type of the key on it, which the key itself names.  The two
are compared when the name stands in a wire text already, up to the first space of that.  Base64 has
no space, so what is compared is the name up to its first space: a line is read exactly if its first
word is the name, or all of the name before a space (`declared_type_checked`).  A word has no space,
so that in the second case it is never the whole name (`declares_other_type`). -/

namespace ForgeGateway.Identity

open ForgeGateway.Agent (Names keyAlgorithm_ok_iff)
open ForgeGateway.Text (FirstWord words_eq_cons_iff)

/-- The first two words of a line. -/
def Opens (line declared encoded : String) : Prop :=
  ∃ behind rest, FirstWord line.toList declared.toList behind ∧
    FirstWord behind encoded.toList rest

/-- The line declares a type, and gives a key in base64 that has this name. -/
structure Gives (line declared encoded : String) (blob : Bytes) (name : String) : Prop where
  opens : Opens line declared encoded
  key : Base64.Writes encoded.toList blob
  named : Names blob name

section
variable {line declared declared' encoded encoded' name name' wire : String} {blob blob' : Bytes}

theorem opens_iff : Opens line declared encoded ↔
    ∃ rest, Text.words line.toList = declared.toList :: encoded.toList :: rest := by
  constructor
  · rintro ⟨behind, rest, first, second⟩
    exact ⟨_, words_eq_cons_iff.2 ⟨behind, first, second.words_eq⟩⟩
  · rintro ⟨ws, words⟩
    obtain ⟨behind, first, words⟩ := words_eq_cons_iff.1 words
    obtain ⟨rest, second, -⟩ := words_eq_cons_iff.1 words
    exact ⟨behind, rest, first, second⟩

theorem Opens.space_not_mem (h : Opens line declared encoded) : ' ' ∉ declared.toList := by
  obtain ⟨behind, rest, first, -⟩ := h
  intro space
  exact absurd (first.word.solid ' ' space) (by decide)

theorem Gives.unique (h : Gives line declared encoded blob name)
    (h' : Gives line declared' encoded' blob' name') :
    declared = declared' ∧ encoded = encoded' ∧ name = name' := by
  obtain ⟨ws, words⟩ := opens_iff.1 h.opens
  obtain ⟨ws', words'⟩ := opens_iff.1 h'.opens
  obtain ⟨types, keys, -⟩ : declared.toList = declared'.toList ∧
      encoded.toList = encoded'.toList ∧ ws = ws' := by
    simpa using words.symm.trans words'
  have octets := h.key
  rw [keys, ← Base64.decode?_eq_some_iff] at octets
  have same : some blob = some blob' := octets.symm.trans (Base64.decode?_eq_some_iff.2 h'.key)
  have named := h.named
  rw [Option.some.inj same] at named
  exact ⟨String.toList_inj.1 types, String.toList_inj.1 keys, named.unique h'.named⟩

theorem beforeSpace_wire_iff (h : ' ' ∉ declared.toList) (encoded : String) :
    beforeSpace (name ++ " " ++ encoded) = declared ↔
      declared = name ∨ ∃ more, name = declared ++ " " ++ more := by
  have parts : (name ++ " " ++ encoded).toList = name.toList ++ ' ' :: encoded.toList := by simp
  rw [beforeSpace, ← String.toList_inj, String.toList_ofList, parts,
    Text.takeWhile_append_cons_eq_iff h, String.toList_inj]
  refine or_congr_right ⟨?_, ?_⟩
  · rintro ⟨more, split⟩
    refine ⟨String.ofList more, String.toList_inj.1 ?_⟩
    simpa using split
  · rintro ⟨more, rfl⟩
    exact ⟨more.toList, by simp⟩

/-- What is read from a line that gives a key. -/
theorem Gives.parseKeyLine_eq_ok_iff (h : Gives line declared encoded blob name) :
    parseKeyLine line = .ok wire ↔
      (declared = name ∨ ∃ more, name = declared ++ " " ++ more) ∧
        wire = name ++ " " ++ encoded := by
  obtain ⟨ws, words⟩ := opens_iff.1 h.opens
  have decoded : Base64.decode? encoded = some blob := Base64.decode?_eq_some_iff.2 h.key
  have written : Key.wireText blob = .ok (name ++ " " ++ encoded) :=
    Key.wireText_eq_ok_iff.2
      ⟨name, keyAlgorithm_ok_iff.2 h.named, by rw [Base64.writes_iff_eq_encode.1 h.key]⟩
  rw [← beforeSpace_wire_iff h.opens.space_not_mem encoded]
  simp only [parseKeyLine, words, String.ofList_toList, decoded, written]
  split
  next same => simp [same, eq_comm]
  next other => simp [other]

theorem exists_gives (h : parseKeyLine line = .ok wire) :
    ∃ declared encoded blob name, Gives line declared encoded blob name := by
  obtain ⟨declared, encoded, rest, blob, words, decoded, written, -⟩ := parseKeyLine_eq_ok_iff.1 h
  obtain ⟨name, named, -⟩ := Key.wireText_eq_ok_iff.1 written
  refine ⟨String.ofList declared, String.ofList encoded, blob, name, opens_iff.2 ⟨rest, ?_⟩,
    Base64.decode?_eq_some_iff.1 decoded, keyAlgorithm_ok_iff.1 named⟩
  rw [String.toList_ofList, String.toList_ofList, words]

end

/-- **The declared type.**  A line is read exactly if its second word is the base64 of a blob that
starts with a name, and its first word is this name or all of it before a space; the result is the
whole name, a space and the second word, whatever follows on the line.  So for a name without a space
the line is read exactly if its first word is the name. -/
theorem declared_type_checked (line : String) :
    (∀ wire, parseKeyLine line = .ok wire ↔
      ∃ declared encoded blob name, Gives line declared encoded blob name ∧
        (declared = name ∨ ∃ more, name = declared ++ " " ++ more) ∧
        wire = name ++ " " ++ encoded) ∧
    ∀ declared encoded blob name, Gives line declared encoded blob name → ' ' ∉ name.toList →
      ∀ wire, parseKeyLine line = .ok wire ↔ declared = name ∧ wire = name ++ " " ++ encoded := by
  refine ⟨fun wire => ⟨?_, ?_⟩, ?_⟩
  · intro read
    obtain ⟨declared, encoded, blob, name, gives⟩ := exists_gives read
    exact ⟨declared, encoded, blob, name, gives, gives.parseKeyLine_eq_ok_iff.1 read⟩
  · rintro ⟨declared, encoded, blob, name, gives, result⟩
    exact gives.parseKeyLine_eq_ok_iff.2 result
  · intro declared encoded blob name gives no_space wire
    have whole : ¬∃ more, name = declared ++ " " ++ more := by
      rintro ⟨more, rfl⟩
      exact no_space (by simp)
    rw [gives.parseKeyLine_eq_ok_iff, or_iff_left whole]

theorem gives_sample :
    Gives "  ssh-rsa\tAAAAB3NzaC1yc2E= laptop" "ssh-rsa" "AAAAB3NzaC1yc2E="
      [0, 0, 0, 7, 115, 115, 104, 45, 114, 115, 97] "ssh-rsa" where
  opens := opens_iff.2 ⟨["laptop".toList], by decide +kernel⟩
  key := Base64.decode?_eq_some_iff.1 (by decide +kernel)
  named := keyAlgorithm_ok_iff.1 (by decide +kernel)

/-- It is read, and what is read leaves the comment out. -/
theorem declared_type_checked_sample :
    Gives "  ssh-rsa\tAAAAB3NzaC1yc2E= laptop" "ssh-rsa" "AAAAB3NzaC1yc2E="
      [0, 0, 0, 7, 115, 115, 104, 45, 114, 115, 97] "ssh-rsa" ∧
    parseKeyLine "  ssh-rsa\tAAAAB3NzaC1yc2E= laptop" = .ok "ssh-rsa AAAAB3NzaC1yc2E=" :=
  ⟨gives_sample,
    ((declared_type_checked _).2 _ _ _ _ gives_sample (by decide) _).2 ⟨rfl, rfl⟩⟩

/-- The line gives a key whose type has another name, which only starts with the declared one. -/
theorem gives_spaced :
    Gives "ssh-rsa AAAACXNzaC1yc2EgeA==" "ssh-rsa" "AAAACXNzaC1yc2EgeA=="
      [0, 0, 0, 9, 115, 115, 104, 45, 114, 115, 97, 32, 120] "ssh-rsa x" where
  opens := opens_iff.2 ⟨[], by decide +kernel⟩
  key := Base64.decode?_eq_some_iff.1 (by decide +kernel)
  named := keyAlgorithm_ok_iff.1 (by decide +kernel)

/-- It is read, although the declared type is not the name of the key. -/
theorem declares_other_type :
    parseKeyLine "ssh-rsa AAAACXNzaC1yc2EgeA==" = .ok "ssh-rsa x AAAACXNzaC1yc2EgeA==" ∧
      ¬∃ declared encoded blob name,
        Gives "ssh-rsa AAAACXNzaC1yc2EgeA==" declared encoded blob name ∧ declared = name := by
  refine ⟨by decide +kernel, ?_⟩
  rintro ⟨declared, encoded, blob, name, gives, same⟩
  obtain ⟨rfl, -, rfl⟩ := gives_spaced.unique gives
  exact absurd same (by decide)

end ForgeGateway.Identity
