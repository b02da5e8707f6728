import ForgeGateway.Proofs.Text.Blank

/-! # The words of a text

`FirstWord` says what the first word of a text is, and what follows it, without reading the text
character by character: blanks may stand in front of it, it has none itself, and it goes on as far
as it can.  `words` takes the words off one by one (`words_eq_cons_iff`). -/

namespace ForgeGateway.Text

/-- A text that is not empty and has no blank. -/
structure IsWord (w : List Char) : Prop where
  ne_nil : w ≠ []
  solid : ∀ c ∈ w, isBlank c = false

/-- The first word of a text, and the text behind it. -/
structure FirstWord (cs w rest : List Char) : Prop where
  there : ∃ front, Blanks front ∧ cs = front ++ w ++ rest
  word : IsWord w
  ends : ∀ c ∈ rest.head?, isBlank c = true

section
variable {cs w rest : List Char} {ws : List (List Char)}

/-! ### Reading -/

theorem wordsFrom_append (word : List Char) (hw : ∀ c ∈ w, isBlank c = false) :
    wordsFrom word (w ++ rest) = wordsFrom (w.reverse ++ word) rest := by
  induction w generalizing word with
  | nil => rfl
  | cons c w ih =>
      rw [List.forall_mem_cons] at hw
      rw [List.cons_append, wordsFrom, if_neg (by simp [hw.1]), ih (c :: word) hw.2,
        List.reverse_cons, List.append_assoc, List.singleton_append]

theorem words_append {front : List Char} (hf : Blanks front) : words (front ++ cs) = words cs := by
  induction front with
  | nil => rfl
  | cons c front ih =>
      have first : isBlank c = true := hf c List.mem_cons_self
      have skipped : words (c :: (front ++ cs)) = words (front ++ cs) := by
        rw [words, wordsFrom, if_pos first]
        rfl
      rw [List.cons_append, skipped, ih fun d hd => hf d (.tail c hd)]

/-- A word ends at a blank, or with the text. -/
theorem wordsFrom_of_ends {word : List Char} (ne : word ≠ [])
    (ends : ∀ c ∈ rest.head?, isBlank c = true) :
    wordsFrom word rest = word.reverse :: words rest := by
  have open_word : ¬word.isEmpty = true := by simpa using ne
  cases rest with
  | nil => rw [wordsFrom, if_neg open_word]; rfl
  | cons c rest =>
      have blank : isBlank c = true := ends c rfl
      rw [wordsFrom, if_pos blank, if_neg open_word, words, wordsFrom, if_pos blank]
      rfl

theorem FirstWord.words_eq (h : FirstWord cs w rest) : words cs = w :: words rest := by
  obtain ⟨front, hf, rfl⟩ := h.there
  have ne : w.reverse ≠ [] := by simpa using h.word.ne_nil
  rw [List.append_assoc, words_append hf, words, wordsFrom_append [] h.word.solid,
    List.append_nil, wordsFrom_of_ends ne h.ends, List.reverse_reverse]

/-! ### Every text -/

theorem blanks_or_firstWord (cs : List Char) : Blanks cs ∨ ∃ w rest, FirstWord cs w rest := by
  by_cases all : Blanks cs
  · exact .inl all
  · refine .inr ⟨(cs.dropWhile isBlank).takeWhile (!isBlank ·),
      (cs.dropWhile isBlank).dropWhile (!isBlank ·), ⟨cs.takeWhile isBlank, ?_, ?_⟩, ⟨?_, ?_⟩, ?_⟩
    · exact fun c => List.mem_takeWhile_imp
    · rw [List.append_assoc, List.takeWhile_append_dropWhile, List.takeWhile_append_dropWhile]
    · intro empty
      have head := List.head?_dropWhile_not isBlank cs
      cases left : cs.dropWhile isBlank with
      | nil => exact all (by simpa [Blanks] using List.dropWhile_eq_nil_iff.1 left)
      | cons c behind =>
          rw [left] at head empty
          rw [List.takeWhile_cons_of_pos (by simpa using head)] at empty
          cases empty
    · intro c hc
      simpa using List.mem_takeWhile_imp hc
    · intro c hc
      have head := List.head?_dropWhile_not (!isBlank ·) (cs.dropWhile isBlank)
      rw [Option.mem_def.1 hc] at head
      simpa using head

theorem words_of_blanks (h : Blanks cs) : words cs = [] := by
  rw [← List.append_nil cs, words_append h]
  rfl

/-- The words of a text are the first one and those behind it. -/
theorem words_eq_cons_iff : words cs = w :: ws ↔ ∃ rest, FirstWord cs w rest ∧ words rest = ws := by
  constructor
  · intro h
    rcases blanks_or_firstWord cs with blank | ⟨w', rest, first⟩
    · rw [words_of_blanks blank] at h
      cases h
    · rw [first.words_eq] at h
      cases h
      exact ⟨rest, first, rfl⟩
  · rintro ⟨rest, first, rfl⟩
    exact first.words_eq

end

end ForgeGateway.Text
