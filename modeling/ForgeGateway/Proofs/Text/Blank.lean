import ForgeGateway.Text.Blank
import Mathlib.Data.List.TakeWhile

/-! # White space around words

`trim` finds what stands between two stretches of white space (`trim_append`), and what it
drops is white space (`trim_spec`).  `cut` finds a first word and what follows the blank behind
it (`cut_append`, `eq_of_cut`). -/

namespace ForgeGateway.Text

/-- Nothing but white space. -/
def Blanks (cs : List Char) : Prop := ∀ c ∈ cs, isBlank c = true

/-- No blank at either end. -/
structure Tight (cs : List Char) : Prop where
  head : ∀ c ∈ cs.head?, isBlank c = false
  last : ∀ c ∈ cs.getLast?, isBlank c = false

theorem Blanks.append {l r : List Char} (hl : Blanks l) (hr : Blanks r) : Blanks (l ++ r) := by
  intro c hc
  rcases List.mem_append.1 hc with hc | hc
  · exact hl c hc
  · exact hr c hc

theorem Tight.of_solid {cs : List Char} (h : ∀ c ∈ cs, isBlank c = false) : Tight cs :=
  ⟨fun c hc => h c (List.mem_of_head? hc), fun c hc => h c (List.mem_of_getLast? hc)⟩

theorem tight_append {front back : List Char} (inner : List Char) (front_ne : front ≠ [])
    (back_ne : back ≠ []) (hf : ∀ c ∈ front, isBlank c = false)
    (hb : ∀ c ∈ back, isBlank c = false) : Tight (front ++ inner ++ back) := by
  obtain ⟨first, front, rfl⟩ := List.exists_cons_of_ne_nil front_ne
  constructor
  · intro c hc
    obtain rfl : first = c := by simpa using hc
    exact hf _ List.mem_cons_self
  · intro c hc
    rw [List.getLast?_append, List.getLast?_eq_some_getLast back_ne, Option.some_or] at hc
    cases hc
    exact hb _ (List.getLast_mem back_ne)

section
variable {l m r cs : List Char}

theorem dropWhile_blanks (hl : Blanks l) (hm : ∀ c ∈ m.head?, isBlank c = false) :
    (l ++ m).dropWhile isBlank = m := by
  rw [List.dropWhile_append_of_pos hl]
  cases m with
  | nil => rfl
  | cons c m => rw [List.dropWhile_cons_of_neg (by simp [hm c rfl])]

theorem trimEnd_append (hm : ∀ c ∈ m.getLast?, isBlank c = false) (hr : Blanks r) :
    trimEnd (m ++ r) = m := by
  have front : Blanks r.reverse := fun c hc => hr c (List.mem_reverse.1 hc)
  have head : ∀ c ∈ m.reverse.head?, isBlank c = false := by rwa [List.head?_reverse]
  rw [trimEnd, List.reverse_append, dropWhile_blanks front head, List.reverse_reverse]

theorem trim_append (hl : Blanks l) (hm : Tight m) (hr : Blanks r) : trim (l ++ m ++ r) = m := by
  rw [trim]
  cases m with
  | nil =>
      have all : Blanks (l ++ r) := hl.append hr
      have none_left : (l ++ [] ++ r).dropWhile isBlank = [] := by
        simpa using dropWhile_blanks (m := []) all (by simp)
      rw [none_left]
      rfl
  | cons c m =>
      rw [List.append_assoc, dropWhile_blanks hl (by simpa using hm.head),
        trimEnd_append hm.last hr]

theorem trimEnd_spec (cs : List Char) : ∃ r, Blanks r ∧ cs = trimEnd cs ++ r := by
  refine ⟨(cs.reverse.takeWhile isBlank).reverse, ?_, ?_⟩
  · intro c hc
    exact List.mem_takeWhile_imp (List.mem_reverse.1 hc)
  · rw [trimEnd, ← List.reverse_append, List.takeWhile_append_dropWhile, List.reverse_reverse]

theorem trim_spec (cs : List Char) : ∃ l r, Blanks l ∧ Blanks r ∧ cs = l ++ trim cs ++ r := by
  obtain ⟨r, hr, h⟩ := trimEnd_spec (cs.dropWhile isBlank)
  refine ⟨cs.takeWhile isBlank, r, fun c => List.mem_takeWhile_imp, hr, ?_⟩
  rw [trim, List.append_assoc, ← h, List.takeWhile_append_dropWhile]

theorem cut_append {b : Char} (hm : ∀ c ∈ m, isBlank c = false) (hb : isBlank b = true) :
    cut (m ++ b :: r) = (m, some r) := by
  have word : ∀ c ∈ m, (!isBlank c) = true := fun c hc => by rw [hm c hc]; rfl
  rw [cut, List.takeWhile_append_of_pos word, List.dropWhile_append_of_pos word]
  simp [hb]

theorem eq_of_cut (h : cut cs = (m, some r)) : ∃ b, isBlank b = true ∧ cs = m ++ b :: r := by
  rw [cut, Prod.mk.injEq] at h
  obtain ⟨rfl, h⟩ := h
  split at h
  next => cases h
  next b rest hd =>
    cases h
    have found : ¬(!isBlank b) = true := by
      have := List.head?_dropWhile_not (fun c => !isBlank c) cs
      simpa [hd] using this
    refine ⟨b, by simpa using found, ?_⟩
    rw [← hd, List.takeWhile_append_dropWhile]

end

end ForgeGateway.Text
