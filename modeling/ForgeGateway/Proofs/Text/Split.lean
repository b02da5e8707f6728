import ForgeGateway.Text.Split

/-! # Cutting and joining

`split` and `join` undo each other on pieces without the separator (`split_join`).  What a
joined text ends in, and what its characters are, is read off its pieces. -/

namespace ForgeGateway.Text

section
variable {sep c : Char} {cs p : List Char} {ps : List (List Char)}

theorem split_append_cons (h : sep ∉ p) (rest : List Char) :
    split sep (p ++ sep :: rest) = p :: split sep rest := by
  induction p with
  | nil => simp [split]
  | cons c p ih =>
      rw [List.mem_cons, not_or] at h
      rw [List.cons_append, split, if_neg (Ne.symm h.1), ih h.2]

theorem split_of_not_mem (h : sep ∉ p) : split sep p = [p] := by
  induction p with
  | nil => rfl
  | cons c p ih =>
      rw [List.mem_cons, not_or] at h
      rw [split, if_neg (Ne.symm h.1), ih h.2]

theorem join_cons (h : ps ≠ []) : join sep (p :: ps) = p ++ sep :: join sep ps := by
  cases ps with
  | nil => exact absurd rfl h
  | cons q qs => rfl

theorem eq_of_append_cons_eq {p' t t' : List Char} (ht : sep ∉ t) (ht' : sep ∉ t')
    (same : p ++ sep :: t = p' ++ sep :: t') : t = t' := by
  have shorter : ∀ u v q : List Char, sep ∉ u → sep :: u = q ++ sep :: v → u = v := by
    intro u v q hu parts
    cases q with
    | nil => exact List.tail_eq_of_cons_eq parts
    | cons c q =>
        obtain rfl : u = q ++ sep :: v := List.tail_eq_of_cons_eq parts
        exact absurd (List.mem_append_right q List.mem_cons_self) hu
  rcases List.append_eq_append_iff.1 same with ⟨q, -, parts⟩ | ⟨q, -, parts⟩
  · exact shorter t t' q ht parts
  · exact (shorter t' t q ht' parts).symm

/-- What stands before the first separator: all of the front, or all of it before one in it. -/
theorem takeWhile_append_cons_eq_iff (h : sep ∉ p) (rest : List Char) :
    (cs ++ sep :: rest).takeWhile (· != sep) = p ↔ p = cs ∨ ∃ more, cs = p ++ sep :: more := by
  induction cs generalizing p with
  | nil => simp [eq_comm]
  | cons c cs ih =>
      by_cases hc : c = sep
      · subst hc
        rw [List.cons_append, List.takeWhile_cons_of_neg (by simp)]
        cases p with
        | nil => simp
        | cons d p =>
            rw [List.mem_cons, not_or] at h
            simp [h.1, Ne.symm h.1]
      · rw [List.cons_append, List.takeWhile_cons_of_pos (by simpa using hc)]
        cases p with
        | nil => simp [hc]
        | cons d p =>
            rw [List.mem_cons, not_or] at h
            simp only [List.cons.injEq, ih h.2, List.cons_append, exists_and_left]
            rw [eq_comm (a := c), ← and_or_left]

theorem split_join (h : ps ≠ []) (hps : ∀ p ∈ ps, sep ∉ p) : split sep (join sep ps) = ps := by
  induction ps with
  | nil => exact absurd rfl h
  | cons p ps ih =>
      rw [List.forall_mem_cons] at hps
      by_cases last : ps = []
      · subst last
        exact split_of_not_mem hps.1
      · rw [join_cons last, split_append_cons hps.1, ih last hps.2]

theorem of_mem_split (h : p ∈ split sep cs) : sep ∉ p ∧ ∀ c ∈ p, c ∈ cs := by
  induction cs generalizing p with
  | nil =>
      obtain rfl : p = [] := by simpa [split] using h
      simp
  | cons d rest ih =>
      unfold split at h
      split at h
      next hd =>
        rcases List.mem_cons.1 h with rfl | h
        · simp
        · exact ⟨(ih h).1, fun c hc => List.mem_cons_of_mem d ((ih h).2 c hc)⟩
      next hd =>
        split at h
        next hs => exact absurd hs (split_ne_nil sep rest)
        next q qs hs =>
          rcases List.mem_cons.1 h with rfl | h
          · have hq := ih (hs ▸ List.mem_cons_self)
            refine ⟨?_, ?_⟩
            · rw [List.mem_cons, not_or]
              exact ⟨Ne.symm hd, hq.1⟩
            · intro c hc
              rcases List.mem_cons.1 hc with rfl | hc
              · exact List.mem_cons_self
              · exact List.mem_cons_of_mem d (hq.2 c hc)
          · have hp := ih (hs ▸ List.mem_cons_of_mem q h)
            exact ⟨hp.1, fun c hc => List.mem_cons_of_mem d (hp.2 c hc)⟩

theorem mem_join (h : c ∈ join sep ps) : c = sep ∨ ∃ p ∈ ps, c ∈ p := by
  induction ps with
  | nil => cases h
  | cons p ps ih =>
      by_cases last : ps = []
      · subst last
        exact .inr ⟨p, List.mem_cons_self, h⟩
      · rw [join_cons last, List.mem_append, List.mem_cons] at h
        rcases h with h | h | h
        · exact .inr ⟨p, List.mem_cons_self, h⟩
        · exact .inl h
        · rcases ih h with h | ⟨q, hq, hc⟩
          · exact .inl h
          · exact .inr ⟨q, List.mem_cons_of_mem p hq, hc⟩

/-- What ends a joined text without the separator ends its last piece. -/
theorem suffix_join_iff {pat : List Char} (hpat : sep ∉ pat) (h : ps ≠ []) :
    pat <:+ join sep ps ↔ pat <:+ ps.getLast h := by
  induction ps with
  | nil => exact absurd rfl h
  | cons p ps ih =>
      by_cases last : ps = []
      · subst last
        rfl
      · rw [join_cons last, List.getLast_cons last, ← ih last]
        constructor
        · intro hs
          have tail : sep :: join sep ps <:+ p ++ sep :: join sep ps := List.suffix_append _ _
          rcases List.suffix_or_suffix_of_suffix hs tail with inside | longer
          · rcases List.suffix_cons_iff.1 inside with rfl | inside
            · exact absurd List.mem_cons_self hpat
            · exact inside
          · exact absurd (longer.subset List.mem_cons_self) hpat
        · rintro ⟨front, hf⟩
          exact ⟨p ++ sep :: front, by simp [hf]⟩

/-- A front without the separator ends before it. -/
theorem prefix_append_cons_iff {pat : List Char} (hpat : sep ∉ pat) (p rest : List Char) :
    pat <+: p ++ sep :: rest ↔ pat <+: p := by
  refine ⟨?_, List.prefix_append_of_prefix⟩
  intro hp
  rcases List.prefix_or_prefix_of_prefix hp (List.prefix_append p (sep :: rest)) with h | h
  · exact h
  · obtain ⟨more, rfl⟩ := h
    cases more with
    | nil => simp
    | cons d more =>
        rw [List.prefix_append_right_inj, List.cons_prefix_cons] at hp
        exact absurd (hp.1 ▸ List.mem_append_right p List.mem_cons_self) hpat

/-- What occurs in a text without the separator occurs on one side of it. -/
theorem infix_append_cons_iff {pat rest : List Char} (hpat : sep ∉ pat) :
    pat <:+: p ++ sep :: rest ↔ pat <:+: p ∨ pat <:+: rest := by
  induction p with
  | nil =>
      have front := prefix_append_cons_iff hpat [] rest
      rw [List.nil_append] at front ⊢
      rw [List.infix_cons_iff, front, List.infix_nil, List.prefix_nil]
  | cons c p ih =>
      have front := prefix_append_cons_iff hpat (c :: p) rest
      rw [List.cons_append] at front ⊢
      rw [List.infix_cons_iff, front, List.infix_cons_iff, or_assoc]
      exact or_congr_right ih

/-- What occurs in a joined text without the separator occurs in one of its pieces. -/
theorem infix_join_iff {pat : List Char} (hpat : sep ∉ pat) (ne : pat ≠ []) :
    pat <:+: join sep ps ↔ ∃ p ∈ ps, pat <:+: p := by
  induction ps with
  | nil => simp [join, ne]
  | cons p ps ih =>
      by_cases last : ps = []
      · subst last
        simp [join]
      · rw [join_cons last, infix_append_cons_iff hpat, ih]
        simp

theorem occursIn_iff {pat : List Char} : occursIn pat cs = true ↔ pat <:+: cs := by
  induction cs with
  | nil => simp [occursIn]
  | cons c cs ih => simp [occursIn, ih, List.infix_cons_iff]
end

section
variable {sep : Char} {f : Char → Char}

/-- A change of characters that leaves the separator alone, and makes no new one, does not move
the cuts. -/
theorem split_map (hf : ∀ c, f c = sep ↔ c = sep) (cs : List Char) :
    split sep (cs.map f) = (split sep cs).map (List.map f) := by
  induction cs with
  | nil => rfl
  | cons c cs ih =>
      by_cases h : c = sep
      · simp only [List.map_cons, split, if_pos ((hf c).2 h), if_pos h, ih, List.map_nil]
      · simp only [List.map_cons, split, if_neg (mt (hf c).1 h), if_neg h, ih]
        cases split sep cs with
        | nil => rfl
        | cons p ps => rfl

theorem isPrefixOf_map_append {pat : List Char} (hf : ∀ d ∈ pat, ∀ c, f c = d ↔ c = d)
    (cs rest : List Char) : pat.isPrefixOf (cs.map f ++ rest) = pat.isPrefixOf (cs ++ rest) := by
  induction pat generalizing cs with
  | nil => rfl
  | cons d pat ih =>
      cases cs with
      | nil => rfl
      | cons c cs =>
          rw [List.forall_mem_cons] at hf
          have first : (d == f c) = (d == c) := by
            rw [Bool.eq_iff_iff, beq_iff_eq, beq_iff_eq, eq_comm, hf.1 c, eq_comm]
          rw [List.map_cons, List.cons_append, List.cons_append, List.isPrefixOf_cons_cons,
            List.isPrefixOf_cons_cons, first, ih hf.2]

/-- Such a change of the front of a text does not matter to what occurs in it. -/
theorem occursIn_map_append {pat : List Char} (hf : ∀ d ∈ pat, ∀ c, f c = d ↔ c = d)
    (cs rest : List Char) : occursIn pat (cs.map f ++ rest) = occursIn pat (cs ++ rest) := by
  induction cs with
  | nil => rfl
  | cons c cs ih =>
      have front := isPrefixOf_map_append hf (c :: cs) rest
      rw [List.map_cons, List.cons_append, List.cons_append] at front
      rw [List.map_cons, List.cons_append, List.cons_append, occursIn, occursIn, front, ih]

end

end ForgeGateway.Text
