import ForgeGateway.Proofs.Json.Grammar

/-! # Reading JSON texts

`Value.parse?` reads exactly the texts of the grammar, and gives the value of which a text is one
(`parse?_eq_some_iff`); so a text has one value.  Both directions go by induction on the fuel of
the three readers at once (`SoundAt`, `CompleteAt`).  A text of `n` octets needs no more fuel than
`2 * n`, for each bracket and each comma is an octet of its own. -/

namespace ForgeGateway.Json

/-! ### Words and brackets -/

section
variable {word : String} {b s t front : Bytes} {v : Value} {x : UInt8} {fuel : Nat}

theorem after?_append (word : String) (t : Bytes) :
    after? word (Bytes.ofString word ++ t) = some t := by
  unfold after?
  rw [if_pos (List.isPrefixOf_iff_prefix.2 (List.prefix_append _ t)), List.drop_left]

theorem eq_of_after? (h : after? word b = some t) : b = Bytes.ofString word ++ t := by
  simp only [after?] at h
  split at h
  · next starts =>
      obtain ⟨rest, rfl⟩ := List.isPrefixOf_iff_prefix.1 starts
      rw [List.drop_left] at h
      cases h
      rfl
  · cases h

theorem word_of_after? {w : Value} (h : (after? word b).map (v, ·) = some (w, t)) :
    w = v ∧ b = Bytes.ofString word ++ t := by
  obtain ⟨t', read, same⟩ := Option.map_eq_some_iff.1 h
  cases same
  exact ⟨rfl, eq_of_after? read⟩

theorem value?_skipBlanks (fuel : Nat) (b : Bytes) :
    value? fuel (skipBlanks b) = value? fuel b := by
  cases fuel with
  | zero => rfl
  | succ fuel => simp only [value?, skipBlanks_skipBlanks]

theorem items?_skipBlanks (fuel : Nat) (b : Bytes) :
    items? fuel (skipBlanks b) = items? fuel b := by
  cases fuel with
  | zero => rfl
  | succ fuel => simp only [items?, value?_skipBlanks]

theorem members?_skipBlanks (fuel : Nat) (b : Bytes) :
    members? fuel (skipBlanks b) = members? fuel b := by
  cases fuel with
  | zero => rfl
  | succ fuel => simp only [members?, skipBlanks_skipBlanks]

theorem exists_of_skipBlanks (h : skipBlanks b = t) : ∃ front, Blanks front ∧ b = front ++ t := by
  obtain ⟨front, blanks, split⟩ := exists_blanks b
  rw [h] at split
  exact ⟨front, blanks, split⟩

end

/-! ### What is read is a text -/

/-- With this fuel, what is read are texts of the grammar. -/
structure SoundAt (fuel : Nat) : Prop where
  value : ∀ {b v t}, value? fuel b = some (v, t) →
    ∃ front s, Blanks front ∧ v.Spells s ∧ b = front ++ (s ++ t)
  items : ∀ {b vs t}, items? fuel b = some (vs, t) →
    ∃ s, ItemsText vs s ∧ b = s ++ 93 :: t
  members : ∀ {b ms t}, members? fuel b = some (ms, t) →
    ∃ s, MembersText ms s ∧ b = s ++ 125 :: t

namespace SoundAt

variable {fuel : Nat} {b t : Bytes}

/-- A value up to the token behind it. -/
theorem text (sound : SoundAt fuel) {v : Value} {rest : Bytes} {x : UInt8}
    (read : value? fuel b = some (v, rest)) (token : skipBlanks rest = x :: t) :
    ∃ s, v.Text s ∧ b = s ++ x :: t := by
  obtain ⟨front, s, before, spells, rfl⟩ := sound.value read
  obtain ⟨back, behind, rfl⟩ := exists_of_skipBlanks token
  refine ⟨front ++ (s ++ back), .mk before spells behind, ?_⟩
  rw [List.append_assoc, List.append_assoc]

theorem value_succ (sound : SoundAt fuel) {v : Value} (h : value? (fuel + 1) b = some (v, t)) :
    ∃ front s, Blanks front ∧ v.Spells s ∧ b = front ++ (s ++ t) := by
  obtain ⟨front, blanks, split⟩ := exists_blanks b
  suffices ∃ s, v.Spells s ∧ skipBlanks b = s ++ t by
    obtain ⟨s, spells, rest⟩ := this
    rw [rest] at split
    exact ⟨front, s, blanks, spells, split⟩
  rw [value?] at h
  split at h
  · next rest head =>
      obtain ⟨rfl, rfl⟩ := word_of_after? h
      exact ⟨_, .null, head⟩
  · next rest head =>
      obtain ⟨rfl, rfl⟩ := word_of_after? h
      exact ⟨_, .yes, head⟩
  · next rest head =>
      obtain ⟨rfl, rfl⟩ := word_of_after? h
      exact ⟨_, .no, head⟩
  · next rest head =>
      obtain ⟨⟨l, t'⟩, read, same⟩ := Option.map_eq_some_iff.1 h
      cases same
      obtain ⟨s, spells, rfl⟩ := Literal.spells_of_scan? read
      refine ⟨_, .string spells, ?_⟩
      rw [head]
      simp
  · next rest head =>
      split at h
      · next rest' close =>
          cases h
          obtain ⟨s, blanks, rfl⟩ := exists_of_skipBlanks close
          refine ⟨_, .noItems blanks, ?_⟩
          rw [head]
          simp
      · obtain ⟨⟨vs, t'⟩, read, same⟩ := Option.map_eq_some_iff.1 h
        cases same
        rw [items?_skipBlanks] at read
        obtain ⟨s, items, rfl⟩ := sound.items read
        refine ⟨_, .array items, ?_⟩
        rw [head]
        simp
  · next rest head =>
      split at h
      · next rest' close =>
          cases h
          obtain ⟨s, blanks, rfl⟩ := exists_of_skipBlanks close
          refine ⟨_, .noMembers blanks, ?_⟩
          rw [head]
          simp
      · obtain ⟨⟨ms, t'⟩, read, same⟩ := Option.map_eq_some_iff.1 h
        cases same
        rw [members?_skipBlanks] at read
        obtain ⟨s, members, rfl⟩ := sound.members read
        refine ⟨_, .object members, ?_⟩
        rw [head]
        simp
  · obtain ⟨⟨ds, t'⟩, read, same⟩ := Option.map_eq_some_iff.1 h
    cases same
    obtain ⟨number, rest⟩ := number_of_number? read
    exact ⟨ds, .number number, rest⟩

theorem items_succ (sound : SoundAt fuel) {vs : List Value}
    (h : items? (fuel + 1) b = some (vs, t)) : ∃ s, ItemsText vs s ∧ b = s ++ 93 :: t := by
  rw [items?] at h
  split at h
  · cases h
  · next v rest read =>
      split at h
      · next rest' comma =>
          obtain ⟨⟨more, t'⟩, readMore, same⟩ := Option.map_eq_some_iff.1 h
          cases same
          obtain ⟨s, text, rfl⟩ := sound.text read comma
          obtain ⟨s', items, rfl⟩ := sound.items readMore
          refine ⟨s ++ 44 :: s', .more text items, ?_⟩
          simp
      · next rest' close =>
          cases h
          obtain ⟨s, text, rfl⟩ := sound.text read close
          exact ⟨s, .one text, rfl⟩
      · cases h

theorem members_succ (sound : SoundAt fuel) {ms : List (Literal × Value)}
    (h : members? (fuel + 1) b = some (ms, t)) : ∃ s, MembersText ms s ∧ b = s ++ 125 :: t := by
  rw [members?] at h
  split at h
  · next rest quote =>
      split at h
      · cases h
      · next key rest' scan =>
          split at h
          · next rest'' colon =>
              split at h
              · cases h
              · next v rest''' read =>
                  obtain ⟨front, before, rfl⟩ := exists_of_skipBlanks quote
                  obtain ⟨k, name, rfl⟩ := Literal.spells_of_scan? scan
                  obtain ⟨mid, between, rfl⟩ := exists_of_skipBlanks colon
                  split at h
                  · next rest₄ comma =>
                      obtain ⟨⟨more, t'⟩, readMore, same⟩ := Option.map_eq_some_iff.1 h
                      cases same
                      obtain ⟨s, text, rfl⟩ := sound.text read comma
                      obtain ⟨s', members, rfl⟩ := sound.members readMore
                      refine ⟨_, .more (.mk before name between text) members, ?_⟩
                      simp
                  · next rest₄ close =>
                      cases h
                      obtain ⟨s, text, rfl⟩ := sound.text read close
                      refine ⟨_, .one (.mk before name between text), ?_⟩
                      simp
                  · cases h
          · cases h
  · cases h

end SoundAt

theorem soundAt (fuel : Nat) : SoundAt fuel := by
  induction fuel with
  | zero => constructor <;> intro _ _ _ h <;> cases h
  | succ fuel ih => exact ⟨ih.value_succ, ih.items_succ, ih.members_succ⟩

/-! ### A text is read -/

section
variable {b s t front back : Bytes} {v : Value} {x : UInt8}

theorem not_blank_of_digit (h : isDigit x = true) : isBlank x = false := by
  simp only [isDigit, Bool.and_eq_true, decide_eq_true_eq] at h
  simp only [isBlank, Bool.or_eq_false_iff, beq_eq_false_iff_ne]
  refine ⟨⟨⟨?_, ?_⟩, ?_⟩, ?_⟩ <;> rintro rfl <;> simp at h

theorem Value.Spells.head (h : v.Spells s) :
    ∃ x rest, s = x :: rest ∧ isBlank x = false ∧ x ≠ 93 := by
  cases h with
  | null | yes | no => exact ⟨_, _, rfl, by decide, by decide⟩
  | string | noItems | array | noMembers | object => exact ⟨_, _, rfl, by decide, by decide⟩
  | number h =>
      obtain ⟨x, rest, rfl, rfl | digit⟩ := h.head
      · exact ⟨45, rest, rfl, by decide, by decide⟩
      · refine ⟨x, rest, rfl, not_blank_of_digit digit, ?_⟩
        rintro rfl
        simp [isDigit] at digit

theorem ItemsText.head {vs : List Value} (h : ItemsText vs s) (t : Bytes) :
    ∃ x rest, skipBlanks (s ++ t) = x :: rest ∧ x ≠ 93 := by
  have text {v : Value} {s : Bytes} (h : v.Text s) (t : Bytes) :
      ∃ x rest, skipBlanks (s ++ t) = x :: rest ∧ x ≠ 93 := by
    cases h with
    | @mk _ front s back before spells behind =>
        obtain ⟨x, rest, rfl, solid, open'⟩ := spells.head
        rw [List.append_assoc, skipBlanks_append before]
        exact ⟨x, _, skipBlanks_cons solid _, open'⟩
  cases h with
  | one h => exact text h t
  | @more v vs s s' h rest =>
      rw [List.append_assoc]
      exact text h _

theorem MembersText.head {ms : List (Literal × Value)} (h : MembersText ms s) (t : Bytes) :
    ∃ rest, skipBlanks (s ++ t) = 34 :: rest := by
  have text {m : Literal × Value} {s : Bytes} (h : MemberText m s) (t : Bytes) :
      ∃ rest, skipBlanks (s ++ t) = 34 :: rest := by
    cases h with
    | mk before =>
        rw [List.append_assoc, skipBlanks_append before]
        exact ⟨_, skipBlanks_cons (by decide) _⟩
  cases h with
  | one h => exact text h t
  | @more m ms s s' h rest =>
      rw [List.append_assoc]
      exact text h _

/-- Blanks do not go on a number. -/
theorem stops_of_blanks (h : Blanks s) (stops : Stops t) : Stops (s ++ t) := by
  cases s with
  | nil => exact stops
  | cons x s =>
      have blank := h x List.mem_cons_self
      refine stops_cons ⟨?_, ?_, ?_, ?_⟩ _
      · rw [Bool.eq_false_iff]
        intro digit
        rw [not_blank_of_digit digit] at blank
        cases blank
      all_goals
        rintro rfl
        cases blank

end

/-- With this fuel, texts of the grammar that are short enough are read. -/
structure CompleteAt (fuel : Nat) : Prop where
  value : ∀ {v s front t}, v.Spells s → 2 * s.length ≤ fuel → Blanks front → Stops t →
    value? fuel (front ++ (s ++ t)) = some (v, t)
  items : ∀ {vs s t}, ItemsText vs s → 2 * s.length + 1 ≤ fuel →
    items? fuel (s ++ 93 :: t) = some (vs, t)
  members : ∀ {ms s t}, MembersText ms s → 2 * s.length + 1 ≤ fuel →
    members? fuel (s ++ 125 :: t) = some (ms, t)

namespace CompleteAt

variable {fuel : Nat} {s t front : Bytes} {v : Value}

theorem text (complete : CompleteAt fuel) (h : v.Text s) (enough : 2 * s.length ≤ fuel)
    (stops : Stops t) : ∃ back, Blanks back ∧ value? fuel (s ++ t) = some (v, back ++ t) := by
  cases h with
  | @mk _ front s back before spells behind =>
      simp only [List.length_append] at enough
      refine ⟨back, behind, ?_⟩
      rw [List.append_assoc, List.append_assoc]
      exact complete.value spells (by omega) before (stops_of_blanks behind stops)

theorem value_succ (complete : CompleteAt fuel) (h : v.Spells s)
    (enough : 2 * s.length ≤ fuel + 1) (before : Blanks front) (stops : Stops t) :
    value? (fuel + 1) (front ++ (s ++ t)) = some (v, t) := by
  obtain ⟨x, rest, front_eq, solid, -⟩ := h.head
  have head : skipBlanks (front ++ (s ++ t)) = s ++ t := by
    rw [skipBlanks_append before, front_eq]
    exact skipBlanks_cons solid _
  rw [value?, head]
  cases h with
  | null => exact congrArg (Option.map (Value.null, ·)) (after?_append "ull" t)
  | yes => exact congrArg (Option.map (Value.bool true, ·)) (after?_append "rue" t)
  | no => exact congrArg (Option.map (Value.bool false, ·)) (after?_append "alse" t)
  | number h =>
      obtain ⟨y, more, rfl, signOrDigit⟩ := h.head
      -- No other value starts with a sign or a digit.
      have token {z : UInt8} {r : Bytes} (hz : z ≠ 45 ∧ isDigit z = false) :
          y :: more ++ t ≠ z :: r := by
        rintro ⟨⟩
        rcases signOrDigit with rfl | digit
        · exact hz.1 rfl
        · rw [hz.2] at digit
          cases digit
      split
      case h_7 => rw [number?_append h stops, Option.map_some]
      all_goals
        next same => exact absurd same (token (by decide))
  | string h =>
      have read := h.scan? t
      simp [read]
  | @noItems s h =>
      have close : skipBlanks (s ++ 93 :: t) = 93 :: t := by
        rw [skipBlanks_append h, skipBlanks_cons (by decide)]
      simp [close]
  | @array vs s h =>
      have short : 2 * s.length + 1 ≤ fuel := by
        simp only [List.length_cons, List.length_append] at enough
        omega
      have read := complete.items h short (t := t)
      obtain ⟨y, more, first, open'⟩ := h.head (93 :: t)
      rw [← items?_skipBlanks, first] at read
      simp [first, open', read]
  | @noMembers s h =>
      have close : skipBlanks (s ++ 125 :: t) = 125 :: t := by
        rw [skipBlanks_append h, skipBlanks_cons (by decide)]
      simp [close]
  | @object ms s h =>
      have short : 2 * s.length + 1 ≤ fuel := by
        simp only [List.length_cons, List.length_append] at enough
        omega
      have read := complete.members h short (t := t)
      obtain ⟨more, first⟩ := h.head (125 :: t)
      rw [← members?_skipBlanks, first] at read
      simp [first, read]

theorem stops_token {x : UInt8} (h : x = 44 ∨ x = 93 ∨ x = 125) (t : Bytes) : Stops (x :: t) := by
  rcases h with rfl | rfl | rfl <;> exact stops_cons (by decide) t

theorem items_succ (complete : CompleteAt fuel) {vs : List Value} (h : ItemsText vs s)
    (enough : 2 * s.length + 1 ≤ fuel + 1) :
    items? (fuel + 1) (s ++ 93 :: t) = some (vs, t) := by
  cases h with
  | one h =>
      obtain ⟨back, behind, read⟩ :=
        complete.text h (by omega) (stops_token (.inr (.inl rfl)) t)
      have close : skipBlanks (back ++ 93 :: t) = 93 :: t := by
        rw [skipBlanks_append behind, skipBlanks_cons (by decide)]
      simp only [items?, read, close]
  | @more v vs s s' h rest =>
      simp only [List.length_append, List.length_cons] at enough
      obtain ⟨back, behind, read⟩ :=
        complete.text h (by omega) (stops_token (.inl rfl) (s' ++ 93 :: t))
      have comma : skipBlanks (back ++ 44 :: (s' ++ 93 :: t)) = 44 :: (s' ++ 93 :: t) := by
        rw [skipBlanks_append behind, skipBlanks_cons (by decide)]
      have more := complete.items rest (by omega) (t := t)
      rw [List.append_assoc, List.cons_append]
      simp only [items?, read, comma, more, Option.map_some]

theorem member (complete : CompleteAt fuel) {key : Literal} {x : UInt8}
    (h : MemberText (key, v) s) (enough : 2 * s.length ≤ fuel) (isToken : x = 44 ∨ x = 125) :
    ∃ named keyed valued rest, skipBlanks (s ++ x :: t) = 34 :: named ∧
      Literal.scan? named = some (key, keyed) ∧ skipBlanks keyed = 58 :: valued ∧
      value? fuel valued = some (v, rest) ∧ skipBlanks rest = x :: t := by
  have token : isBlank x = false ∧ Stops (x :: t) := by
    rcases isToken with rfl | rfl
    · exact ⟨by decide, stops_token (.inl rfl) t⟩
    · exact ⟨by decide, stops_token (.inr (.inr rfl)) t⟩
  cases h with
  | @mk _ _ front k mid s before name between h =>
      simp only [List.length_append, List.length_cons] at enough
      obtain ⟨back, behind, read⟩ := complete.text h (by omega) token.2
      refine ⟨_, _, _, _, ?_, name.scan? (mid ++ 58 :: (s ++ x :: t)), ?_, read, ?_⟩
      · rw [List.append_assoc, skipBlanks_append before, List.cons_append,
          skipBlanks_cons (by decide)]
        simp
      · rw [skipBlanks_append between, skipBlanks_cons (by decide)]
      · rw [skipBlanks_append behind, skipBlanks_cons token.1]

theorem members_succ (complete : CompleteAt fuel) {ms : List (Literal × Value)}
    (h : MembersText ms s) (enough : 2 * s.length + 1 ≤ fuel + 1) :
    members? (fuel + 1) (s ++ 125 :: t) = some (ms, t) := by
  cases h with
  | @one m s h =>
      obtain ⟨_, _, _, _, quote, scan, colon, read, close⟩ :=
        complete.member (t := t) h (by omega) (.inr rfl)
      simp only [members?, quote, scan, colon, read, close]
  | @more m ms s s' h rest =>
      simp only [List.length_append, List.length_cons] at enough
      obtain ⟨_, _, _, _, quote, scan, colon, read, comma⟩ :=
        complete.member (t := s' ++ 125 :: t) h (by omega) (.inl rfl)
      have more := complete.members rest (by omega) (t := t)
      rw [List.append_assoc, List.cons_append]
      simp only [members?, quote, scan, colon, read, comma, more, Option.map_some]

end CompleteAt

theorem completeAt (fuel : Nat) : CompleteAt fuel := by
  induction fuel with
  | zero =>
      refine ⟨fun h enough => ?_, fun _ enough => ?_, fun _ enough => ?_⟩
      · obtain ⟨x, rest, rfl, -⟩ := h.head
        simp at enough
      · omega
      · omega
  | succ fuel ih => exact ⟨ih.value_succ, ih.items_succ, ih.members_succ⟩

/-! ### Whole texts -/

/-- **Reading JSON.**  A value is read off exactly its texts. -/
theorem parse?_eq_some_iff {b : Bytes} {v : Value} : Value.parse? b = some v ↔ v.Text b := by
  constructor
  · intro h
    unfold Value.parse? at h
    split at h
    · next v' rest read =>
        split at h
        · next atEnd =>
            cases h
            obtain ⟨front, s, before, spells, rfl⟩ := (soundAt _).value read
            obtain ⟨back, behind, rest_eq⟩ := exists_of_skipBlanks (List.isEmpty_iff.1 atEnd)
            rw [List.append_nil] at rest_eq
            rw [rest_eq]
            exact .mk before spells behind
        · cases h
    · cases h
  · intro h
    obtain ⟨back, behind, read⟩ :=
      (completeAt (2 * b.length + 2)).text h (by omega) stops_nil
    rw [List.append_nil, List.append_nil] at read
    simp [Value.parse?, read, skipBlanks_of_blanks behind]

theorem Value.Text.unique {b : Bytes} {v w : Value} (hv : v.Text b) (hw : w.Text b) : v = w := by
  rw [← parse?_eq_some_iff] at hv hw
  exact Option.some.inj (hv.symm.trans hw)

end ForgeGateway.Json
