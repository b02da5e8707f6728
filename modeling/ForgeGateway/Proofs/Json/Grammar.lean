import ForgeGateway.Json.Value
import ForgeGateway.Proofs.Bytes.Utf8
import Mathlib.Data.List.TakeWhile

/-! # The grammar of JSON texts

`Value.Text` relates a value to its texts, as the grammar of JSON does: values and the tokens
between them may have blanks around them, strings consist of pieces, and numbers of a sign, a whole
part, a fraction and an exponent.  Nothing here mentions how a text is read.  The readers of the
leaves give back what the grammar says: `scan?_eq_some_iff` for strings, and `number_of_number?`
and `number?_append` for numbers, which end where no octet of a number follows (`Stops`).
`Literal.Means` says which text a string means, and `decode?_eq_some_iff` that this is the text
that is read from it. -/

namespace ForgeGateway.Json

/-! ### The grammar -/

def Blanks (s : Bytes) : Prop := ∀ x ∈ s, isBlank x = true

/-- At least one digit. -/
structure Digits (s : Bytes) : Prop where
  nonempty : s ≠ []
  all : ∀ x ∈ s, isDigit x = true

/-- The whole part of a number has no needless zero in front. -/
inductive Whole : Bytes → Prop where
  | zero : Whole [48]
  | digits {s : Bytes} (h : Digits s) (first : s.head? ≠ some 48) : Whole s

/-- A point and digits, or nothing. -/
inductive Fraction : Bytes → Prop where
  | none : Fraction []
  | digits {s : Bytes} (h : Digits s) : Fraction (46 :: s)

/-- A mark, perhaps a sign, and digits; or nothing. -/
inductive Exponent : Bytes → Prop where
  | none : Exponent []
  | unsigned {mark : UInt8} {s : Bytes} (isMark : mark = 101 ∨ mark = 69) (h : Digits s) :
      Exponent (mark :: s)
  | signed {mark sign : UInt8} {s : Bytes} (isMark : mark = 101 ∨ mark = 69)
      (isSign : sign = 43 ∨ sign = 45) (h : Digits s) : Exponent (mark :: sign :: s)

/-- A number without a sign. -/
inductive Unsigned : Bytes → Prop where
  | mk {w f e : Bytes} (whole : Whole w) (fraction : Fraction f) (exponent : Exponent e) :
      Unsigned (w ++ (f ++ e))

inductive Number : Bytes → Prop where
  | positive {s : Bytes} (h : Unsigned s) : Number s
  | negative {s : Bytes} (h : Unsigned s) : Number (45 :: s)

/-- How a piece of a string is written. -/
inductive Piece.Spells : Piece → Bytes → Prop where
  | plain {x : UInt8} (printable : 32 ≤ x.toNat) (quote : x ≠ 34) (escape : x ≠ 92) :
      Piece.Spells (.plain x) [x]
  | short {letter x : UInt8} (h : shortEscape? letter = some x) :
      Piece.Spells (.short x) [92, letter]
  | unit {a b c d : UInt8} {n : Nat} (h : unit? a b c d = some n) :
      Piece.Spells (.unit n) [92, 117, a, b, c, d]

/-- How a string is written between its quotes. -/
inductive Literal.Spells : Literal → Bytes → Prop where
  | nil : Literal.Spells [] []
  | cons {p : Piece} {l : Literal} {s t : Bytes} (first : p.Spells s)
      (rest : Literal.Spells l t) : Literal.Spells (p :: l) (s ++ t)

/-- The octets that a string means.  A code unit stands for a character of its own, or two of them,
a high and a low surrogate, for one. -/
inductive Literal.Octets : Literal → Bytes → Prop where
  | nil : Literal.Octets [] []
  | plain {x : UInt8} {l : Literal} {b : Bytes} (rest : Literal.Octets l b) :
      Literal.Octets (.plain x :: l) (x :: b)
  | short {x : UInt8} {l : Literal} {b : Bytes} (rest : Literal.Octets l b) :
      Literal.Octets (.short x :: l) (x :: b)
  | unit {n : Nat} {l : Literal} {b : Bytes} (single : n < 0xD800 ∨ 0xE000 ≤ n)
      (rest : Literal.Octets l b) :
      Literal.Octets (.unit n :: l) (String.utf8EncodeChar (Char.ofNat n) ++ b)
  | pair {hi lo : Nat} {l : Literal} {b : Bytes} (high : 0xD800 ≤ hi ∧ hi < 0xDC00)
      (low : 0xDC00 ≤ lo ∧ lo < 0xE000) (rest : Literal.Octets l b) :
      Literal.Octets (.unit hi :: .unit lo :: l)
        (String.utf8EncodeChar (Char.ofNat (0x10000 + (hi - 0xD800) * 1024 + (lo - 0xDC00))) ++ b)

/-- The text that a string means: its octets are those of the text. -/
def Literal.Means (l : Literal) (text : String) : Prop := l.Octets (Bytes.ofString text)

mutual

/-- How a value is written, without blanks around it. -/
inductive Value.Spells : Value → Bytes → Prop where
  | null : Value.Spells .null (Bytes.ofString "null")
  | yes : Value.Spells (.bool true) (Bytes.ofString "true")
  | no : Value.Spells (.bool false) (Bytes.ofString "false")
  | number {s : Bytes} (h : Number s) : Value.Spells (.number s) s
  | string {l : Literal} {s : Bytes} (h : Literal.Spells l s) :
      Value.Spells (.string l) (34 :: (s ++ [34]))
  | noItems {s : Bytes} (h : Blanks s) : Value.Spells (.array []) (91 :: (s ++ [93]))
  | array {vs : List Value} {s : Bytes} (h : ItemsText vs s) :
      Value.Spells (.array vs) (91 :: (s ++ [93]))
  | noMembers {s : Bytes} (h : Blanks s) : Value.Spells (.object []) (123 :: (s ++ [125]))
  | object {ms : List (Literal × Value)} {s : Bytes} (h : MembersText ms s) :
      Value.Spells (.object ms) (123 :: (s ++ [125]))

/-- A value with blanks around it. -/
inductive Value.Text : Value → Bytes → Prop where
  | mk {v : Value} {front s back : Bytes} (before : Blanks front) (h : Value.Spells v s)
      (behind : Blanks back) : Value.Text v (front ++ (s ++ back))

/-- Items with commas between them. -/
inductive ItemsText : List Value → Bytes → Prop where
  | one {v : Value} {s : Bytes} (h : Value.Text v s) : ItemsText [v] s
  | more {v : Value} {vs : List Value} {s t : Bytes} (h : Value.Text v s)
      (rest : ItemsText vs t) : ItemsText (v :: vs) (s ++ 44 :: t)

/-- A name, a colon and a value. -/
inductive MemberText : Literal × Value → Bytes → Prop where
  | mk {key : Literal} {v : Value} {front k mid s : Bytes} (before : Blanks front)
      (name : Literal.Spells key k) (between : Blanks mid) (h : Value.Text v s) :
      MemberText (key, v) (front ++ 34 :: (k ++ 34 :: (mid ++ 58 :: s)))

/-- Members with commas between them. -/
inductive MembersText : List (Literal × Value) → Bytes → Prop where
  | one {m : Literal × Value} {s : Bytes} (h : MemberText m s) : MembersText [m] s
  | more {m : Literal × Value} {ms : List (Literal × Value)} {s t : Bytes} (h : MemberText m s)
      (rest : MembersText ms t) : MembersText (m :: ms) (s ++ 44 :: t)

end

/-! ### Blanks -/

theorem blanks_nil : Blanks [] := by
  simp [Blanks]

section
variable {s t rest : Bytes} {x : UInt8}

theorem skipBlanks_append (h : Blanks s) (t : Bytes) : skipBlanks (s ++ t) = skipBlanks t :=
  List.dropWhile_append_of_pos h

theorem skipBlanks_cons (h : isBlank x = false) (t : Bytes) : skipBlanks (x :: t) = x :: t :=
  List.dropWhile_cons_of_neg (by simp [h])

theorem skipBlanks_of_blanks (h : Blanks s) : skipBlanks s = [] :=
  List.dropWhile_eq_nil_iff.2 h

theorem exists_blanks (s : Bytes) : ∃ front, Blanks front ∧ s = front ++ skipBlanks s :=
  ⟨s.takeWhile isBlank, fun _ hx => List.mem_takeWhile_imp hx,
    List.takeWhile_append_dropWhile.symm⟩

theorem skipBlanks_skipBlanks (s : Bytes) : skipBlanks (skipBlanks s) = skipBlanks s := by
  obtain ⟨front, blanks, split⟩ := exists_blanks s
  have again := skipBlanks_append blanks (skipBlanks s)
  rw [← split] at again
  exact again.symm

/-! ### Strings -/

namespace Literal

variable {l : Literal} {p : Piece} {b : Bytes}

theorem scan?_piece (h : p.Spells s) (t : Bytes) :
    scan? (s ++ t) = (scan? t).map fun r => (p :: r.1, r.2) := by
  cases h with
  | @plain x printable quote escape =>
      have control : (decide (x.toNat < 32) || x.toNat == 92) = false := by
        have unescaped : x.toNat ≠ 92 := fun h => escape (UInt8.toNat_inj.1 h)
        simp [printable, unescaped]
      rw [List.singleton_append, scan?, control]
      · cases scan? t <;> rfl
      · exact quote
      · exact fun _ _ _ _ _ h => absurd h escape
      · exact fun _ _ h => absurd h escape
  | @short letter x h =>
      have known : letter ≠ 117 := by
        rintro rfl
        cases h
      rw [List.cons_append, List.singleton_append, scan?, h]
      · cases scan? t <;> rfl
      · exact fun _ _ _ _ _ h => absurd h known
  | @unit c₁ c₂ c₃ c₄ n h =>
      simp only [List.cons_append, List.nil_append, scan?, h]
      cases scan? t <;> rfl

/-- A string is read up to its closing quote. -/
theorem Spells.scan? (h : l.Spells s) (t : Bytes) : scan? (s ++ 34 :: t) = some (l, t) := by
  induction h with
  | nil => rfl
  | cons first _ ih => rw [List.append_assoc, scan?_piece first, ih, Option.map_some]

theorem spells_cons_of_scan? (piece : p.Spells s) (h : Literal.scan? (s ++ b) = some (l, t))
    (ih : ∀ more, Literal.scan? b = some (more, t) → ∃ s, Spells more s ∧ b = s ++ 34 :: t) :
    ∃ s', l.Spells s' ∧ s ++ b = s' ++ 34 :: t := by
  rw [scan?_piece piece, Option.map_eq_some_iff] at h
  obtain ⟨⟨more, t'⟩, read, same⟩ := h
  cases same
  obtain ⟨s', spells, split⟩ := ih more read
  refine ⟨s ++ s', .cons piece spells, ?_⟩
  rw [split, List.append_assoc]

/-- What is read up to a closing quote spells the string that is read. -/
theorem spells_of_scan? (h : Literal.scan? b = some (l, t)) :
    ∃ s, l.Spells s ∧ b = s ++ 34 :: t := by
  induction b using Literal.scan?.induct generalizing l with
  | case1 => cases h
  | case2 rest =>
      cases h
      exact ⟨[], .nil, rfl⟩
  | case3 c₁ c₂ c₃ c₄ rest ih =>
      cases hu : unit? c₁ c₂ c₃ c₄ with
      | none =>
          rw [Literal.scan?, hu] at h
          cases h
      | some n => exact spells_cons_of_scan? (.unit hu) h fun _ => ih
  | case4 x rest notUnit ih =>
      cases hx : shortEscape? x with
      | none =>
          rw [Literal.scan?, hx] at h
          · cases h
          · exact notUnit
      | some y => exact spells_cons_of_scan? (.short hx) h fun _ => ih
  | case5 x rest notQuote notUnit notEscape control =>
      rw [Literal.scan?, if_pos control] at h
      · cases h
      · exact notQuote
      · exact notUnit
      · exact notEscape
  | case6 x rest notQuote _ _ control ih =>
      simp only [Bool.or_eq_true, decide_eq_true_eq, beq_iff_eq, not_or, Nat.not_lt] at control
      refine spells_cons_of_scan? (.plain control.1 notQuote ?_) h fun _ => ih
      rintro rfl
      exact control.2 rfl

/-- A string is read exactly off its spelling and a closing quote. -/
theorem scan?_eq_some_iff :
    Literal.scan? b = some (l, t) ↔ ∃ s, l.Spells s ∧ b = s ++ 34 :: t := by
  constructor
  · exact spells_of_scan?
  · rintro ⟨s, spells, rfl⟩
    exact spells.scan? t

theorem octets_of_octets? (h : octets? l = some b) : l.Octets b := by
  induction l using octets?.induct generalizing b with
  | case1 =>
      cases h
      exact .nil
  | case2 x rest ih =>
      obtain ⟨b', read, rfl⟩ := Option.map_eq_some_iff.1 h
      exact .plain (ih read)
  | case3 x rest ih =>
      obtain ⟨b', read, rfl⟩ := Option.map_eq_some_iff.1 h
      exact .short (ih read)
  | case4 hi lo rest high low ih =>
      rw [octets?, if_pos high, if_pos low] at h
      obtain ⟨b', read, rfl⟩ := Option.map_eq_some_iff.1 h
      exact .pair high low (ih read)
  | case5 hi lo rest high low =>
      rw [octets?, if_pos high, if_neg low] at h
      cases h
  | case6 hi lo rest high low =>
      rw [octets?, if_neg high, if_pos low] at h
      cases h
  | case7 hi lo rest high low ih =>
      rw [octets?, if_neg high, if_neg low] at h
      obtain ⟨b', read, rfl⟩ := Option.map_eq_some_iff.1 h
      exact .unit (by omega) (ih read)
  | case8 n rest alone surrogate =>
      rw [octets?, if_pos surrogate] at h
      · cases h
      · exact alone
  | case9 n rest alone single ih =>
      rw [octets?, if_neg single] at h
      · obtain ⟨b', read, rfl⟩ := Option.map_eq_some_iff.1 h
        exact .unit (by omega) (ih read)
      · exact alone

theorem octets?_unit {n : Nat} (single : n < 0xD800 ∨ 0xE000 ≤ n) (l : Literal) :
    octets? (.unit n :: l) =
      (octets? l).map (String.utf8EncodeChar (Char.ofNat n) ++ ·) := by
  have notHigh : ¬(0xD800 ≤ n ∧ n < 0xDC00) := by omega
  have notLow : ¬(0xDC00 ≤ n ∧ n < 0xE000) := by omega
  have notSurrogate : ¬(0xD800 ≤ n ∧ n < 0xE000) := by omega
  by_cases alone : ∀ lo rest, l = .unit lo :: rest → False
  · rw [octets?, if_neg notSurrogate]
    exact alone
  · simp only [imp_false, not_forall, not_not] at alone
    obtain ⟨lo, rest, rfl⟩ := alone
    rw [octets?, if_neg notHigh, if_neg notLow]

/-- The meaning of a string is read from it. -/
theorem Octets.octets? (h : l.Octets b) : octets? l = some b := by
  induction h with
  | nil => rfl
  | plain _ ih => exact Option.map_eq_some_iff.2 ⟨_, ih, rfl⟩
  | short _ ih => exact Option.map_eq_some_iff.2 ⟨_, ih, rfl⟩
  | unit single _ ih => rw [octets?_unit single, ih, Option.map_some]
  | pair high low _ ih => rw [Literal.octets?, if_pos high, if_pos low, ih, Option.map_some]

/-- A string is read as exactly the text that it means. -/
theorem decode?_eq_some_iff {text : String} : l.decode? = some text ↔ l.Means text := by
  unfold decode? Means
  constructor
  · intro h
    split at h
    · cases h
    · next read =>
        rw [Utf8.decode?_eq_some_iff.1 h] at read
        exact octets_of_octets? read
  · intro means
    rw [means.octets?]
    exact Utf8.decode?_eq_some_iff.2 rfl

end Literal

/-! ### Numbers -/

def NoDigit (t : Bytes) : Prop := ∀ x ∈ t.head?, isDigit x = false

/-- Nothing follows with which a number could go on. -/
structure Stops (t : Bytes) : Prop where
  noDigit : NoDigit t
  noPoint : t.head? ≠ some 46
  noMark : t.head? ≠ some 101 ∧ t.head? ≠ some 69

theorem stops_cons (h : isDigit x = false ∧ x ≠ 46 ∧ x ≠ 101 ∧ x ≠ 69) (t : Bytes) :
    Stops (x :: t) := by
  obtain ⟨digit, point, small, large⟩ := h
  refine ⟨?_, by simp [point], by simp [small], by simp [large]⟩
  intro y hy
  cases hy
  exact digit

theorem stops_nil : Stops [] := ⟨by simp [NoDigit], by simp, by simp⟩

theorem Digits.head?_append (h : Digits s) (t : Bytes) : (s ++ t).head? = s.head? := by
  obtain ⟨x, rest, rfl⟩ := List.exists_cons_of_ne_nil h.nonempty
  rfl

theorem digits?_append (h : Digits s) (stops : NoDigit t) : digits? (s ++ t) = some (s, t) := by
  have taken : (s ++ t).takeWhile isDigit = s := by
    rw [List.takeWhile_append_of_pos h.all]
    cases t with
    | nil => exact List.append_nil s
    | cons x t => rw [List.takeWhile_cons_of_neg (by simp [stops x rfl]), List.append_nil]
  have left : (s ++ t).dropWhile isDigit = t := by
    rw [List.dropWhile_append_of_pos h.all]
    cases t with
    | nil => rfl
    | cons x t => rw [List.dropWhile_cons_of_neg (by simp [stops x rfl])]
  unfold digits?
  rw [taken, left]
  cases s with
  | nil => exact absurd rfl h.nonempty
  | cons => rfl

theorem digits_of_digits? {b : Bytes} (h : digits? b = some (s, t)) : Digits s ∧ b = s ++ t := by
  unfold digits? at h
  split at h
  · cases h
  · next some =>
      cases h
      exact ⟨⟨some, fun _ hx => List.mem_takeWhile_imp hx⟩,
        List.takeWhile_append_dropWhile.symm⟩

theorem whole?_of_head {b : Bytes} (h : b.head? ≠ some 48) : whole? b = digits? b := by
  unfold whole?
  split
  · exact absurd rfl h
  · rfl

theorem whole?_append (h : Whole s) (stops : NoDigit t) : whole? (s ++ t) = some (s, t) := by
  cases h with
  | zero => rfl
  | digits digits first =>
      have head : (s ++ t).head? ≠ some 48 := by
        rwa [digits.head?_append]
      rw [whole?_of_head head, digits?_append digits stops]

theorem whole_of_whole? {b : Bytes} (h : whole? b = some (s, t)) : Whole s ∧ b = s ++ t := by
  by_cases zero : b.head? = some 48
  · obtain ⟨rest, rfl⟩ := List.head?_eq_some_iff.1 zero
    cases h
    exact ⟨.zero, rfl⟩
  · rw [whole?_of_head zero] at h
    obtain ⟨digits, rfl⟩ := digits_of_digits? h
    rw [digits.head?_append] at zero
    exact ⟨.digits digits zero, rfl⟩

theorem fraction?_of_head {b : Bytes} (h : b.head? ≠ some 46) : fraction? b = some ([], b) := by
  unfold fraction?
  split
  · exact absurd rfl h
  · rfl

theorem fraction?_append (h : Fraction s) (stops : NoDigit t) (point : t.head? ≠ some 46) :
    fraction? (s ++ t) = some (s, t) := by
  cases h with
  | none => exact fraction?_of_head point
  | digits digits => simp [fraction?, digits?_append digits stops]

theorem fraction_of_fraction? {b : Bytes} (h : fraction? b = some (s, t)) :
    Fraction s ∧ b = s ++ t := by
  by_cases point : b.head? = some 46
  · obtain ⟨rest, rfl⟩ := List.head?_eq_some_iff.1 point
    simp only [fraction?, Option.bind_eq_bind, Option.bind_eq_some_iff, Option.pure_def,
      Option.some.injEq, Prod.mk.injEq, Prod.exists] at h
    obtain ⟨ds, _, read, rfl, rfl⟩ := h
    obtain ⟨digits, rfl⟩ := digits_of_digits? read
    exact ⟨.digits digits, rfl⟩
  · rw [fraction?_of_head point] at h
    cases h
    exact ⟨.none, rfl⟩

theorem exponent?_of_head {b : Bytes} (h : b.head? ≠ some 101 ∧ b.head? ≠ some 69) :
    exponent? b = some ([], b) := by
  cases b with
  | nil => rfl
  | cons e rest =>
      have unmarked : ¬(e == 101 || e == 69) = true := by
        simp only [List.head?_cons, ne_eq, Option.some.injEq] at h
        simp [h.1, h.2]
      simp only [exponent?, if_neg unmarked]

/-- Behind the mark of an exponent stand a sign and digits, or digits. -/
theorem exponent?_mark {mark : UInt8} (isMark : mark = 101 ∨ mark = 69) (sign : UInt8)
    (rest : Bytes) :
    exponent? (mark :: sign :: rest) =
      if sign == 43 || sign == 45 then
        (digits? rest).map fun r => (mark :: sign :: r.1, r.2)
      else (digits? (sign :: rest)).map fun r => (mark :: r.1, r.2) := by
  have marked : (mark == 101 || mark == 69) = true := by
    simpa using isMark
  simp only [exponent?, if_pos marked]
  split
  · cases digits? rest <;> rfl
  · cases digits? (sign :: rest) <;> rfl

theorem isDigit_sign : isDigit 43 = false ∧ isDigit 45 = false := by decide

theorem exponent?_append (h : Exponent s) (stops : Stops t) :
    exponent? (s ++ t) = some (s, t) := by
  cases h with
  | none => exact exponent?_of_head stops.noMark
  | @unsigned mark s isMark digits =>
      cases s with
      | nil => exact absurd rfl digits.nonempty
      | cons d ds =>
          have unsigned : (d == 43 || d == 45) = false := by
            have isDigit := digits.all d List.mem_cons_self
            rw [Bool.or_eq_false_iff, beq_eq_false_iff_ne, beq_eq_false_iff_ne]
            constructor
            · rintro rfl
              rw [isDigit_sign.1] at isDigit
              cases isDigit
            · rintro rfl
              rw [isDigit_sign.2] at isDigit
              cases isDigit
          have read := digits?_append digits stops.noDigit
          rw [List.cons_append, List.cons_append, exponent?_mark isMark, unsigned]
          rw [List.cons_append] at read
          simp [read]
  | @signed mark sign s isMark isSign digits =>
      have signed : (sign == 43 || sign == 45) = true := by
        simpa using isSign
      rw [List.cons_append, List.cons_append, exponent?_mark isMark, if_pos signed,
        digits?_append digits stops.noDigit, Option.map_some]

theorem exponent_of_exponent? {b : Bytes} (h : exponent? b = some (s, t)) :
    Exponent s ∧ b = s ++ t := by
  by_cases marked : b.head? = some 101 ∨ b.head? = some 69
  · obtain ⟨mark, rest, rfl, isMark⟩ :
        ∃ mark rest, b = mark :: rest ∧ (mark = 101 ∨ mark = 69) := by
      rcases marked with small | large
      · obtain ⟨rest, rfl⟩ := List.head?_eq_some_iff.1 small
        exact ⟨101, rest, rfl, .inl rfl⟩
      · obtain ⟨rest, rfl⟩ := List.head?_eq_some_iff.1 large
        exact ⟨69, rest, rfl, .inr rfl⟩
    cases rest with
    | nil => rcases isMark with rfl | rfl <;> cases h
    | cons sign rest =>
        rw [exponent?_mark isMark] at h
        split at h
        · next signed =>
            obtain ⟨⟨ds, t'⟩, read, same⟩ := Option.map_eq_some_iff.1 h
            cases same
            obtain ⟨digits, rfl⟩ := digits_of_digits? read
            exact ⟨.signed isMark (by simpa using signed) digits, rfl⟩
        · obtain ⟨⟨ds, t'⟩, read, same⟩ := Option.map_eq_some_iff.1 h
          cases same
          obtain ⟨digits, split⟩ := digits_of_digits? read
          rw [split]
          exact ⟨.unsigned isMark digits, rfl⟩
  · rw [exponent?_of_head (not_or.1 marked)] at h
    cases h
    exact ⟨.none, rfl⟩

theorem Fraction.noDigit (h : Fraction s) (stops : NoDigit t) : NoDigit (s ++ t) := by
  cases h with
  | none => exact stops
  | digits =>
      intro x hx
      cases hx
      decide

theorem Exponent.noDigit (h : Exponent s) (stops : Stops t) :
    NoDigit (s ++ t) ∧ (s ++ t).head? ≠ some 46 := by
  have mark {m : UInt8} {rest : Bytes} (isMark : m = 101 ∨ m = 69) :
      NoDigit (m :: rest) ∧ (m :: rest).head? ≠ some 46 := by
    rcases isMark with rfl | rfl
    · exact ⟨by rintro x ⟨⟩; decide, by simp⟩
    · exact ⟨by rintro x ⟨⟩; decide, by simp⟩
  cases h with
  | none => exact ⟨stops.noDigit, stops.noPoint⟩
  | unsigned isMark => exact mark isMark
  | signed isMark => exact mark isMark

theorem unsigned?_append (h : Unsigned s) (stops : Stops t) : unsigned? (s ++ t) = some (s, t) := by
  cases h with
  | @mk w f e whole fraction exponent =>
      obtain ⟨behindFraction, noPoint⟩ := exponent.noDigit stops
      have readWhole := whole?_append whole (fraction.noDigit behindFraction)
      have readFraction := fraction?_append fraction behindFraction noPoint
      have readExponent := exponent?_append exponent stops
      rw [List.append_assoc, List.append_assoc]
      simp [unsigned?, readWhole, readFraction, readExponent]

theorem unsigned_of_unsigned? {b : Bytes} (h : unsigned? b = some (s, t)) :
    Unsigned s ∧ b = s ++ t := by
  simp only [unsigned?, Option.bind_eq_bind, Option.bind_eq_some_iff, Option.pure_def,
    Option.some.injEq, Prod.mk.injEq, Prod.exists] at h
  obtain ⟨w, _, readWhole, f, _, readFraction, e, _, readExponent, rfl, rfl⟩ := h
  obtain ⟨whole, rfl⟩ := whole_of_whole? readWhole
  obtain ⟨fraction, rfl⟩ := fraction_of_fraction? readFraction
  obtain ⟨exponent, rfl⟩ := exponent_of_exponent? readExponent
  rw [List.append_assoc w f e]
  refine ⟨.mk whole fraction exponent, ?_⟩
  rw [List.append_assoc, List.append_assoc]

theorem Unsigned.head (h : Unsigned s) : ∃ x rest, s = x :: rest ∧ isDigit x = true := by
  cases h with
  | @mk w f e whole _ _ =>
      cases whole with
      | zero => exact ⟨48, f ++ e, rfl, by decide⟩
      | digits digits =>
          obtain ⟨x, rest, rfl⟩ := List.exists_cons_of_ne_nil digits.nonempty
          exact ⟨x, rest ++ (f ++ e), rfl, digits.all x List.mem_cons_self⟩

theorem Number.head (h : Number s) : ∃ x rest, s = x :: rest ∧ (x = 45 ∨ isDigit x = true) := by
  cases h with
  | positive h =>
      obtain ⟨x, rest, split, digit⟩ := h.head
      exact ⟨x, rest, split, .inr digit⟩
  | @negative s h => exact ⟨45, s, rfl, .inl rfl⟩

theorem number?_of_head {b : Bytes} (h : b.head? ≠ some 45) : number? b = unsigned? b := by
  unfold number?
  split
  · exact absurd rfl h
  · rfl

theorem number?_append (h : Number s) (stops : Stops t) : number? (s ++ t) = some (s, t) := by
  cases h with
  | positive h =>
      have unsigned : (s ++ t).head? ≠ some 45 := by
        obtain ⟨x, rest, rfl, digit⟩ := h.head
        rintro ⟨⟩
        rw [isDigit_sign.2] at digit
        cases digit
      rw [number?_of_head unsigned, unsigned?_append h stops]
  | negative h => simp [number?, unsigned?_append h stops]

theorem number_of_number? {b : Bytes} (h : number? b = some (s, t)) : Number s ∧ b = s ++ t := by
  by_cases sign : b.head? = some 45
  · obtain ⟨rest, rfl⟩ := List.head?_eq_some_iff.1 sign
    simp only [number?, Option.bind_eq_bind, Option.bind_eq_some_iff, Option.pure_def,
      Option.some.injEq, Prod.mk.injEq, Prod.exists] at h
    obtain ⟨n, _, read, rfl, rfl⟩ := h
    obtain ⟨unsigned, rfl⟩ := unsigned_of_unsigned? read
    exact ⟨.negative unsigned, rfl⟩
  · rw [number?_of_head sign] at h
    obtain ⟨unsigned, split⟩ := unsigned_of_unsigned? h
    exact ⟨.positive unsigned, split⟩

end

end ForgeGateway.Json
