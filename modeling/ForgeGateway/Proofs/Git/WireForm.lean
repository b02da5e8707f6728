import ForgeGateway.Proofs.Bytes.Hex
import ForgeGateway.Proofs.Git.Advertisement

/-! # Packets and the octets that spell them

A packet is spelled by its length, in four hexadecimal digits of either case, and its payload
(`Spells`); `SpellsAll` is the same for packets one behind the other.  Octets start with a spelled
packet, or with less than one (`Incomplete`), or with four octets that announce none (`Malformed`):
`exists_start`.  The front of an octet string tells which (`Spells.front_append`,
`Incomplete.front_eq`, `Malformed.front_append`).  So every octet string is packets with something
at their end that is incomplete or malformed (`exists_spelled`). -/

namespace ForgeGateway.Git.Packet

/-- A length that four digits can write: the payload and the digits themselves. -/
def Fits : Packet → Prop
  | .data payload => payload.length ≤ 65531
  | .flush | .delimiter | .responseEnd => True

/-- `w` is the packet as it is sent, but for the case of the digits of its length. -/
structure Spells (p : Packet) (w : Bytes) : Prop where
  fits : p.Fits
  same : (w.take 4).map Hex.small ++ w.drop 4 = p.wire

/-- `b` spells the packets one behind the other. -/
inductive SpellsAll : List Packet → Bytes → Prop where
  | nil : SpellsAll [] []
  | cons {p : Packet} {ps : List Packet} {w b : Bytes} (first : p.Spells w)
      (others : SpellsAll ps b) : SpellsAll (p :: ps) (w ++ b)

/-- Less than a packet: no room for a length, or a length that announces more than there is. -/
def Incomplete (t : Bytes) : Prop :=
  t.length < 4 ∨ ∃ n, n < 65536 ∧ (t.take 4).map Hex.small = lengthDigits n ∧ t.length < n

/-- Four octets that announce no packet: not all are digits, or they write the number 3. -/
def Malformed (lead : Bytes) : Prop :=
  lead.length = 4 ∧ ((∃ x ∈ lead, ¬ Hex.IsDigit x) ∨ lead = lengthDigits 3)

/-! ### Lengths -/

section
variable {a b c d : UInt8} {n : Nat}

theorem lengthOf?_eq_some_iff :
    lengthOf? a b c d = some n ↔ n < 65536 ∧ [a, b, c, d].map Hex.small = lengthDigits n :=
  Hex.four?_eq_some_iff

theorem eq_of_lengthOf?_three (h : lengthOf? a b c d = some 3) :
    [a, b, c, d] = lengthDigits 3 := by
  have same := (lengthOf?_eq_some_iff.1 h).2
  simp only [List.map_cons, List.map_nil, lengthDigits, List.cons.injEq, and_true] at same
  obtain ⟨ha, hb, hc, hd⟩ := same
  rw [Hex.eq_octet_of_small (n := 0) (by omega) ha, Hex.eq_octet_of_small (n := 0) (by omega) hb,
    Hex.eq_octet_of_small (n := 0) (by omega) hc, Hex.eq_octet_of_small (n := 3) (by omega) hd]
  rfl

theorem lengthOf?_eq_none_iff :
    lengthOf? a b c d = none ↔ ∃ x ∈ [a, b, c, d], ¬ Hex.IsDigit x :=
  Hex.four?_eq_none_iff

end

section
variable {p : Packet} {w rest : Bytes}

theorem Spells.length_eq (h : p.Spells w) : w.length = p.wire.length := by
  rw [← h.same, List.length_append, List.length_map, ← List.length_append, List.take_append_drop]

/-- What spells a packet starts with four digits. -/
theorem Spells.exists_digits (h : p.Spells w) :
    ∃ a b c d payload, w = a :: b :: c :: d :: payload ∧
      [a, b, c, d].map Hex.small ++ payload = p.wire := by
  have enough : 4 ≤ w.length := by
    rw [h.length_eq]
    cases p with
    | data payload =>
        rw [wire, List.length_append]
        exact Nat.le_add_right 4 _
    | flush | delimiter | responseEnd => exact Nat.le_refl 4
  match w, enough, h.same with
  | a :: b :: c :: d :: payload, _, same => exact ⟨a, b, c, d, payload, rfl, same⟩

theorem Spells.front_append (h : p.Spells w) : front (w ++ rest) = .complete p w.length := by
  obtain ⟨a, b, c, d, payload, rfl, same⟩ := h.exists_digits
  have digits {n : Nat} (below : n < 65536) {q : Bytes}
      (hw : [a, b, c, d].map Hex.small ++ payload = lengthDigits n ++ q) :
      lengthOf? a b c d = some n ∧ payload = q := by
    obtain ⟨hn, hq⟩ := List.append_inj hw rfl
    exact ⟨lengthOf?_eq_some_iff.2 ⟨below, hn⟩, hq⟩
  cases p with
  | flush =>
      obtain ⟨hn, rfl⟩ := digits (q := []) (by omega) same
      simp only [List.cons_append, List.nil_append, front, hn]
      rfl
  | delimiter =>
      obtain ⟨hn, rfl⟩ := digits (q := []) (by omega) same
      simp only [List.cons_append, List.nil_append, front, hn]
      rfl
  | responseEnd =>
      obtain ⟨hn, rfl⟩ := digits (q := []) (by omega) same
      simp only [List.cons_append, List.nil_append, front, hn]
      rfl
  | data q =>
      have fits : q.length ≤ 65531 := h.fits
      obtain ⟨hn, rfl⟩ := digits (by omega) same
      simp only [List.cons_append, front, hn]
      rw [if_neg (by simp only [List.length_append]; omega), List.take_left]
      rfl

theorem Fits.spells (fits : p.Fits) : p.Spells p.wire where
  fits := fits
  same := by
    cases p with
    | data payload =>
        have small (n : Nat) : (lengthDigits n).map Hex.small = lengthDigits n :=
          Hex.map_small_four n
        show (lengthDigits _).map Hex.small ++ payload = _
        rw [small]
        rfl
    | flush | delimiter | responseEnd => rfl

end

/-! ### What octets start with -/

theorem Incomplete.front_eq {t : Bytes} (h : Incomplete t) : front t = .incomplete := by
  match t, h with
  | a :: b :: c :: d :: rest, h =>
      obtain short | ⟨n, below, same, announced⟩ := h
      · simp only [List.length_cons] at short
        omega
      · have hn : lengthOf? a b c d = some n := lengthOf?_eq_some_iff.2 ⟨below, same⟩
        simp only [List.length_cons] at announced
        obtain ⟨m, rfl⟩ : ∃ m, n = m + 4 := ⟨n - 4, by omega⟩
        simp only [front, hn]
        rw [if_pos (by omega)]
  | [_, _, _], _ | [_, _], _ | [_], _ | [], _ => rfl

theorem Malformed.front_append {lead : Bytes} (h : Malformed lead) (rest : Bytes) :
    front (lead ++ rest) = .malformed lead := by
  match lead, h with
  | [a, b, c, d], ⟨_, reason⟩ =>
      obtain undigit | three := reason
      · have hn := lengthOf?_eq_none_iff.2 undigit
        simp only [List.cons_append, List.nil_append, front, hn]
      · have same : [a, b, c, d].map Hex.small = lengthDigits 3 := by
          rw [three]
          rfl
        have hn := lengthOf?_eq_some_iff.2 ⟨by omega, same⟩
        simp only [List.cons_append, List.nil_append, front, hn]

/-- Octets start with a packet, or with less than one, or with four octets that announce none. -/
theorem exists_start (b : Bytes) :
    (∃ p w rest, Spells p w ∧ b = w ++ rest) ∨ Incomplete b ∨
      ∃ lead rest, Malformed lead ∧ b = lead ++ rest := by
  match b with
  | a :: b :: c :: d :: rest =>
      cases hn : lengthOf? a b c d with
      | none =>
          have unwritten := lengthOf?_eq_none_iff.1 hn
          exact .inr (.inr ⟨[a, b, c, d], rest, ⟨rfl, .inl unwritten⟩, rfl⟩)
      | some n =>
          obtain ⟨below, same⟩ := lengthOf?_eq_some_iff.1 hn
          match n with
          | 0 => exact .inl ⟨.flush, [a, b, c, d], rest, ⟨trivial, same⟩, rfl⟩
          | 1 => exact .inl ⟨.delimiter, [a, b, c, d], rest, ⟨trivial, same⟩, rfl⟩
          | 2 => exact .inl ⟨.responseEnd, [a, b, c, d], rest, ⟨trivial, same⟩, rfl⟩
          | 3 => exact .inr (.inr ⟨_, rest, ⟨rfl, .inr (eq_of_lengthOf?_three hn)⟩, rfl⟩)
          | n + 4 =>
              by_cases enough : n ≤ rest.length
              · have length : (rest.take n).length = n := List.length_take_of_le enough
                refine .inl ⟨.data (rest.take n), a :: b :: c :: d :: rest.take n, rest.drop n,
                  ⟨?_, ?_⟩, ?_⟩
                · show (rest.take n).length ≤ 65531
                  omega
                · rw [wire, length, ← same]
                  rfl
                · rw [List.cons_append, List.cons_append, List.cons_append, List.cons_append,
                    List.take_append_drop]
              · refine .inr (.inl (.inr ⟨n + 4, below, same, ?_⟩))
                simp only [List.length_cons]
                omega
  | [_, _, _] | [_, _] | [_] | [] => exact .inr (.inl (.inl (by simp)))

/-! ### Many packets -/

section
variable {ps qs : List Packet} {w : Bytes}

theorem SpellsAll.length_eq (h : SpellsAll ps w) : w.length = (ps.flatMap wire).length := by
  induction h with
  | nil => rfl
  | cons first others ih =>
      rw [List.flatMap_cons, List.length_append, List.length_append, first.length_eq, ih]

theorem spellsAll_wire (fits : ∀ p ∈ ps, p.Fits) : SpellsAll ps (ps.flatMap wire) := by
  induction ps with
  | nil => exact .nil
  | cons p ps ih =>
      rw [List.forall_mem_cons] at fits
      rw [List.flatMap_cons]
      exact .cons fits.1.spells (ih fits.2)

theorem SpellsAll.split (h : SpellsAll (ps ++ qs) w) :
    ∃ u v, SpellsAll ps u ∧ SpellsAll qs v ∧ w = u ++ v := by
  induction ps generalizing w with
  | nil => exact ⟨[], w, .nil, h, rfl⟩
  | cons p ps ih =>
      cases h with
      | cons first others =>
          obtain ⟨u, v, hu, hv, rfl⟩ := ih others
          exact ⟨_, v, .cons first hu, hv, (List.append_assoc _ u v).symm⟩

end

/-- Every octet string is packets with something behind them that is no packet. -/
theorem exists_spelled (b : Bytes) :
    ∃ ps w r, SpellsAll ps w ∧ b = w ++ r ∧
      (Incomplete r ∨ ∃ lead rest, Malformed lead ∧ r = lead ++ rest) := by
  obtain ⟨p, w, rest, first, rfl⟩ | ended := exists_start b
  · have shorter : rest.length < (w ++ rest).length := by
      obtain ⟨_, _, _, _, _, rfl, -⟩ := first.exists_digits
      simp only [List.length_append, List.length_cons]
      omega
    obtain ⟨ps, u, r, others, rfl, ended⟩ := exists_spelled rest
    exact ⟨p :: ps, w ++ u, r, .cons first others, (List.append_assoc w u r).symm, ended⟩
  · exact ⟨[], [], b, .nil, rfl, ended⟩
termination_by b.length

end ForgeGateway.Git.Packet
