import ForgeGateway.Bytes.Hex
import Mathlib.Tactic.ByContra
import Mathlib.Tactic.SplitIfs

/-! # Hexadecimal digits among octets

An octet is a hexadecimal digit when it stands in one of three ranges (`IsDigit`), and it writes
the number whose small digit it becomes when capitals are made small (`value?_eq_some_iff`).
Four digits write every number below 65536, and no other (`four_eq_some_iff`). -/

namespace ForgeGateway.Hex

def IsDigit (x : UInt8) : Prop :=
  (48 ≤ x.toNat ∧ x.toNat ≤ 57) ∨ (65 ≤ x.toNat ∧ x.toNat ≤ 70) ∨ (97 ≤ x.toNat ∧ x.toNat ≤ 102)

/-- A capital letter made small; any other octet as it is. -/
def small (x : UInt8) : UInt8 := if 65 ≤ x.toNat ∧ x.toNat ≤ 90 then x + 32 else x

/-- The small digit of a number below sixteen, as an octet. -/
def octet (n : Nat) : UInt8 := UInt8.ofNat (digit n).toNat

/-- A number below 65536 in four small digits. -/
def four (n : Nat) : Bytes :=
  [octet (n / 4096 % 16), octet (n / 256 % 16), octet (n / 16 % 16), octet (n % 16)]

/-! ### One digit -/

/-- The value of an octet that is a digit. -/
def value? (x : UInt8) : Option Nat := digit? (Char.ofNat x.toNat)

theorem toNat_char {n : Nat} (h : n < 256) : (Char.ofNat n).toNat = n := by
  have valid : n.isValidChar := .inl (by omega)
  rw [Char.ofNat, dif_pos valid]
  rfl

theorem toNat_small (x : UInt8) :
    (small x).toNat = if 65 ≤ x.toNat ∧ x.toNat ≤ 90 then x.toNat + 32 else x.toNat := by
  unfold small
  split
  next capital =>
    have shift : (32 : UInt8).toNat = 32 := rfl
    rw [UInt8.toNat_add, shift]
    omega
  next => rfl

theorem toNat_octet_digit {n : Nat} (h : n < 16) :
    (octet n).toNat = if n < 10 then 48 + n else 87 + n := by
  have all : ∀ k : Fin 16, (octet k).toNat = if k.val < 10 then 48 + k.val else 87 + k.val := by
    decide
  exact all ⟨n, h⟩

/-- The ranges of the digits and what they are worth. -/
theorem value?_eq_some_iff_toNat {x : UInt8} {k : Nat} :
    value? x = some k ↔
      (k < 10 ∧ x.toNat = 48 + k) ∨ (10 ≤ k ∧ k < 16 ∧ (x.toNat = 55 + k ∨ x.toNat = 87 + k)) := by
  unfold value? digit?
  rw [toNat_char x.toNat_lt]
  split_ifs
  · rw [Option.some.injEq]
    omega
  · rw [Option.some.injEq]
    omega
  · rw [Option.some.injEq]
    omega
  · refine iff_of_false nofun ?_
    omega

/-- An octet is read as a number below sixteen exactly when it is its digit, but for the case. -/
theorem value?_eq_some_iff {x : UInt8} {k : Nat} :
    value? x = some k ↔ k < 16 ∧ small x = octet k := by
  rw [value?_eq_some_iff_toNat]
  constructor
  · intro ranges
    have below : k < 16 := by omega
    refine ⟨below, ?_⟩
    apply UInt8.toNat_inj.1
    rw [toNat_small, toNat_octet_digit below]
    split_ifs <;> omega
  · rintro ⟨below, same⟩
    have numbers := congrArg UInt8.toNat same
    rw [toNat_small, toNat_octet_digit below] at numbers
    split_ifs at numbers <;> omega

theorem isDigit_iff {x : UInt8} : IsDigit x ↔ ∃ k, value? x = some k := by
  unfold IsDigit
  constructor
  · rintro (decimal | capital | letter)
    · exact ⟨x.toNat - 48, value?_eq_some_iff_toNat.2 (by omega)⟩
    · exact ⟨x.toNat - 55, value?_eq_some_iff_toNat.2 (by omega)⟩
    · exact ⟨x.toNat - 87, value?_eq_some_iff_toNat.2 (by omega)⟩
  · rintro ⟨k, read⟩
    rw [value?_eq_some_iff_toNat] at read
    omega

theorem small_octet {n : Nat} (h : n < 16) : small (octet n) = octet n := by
  apply UInt8.toNat_inj.1
  rw [toNat_small, toNat_octet_digit h]
  split_ifs <;> omega

/-- A decimal digit has no other case. -/
theorem eq_octet_of_small {x : UInt8} {n : Nat} (h : n < 10) (same : small x = octet n) :
    x = octet n := by
  have numbers := congrArg UInt8.toNat same
  rw [toNat_small, toNat_octet_digit (by omega), if_pos h] at numbers
  apply UInt8.toNat_inj.1
  rw [toNat_octet_digit (by omega), if_pos h]
  split_ifs at numbers <;> omega

/-! ### Four digits -/

theorem map_small_four (n : Nat) : (four n).map small = four n := by
  simp only [four, List.map_cons, List.map_nil]
  rw [small_octet (by omega), small_octet (by omega), small_octet (by omega),
    small_octet (by omega)]

/-- The number that four octets write, if they are digits. -/
def four? (a b c d : UInt8) : Option Nat := do
  let a ← value? a
  let b ← value? b
  let c ← value? c
  let d ← value? d
  return a * 4096 + b * 256 + c * 16 + d

section
variable {a b c d : UInt8} {n : Nat}

theorem four?_of_values {i j k l : Nat} (ha : value? a = some i) (hb : value? b = some j)
    (hc : value? c = some k) (hd : value? d = some l) :
    four? a b c d = some (i * 4096 + j * 256 + k * 16 + l) := by
  rw [four?, ha, hb, hc, hd]
  rfl

theorem values_of_four? (h : four? a b c d = some n) :
    ∃ i j k l, value? a = some i ∧ value? b = some j ∧ value? c = some k ∧ value? d = some l ∧
      n = i * 4096 + j * 256 + k * 16 + l := by
  simp only [four?, Option.bind_eq_bind, Option.bind_eq_some_iff, Option.pure_def,
    Option.some.injEq] at h
  obtain ⟨i, hi, j, hj, k, hk, l, hl, rfl⟩ := h
  exact ⟨i, j, k, l, hi, hj, hk, hl, rfl⟩

theorem four?_eq_some_iff :
    four? a b c d = some n ↔ n < 65536 ∧ [a, b, c, d].map small = four n := by
  constructor
  · intro h
    obtain ⟨i, j, k, l, hi, hj, hk, hl, rfl⟩ := values_of_four? h
    obtain ⟨hi, ha⟩ := value?_eq_some_iff.1 hi
    obtain ⟨hj, hb⟩ := value?_eq_some_iff.1 hj
    obtain ⟨hk, hc⟩ := value?_eq_some_iff.1 hk
    obtain ⟨hl, hd⟩ := value?_eq_some_iff.1 hl
    refine ⟨by omega, ?_⟩
    have first : (i * 4096 + j * 256 + k * 16 + l) / 4096 % 16 = i := by omega
    have second : (i * 4096 + j * 256 + k * 16 + l) / 256 % 16 = j := by omega
    have third : (i * 4096 + j * 256 + k * 16 + l) / 16 % 16 = k := by omega
    have fourth : (i * 4096 + j * 256 + k * 16 + l) % 16 = l := by omega
    rw [four, first, second, third, fourth, ← ha, ← hb, ← hc, ← hd]
    rfl
  · rintro ⟨below, same⟩
    simp only [List.map_cons, List.map_nil, four, List.cons.injEq, and_true] at same
    obtain ⟨ha, hb, hc, hd⟩ := same
    rw [four?_of_values (value?_eq_some_iff.2 ⟨by omega, ha⟩)
      (value?_eq_some_iff.2 ⟨by omega, hb⟩) (value?_eq_some_iff.2 ⟨by omega, hc⟩)
      (value?_eq_some_iff.2 ⟨by omega, hd⟩)]
    congr 1
    omega

theorem four?_eq_none_iff : four? a b c d = none ↔ ∃ x ∈ [a, b, c, d], ¬ IsDigit x := by
  constructor
  · intro h
    by_contra all
    have digits : ∀ x ∈ [a, b, c, d], ∃ k, value? x = some k := by
      intro x member
      by_contra no
      exact all ⟨x, member, fun digit => no (isDigit_iff.1 digit)⟩
    obtain ⟨i, hi⟩ := digits a (by simp)
    obtain ⟨j, hj⟩ := digits b (by simp)
    obtain ⟨k, hk⟩ := digits c (by simp)
    obtain ⟨l, hl⟩ := digits d (by simp)
    rw [four?_of_values hi hj hk hl] at h
    cases h
  · rintro ⟨x, member, no⟩
    rw [Option.eq_none_iff_forall_ne_some]
    intro n h
    obtain ⟨i, j, k, l, hi, hj, hk, hl, -⟩ := values_of_four? h
    have value : ∃ m, value? x = some m := by
      simp only [List.mem_cons, List.not_mem_nil, or_false] at member
      obtain rfl | rfl | rfl | rfl := member
      · exact ⟨i, hi⟩
      · exact ⟨j, hj⟩
      · exact ⟨k, hk⟩
      · exact ⟨l, hl⟩
    exact no (isDigit_iff.2 value)

end

end ForgeGateway.Hex
