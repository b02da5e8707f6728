import ForgeGateway.Bytes.Base64
import Mathlib.Algebra.Group.Nat.Defs
import Mathlib.Tactic.SplitIfs

/-! # What a base64 text says

`Writes` is the rule of the standard, without groups: the letters stand for six bits each, those
of the octets and fewer than six zeros behind them, and `=` fills up the last group of four.
The groups that `encode` makes are such a text (`writes_groups`), there is no other one for the
same octets (`Writes.unique`), and `decode?` reads exactly these texts (`decode?_eq_some_iff`). -/

namespace ForgeGateway.Base64

/-- The letters in the order of their numbers. -/
def alphabet : List Char :=
  ['A', 'B', 'C', 'D', 'E', 'F', 'G', 'H', 'I', 'J', 'K', 'L', 'M',
   'N', 'O', 'P', 'Q', 'R', 'S', 'T', 'U', 'V', 'W', 'X', 'Y', 'Z',
   'a', 'b', 'c', 'd', 'e', 'f', 'g', 'h', 'i', 'j', 'k', 'l', 'm',
   'n', 'o', 'p', 'q', 'r', 's', 't', 'u', 'v', 'w', 'x', 'y', 'z',
   '0', '1', '2', '3', '4', '5', '6', '7', '8', '9', '+', '/']

/-- The lowest `w` bits of a number, the highest of them first. -/
def bits : Nat → Nat → List Bool
  | 0, _ => []
  | w + 1, n => (n / 2 ^ w % 2 == 1) :: bits w n

def octetBits (b : Bytes) : List Bool := b.flatMap fun x => bits 8 x.toNat

def letterBits (cs : List Char) : List Bool := cs.flatMap fun c => bits 6 (alphabet.idxOf c)

/-- The text is the base64 of the octets. -/
inductive Writes : List Char → Bytes → Prop where
  | mk {letters : List Char} {b : Bytes} {zeros pad : Nat} (known : ∀ c ∈ letters, c ∈ alphabet)
      (same : letterBits letters = octetBits b ++ List.replicate zeros false) (few : zeros < 6)
      (fills : 4 ∣ letters.length + pad) (needed : pad < 4) :
      Writes (letters ++ List.replicate pad '=') b

/-! ### Bits -/

section
variable {n m w : Nat}

theorem length_bits (w n : Nat) : (bits w n).length = w := by
  induction w with
  | zero => rfl
  | succ w ih => rw [bits, List.length_cons, ih]

theorem bits_inj : bits w n = bits w m ↔ n % 2 ^ w = m % 2 ^ w := by
  induction w with
  | zero => simp [bits, Nat.mod_one]
  | succ w ih =>
      have first : ((n / 2 ^ w % 2 == 1) = (m / 2 ^ w % 2 == 1)) ↔
          n / 2 ^ w % 2 = m / 2 ^ w % 2 := by
        rw [Bool.eq_iff_iff, beq_iff_eq, beq_iff_eq]
        omega
      rw [bits, bits, List.cons.injEq, first, ih, Nat.mod_pow_succ, Nat.mod_pow_succ]
      constructor
      · rintro ⟨high, low⟩
        rw [high, low]
      · intro whole
        have high := congrArg (· / 2 ^ w) whole
        have low := congrArg (· % 2 ^ w) whole
        simp only [Nat.add_mul_div_left _ _ (Nat.two_pow_pos w),
          Nat.div_eq_of_lt (Nat.mod_lt _ (Nat.two_pow_pos w)), Nat.zero_add] at high
        simp only [Nat.add_mul_mod_self_left, Nat.mod_mod] at low
        exact ⟨high, low⟩

/-- The high bits of a number are those of its quotient. -/
theorem bits_add (v w n : Nat) : bits (v + w) n = bits v (n / 2 ^ w) ++ bits w n := by
  induction v with
  | zero => rw [Nat.zero_add, bits, List.nil_append]
  | succ v ih =>
      rw [Nat.add_right_comm, bits, bits, ih, List.cons_append, Nat.div_div_eq_div_mul,
        ← Nat.pow_add, Nat.add_comm w v]

/-- Bits behind bits are those of one number. -/
theorem bits_append {v u : Nat} (n : Nat) (sum : v + w = u) (h : m < 2 ^ w) :
    bits v n ++ bits w m = bits u (2 ^ w * n + m) := by
  have high : (2 ^ w * n + m) / 2 ^ w = n := by
    rw [Nat.mul_add_div (Nat.two_pow_pos w), Nat.div_eq_of_lt h, Nat.add_zero]
  have low : bits w (2 ^ w * n + m) = bits w m := by
    rw [bits_inj, Nat.mul_add_mod]
  rw [← sum, bits_add, high, low]

theorem replicate_false (k : Nat) : List.replicate k false = bits k 0 := by
  induction k with
  | zero => rfl
  | succ k ih => rw [List.replicate_succ, ih, bits, Nat.zero_div]; rfl

theorem octetBits_cons (x : UInt8) (b : Bytes) :
    octetBits (x :: b) = bits 8 x.toNat ++ octetBits b := List.flatMap_cons

theorem letterBits_cons (c : Char) (cs : List Char) :
    letterBits (c :: cs) = bits 6 (alphabet.idxOf c) ++ letterBits cs := List.flatMap_cons

theorem length_octetBits (b : Bytes) : (octetBits b).length = 8 * b.length := by
  induction b with
  | nil => rfl
  | cons x b ih => rw [octetBits_cons, List.length_append, ih, length_bits, List.length_cons]; omega

theorem length_letterBits (cs : List Char) : (letterBits cs).length = 6 * cs.length := by
  induction cs with
  | nil => rfl
  | cons c cs ih =>
      rw [letterBits_cons, List.length_append, ih, length_bits, List.length_cons]; omega

/-! Letters and octets have the same bits when they make the same number. -/

section
variable {p q r s x y z : Nat}

theorem bits_one (hq : q < 64) (same : 64 * p + q = 16 * x) :
    bits 6 p ++ bits 6 q = bits 8 x ++ bits 4 0 := by
  rw [bits_append (u := 12) _ rfl hq, bits_append (u := 12) _ rfl (by omega)]
  exact congrArg (bits 12) (by omega)

theorem bits_two (hq : q < 64) (hr : r < 64) (hy : y < 256)
    (same : 4096 * p + 64 * q + r = 1024 * x + 4 * y) :
    bits 6 p ++ (bits 6 q ++ bits 6 r) = bits 8 x ++ (bits 8 y ++ bits 2 0) := by
  rw [bits_append (u := 12) _ rfl hr, bits_append (u := 18) _ rfl (by omega),
    bits_append (u := 10) _ rfl (by omega), bits_append (u := 18) _ rfl (by omega)]
  exact congrArg (bits 18) (by omega)

theorem bits_three (hq : q < 64) (hr : r < 64) (hs : s < 64) (hy : y < 256) (hz : z < 256)
    (same : 262144 * p + 4096 * q + 64 * r + s = 65536 * x + 256 * y + z) :
    bits 6 p ++ (bits 6 q ++ (bits 6 r ++ bits 6 s)) = bits 8 x ++ (bits 8 y ++ bits 8 z) := by
  rw [bits_append (u := 12) _ rfl hs, bits_append (u := 18) _ rfl (by omega),
    bits_append (u := 24) _ rfl (by omega), bits_append (u := 16) _ rfl hz,
    bits_append (u := 24) _ rfl (by omega)]
  exact congrArg (bits 24) (by omega)

end

end

/-! ### Letters -/

section
variable {c : Char} {n : Nat}

theorem idxOf_letter (h : n < 64) : alphabet.idxOf (letter n) = n := by
  have all : ∀ k : Fin 64, alphabet.idxOf (letter k) = k.val := by decide +kernel
  exact all ⟨n, h⟩

theorem letter_mem (h : n < 64) : letter n ∈ alphabet := by
  have all : ∀ k : Fin 64, letter k ∈ alphabet := by decide +kernel
  exact all ⟨n, h⟩

theorem letter_idxOf (h : c ∈ alphabet) : letter (alphabet.idxOf c) = c := by
  have all : (alphabet.all fun c => letter (alphabet.idxOf c) == c) = true := by decide +kernel
  exact beq_iff_eq.1 (List.all_eq_true.1 all c h)

theorem idxOf_lt (h : c ∈ alphabet) : alphabet.idxOf c < 64 := List.idxOf_lt_length_of_mem h

theorem ne_sign_of_mem (h : c ∈ alphabet) : c ≠ '=' := by
  have all : (alphabet.all fun c => c != '=') = true := by decide +kernel
  exact bne_iff_ne.1 (List.all_eq_true.1 all c h)

theorem letter?_eq_some_iff : letter? c = some n ↔ c ∈ alphabet ∧ alphabet.idxOf c = n := by
  constructor
  · intro h
    suffices n < 64 ∧ letter n = c by
      obtain ⟨small, rfl⟩ := this
      exact ⟨letter_mem small, idxOf_letter small⟩
    have same : Char.ofNat c.toNat = c := Char.ofNat_toNat c
    unfold letter? at h
    split_ifs at h with capital lower digit plus slash
    · cases h
      refine ⟨by omega, ?_⟩
      rw [letter, if_pos (by omega), Nat.add_sub_cancel' (by omega), same]
    · cases h
      refine ⟨by omega, ?_⟩
      rw [letter, if_neg (by omega), if_pos (by omega), Nat.add_sub_cancel' (by omega), same]
    · cases h
      refine ⟨by omega, ?_⟩
      rw [letter, if_neg (by omega), if_neg (by omega), if_pos (by omega), Nat.add_sub_cancel,
        same]
    · cases h
      exact ⟨by decide, plus.symm⟩
    · cases h
      exact ⟨by decide, slash.symm⟩
  · rintro ⟨member, rfl⟩
    rw [← letter?_letter (idxOf_lt member), letter_idxOf member]

end

/-! ### Writing -/

section
variable {t letters : List Char} {b : Bytes} {c₁ c₂ c₃ c₄ : Char} {x y z : UInt8}

theorem writes_nil : Writes [] [] :=
  @Writes.mk [] [] 0 0 (by simp) rfl (by omega) (by decide) (by omega)

theorem writes_one (known : ∀ c ∈ [c₁, c₂], c ∈ alphabet)
    (same : 64 * alphabet.idxOf c₁ + alphabet.idxOf c₂ = 16 * x.toNat) :
    Writes [c₁, c₂, '=', '='] [x] := by
  refine @Writes.mk [c₁, c₂] [x] 4 2 known ?_ (by omega) (by simp) (by omega)
  rw [replicate_false]
  simp only [letterBits, octetBits, List.flatMap_cons, List.flatMap_nil, List.append_nil]
  exact bits_one (idxOf_lt (known c₂ (by simp))) same

theorem writes_two (known : ∀ c ∈ [c₁, c₂, c₃], c ∈ alphabet)
    (same : 4096 * alphabet.idxOf c₁ + 64 * alphabet.idxOf c₂ + alphabet.idxOf c₃ =
      1024 * x.toNat + 4 * y.toNat) :
    Writes [c₁, c₂, c₃, '='] [x, y] := by
  refine @Writes.mk [c₁, c₂, c₃] [x, y] 2 1 known ?_ (by omega) (by simp) (by omega)
  rw [replicate_false]
  simp only [letterBits, octetBits, List.flatMap_cons, List.flatMap_nil, List.append_nil,
    List.append_assoc]
  exact bits_two (idxOf_lt (known c₂ (by simp))) (idxOf_lt (known c₃ (by simp))) y.toNat_lt same

theorem Writes.group (known : ∀ c ∈ [c₁, c₂, c₃, c₄], c ∈ alphabet)
    (same : 262144 * alphabet.idxOf c₁ + 4096 * alphabet.idxOf c₂ + 64 * alphabet.idxOf c₃ +
      alphabet.idxOf c₄ = 65536 * x.toNat + 256 * y.toNat + z.toNat) (rest : Writes t b) :
    Writes (c₁ :: c₂ :: c₃ :: c₄ :: t) (x :: y :: z :: b) := by
  cases rest with
  | @mk letters _ zeros pad known' same' few fills needed =>
      have front := bits_three (idxOf_lt (known c₂ (by simp))) (idxOf_lt (known c₃ (by simp)))
        (idxOf_lt (known c₄ (by simp))) y.toNat_lt z.toNat_lt same
      have whole : letterBits (c₁ :: c₂ :: c₃ :: c₄ :: letters) =
          octetBits (x :: y :: z :: b) ++ List.replicate zeros false := by
        have joined := congrArg (· ++ letterBits letters) front
        rw [same'] at joined
        simpa only [letterBits_cons, octetBits_cons, List.append_assoc, same'] using joined
      refine @Writes.mk (c₁ :: c₂ :: c₃ :: c₄ :: letters) _ zeros pad ?_ whole few ?_ needed
      · intro c member
        rcases List.mem_append.1 (show c ∈ [c₁, c₂, c₃, c₄] ++ letters from member) with h | h
        · exact known c h
        · exact known' c h
      · simp only [List.length_cons]
        omega

theorem writes_groups (b : Bytes) : Writes (groups (fun c => [c]) b) b := by
  induction b using groups.induct with
  | case1 => exact writes_nil
  | case2 x =>
      have hx := x.toNat_lt
      have h₁ : x.toNat * 16 / 64 < 64 := by omega
      have h₂ : x.toNat * 16 % 64 < 64 := by omega
      refine writes_one ?_ ?_
      · simp [letter_mem h₁, letter_mem h₂]
      · rw [idxOf_letter h₁, idxOf_letter h₂]
        omega
  | case3 x y =>
      have hx := x.toNat_lt
      have hy := y.toNat_lt
      have h₁ : (x.toNat * 256 + y.toNat) * 4 / 4096 < 64 := by omega
      have h₂ : (x.toNat * 256 + y.toNat) * 4 / 64 % 64 < 64 := by omega
      have h₃ : (x.toNat * 256 + y.toNat) * 4 % 64 < 64 := by omega
      refine writes_two ?_ ?_
      · simp [letter_mem h₁, letter_mem h₂, letter_mem h₃]
      · rw [idxOf_letter h₁, idxOf_letter h₂, idxOf_letter h₃]
        omega
  | case4 x y z rest ih =>
      have hx := x.toNat_lt
      have hy := y.toNat_lt
      have hz := z.toNat_lt
      have h₁ : (x.toNat * 65536 + y.toNat * 256 + z.toNat) / 262144 < 64 := by omega
      have h₂ : (x.toNat * 65536 + y.toNat * 256 + z.toNat) / 4096 % 64 < 64 := by omega
      have h₃ : (x.toNat * 65536 + y.toNat * 256 + z.toNat) / 64 % 64 < 64 := by omega
      have h₄ : (x.toNat * 65536 + y.toNat * 256 + z.toNat) % 64 < 64 := by omega
      refine Writes.group ?_ ?_ ih
      · simp [letter_mem h₁, letter_mem h₂, letter_mem h₃, letter_mem h₄]
      · rw [idxOf_letter h₁, idxOf_letter h₂, idxOf_letter h₃, idxOf_letter h₄]
        omega

/-! ### Reading -/

theorem length_inj {letters' : List Char} {zeros zeros' : Nat}
    (same : letterBits letters = octetBits b ++ List.replicate zeros false)
    (same' : letterBits letters' = octetBits b ++ List.replicate zeros' false)
    (few : zeros < 6) (few' : zeros' < 6) : letters.length = letters'.length ∧ zeros = zeros' := by
  have total := congrArg List.length same
  have total' := congrArg List.length same'
  simp only [List.length_append, List.length_replicate, length_letterBits, length_octetBits]
    at total total'
  omega

theorem letterBits_inj {cs ds : List Char} (known : ∀ c ∈ cs, c ∈ alphabet)
    (known' : ∀ d ∈ ds, d ∈ alphabet) (same : letterBits cs = letterBits ds) : cs = ds := by
  induction cs generalizing ds with
  | nil =>
      have total := congrArg List.length same
      rw [length_letterBits, length_letterBits, List.length_nil] at total
      exact (List.length_eq_zero_iff.1 (by omega)).symm
  | cons c cs ih =>
      cases ds with
      | nil =>
          have total := congrArg List.length same
          rw [length_letterBits, length_letterBits, List.length_cons, List.length_nil] at total
          omega
      | cons d ds =>
          rw [letterBits_cons, letterBits_cons] at same
          obtain ⟨first, rest⟩ := List.append_inj same (by rw [length_bits, length_bits])
          have hc : alphabet.idxOf c < 2 ^ 6 := idxOf_lt (known c List.mem_cons_self)
          have hd : alphabet.idxOf d < 2 ^ 6 := idxOf_lt (known' d List.mem_cons_self)
          rw [bits_inj, Nat.mod_eq_of_lt hc, Nat.mod_eq_of_lt hd] at first
          have same : c = d := by
            rw [← letter_idxOf (known c List.mem_cons_self), first,
              letter_idxOf (known' d List.mem_cons_self)]
          rw [same, ih (fun c h => known c (.tail _ h)) (fun d h => known' d (.tail _ h)) rest]

theorem Writes.unique {t' : List Char} (h : Writes t b) (h' : Writes t' b) : t = t' := by
  cases h with
  | @mk letters _ zeros pad known same few fills needed =>
      cases h' with
      | @mk letters' _ zeros' pad' known' same' few' fills' needed' =>
          obtain ⟨length, rfl⟩ := length_inj same same' few few'
          obtain rfl := letterBits_inj known known' (same.trans same'.symm)
          obtain rfl : pad = pad' := by omega
          rfl

theorem writes_of_ungroup? (h : ungroup? t = some b) : Writes t b := by
  induction t using ungroup?.induct generalizing b with
  | case1 =>
      cases h
      exact writes_nil
  | case2 c₁ c₂ =>
      simp only [ungroup?, Option.bind_eq_bind, Option.bind_eq_some_iff, letter?_eq_some_iff] at h
      obtain ⟨p, ⟨known₁, rfl⟩, q, ⟨known₂, rfl⟩, h⟩ := h
      have h₁ := idxOf_lt known₁
      have h₂ := idxOf_lt known₂
      split at h
      next zeros =>
        cases h
        refine writes_one (by simp [known₁, known₂]) ?_
        rw [UInt8.toNat_ofNat']
        omega
      next => cases h
  | case3 c₁ c₂ c₃ letter =>
      rw [ungroup?] at h
      · simp only [Option.bind_eq_bind, Option.bind_eq_some_iff, letter?_eq_some_iff] at h
        obtain ⟨p, ⟨known₁, rfl⟩, q, ⟨known₂, rfl⟩, r, ⟨known₃, rfl⟩, h⟩ := h
        have h₁ := idxOf_lt known₁
        have h₂ := idxOf_lt known₂
        have h₃ := idxOf_lt known₃
        split at h
        next zeros =>
          cases h
          refine writes_two (by simp [known₁, known₂, known₃]) ?_
          rw [UInt8.toNat_ofNat', UInt8.toNat_ofNat']
          omega
        next => cases h
      · exact letter
  | case4 c₁ c₂ c₃ c₄ rest two one ih =>
      rw [ungroup?] at h
      · simp only [Option.bind_eq_bind, Option.bind_eq_some_iff, letter?_eq_some_iff] at h
        obtain ⟨p, ⟨known₁, rfl⟩, q, ⟨known₂, rfl⟩, r, ⟨known₃, rfl⟩, s, ⟨known₄, rfl⟩, b', read,
          same⟩ := h
        cases same
        have h₁ := idxOf_lt known₁
        have h₂ := idxOf_lt known₂
        have h₃ := idxOf_lt known₃
        have h₄ := idxOf_lt known₄
        refine Writes.group (by simp [known₁, known₂, known₃, known₄]) ?_ (ih read)
        rw [UInt8.toNat_ofNat', UInt8.toNat_ofNat', UInt8.toNat_ofNat']
        omega
      · exact two
      · exact one
  | case5 t nil two one more =>
      rw [ungroup?] at h
      · cases h
      · exact nil
      · exact two
      · exact one
      · exact more

theorem ungroup?_groups (b : Bytes) : ungroup? (groups (fun c => [c]) b) = some b := by
  induction b using groups.induct with
  | case1 => rfl
  | case2 x =>
      have hx := x.toNat_lt
      have h₁ : x.toNat * 16 / 64 < 64 := by omega
      have h₂ : x.toNat * 16 % 64 < 64 := by omega
      have whole : x.toNat * 16 / 64 * 64 + x.toNat * 16 % 64 = x.toNat * 16 := by omega
      simp only [groups, List.cons_append, List.nil_append, ungroup?, letter?_letter h₁,
        letter?_letter h₂, Option.bind_eq_bind, Option.bind_some, whole]
      rw [if_pos (by omega), Nat.mul_div_cancel _ (by omega), UInt8.ofNat_toNat]
  | case3 x y =>
      have hx := x.toNat_lt
      have hy := y.toNat_lt
      generalize number : (x.toNat * 256 + y.toNat) * 4 = n
      have h₁ : n / 4096 < 64 := by omega
      have h₂ : n / 64 % 64 < 64 := by omega
      have h₃ : n % 64 < 64 := by omega
      have whole : n / 4096 * 4096 + n / 64 % 64 * 64 + n % 64 = n := by omega
      have first : UInt8.ofNat (n / 1024) = x := by
        rw [show n / 1024 = x.toNat by omega, UInt8.ofNat_toNat]
      have second : UInt8.ofNat (n / 4) = y := by
        rw [← UInt8.toNat_inj, UInt8.toNat_ofNat']
        omega
      simp only [groups, number]
      rw [ungroup?]
      · simp only [letter?_letter h₁, letter?_letter h₂, letter?_letter h₃, Option.bind_eq_bind,
          Option.bind_some, whole, first, second]
        exact if_pos (by omega)
      · exact ne_sign_of_mem (letter_mem h₃)
  | case4 x y z rest ih =>
      have hx := x.toNat_lt
      have hy := y.toNat_lt
      have hz := z.toNat_lt
      generalize number : x.toNat * 65536 + y.toNat * 256 + z.toNat = n
      have h₁ : n / 262144 < 64 := by omega
      have h₂ : n / 4096 % 64 < 64 := by omega
      have h₃ : n / 64 % 64 < 64 := by omega
      have h₄ : n % 64 < 64 := by omega
      have whole : n / 262144 * 262144 + n / 4096 % 64 * 4096 + n / 64 % 64 * 64 + n % 64 = n := by
        rw [Nat.mul_comm _ 262144, Nat.mul_comm _ 4096, Nat.mul_comm _ 64]
        omega
      have first : UInt8.ofNat (n / 65536) = x := by
        rw [show n / 65536 = x.toNat by omega, UInt8.ofNat_toNat]
      have second : UInt8.ofNat (n / 256) = y := by
        rw [← UInt8.toNat_inj, UInt8.toNat_ofNat']
        omega
      have third : UInt8.ofNat n = z := by
        rw [← UInt8.toNat_inj, UInt8.toNat_ofNat']
        omega
      have letters : letter (n / 64 % 64) ≠ '=' ∧ letter (n % 64) ≠ '=' :=
        ⟨ne_sign_of_mem (letter_mem h₃), ne_sign_of_mem (letter_mem h₄)⟩
      simp only [groups, number]
      rw [ungroup?]
      · simp only [letter?_letter h₁, letter?_letter h₂, letter?_letter h₃, letter?_letter h₄,
          Option.bind_eq_bind, Option.bind_some, ih, whole, first, second, third, Option.pure_def]
      · exact fun sign _ _ => letters.1 sign
      · exact fun sign _ => letters.2 sign

/-- **Base64.** The texts that are read are exactly those that the standard gives to octets. -/
theorem decode?_eq_some_iff {s : String} : decode? s = some b ↔ Writes s.toList b := by
  constructor
  · exact writes_of_ungroup?
  · intro writes
    rw [decode?, writes.unique (writes_groups b), ungroup?_groups]

theorem decode?_encode (b : Bytes) : decode? (encode b) = some b := by
  rw [decode?_eq_some_iff, encode, String.toList_ofList]
  exact writes_groups b

/-- The base64 of octets is what is written for them. -/
theorem writes_iff_eq_encode {s : String} : Writes s.toList b ↔ s = encode b := by
  constructor
  · intro writes
    rw [← String.toList_inj, encode, String.toList_ofList]
    exact writes.unique (writes_groups b)
  · rintro rfl
    exact decode?_eq_some_iff.1 (decode?_encode b)

theorem Writes.space_not_mem (h : Writes t b) : ' ' ∉ t := by
  cases h with
  | mk known same few fills needed =>
      intro space
      rcases List.mem_append.1 space with letter | sign
      · exact absurd (known _ letter) (by decide)
      · exact absurd (List.eq_of_mem_replicate sign) (by decide)

end

end ForgeGateway.Base64
