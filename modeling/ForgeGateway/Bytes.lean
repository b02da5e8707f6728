/-! # Octet strings

`Bytes` is a list of octets. `word32` writes a natural number as four octets, most
significant first, and `word32?` reads one back from the front of a string; each
undoes the other (`word32?_word32_append`, `word32_of_word32?`). -/

namespace ForgeGateway

/-- A finite string of octets. -/
abbrev Bytes := List UInt8

namespace Bytes

/-- The UTF-8 octets of a text. -/
def ofString (s : String) : Bytes := s.toUTF8.data.toList

/-- Four octets, most significant first, of `n` modulo `2 ^ 32`. -/
def word32 (n : Nat) : Bytes :=
  [UInt8.ofNat (n / 16777216), UInt8.ofNat (n / 65536), UInt8.ofNat (n / 256), UInt8.ofNat n]

/-- The number that the first four octets write, and what follows them. -/
def word32? : Bytes → Option (Nat × Bytes)
  | a :: b :: c :: d :: rest =>
    some (a.toNat * 16777216 + b.toNat * 65536 + c.toNat * 256 + d.toNat, rest)
  | _ => none

@[simp] theorem length_word32 (n : Nat) : (word32 n).length = 4 := rfl

theorem word32?_word32_append {n : Nat} (h : n < 4294967296) (rest : Bytes) :
    word32? (word32 n ++ rest) = some (n, rest) := by
  simp only [word32, word32?, List.cons_append, List.nil_append, UInt8.toNat_ofNat',
    Option.some.injEq, Prod.mk.injEq, and_true]
  omega

theorem word32_of_word32? {b rest : Bytes} {n : Nat} (h : word32? b = some (n, rest)) :
    b = word32 n ++ rest ∧ n < 4294967296 := by
  match b, h with
  | a :: b :: c :: d :: r, h =>
    simp only [word32?, Option.some.injEq, Prod.mk.injEq] at h
    obtain ⟨rfl, rfl⟩ := h
    have ha := a.toNat_lt
    have hb := b.toNat_lt
    have hc := c.toNat_lt
    have hd := d.toNat_lt
    refine ⟨?_, by omega⟩
    simp only [word32, List.cons_append, List.nil_append, List.cons.injEq, and_true]
    refine ⟨?_, ?_, ?_, ?_⟩ <;> apply UInt8.toNat_inj.1 <;> rw [UInt8.toNat_ofNat'] <;> omega

end Bytes

end ForgeGateway
