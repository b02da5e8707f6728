import ForgeGateway.Git.Packet

/-! # The end of an advertisement does not move

Whatever the first octets of a stream say about the end of its first section, more octets do not
change it (`advertisementEnd_append`), and the end lies inside the octets that were read
(`le_length_of_advertisementEnd`).  To look for it after each chunk is to look for it in the
whole (`scan_eq`). -/

namespace ForgeGateway.Git.Packet

theorem front_append {b : Bytes} (c : Bytes) (h : front b ≠ .incomplete) :
    front (b ++ c) = front b := by
  match b, h with
  | x :: y :: z :: w :: rest, h =>
      simp only [List.cons_append, front] at h ⊢
      cases hn : lengthOf? x y z w with
      | none => rfl
      | some n =>
          match n with
          | 0 | 1 | 2 | 3 => rfl
          | n + 4 =>
              simp only [hn] at h ⊢
              have hle : ¬rest.length < n := fun hlt => h (if_pos hlt)
              rw [if_neg hle, if_neg (by simp only [List.length_append]; omega),
                List.take_append_of_le_length (Nat.not_lt.1 hle)]
  | [_, _, _], h | [_, _], h | [_], h | [], h => exact absurd rfl h

section
variable {offset n : Nat} {b : Bytes} {p : Packet}

theorem advertisementEndFrom_of_incomplete (h : front b = .incomplete) :
    advertisementEndFrom offset b = .ok none := by
  rw [advertisementEndFrom]
  split <;> simp_all

theorem advertisementEndFrom_of_malformed {lead : Bytes} (h : front b = .malformed lead) :
    advertisementEndFrom offset b = .error ⟨offset, lead⟩ := by
  rw [advertisementEndFrom]
  split <;> simp_all

theorem advertisementEndFrom_of_flush (h : front b = .complete .flush n) :
    advertisementEndFrom offset b = .ok (some (offset + n)) := by
  rw [advertisementEndFrom]
  split <;> simp_all

theorem advertisementEndFrom_of_complete (h : front b = .complete p n) (hp : p ≠ .flush) :
    advertisementEndFrom offset b = advertisementEndFrom (offset + n) (b.drop n) := by
  rw [advertisementEndFrom]
  split <;> simp_all

end

theorem advertisementEndFrom_append (offset : Nat) (b c : Bytes)
    (h : advertisementEndFrom offset b ≠ .ok none) :
    advertisementEndFrom offset (b ++ c) = advertisementEndFrom offset b := by
  induction offset, b using advertisementEndFrom.induct with
  | case1 offset b hf => exact absurd (advertisementEndFrom_of_incomplete hf) h
  | case2 offset b lead hf =>
      have hf' := (front_append c (by simp [hf])).trans hf
      rw [advertisementEndFrom_of_malformed hf, advertisementEndFrom_of_malformed hf']
  | case3 offset b n hf =>
      have hf' := (front_append c (by simp [hf])).trans hf
      rw [advertisementEndFrom_of_flush hf, advertisementEndFrom_of_flush hf']
  | case4 offset b p n hp hf ih =>
      have hf' := (front_append c (by simp [hf])).trans hf
      have hle := (size_of_front_complete hf).2
      rw [advertisementEndFrom_of_complete hf hp] at h ⊢
      rw [advertisementEndFrom_of_complete hf' hp, List.drop_append_of_le_length hle]
      exact ih h

theorem advertisementEndFrom_le {offset : Nat} {b : Bytes} {m : Nat}
    (h : advertisementEndFrom offset b = .ok (some m)) : m ≤ offset + b.length := by
  induction offset, b using advertisementEndFrom.induct with
  | case1 offset b hf =>
      rw [advertisementEndFrom_of_incomplete hf] at h
      cases h
  | case2 offset b lead hf =>
      rw [advertisementEndFrom_of_malformed hf] at h
      cases h
  | case3 offset b n hf =>
      rw [advertisementEndFrom_of_flush hf] at h
      cases h
      have := (size_of_front_complete hf).2
      omega
  | case4 offset b p n hp hf ih =>
      rw [advertisementEndFrom_of_complete hf hp] at h
      have hle := (size_of_front_complete hf).2
      have := ih h
      simp only [List.length_drop] at this
      omega

/-- An answer for the octets that have come is the answer for all that may still come. -/
theorem advertisementEnd_append (b c : Bytes) (h : advertisementEnd b ≠ .ok none) :
    advertisementEnd (b ++ c) = advertisementEnd b :=
  advertisementEndFrom_append 0 b c h

theorem le_length_of_advertisementEnd {b : Bytes} {n : Nat}
    (h : advertisementEnd b = .ok (some n)) : n ≤ b.length := by
  simpa using advertisementEndFrom_le h

/-- Looks for the end of the advertisement after each chunk, until there is an answer. -/
def scan (seen : Bytes) : List Bytes → Except FramingError (Option Nat)
  | [] => .ok none
  | chunk :: chunks =>
    match advertisementEnd (seen ++ chunk) with
    | .ok none => scan (seen ++ chunk) chunks
    | answer => answer

/-- However a stream is cut, the answer is the same. -/
theorem scan_eq {seen : Bytes} (undecided : advertisementEnd seen = .ok none) (chunks : List Bytes) :
    scan seen chunks = advertisementEnd (seen ++ chunks.flatten) := by
  induction chunks generalizing seen with
  | nil => rw [List.flatten_nil, List.append_nil, undecided, scan]
  | cons chunk chunks ih =>
      rw [List.flatten_cons, ← List.append_assoc, scan]
      split
      next still => exact ih still
      next found =>
        have stays : advertisementEnd (seen ++ chunk) ≠ .ok none := found
        exact (advertisementEnd_append _ _ stays).symm

end ForgeGateway.Git.Packet
