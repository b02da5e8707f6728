/-! # Counters by key

A `Tally` counts occurrences of keys. A key that never occurred has no entry. -/

namespace ForgeGateway.Metrics

/-- Keys with the number of their occurrences, in the order of the first ones. -/
structure Tally (κ : Type) where
  counts : List (κ × Nat) := []
  deriving Repr

namespace Tally

variable {κ : Type} [DecidableEq κ]

/-- How often a key occurred. -/
def count (t : Tally κ) (k : κ) : Nat := (t.counts.lookup k).getD 0

/-- One more occurrence of `k` in a list of counts. -/
def bump (k : κ) : List (κ × Nat) → List (κ × Nat)
  | [] => [(k, 1)]
  | (j, n) :: rest => if k = j then (j, n + 1) :: rest else (j, n) :: bump k rest

def add (t : Tally κ) (k : κ) : Tally κ := ⟨bump k t.counts⟩

def total (t : Tally κ) : Nat := t.counts.foldr (fun e n => e.2 + n) 0

theorem lookup_bump (k j : κ) (cs : List (κ × Nat)) :
    ((bump k cs).lookup j).getD 0 = (cs.lookup j).getD 0 + if j = k then 1 else 0 := by
  induction cs with
  | nil =>
    by_cases h : j = k
    · simp [bump, h]
    · simp [bump, List.lookup_cons, beq_false_of_ne h, h]
  | cons e rest ih =>
    obtain ⟨i, n⟩ := e
    unfold bump
    by_cases hk : k = i
    · subst hk
      by_cases hj : j = k
      · simp [hj]
      · simp [List.lookup_cons, beq_false_of_ne hj, hj]
    · simp only [hk, if_false]
      by_cases hj : j = i
      · subst hj
        simp [Ne.symm hk]
      · simpa [List.lookup_cons, beq_false_of_ne hj] using ih

@[simp] theorem count_add (t : Tally κ) (k j : κ) :
    (t.add k).count j = t.count j + if j = k then 1 else 0 := lookup_bump k j t.counts

theorem sum_bump (k : κ) (cs : List (κ × Nat)) :
    (bump k cs).foldr (fun e n => e.2 + n) 0 = cs.foldr (fun e n => e.2 + n) 0 + 1 := by
  induction cs with
  | nil => simp [bump]
  | cons e rest ih =>
    obtain ⟨i, n⟩ := e
    unfold bump
    split
    · simp; omega
    · simp only [List.foldr_cons, ih]; omega

@[simp] theorem total_add (t : Tally κ) (k : κ) : (t.add k).total = t.total + 1 :=
  sum_bump k t.counts

end Tally

end ForgeGateway.Metrics
