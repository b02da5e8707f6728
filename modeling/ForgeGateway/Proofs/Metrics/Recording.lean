import ForgeGateway.Metrics.Registry
import Mathlib.Algebra.Ring.Nat

/-! # What a registry holds after measurements

Each family of a registry keeps the measurements of one kind and no others.  What it holds after
measurements is therefore read off those of its kind: a tally has counted their keys
(`Registry.commands_recordAll`, `Registry.verdicts_recordAll`), the histogram has one entry for each
(`Registry.connects_recordAll`), and the octets of pushes are added up
(`Registry.pushBytes_recordAll`). -/

namespace ForgeGateway.Metrics

namespace Measurement

/-- The kind of the command that was counted, and how it ended. -/
def command? : Measurement → Option (CommandKind × Outcome)
  | .command kind ok => some (kind, .of ok)
  | _ => none

/-- The kind of the verdict that was counted. -/
def verdict? : Measurement → Option VerdictKind
  | .verdict kind => some kind
  | _ => none

/-- How long the connection took that was counted. -/
def connect? : Measurement → Option Nat
  | .connect nanos => some nanos
  | _ => none

/-- The length of the pack that was counted. -/
def pushed? : Measurement → Option Nat
  | .pushBytes count => some count
  | _ => none

end Measurement

namespace Tally

variable {κ : Type} [DecidableEq κ]

/-- Counts occurrences in order. -/
def addAll (t : Tally κ) (ks : List κ) : Tally κ := ks.foldl add t

theorem count_addAll (t : Tally κ) (ks : List κ) (k : κ) :
    (t.addAll ks).count k = t.count k + ks.countP (· = k) := by
  induction ks generalizing t with
  | nil => rfl
  | cons j ks ih =>
      have rest := ih (t.add j)
      simp only [addAll, List.foldl_cons] at rest ⊢
      rw [rest, count_add, List.countP_cons, Nat.add_right_comm, Nat.add_assoc]
      by_cases same : k = j
      · simp [same]
      · simp [same, Ne.symm same]

theorem total_addAll (t : Tally κ) (ks : List κ) :
    (t.addAll ks).total = t.total + ks.length := by
  induction ks generalizing t with
  | nil => rfl
  | cons j ks ih =>
      have rest := ih (t.add j)
      simp only [addAll, List.foldl_cons] at rest ⊢
      rw [rest, total_add, List.length_cons]
      omega

end Tally

namespace Registry

variable (r : Registry) (ms : List Measurement)

/-- A family that takes in what `key?` finds in a measurement takes in what it finds in all. -/
theorem family_recordAll {α φ : Type} (family : Registry → φ) (key? : Measurement → Option α)
    (take : φ → List α → φ) (none : ∀ x, take x [] = x)
    (append : ∀ x ks ls, take x (ks ++ ls) = take (take x ks) ls)
    (one : ∀ r m, family (record r m) = take (family r) (key? m).toList) :
    family (r.recordAll ms) = take (family r) (ms.filterMap key?) := by
  induction ms generalizing r with
  | nil => exact (none _).symm
  | cons m ms ih =>
      have keys : (m :: ms).filterMap key? = (key? m).toList ++ ms.filterMap key? := by
        cases h : key? m <;> simp [h]
      rw [keys, append, ← one]
      exact ih (r.record m)

theorem commands_recordAll :
    (r.recordAll ms).commands = r.commands.addAll (ms.filterMap Measurement.command?) :=
  r.family_recordAll ms commands Measurement.command? Tally.addAll (fun _ => rfl)
    (fun _ _ _ => List.foldl_append) fun _ m => by cases m <;> rfl

theorem verdicts_recordAll :
    (r.recordAll ms).verdicts = r.verdicts.addAll (ms.filterMap Measurement.verdict?) :=
  r.family_recordAll ms verdicts Measurement.verdict? Tally.addAll (fun _ => rfl)
    (fun _ _ _ => List.foldl_append) fun _ m => by cases m <;> rfl

theorem connects_recordAll :
    (r.recordAll ms).connects = r.connects ++ ms.filterMap Measurement.connect? :=
  r.family_recordAll ms connects Measurement.connect? (· ++ ·) List.append_nil
    (fun x ks ls => (List.append_assoc x ks ls).symm) fun r m => by
      cases m <;> simp [record, Measurement.connect?]

theorem pushBytes_recordAll :
    (r.recordAll ms).pushBytes = r.pushBytes + (ms.filterMap Measurement.pushed?).sum :=
  r.family_recordAll ms pushBytes Measurement.pushed? (fun n ks => n + ks.sum) (fun _ => rfl)
    (fun n ks ls => by rw [List.sum_append, Nat.add_assoc]) fun r m => by
      cases m <;> simp [record, Measurement.pushed?]

end Registry

end ForgeGateway.Metrics
