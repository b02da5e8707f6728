import ForgeGateway.Git.ExecLine
import ForgeGateway.Metrics.Tally

/-! # What is counted

A `Measurement` is one thing worth counting; `Registry.record` counts it. The registry keeps
plain sums, so what it holds is a function of the measurements that were recorded. -/

namespace ForgeGateway.Metrics

/-- How something ended. -/
inductive Outcome where
  | success
  | failure
  deriving DecidableEq, Repr

/-- The outcome of something that went well or not. -/
def Outcome.of (ok : Bool) : Outcome := if ok then .success else .failure

theorem Outcome.of_inj {a b : Bool} : Outcome.of a = Outcome.of b ↔ a = b := by
  cases a <;> cases b <;> simp [Outcome.of]

/-- What an exec line asked for. -/
inductive CommandKind where
  | uploadPack
  | receivePack
  /-- The line was refused. -/
  | rejected
  deriving DecidableEq, Repr

/-- The kind of an accepted exec line. -/
def CommandKind.of : Git.Service → CommandKind
  | .uploadPack => .uploadPack
  | .receivePack => .receivePack

/-- How a consultation of the gate ended. -/
inductive VerdictKind where
  | allowed
  | blocked
  | unavailable
  deriving DecidableEq, Repr

/-- One thing worth counting. -/
inductive Measurement where
  | sessionOpened
  | sessionClosed
  | authAttempt (accepted : Bool)
  | command (kind : CommandKind) (ok : Bool)
  | verdict (kind : VerdictKind)
  | agentOperation (operation : String) (ok : Bool)
  /-- A connection to a forge was tried, and took so many nanoseconds. -/
  | connect (nanos : Nat)
  | pushBytes (count : Nat)
  deriving DecidableEq, Repr

/-- Everything counted so far. -/
structure Registry where
  sessions : Nat := 0
  activeSessions : Nat := 0
  authAttempts : Tally Outcome := {}
  commands : Tally (CommandKind × Outcome) := {}
  pushBytes : Nat := 0
  verdicts : Tally VerdictKind := {}
  agentOperations : Tally (String × Outcome) := {}
  /-- The lengths of all tries to connect, in nanoseconds and in order. -/
  connects : List Nat := []
  deriving Repr

def Registry.record (r : Registry) : Measurement → Registry
  | .sessionOpened =>
    { r with sessions := r.sessions + 1, activeSessions := r.activeSessions + 1 }
  | .sessionClosed => { r with activeSessions := r.activeSessions - 1 }
  | .authAttempt accepted => { r with authAttempts := r.authAttempts.add (.of accepted) }
  | .command kind ok => { r with commands := r.commands.add (kind, .of ok) }
  | .verdict kind => { r with verdicts := r.verdicts.add kind }
  | .agentOperation operation ok =>
    { r with agentOperations := r.agentOperations.add (operation, .of ok) }
  | .connect nanos => { r with connects := r.connects ++ [nanos] }
  | .pushBytes count => { r with pushBytes := r.pushBytes + count }

def Registry.recordAll (r : Registry) (ms : List Measurement) : Registry := ms.foldl record r

/-- What grows by one for each measurement of a kind counts all measurements of that kind. -/
theorem Registry.count_of_record {κ : Type} [DecidableEq κ] (tally : Registry → Tally κ) {k : κ}
    {kind : Measurement}
    (one : ∀ r m, (tally (record r m)).count k =
      (tally r).count k + if m = kind then 1 else 0) (r : Registry) (ms : List Measurement) :
    (tally (r.recordAll ms)).count k = (tally r).count k + ms.count kind := by
  induction ms generalizing r with
  | nil => rfl
  | cons m ms ih =>
    have rest := ih (r.record m)
    simp only [recordAll, List.foldl_cons] at rest ⊢
    rw [rest, one, List.count_cons]
    simp only [beq_iff_eq]
    omega

end ForgeGateway.Metrics
