/-! # Time and waiting

Points in time and lengths of time are whole milliseconds. `Timed` is something that was there
by a deadline or was not; `Progress` is a stage of something that goes on, or its result. -/

namespace ForgeGateway

/-- A point in time, or a length of time, in milliseconds. -/
abbrev Time := Nat

def Time.nanos (t : Time) : Nat := t * 1000000

def Time.seconds (t : Time) : Nat := t / 1000

/-- Something that was there in time, or was not. -/
inductive Timed (α : Type) where
  | got (a : α)
  | late
  deriving DecidableEq, Repr

/-- A stage of something that goes on, or its result. -/
inductive Progress (σ ρ : Type) where
  | more (s : σ)
  | done (r : ρ)
  deriving DecidableEq, Repr

end ForgeGateway
