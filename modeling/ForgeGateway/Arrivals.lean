import ForgeGateway.Clock

/-! # What arrives in time

Things arrive in a row, each of them from a time on and none before those ahead of it.  A `Reader`
goes on with them one by one, until it has a result or a limit has passed (`Reader.upTo`).  What is
there for good, such as the end of a row, is not taken away. -/

namespace ForgeGateway

/-- What arrives, and from when on it is there. -/
abbrev Arrivals (α : Type) := List (Time × α)

/-- Something that goes on with what arrives. -/
structure Reader (α σ ρ : Type) where
  step : σ → α → Progress σ ρ
  /-- This is there for good. -/
  lasts : α → Bool
  /-- The result if there was none in time. -/
  late : σ → ρ

/-- Where a reader has got to, when that was, and what has not been taken away. -/
structure Reading (α σ ρ : Type) where
  time : Time
  progress : Progress σ ρ
  left : Arrivals α

namespace Reader

variable {α σ ρ : Type}

/-- Reads what arrives up to `limit`, from a point in time on. -/
def upTo (R : Reader α σ ρ) (limit : Time) : Time → σ → Arrivals α → Reading α σ ρ
  | _, s, [] => ⟨limit, .more s, []⟩
  | now, s, (t, a) :: rest =>
    if max now t ≤ limit then
      match R.step s a with
      | .done r => ⟨max now t, .done r, if R.lasts a then (t, a) :: rest else rest⟩
      | .more s => R.upTo limit (max now t) s rest
    else ⟨limit, .more s, (t, a) :: rest⟩

/-- The result at the limit. -/
def result (R : Reader α σ ρ) : Progress σ ρ → ρ
  | .more s => R.late s
  | .done r => r

end Reader

end ForgeGateway
