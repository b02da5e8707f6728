import ForgeGateway.Relay.PackBuffer

/-! # What a pack buffer holds

`PackBuffer.Holds limits chunks` says that a buffer has taken in `chunks` and nothing else, under
`limits`.  It holds of the empty buffer and is kept by every chunk that is taken
(`Holds.push`); the pack is then the chunks in order (`Holds.intoPack_eq`). -/

namespace ForgeGateway.Relay.PackBuffer

/-- The buffer has taken in `chunks`, of which it keeps those that are not empty. -/
structure Holds (b : PackBuffer) (limits : PackLimits) (chunks : List Bytes) : Prop where
  limits_eq : b.limits = limits
  chunks_eq : b.chunks = chunks.filter (!·.isEmpty)
  total_eq : b.total = chunks.flatten.length
  total_le : b.total ≤ limits.maxBytes
  count_le : b.chunks.length ≤ limits.maxChunks

theorem Holds.empty (limits : PackLimits) : (empty limits).Holds limits [] :=
  ⟨rfl, rfl, rfl, Nat.zero_le _, Nat.zero_le _⟩

variable {b b' : PackBuffer} {limits : PackLimits} {chunks : List Bytes} {chunk : Bytes}

theorem Holds.push (h : b.Holds limits chunks) (taken : b.push chunk = (.ok (), b')) :
    b'.Holds limits (chunks ++ [chunk]) := by
  unfold PackBuffer.push at taken
  split at taken
  next hc =>
    obtain rfl := (Prod.mk.inj taken).2
    have hnil : chunk = [] := List.isEmpty_iff.1 hc
    subst hnil
    exact ⟨h.limits_eq, by simpa using h.chunks_eq, by simpa using h.total_eq, h.total_le,
      h.count_le⟩
  next hc =>
    split at taken
    next => cases (Prod.mk.inj taken).1
    next hcount =>
      split at taken
      next => cases (Prod.mk.inj taken).1
      next htotal =>
        obtain rfl := (Prod.mk.inj taken).2
        rw [h.limits_eq] at hcount htotal
        refine ⟨h.limits_eq, ?_, ?_, Nat.not_lt.1 htotal, ?_⟩
        · simp [h.chunks_eq, List.filter_append, hc]
        · simp [h.total_eq]
        · simp only [List.length_append, List.length_singleton]
          omega

theorem Holds.intoPack_eq (h : b.Holds limits chunks) : b.intoPack = .ok chunks.flatten := by
  have hp : b.chunks.flatten = chunks.flatten := by
    rw [h.chunks_eq, List.flatten_filter_not_isEmpty]
  simp [intoPack, hp, h.total_eq]

end ForgeGateway.Relay.PackBuffer
