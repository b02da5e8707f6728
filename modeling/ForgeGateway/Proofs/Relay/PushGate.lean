import ForgeGateway.Proofs.Relay.PackBuffer
import ForgeGateway.Proofs.Relay.Push

/-! # A push reaches the forge only through the gate

`Captured` describes the history of a push when the gate is asked: the client has sent a pack
within the limits and its end of file, and the forge has been sent nothing.  `Gated` is the
invariant of every push: the forge is sent nothing at all, or exactly the pack that the gate was
asked about and allowed.  `push_gated` says so of all runs. -/

namespace ForgeGateway.Relay

open ForgeGateway.Git (Packet)

/-- The forge was sent nothing. -/
def Untouched (h : List Step) : Prop := sent h = [] ∧ inputEnds h = 0

/-- Everything the client sent up to the end of its input is `pack`, which keeps the limits and
is worth asking about; the gate and the forge know nothing of it yet. -/
structure Captured (job : Job) (h : List Step) (pack : Bytes) : Prop where
  untouched : Untouched h
  unasked : consultations h = []
  messages : ∃ chunks : List Bytes, clientMessages h = chunks.map .data ++ [.eof] ∧
    pack = chunks.flatten ∧
    (chunks.filter (!·.isEmpty)).length ≤ job.limits.pack.maxChunks
  length_le : pack.length ≤ job.limits.pack.maxBytes
  nonempty : pack ≠ []
  unflushed : pack ≠ Bytes.ofString "0000"

/-- The gate was asked about `pack` and nothing else, and gave no reason against it; `after` is
what followed. -/
def Released (job : Job) (h : List Step) (pack : Bytes) (after : List Step) : Prop :=
  ∃ before v t c, h = before ++ ⟨.consult (job.approval (some pack)), .ok v, t, c⟩ :: after ∧
    Captured job before pack ∧ v.error = none ∧ v.blocked = none ∧ consultations after = []

/-- The forge was sent nothing, or the released pack at once and nothing more, with at most one
end of input behind it. -/
def Gated (job : Job) (h : List Step) : Prop :=
  Untouched h ∨ ∃ pack a t c rest,
    Released job h pack (⟨.send pack, a, t, c⟩ :: rest) ∧ sent rest = [] ∧ inputEnds rest ≤ 1

section
variable {job : Job} {h : List Step} {st : Step}

theorem Untouched.snoc (hu : Untouched h) (hs : st.sent? = none) (he : st.endsInput = false) :
    Untouched (h ++ [st]) := by
  simp [Untouched, hu.1, hu.2, hs, he]

theorem Released.snoc {pack : Bytes} {after : List Step} (hr : Released job h pack after)
    (hc : st.consulted? = none) : Released job (h ++ [st]) pack (after ++ [st]) := by
  obtain ⟨before, v, t, c, rfl, hcap, hv, hb, hone⟩ := hr
  exact ⟨before, v, t, c, by simp, hcap, hv, hb, by simp [hone, hc]⟩

/-- A step that neither asks the gate nor sends anything to the forge changes nothing. -/
theorem Gated.snoc (hg : Gated job h) (hc : st.consulted? = none) (hs : st.sent? = none)
    (he : st.endsInput = false) : Gated job (h ++ [st]) := by
  rcases hg with hu | ⟨pack, a, t, c, rest, hr, hsent, hends⟩
  · exact .inl (hu.snoc hs he)
  · exact .inr ⟨pack, a, t, c, rest ++ [st], hr.snoc hc, by simp [hsent, hs], by simp [hends, he]⟩

end

/-- What a push has done when it is at a stage. -/
def GateHistory (job : Job) (h : List Step) : Flow → Prop
  | .dialling _ | .prefetching _ _ | .advertising _ =>
    Untouched h ∧ consultations h = [] ∧ clientMessages h = []
  | .capturing _ _ b =>
    Untouched h ∧ consultations h = [] ∧
      ∃ chunks : List Bytes, clientMessages h = chunks.map .data ∧ b.Holds job.limits.pack chunks
  | .consultingPack _ pack => Captured job h pack
  | .forwarding _ pack => Released job h pack []
  | .endingInput _ => ∃ pack a t c, Released job h pack [⟨.send pack, a, t, c⟩]
  | .replaying _ _ | .relaying _ _ | .relayingOut _ _ _ | .relayingErr _ _ _ | .closing _ =>
    Gated job h
  | _ => False

theorem GateHistory.inPush {job : Job} {h : List Step} {f : Flow} (hf : GateHistory job h f) :
    f.InPush := by
  cases f <;> trivial

theorem wire_flush : Packet.wire .flush = Bytes.ofString "0000" := by decide

theorem GateHistory.keep {job : Job} {h : List Step} {f : Flow} {st : Step} {next : Next}
    (move : PushMove job f st next) (hf : GateHistory job h f) :
    next.Holds (GateHistory job (h ++ [st])) (Gated job (h ++ [st])) := by
  cases move with
  | unconnected | late | unadvertised | malformed | unpassed | unshown | dies =>
      exact .inl (hf.1.snoc rfl rfl)
  | connected | more | advertised | passing | passed =>
      exact ⟨hf.1.snoc rfl rfl, by simp [hf.2.1, Step.consulted?], by simp [hf.2.2, Step.taken?]⟩
  | shown =>
      refine ⟨hf.1.snoc rfl rfl, by simp [hf.2.1, Step.consulted?], [], ?_, .empty _⟩
      simp [hf.2.2, Step.taken?]
  | uncaptured | overfull | miscounted | nothing => exact .inl (hf.1.snoc rfl rfl)
  | takes taken =>
      obtain ⟨hu, hc, chunks, hm, hb⟩ := hf
      exact ⟨hu.snoc rfl rfl, by simp [hc, Step.consulted?], chunks ++ [_],
        by simp [hm, Step.taken?], hb.push taken⟩
  | captured whole nonempty unflushed =>
      obtain ⟨hu, hc, chunks, hm, hb⟩ := hf
      obtain rfl := Except.ok.inj (hb.intoPack_eq.symm.trans whole)
      refine ⟨hu.snoc rfl rfl, by simp [hc, Step.consulted?],
        ⟨chunks, by simp [hm, Step.taken?], rfl, ?_⟩, ?_, nonempty, wire_flush ▸ unflushed⟩
      · rw [← hb.chunks_eq]
        exact hb.count_le
      · rw [← hb.total_eq]
        exact hb.total_le
  | denied => exact .inl (hf.untouched.snoc rfl rfl)
  | allowed hv => exact ⟨h, _, _, _, rfl, hf, hv.1, hv.2, rfl⟩
  | unsent => exact .inr ⟨_, _, _, _, [], hf.snoc rfl, rfl, Nat.zero_le _⟩
  | sent => exact ⟨_, _, _, _, hf.snoc rfl⟩
  | unended | ended | replays =>
      obtain ⟨pack, a, t, c, hr⟩ := hf
      exact .inr ⟨pack, a, t, c, [_], hr.snoc rfl, rfl, Nat.le_refl _⟩
  | replayed | unreplayed | broken | done | skipped | data | stderr | exits | outputEnds
  | relayedOut | unrelayedOut | relayedErr | unrelayedErr | closed => exact hf.snoc rfl rfl rfl

/-- In every stage a push has done what `GateHistory` says, and behind its flow it is gated. -/
theorem Run.gateHistory {job : Job} (push : job.exec.service = .receivePack) {now : Time}
    {steps : List Step} {s : Stage}
    (run : Run (.active (.flowing job (.dialling now))) steps s) :
    s.Holds job (GateHistory job steps) (Gated job steps) :=
  run.push_invariant push (fun _ _ hf => hf.inPush) (fun _ _ _ _ move hf => hf.keep move)
    (fun _ _ _ _ _ hg => hg.snoc rfl rfl rfl) (fun _ _ _ _ _ hg => hg.snoc rfl rfl rfl)
    ⟨⟨rfl, rfl⟩, rfl, rfl⟩

/-! ### All runs of a push -/

section
variable {job : Job} {h : List Step}

theorem Gated.once (hg : Gated job h) : (sent h).length ≤ 1 ∧ inputEnds h ≤ 1 := by
  rcases hg with hu | ⟨pack, a, t, c, rest, hr, hsent, hends⟩
  · rw [hu.1, hu.2]
    exact ⟨Nat.zero_le _, Nat.zero_le _⟩
  · obtain ⟨before, v, t', c', rfl, hcap, -⟩ := hr
    have hb := hcap.untouched
    simp [hb.1, hb.2, hsent, hends, Step.sent?, Step.endsInput]

end

end ForgeGateway.Relay
