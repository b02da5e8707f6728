import ForgeGateway.Proofs.Forge.Channel
import ForgeGateway.Proofs.Relay.Push

/-! # The status of a push

A push whose pack was forwarded ends with the last exit status that the forge gave, if the forge's
channel has come to an orderly end, and else with 1 (`Concluded`).  A channel that ends without
having given a status is a failure; one that is closed without having given one counts as orderly,
and the push as a success (`closed_succeeds`).  `push_status` says so of all sequences of messages
on the channel. -/

namespace ForgeGateway.Relay

/-! ### What the steps say about the result -/

theorem Step.readsEnd_iff {st : Step} : st.readsEnd = true ↔ st.forgeRead? = some (.ok none) := by
  unfold Step.readsEnd
  split <;> simp_all

theorem endedCleanly_iff {h : List Step} : EndedCleanly h ↔ .ok none ∈ forgeReads h := by
  rw [forgeReads, List.mem_filterMap]
  simp only [EndedCleanly, Step.readsEnd_iff]

/-- The forge's channel has not ended, and `exit` is the last exit status that was read. -/
structure Awaits (h : List Step) (exit : Option Nat) : Prop where
  unended : ¬EndedCleanly h
  exit_eq : exit = (exitsRead h).getLast?

/-- A result that is the last exit status that was read, or 0, if the forge's channel has come to
an orderly end, and else a failure. -/
structure Concluded (h : List Step) (result : Result) : Prop where
  ended : EndedCleanly h → result = .ok ((exitsRead h).getLast?.getD 0)
  unended : ¬EndedCleanly h → ∃ e, result = .error e

section
variable {h : List Step} {st : Step} {exit : Option Nat}

theorem endedCleanly_snoc_of_ne (hst : st.forgeRead? ≠ some (.ok none)) :
    EndedCleanly (h ++ [st]) ↔ EndedCleanly h := by
  simp [Step.readsEnd_iff, hst]

theorem awaits_nil : Awaits [] none := ⟨not_endedCleanly_nil, rfl⟩

theorem Awaits.snoc (ha : Awaits h exit) (hst : st.forgeRead? = none) :
    Awaits (h ++ [st]) exit where
  unended := by
    rw [endedCleanly_snoc_of_ne (by simp [hst])]
    exact ha.unended
  exit_eq := by
    rw [exitsRead_snoc_none hst]
    exact ha.exit_eq

theorem Awaits.read (ha : Awaits h exit) (e : ForgeEvent)
    (hst : st.forgeRead? = some (.ok (some e))) : Awaits (h ++ [st]) (e.status?.or exit) where
  unended := by
    rw [endedCleanly_snoc_of_ne (by simp [hst])]
    exact ha.unended
  exit_eq := by
    rw [exitsRead_snoc_some hst, ha.exit_eq]
    cases hs : e.status? with
    | none => simp [exitRead?, hs]
    | some status => simp [exitRead?, hs]

theorem Awaits.fails (ha : Awaits h exit) (hst : st.forgeRead? ≠ some (.ok none)) (e : Failure) :
    Concluded (h ++ [st]) (.error e) where
  ended ends := absurd ((endedCleanly_snoc_of_ne hst).1 ends) ha.unended
  unended _ := ⟨e, rfl⟩

theorem Awaits.ends (ha : Awaits h exit) (hst : st.forgeRead? = some (.ok none)) :
    Concluded (h ++ [st]) (Flow.exitOr0 exit) where
  ended _ := by
    rw [exitsRead_snoc_other hst rfl, ← ha.exit_eq]
    rfl
  unended unends := by
    refine absurd ?_ unends
    rw [endedCleanly_append]
    exact .inr ⟨st, List.mem_singleton_self st, Step.readsEnd_iff.2 hst⟩

theorem Concluded.snoc {result : Result} (hc : Concluded h result) (hst : st.forgeRead? = none) :
    Concluded (h ++ [st]) result := by
  have same : EndedCleanly (h ++ [st]) ↔ EndedCleanly h :=
    endedCleanly_snoc_of_ne (by simp [hst])
  refine ⟨?_, ?_⟩
  · rw [same, exitsRead_snoc_none hst]
    exact hc.ended
  · rw [same]
    exact hc.unended

/-! ### Stages -/

/-- What the steps of a push say about its result, when the push is at a stage. -/
def StatusHistory (h : List Step) : Flow → Prop
  | .dialling _ | .prefetching _ _ | .advertising _ | .capturing _ _ _ | .consultingPack _ _
  | .forwarding _ _ => ¬Forwarded h ∧ Awaits h none
  | .endingInput _ | .replaying _ _ => Awaits h none
  | .relaying _ exit | .relayingOut _ _ exit | .relayingErr _ _ exit => Awaits h exit
  | .closing result => Forwarded h → Concluded h result
  | _ => False

/-- What the steps of a push whose pack was forwarded say about its status. -/
def HasStatus (h : List Step) (status : Nat) : Prop :=
  Forwarded h → ∃ result, Concluded h result ∧ status = exitStatus result

/-- What the steps of a push say about its result, when the command is at a stage. -/
def Stage.StatusKnown (job : Job) (h : List Step) : Stage → Prop
  | .active (.flowing job' f) => job' = job ∧ StatusHistory h f
  | .active (.reporting _ e) => Forwarded h → Concluded h (.error e)
  | .active (.finishing status) | .finished status => HasStatus h status
  | .aborted => True

theorem StatusHistory.inPush {f : Flow} (hf : StatusHistory h f) : f.InPush := by
  cases f <;> trivial

theorem statusKnown_conclude {job : Job} {kind : Metrics.CommandKind} {result : Result}
    (hc : Forwarded h → Concluded h result) :
    (Active.conclude kind result).1.StatusKnown job h := by
  cases result with
  | ok status => exact fun forwarded => ⟨_, hc forwarded, rfl⟩
  | error e => exact hc

theorem not_forwarded_snoc (hf : ¬Forwarded h) (hst : ∀ b, st.sent? ≠ some (b, .ok ())) :
    ¬Forwarded (h ++ [st]) := by
  simp [hf, hst]

theorem forwarded_of_snoc (hst : ∀ b, st.sent? ≠ some (b, .ok ()))
    (hf : Forwarded (h ++ [st])) : Forwarded h := by
  simpa [hst] using hf

theorem PushMove.keeps_status {job : Job} {f : Flow} {next : Next} (move : PushMove job f st next)
    (hf : StatusHistory h f) : (Active.onNext job next).1.StatusKnown job (h ++ [st]) := by
  cases move with
  | unconnected =>
      exact statusKnown_conclude fun forwarded =>
        absurd forwarded (not_forwarded_snoc hf.1 (by simp [Step.sent?]))
  | connected | passed | shown | takes | captured | allowed =>
      exact ⟨rfl, not_forwarded_snoc hf.1 (by simp [Step.sent?]), hf.2.snoc rfl⟩
  | @more _ _ chunk | @advertised _ _ chunk =>
      exact ⟨rfl, not_forwarded_snoc hf.1 (by simp [Step.sent?]), hf.2.read (.data chunk) rfl⟩
  | @passing _ _ chunk =>
      exact ⟨rfl, not_forwarded_snoc hf.1 (by simp [Step.sent?]), hf.2.read (.stderr chunk) rfl⟩
  | late | unadvertised | malformed | unpassed | unshown | uncaptured | overfull | miscounted
  | nothing | denied | unsent =>
      exact ⟨rfl, fun forwarded =>
        absurd forwarded (not_forwarded_snoc hf.1 (by simp [Step.sent?]))⟩
  | dies => trivial
  | sent => exact ⟨rfl, hf.2.snoc rfl⟩
  | ended | replays | replayed | relayedOut | relayedErr => exact ⟨rfl, Awaits.snoc hf rfl⟩
  | @skipped _ _ chunk | @data _ _ chunk => exact ⟨rfl, Awaits.read hf (.data chunk) rfl⟩
  | @stderr _ _ chunk => exact ⟨rfl, Awaits.read hf (.stderr chunk) rfl⟩
  | @exits _ _ status => exact ⟨rfl, Awaits.read hf (.exit status) rfl⟩
  | outputEnds => exact ⟨rfl, Awaits.read hf .eof rfl⟩
  | unended | unreplayed | unrelayedOut | unrelayedErr | broken =>
      exact ⟨rfl, fun _ => Awaits.fails hf (by simp [Step.forgeRead?]) _⟩
  | done => exact ⟨rfl, fun _ => Awaits.ends hf rfl⟩
  | closed =>
      refine statusKnown_conclude fun forwarded => ?_
      exact (hf (forwarded_of_snoc (by simp [Step.sent?]) forwarded)).snoc rfl

/-- At every stage of a push its steps say what they say about its result. -/
theorem Run.statusKnown {job : Job} (push : job.exec.service = .receivePack) {now : Time}
    {steps : List Step} {s : Stage}
    (run : Run (.active (.flowing job (.dialling now))) steps s) : s.StatusKnown job steps := by
  refine run.invariant (I := fun h s => s.StatusKnown job h) ?_ (h := [])
    ⟨rfl, not_forwarded_nil, awaits_nil⟩
  intro h a now answer known
  cases a with
  | flowing job' f =>
      obtain ⟨rfl, hf⟩ := known
      exact (PushMove.of_resume now _ push hf.inPush answer).keeps_status hf
  | reporting kind e =>
      intro forwarded
      have before := forwarded_of_snoc (by simp [Step.sent?, Active.request]) forwarded
      exact ⟨_, (known before).snoc rfl, rfl⟩
  | finishing status =>
      intro forwarded
      have before := forwarded_of_snoc (by simp [Step.sent?, Active.request]) forwarded
      obtain ⟨result, concluded, same⟩ := known before
      exact ⟨result, concluded.snoc rfl, same⟩

end

/-! ### All channels -/

/-- How the status of a push depends on the messages that were taken from the forge's channel. -/
structure StatusOf (used : List Forge.Message) (steps : List Step) (status : Nat) : Prop where
  ended : EndedCleanly steps → status = (Forge.exits used).getLast?.getD 0
  unended : ¬EndedCleanly steps → status = 1
  /-- Success is the forge's status, or stands for a channel that was closed without one. -/
  success : status = 0 → 0 ∈ Forge.exits used ∨ Forge.exits used = [] ∧ .close ∈ used
  /-- Without a status of the forge, the channel's close decides. -/
  unstated : Forge.exits used = [] → (status = 0 ↔ .close ∈ used) ∧ (.close ∉ used → status = 1)

theorem Concluded.statusOf {h : List Step} {result : Result} {used : List Forge.Message}
    (hc : Concluded h result) (taken : Forge.Taken {} used (forgeReads h)) :
    StatusOf used h (exitStatus result) := by
  have exits : exitsRead h = Forge.exits used := taken.exits.symm
  have ended (ends : EndedCleanly h) :
      exitStatus result = (Forge.exits used).getLast?.getD 0 := by
    rw [hc.ended ends, exits]
    rfl
  have unended (unends : ¬EndedCleanly h) : exitStatus result = 1 := by
    obtain ⟨e, rfl⟩ := hc.unended unends
    rfl
  have closed_or_given (ends : EndedCleanly h) : .close ∈ used ∨ Forge.exits used ≠ [] := by
    rcases taken.ends (endedCleanly_iff.1 ends) with closes | seen | given
    · exact .inl closes
    · cases seen
    · exact .inr given
  refine ⟨ended, unended, ?_, ?_⟩
  · intro success
    by_cases ends : EndedCleanly h
    · rw [ended ends] at success
      by_cases given : Forge.exits used = []
      · exact .inr ⟨given, (closed_or_given ends).resolve_right (not_not_intro given)⟩
      · rw [List.getLast?_eq_some_getLast given, Option.getD_some] at success
        exact .inl (success ▸ List.getLast_mem given)
    · rw [unended ends] at success
      cases success
  · intro none
    have closes_iff : EndedCleanly h ↔ .close ∈ used :=
      ⟨fun ends => (closed_or_given ends).resolve_right (not_not_intro none),
        fun closes => endedCleanly_iff.2 (taken.closed closes)⟩
    refine ⟨⟨fun success => ?_, fun closes => ?_⟩, fun closes => ?_⟩
    · by_cases ends : EndedCleanly h
      · exact closes_iff.1 ends
      · rw [unended ends] at success
        cases success
    · rw [ended (closes_iff.2 closes), none]
      rfl
    · exact unended fun ends => closes (closes_iff.1 ends)

/-- **The status of a push.**  Whatever messages the forge's channel yields, in whatever order: a
push whose pack was forwarded finishes with the last exit status among those it has taken, if the
channel has come to an orderly end, and else with 1.  It finishes with 0 only if the forge gave 0,
or closed the channel without giving a status; a channel that ends without a status, and without
having been closed, gives 1. -/
theorem push_status {context : Context} {limits : Limits} {raw : String} {now : Time}
    {exec : Git.ExecLine} {steps : List Step} {status : Nat} {ms rest : List Forge.Message}
    (parsed : Git.ExecLine.parse raw = .ok exec) (push : exec.service = .receivePack)
    (run : Run (.start context limits raw now) steps (.finished status))
    (forwarded : Forwarded steps) (reads : Forge.Reads {} ms (forgeReads steps) rest) :
    ∃ used, ms = used ++ rest ∧ StatusOf used steps status := by
  rw [Stage.start_push parsed push] at run
  obtain ⟨result, concluded, rfl⟩ := run.statusKnown push forwarded
  obtain ⟨used, front, taken⟩ := reads.taken
  exact ⟨used, front, concluded.statusOf taken⟩

/-! ### Pushes of one octet -/

/-- What the forge's channel yields when the forge gives the status 0 and the channel ends. -/
def sampleMessages : List Forge.Message := [.data samplePrefetched.buffer, .exit 0]

theorem sample_push_exits :
    ∃ steps, Run (.start sampleJob.context sampleJob.limits sampleLine 0) steps (.finished 0) ∧
      Forwarded steps ∧ Forge.Reads {} sampleMessages (forgeReads steps) [] := by
  have run : Run (.active (.flowing sampleJob (.consultingPack samplePrefetched [1]))) _
      (.finished 0) :=
    .step (.flowing sampleJob (.consultingPack samplePrefetched [1])) 0 (.ok {}) <|
    .step (.flowing sampleJob (.forwarding samplePrefetched [1])) 0 (.ok ()) <|
    .step (.flowing sampleJob (.endingInput samplePrefetched)) 0 (.ok ()) <|
    .step (.flowing sampleJob (.replaying [7] ⟨0⟩)) 0 (.ok ()) <|
    .step (.flowing sampleJob (.relaying ⟨0⟩ none)) 0 (.ok (some (.exit 0))) <|
    .step (.flowing sampleJob (.relaying ⟨0⟩ (some 0))) 0 (.ok none) <|
    .step (.flowing sampleJob (.closing (.ok 0))) 0 () <|
    .step (.finishing 0) 0 () <| .here (.finished 0)
  obtain ⟨before, whole, -, -, -, reads, -⟩ := sample_run_captures run
  refine ⟨_, whole, ?_, ?_⟩
  · exact (forwarded_append before _).2 (.inr ⟨_, .tail _ (.head _), [1], rfl⟩)
  · rw [forgeReads, List.filterMap_append, reads]
    exact .cons (.cons (.cons (.nil _ _)))

theorem push_status_sample :
    ∃ steps, Run (.start sampleJob.context sampleJob.limits sampleLine 0) steps (.finished 0) ∧
      Forwarded steps ∧ Forge.Reads {} sampleMessages (forgeReads steps) [] ∧
      StatusOf sampleMessages steps 0 := by
  obtain ⟨steps, run, forwarded, reads⟩ := sample_push_exits
  obtain ⟨used, front, status⟩ := push_status parse_sampleLine rfl run forwarded reads
  rw [List.append_nil] at front
  exact ⟨steps, run, forwarded, reads, front ▸ status⟩

/-- The forge closes the channel without a status, and the push is a success. -/
theorem closed_succeeds :
    ∃ steps, Run (.start sampleJob.context sampleJob.limits sampleLine 0) steps (.finished 0) ∧
      Forwarded steps ∧
      Forge.Reads {} [.data samplePrefetched.buffer, .close] (forgeReads steps) [] ∧
      Forge.exits [.data samplePrefetched.buffer, .close] = [] := by
  have run : Run (.active (.flowing sampleJob (.consultingPack samplePrefetched [1]))) _
      (.finished 0) :=
    .step (.flowing sampleJob (.consultingPack samplePrefetched [1])) 0 (.ok {}) <|
    .step (.flowing sampleJob (.forwarding samplePrefetched [1])) 0 (.ok ()) <|
    .step (.flowing sampleJob (.endingInput samplePrefetched)) 0 (.ok ()) <|
    .step (.flowing sampleJob (.replaying [7] ⟨0⟩)) 0 (.ok ()) <|
    .step (.flowing sampleJob (.relaying ⟨0⟩ none)) 0 (.ok none) <|
    .step (.flowing sampleJob (.closing (.ok 0))) 0 () <|
    .step (.finishing 0) 0 () <| .here (.finished 0)
  obtain ⟨before, whole, -, -, -, reads, -⟩ := sample_run_captures run
  refine ⟨_, whole, ?_, ?_, rfl⟩
  · exact (forwarded_append before _).2 (.inr ⟨_, .tail _ (.head _), [1], rfl⟩)
  · rw [forgeReads, List.filterMap_append, reads]
    exact .cons (.cons (.nil _ _))

end ForgeGateway.Relay
