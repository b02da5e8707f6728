import ForgeGateway.Proofs.Relay.LifeCycle

/-! # What a pull does

`PullMove` lists the moves of a pull, stage by stage: the request that is made, its answer, and
what follows.  While the client's input is open, the client and the forge are read together, and
whichever was first decides the move; behind its end only the forge is read.  Every step of a
pull is one of the moves (`PullMove.of_resume`), so that an invariant of a pull is proved by cases
on them, for whole commands (`Run.pull_invariant`) and for flows up to their result
(`FlowRun.pull_invariant`). -/

namespace ForgeGateway.Relay

def Flow.InPull : Flow → Prop
  | .consulting | .dialling _ | .piping _ _ | .pipingOut _ _ _ | .pipingErr _ _ _
  | .pipingSend _ _ | .pipingEof _ | .closing _ => True
  | _ => False

/-! ### Reading the forge -/

/-- A step of a pull that reads the forge's channel, with the client's input open or not. -/
def readStep (clientOpen : Bool) (r : ForgeRead) (now : Time) (c : List Metrics.Measurement) :
    Step :=
  match clientOpen with
  | true => ⟨.readEither, .forge r, now, c⟩
  | false => ⟨.readForge, r, now, c⟩

section
variable (clientOpen : Bool) (r : ForgeRead) (now : Time) (c : List Metrics.Measurement)

@[simp] theorem forgeRead?_readStep : (readStep clientOpen r now c).forgeRead? = some r := by
  cases clientOpen <;> rfl

@[simp] theorem consulted?_readStep : (readStep clientOpen r now c).consulted? = none := by
  cases clientOpen <;> rfl

@[simp] theorem sent?_readStep : (readStep clientOpen r now c).sent? = none := by
  cases clientOpen <;> rfl

@[simp] theorem endsInput_readStep : (readStep clientOpen r now c).endsInput = false := by
  cases clientOpen <;> rfl

@[simp] theorem taken?_readStep : (readStep clientOpen r now c).taken? = none := by
  cases clientOpen <;> rfl

@[simp] theorem output?_readStep : (readStep clientOpen r now c).output? = none := by
  cases clientOpen <;> rfl

theorem readsClient_readStep :
    (readStep clientOpen r now c).request.readsClient = clientOpen := by
  cases clientOpen <;> rfl

end

/-! ### The moves -/

inductive PullMove (job : Job) : Flow → Step → Next → Prop
  -- The gate.
  | denied {a now c e} (h : Flow.decision a = .error e) :
      PullMove job .consulting ⟨.consult (job.approval none), a, now, c⟩ (.ended (.error e))
  | allowed {v now c} (h : v.error = none ∧ v.blocked = none) :
      PullMove job .consulting ⟨.consult (job.approval none), .ok v, now, c⟩
        (.stage (.dialling now))
  -- The connection.
  | unconnected {started d t a now c e} (h : a ≠ .got (.ok ())) :
      PullMove job (.dialling started) ⟨.dial d t, a, now, c⟩ (.ended (.error e))
  | connected {started d t now c} :
      PullMove job (.dialling started) ⟨.dial d t, .got (.ok ()), now, c⟩
        (.stage (.piping none true))
  -- What the client sends.
  | clientGone {exit now c} :
      PullMove job (.piping exit true) ⟨.readEither, .client none, now, c⟩
        (.stage (.closing (.error .clientGone)))
  | clientData {exit chunk now c} :
      PullMove job (.piping exit true) ⟨.readEither, .client (some (.data chunk)), now, c⟩
        (.stage (.pipingSend chunk exit))
  | clientEof {exit now c} :
      PullMove job (.piping exit true) ⟨.readEither, .client (some .eof), now, c⟩
        (.stage (.pipingEof exit))
  | sent {chunk exit now c} :
      PullMove job (.pipingSend chunk exit) ⟨.send chunk, .ok (), now, c⟩
        (.stage (.piping exit true))
  | unsent {chunk exit now c e} :
      PullMove job (.pipingSend chunk exit) ⟨.send chunk, .error e, now, c⟩
        (.stage (.closing (.error e)))
  | ended {exit now c} :
      PullMove job (.pipingEof exit) ⟨.sendEof, .ok (), now, c⟩ (.stage (.piping exit false))
  | unended {exit now c e} :
      PullMove job (.pipingEof exit) ⟨.sendEof, .error e, now, c⟩ (.stage (.closing (.error e)))
  -- What the forge writes.
  | broken {exit clientOpen now c e} (h : Flow.isBenign e = false) :
      PullMove job (.piping exit clientOpen) (readStep clientOpen (.error e) now c)
        (.stage (.closing (.error e)))
  | breaksOff {exit clientOpen now c e} (h : Flow.isBenign e) :
      PullMove job (.piping exit clientOpen) (readStep clientOpen (.error e) now c)
        (.stage (.closing (Flow.exitOr0 exit)))
  | done {exit clientOpen now c} :
      PullMove job (.piping exit clientOpen) (readStep clientOpen (.ok none) now c)
        (.stage (.closing (Flow.exitOr0 exit)))
  | data {exit clientOpen chunk now c} :
      PullMove job (.piping exit clientOpen)
        (readStep clientOpen (.ok (some (.data chunk))) now c)
        (.stage (.pipingOut chunk exit clientOpen))
  | stderr {exit clientOpen chunk now c} :
      PullMove job (.piping exit clientOpen)
        (readStep clientOpen (.ok (some (.stderr chunk))) now c)
        (.stage (.pipingErr chunk exit clientOpen))
  | exits {exit clientOpen status now c} :
      PullMove job (.piping exit clientOpen)
        (readStep clientOpen (.ok (some (.exit status))) now c)
        (.stage (.piping (some status) clientOpen))
  | outputEnds {exit clientOpen now c} :
      PullMove job (.piping exit clientOpen) (readStep clientOpen (.ok (some .eof)) now c)
        (.stage (.piping exit clientOpen))
  | shown {chunk exit clientOpen now c} :
      PullMove job (.pipingOut chunk exit clientOpen) ⟨.writeOut chunk, .ok (), now, c⟩
        (.stage (.piping exit clientOpen))
  | unshown {chunk exit clientOpen now c e} :
      PullMove job (.pipingOut chunk exit clientOpen) ⟨.writeOut chunk, .error e, now, c⟩
        (.stage (.closing (.error e)))
  | shownErr {chunk exit clientOpen now c} :
      PullMove job (.pipingErr chunk exit clientOpen) ⟨.writeErr chunk, .ok (), now, c⟩
        (.stage (.piping exit clientOpen))
  | unshownErr {chunk exit clientOpen now c e} :
      PullMove job (.pipingErr chunk exit clientOpen) ⟨.writeErr chunk, .error e, now, c⟩
        (.stage (.closing (.error e)))
  | closed {result a now c} :
      PullMove job (.closing result) ⟨.close, a, now, c⟩ (.ended result)

namespace PullMove

variable {job : Job} (now : Time) (c : List Metrics.Measurement)

theorem of_consulting (a : Except Failure Approval.Verdict) :
    PullMove job .consulting ⟨.consult (job.approval none), a, now, c⟩
      (Flow.consulting.resume job now a).1 := by
  rcases a with e | ⟨error, blocked⟩
  · exact .denied rfl
  · rcases blocked with _ | reason
    · rcases error with _ | reason
      · exact .allowed ⟨rfl, rfl⟩
      · exact .denied rfl
    · exact .denied rfl

theorem of_dialling (pull : job.exec.service = .uploadPack) (started : Time)
    (a : Timed (Except Failure Unit)) :
    PullMove job (.dialling started) ⟨.dial job.dial (started + job.limits.connect), a, now, c⟩
      ((Flow.dialling started).resume job now a).1 := by
  rcases a with (e | _) | _
  · exact .unconnected (fun h => by cases h)
  · simp only [Flow.resume, Flow.onDial, pull]
    exact .connected
  · exact .unconnected (fun h => by cases h)

theorem of_readStep (exit : Option Nat) (clientOpen : Bool) (r : ForgeRead) :
    PullMove job (.piping exit clientOpen) (readStep clientOpen r now c)
      (Flow.onPipeForge exit clientOpen r) := by
  rcases r with e | _ | (chunk | chunk | status | _)
  · by_cases h : Flow.isBenign e
    · simp only [Flow.onPipeForge, if_pos h]
      exact .breaksOff h
    · simp only [Flow.onPipeForge, if_neg h]
      exact .broken ((Bool.not_eq_true _).mp h)
  · exact .done
  · exact .data
  · exact .stderr
  · exact .exits
  · exact .outputEnds

theorem of_resume (pull : job.exec.service = .uploadPack) {f : Flow} (stage : f.InPull)
    (answer : (f.request job).Answer) :
    PullMove job f ⟨f.request job, answer, now, c⟩ (f.resume job now answer).1 := by
  cases f with
  | consulting => exact of_consulting now c answer
  | dialling started => exact of_dialling now c pull started answer
  | piping exit clientOpen =>
      cases clientOpen with
      | false => exact of_readStep now c exit false answer
      | true =>
          rcases answer with m | r
          · rcases m with _ | (chunk | _)
            · exact .clientGone
            · exact .clientData
            · exact .clientEof
          · exact of_readStep now c exit true r
  | pipingOut chunk exit clientOpen =>
      rcases answer with e | _
      · exact .unshown
      · exact .shown
  | pipingErr chunk exit clientOpen =>
      rcases answer with e | _
      · exact .unshownErr
      · exact .shownErr
  | pipingSend chunk exit =>
      rcases answer with e | _
      · exact .unsent
      · exact .sent
  | pipingEof exit =>
      rcases answer with e | _
      · exact .unended
      · exact .ended
  | closing result => exact .closed
  | _ => exact stage.elim

theorem inPull {f g : Flow} {st : Step} (move : PullMove job f st (.stage g)) : g.InPull := by
  cases move <;> trivial

end PullMove

/-! ### Invariants -/

section
variable {job : Job} {f : Flow} {steps : List Step} {s : Stage}

/-- An invariant of a pull's history that its moves keep holds in all its runs. -/
theorem Run.pull_invariant (pull : job.exec.service = .uploadPack)
    {P : List Step → Flow → Prop} {Q : List Step → Prop}
    (keep : ∀ h f st next, PullMove job f st next → P h f →
      next.Holds (P (h ++ [st])) (Q (h ++ [st])))
    (report : ∀ h b answer now counted, Q h → Q (h ++ [⟨.writeErr b, answer, now, counted⟩]))
    (finish : ∀ h status answer now counted, Q h →
      Q (h ++ [⟨.finish status, answer, now, counted⟩]))
    (run : Run (.active (.flowing job f)) steps s) (stage : f.InPull) (start : P [] f) :
    s.Holds job (fun g => g.InPull ∧ P steps g) (Q steps) := by
  refine run.flow_invariant (P := fun h g => g.InPull ∧ P h g) ?_ report finish ⟨stage, start⟩
  intro h f now answer counted hP
  have move := PullMove.of_resume now counted pull hP.1 answer
  have kept := keep h f _ _ move hP.2
  cases hn : (f.resume job now answer).1 with
  | stage g =>
      rw [hn] at move kept
      exact ⟨move.inPull, kept⟩
  | ended result =>
      rw [hn] at kept
      exact kept
  | aborted =>
      rw [hn] at kept
      exact kept

/-- An invariant that the moves keep holds at every stage of a pull. -/
theorem Run.pull_stage (pull : job.exec.service = .uploadPack) {P : List Step → Flow → Prop}
    (keep : ∀ h f st g, PullMove job f st (.stage g) → P h f → P (h ++ [st]) g)
    {g : Flow} (run : Run (.active (.flowing job f)) steps (.active (.flowing job g)))
    (stage : f.InPull) (start : P [] f) : g.InPull ∧ P steps g := by
  refine (run.pull_invariant pull (Q := fun _ => True) ?_ ?_ ?_ stage start).2
  · intro h f st next move hP
    cases next with
    | stage g => exact keep h f st g move hP
    | ended | aborted => trivial
  · intros
    trivial
  · intros
    trivial

/-- A pull with a result: what its stages keep holds before the last move. -/
theorem FlowRun.pull_invariant (pull : job.exec.service = .uploadPack)
    {P : List Step → Flow → Prop}
    (keep : ∀ h f st g, PullMove job f st (.stage g) → P h f → P (h ++ [st]) g)
    {result : Result} (run : FlowRun job f steps result) (stage : f.InPull) (start : P [] f) :
    ∃ init g st, steps = init ++ [st] ∧ P init g ∧ PullMove job g st (.ended result) := by
  obtain ⟨init, g, now, answer, rfl, before, ends⟩ := run.exists_last
  obtain ⟨inPull, hP⟩ := before.pull_stage pull keep stage start
  have move := PullMove.of_resume now
    (Active.resume now (.flowing job g) answer).2 pull inPull answer
  rw [ends] at move
  exact ⟨init, g, _, rfl, hP, move⟩

/-- The first step of what is left of a pull is a move, and the rest follows it. -/
theorem Run.pull_cons (pull : job.exec.service = .uploadPack) (stage : f.InPull) {st : Step}
    (run : Run (.active (.flowing job f)) (st :: steps) s) :
    ∃ next, PullMove job f st next ∧ Run (Active.onNext job next).1 steps s := by
  cases run with
  | step a now answer rest => exact ⟨_, .of_resume now _ pull stage answer, rest⟩

/-- A step of a pull is a move, with what an invariant says of the steps before it, or one of the
two steps that may follow the result. -/
theorem Run.pull_step (pull : job.exec.service = .uploadPack) {P : List Step → Flow → Prop}
    (keep : ∀ h f st g, PullMove job f st (.stage g) → P h f → P (h ++ [st]) g)
    (start : P [] .consulting) {before after : List Step} {st : Step}
    (run : Run (.active (.flowing job .consulting)) (before ++ st :: after) s) :
    (∃ g next, P before g ∧ g.InPull ∧ PullMove job g st next ∧
      Run (Active.onNext job next).1 after s) ∨
    (∃ b, st.request = .writeErr b) ∨ ∃ status, st.request = .finish status := by
  obtain ⟨m, hbefore, hafter⟩ := run.split
  cases m with
  | finished | aborted => cases hafter
  | active a =>
      cases a with
      | flowing job' g =>
          have same : job' = job := by
            have known := hbefore.pull_invariant pull (P := fun _ _ => True) (Q := fun _ => True)
              (fun _ _ _ next _ _ => by cases next <;> trivial) (fun _ _ _ _ _ _ => trivial)
              (fun _ _ _ _ _ _ => trivial) trivial trivial
            exact known.1
          subst same
          obtain ⟨inPull, hP⟩ := hbefore.pull_stage pull keep trivial start
          obtain ⟨next, move, rest⟩ := hafter.pull_cons pull inPull
          exact .inl ⟨g, next, hP, inPull, move, rest⟩
      | reporting kind e => exact .inr (.inl ⟨_, hafter.request_eq⟩)
      | finishing status => exact .inr (.inr ⟨status, hafter.request_eq⟩)

theorem Run.pull_ne_aborted (pull : job.exec.service = .uploadPack) (stage : f.InPull)
    (run : Run (.active (.flowing job f)) steps s) : s ≠ .aborted := by
  rintro rfl
  induction steps generalizing f with
  | nil => cases run
  | cons st rest ih =>
      obtain ⟨next, move, after⟩ := run.pull_cons pull stage
      cases next with
      | stage g => exact ih move.inPull after
      | ended result => exact after.hasResult (hasResult_conclude _ _)
      | aborted => cases move

end

end ForgeGateway.Relay
