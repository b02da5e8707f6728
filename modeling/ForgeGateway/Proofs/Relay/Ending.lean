import ForgeGateway.Proofs.Relay.Trace

/-! # The end of a command whose result stands

From the closing of the connection on, nothing that the surroundings answer changes how a command
ends.  `Ends` says what is left of it, `Run.concludes` that behind the result of a flow this is the
report of a failure and the status, and `Settles` that before it the connection is closed. -/

namespace ForgeGateway.Relay

/-- What a command with a result still asks: a failure is reported, in one line, and the client's
channel is finished. -/
def ending : Result → List Request
  | .ok status => [.finish status]
  | .error e => [.writeErr (Bytes.ofString (e.message ++ "\n")), .finish 1]

/-- The exit status that stands for a result. -/
def exitStatus : Result → Nat
  | .ok status => status
  | .error _ => 1

/-- A command that has `todo` left, whatever it is answered, and then finishes with `status`:
its steps are the first of `todo`, it gets to its end, and it is there when all was done. -/
structure Ends (todo : List Request) (status : Nat) (steps : List Step) (s : Stage) : Prop where
  starts : steps.map Step.request <+: todo
  arrives : ∃ more, Run s more (.finished status)
  finished : ∀ n, s = .finished n ↔ steps.map Step.request = todo ∧ n = status

/-- A result that stands: the connection is closed, and the command ends as the result says. -/
def Settles (result : Result) : List Step → Stage → Prop :=
  Ends (.close :: ending result) (exitStatus result)

section
variable {steps : List Step} {s : Stage}

theorem ends_finished {status : Nat} (run : Run (.finished status) steps s) :
    Ends [] status steps s := by
  cases run with
  | here =>
      refine ⟨List.nil_prefix, ⟨[], .here _⟩, fun n => ?_⟩
      constructor
      · rintro ⟨⟩
        exact ⟨rfl, rfl⟩
      · rintro ⟨-, rfl⟩
        rfl

theorem Ends.cons {a : Active} {t : Stage} {todo : List Request} {status : Nat}
    (some : a.request.Answer) (leads : ∀ now answer, (a.resume now answer).1 = t)
    (rest : ∀ steps s, Run t steps s → Ends todo status steps s)
    (run : Run (.active a) steps s) : Ends (a.request :: todo) status steps s := by
  cases run with
  | here =>
      obtain ⟨more, arrives⟩ := (rest [] t (.here t)).arrives
      have first : (a.resume 0 some).1 = t := leads 0 some
      refine ⟨List.nil_prefix, ⟨_, Run.cons first arrives⟩, fun n => ?_⟩
      constructor
      · intro h
        cases h
      · rintro ⟨h, -⟩
        cases h
  | @step _ now answer tail _ after =>
      rw [leads now answer] at after
      have ends := rest tail s after
      refine ⟨(List.prefix_cons_inj _).2 ends.starts, ends.arrives, fun n => ?_⟩
      rw [ends.finished n, List.map_cons, List.cons_inj_right]

theorem ends_finishing {status : Nat} (run : Run (.active (.finishing status)) steps s) :
    Ends [.finish status] status steps s :=
  Ends.cons (a := .finishing status) () (fun _ _ => rfl) (fun _ _ => ends_finished) run

theorem ends_conclude {kind : Metrics.CommandKind} {result : Result}
    (run : Run (Active.conclude kind result).1 steps s) :
    Ends (ending result) (exitStatus result) steps s := by
  cases result with
  | ok status => exact ends_finishing run
  | error e =>
      exact Ends.cons (a := .reporting kind e) (.ok ()) (fun _ _ => rfl)
        (fun _ _ => ends_finishing) run

/-- Behind the result of a flow a command does what `ending` says. -/
theorem Run.concludes {kind : Metrics.CommandKind} {result : Result}
    (run : Run (Active.conclude kind result).1 steps s) :
    steps.map Step.request <+: ending result ∧
      ∀ status, s = .finished status →
        steps.map Step.request = ending result ∧ status = exitStatus result := by
  have ends := ends_conclude run
  exact ⟨ends.starts, fun status => (ends.finished status).1⟩

/-- The result of a flow that is closing stands. -/
theorem Run.settles {job : Job} {result : Result}
    (run : Run (.active (.flowing job (.closing result))) steps s) : Settles result steps s :=
  Ends.cons (a := .flowing job (.closing result)) () (fun _ _ => rfl)
    (fun _ _ => ends_conclude) run

end

end ForgeGateway.Relay
