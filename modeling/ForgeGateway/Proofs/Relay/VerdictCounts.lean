import ForgeGateway.Proofs.Relay.Trace

/-! # How verdicts are counted

Each question to the gate is counted once, under the kind of its answer (`verdictKind_iff`), and
nothing else is counted as a verdict (`Run.count_verdicts`).  So over a run the counters of verdicts
grow by the number of questions that were answered in their kind. -/

namespace ForgeGateway

open ForgeGateway.Metrics (Measurement VerdictKind Registry)

/-- A counter of verdicts grows by one for each measurement of its kind. -/
theorem Metrics.Registry.count_verdicts_recordAll (r : Registry) (ms : List Measurement)
    (k : VerdictKind) :
    (r.recordAll ms).verdicts.count k = r.verdicts.count k + ms.count (.verdict k) := by
  refine Registry.count_of_record verdicts (fun r m => ?_) r ms
  cases m with
  | verdict kind =>
      rw [record, Tally.count_add]
      by_cases same : k = kind
      · simp [same]
      · simp [same, Ne.symm same]
  | _ => simp [record]

namespace Relay

/-- Each answer of the gate is counted as what it means for the command. -/
theorem verdictKind_iff (a : Except Failure Approval.Verdict) :
    (Flow.verdictKind a = .allowed ↔ Flow.decision a = .ok ()) ∧
      (Flow.verdictKind a = .blocked ↔ ∃ v reason, a = .ok v ∧ v.denial = some reason) ∧
      (Flow.verdictKind a = .unavailable ↔ ∃ e, a = .error e) := by
  rcases a with e | v
  · simp [Flow.verdictKind, Flow.decision]
  · cases h : v.denial with
    | none => simp [Flow.verdictKind, Flow.decision, Approval.Verdict.outcome_eq,
        Approval.Verdict.isAllow, h]
    | some reason => simp [Flow.verdictKind, Flow.decision, Approval.Verdict.outcome_eq,
        Approval.Verdict.isAllow, h]

/-- Whether a step is a question to the gate whose answer is of this kind, as a number. -/
def Step.answers (k : VerdictKind) (st : Step) : Nat :=
  match st.consulted? with
  | some (_, a) => if Flow.verdictKind a = k then 1 else 0
  | none => 0

section
variable {k : VerdictKind} {now : Time}

theorem count_verdict_onNext (job : Job) (next : Next) :
    (Active.onNext job next).2.count (.verdict k) = 0 := by
  cases next with
  | stage | aborted => rfl
  | ended result => cases result <;> simp [Active.onNext, Active.conclude]

theorem count_verdict_flow (job : Job) (f : Flow) (answer : (f.request job).Answer)
    (counted : List Measurement) :
    (f.resume job now answer).2.count (.verdict k) =
      Step.answers k ⟨f.request job, answer, now, counted⟩ := by
  have asked (a : Except Failure Approval.Verdict) :
      [Measurement.verdict (Flow.verdictKind a)].count (.verdict k) =
        if Flow.verdictKind a = k then 1 else 0 := by
    simp [List.count_singleton]
  cases f with
  | consulting => exact asked answer
  | consultingPack p pack => exact asked answer
  | dialling started => simp [Flow.resume, Step.answers, Step.consulted?, Flow.request]
  | prefetching deadline s => cases s <;> rfl
  | capturing p deadline b =>
      simp only [Flow.resume, Flow.request, Step.answers, Step.consulted?]
      rcases Capture.onRead job.limits b answer with b' | (e | pack) <;> simp [Flow.onCapture]
  | piping exit clientOpen => cases clientOpen <;> rfl
  | _ => rfl

theorem count_verdict_resume (a : Active) (answer : a.request.Answer) :
    (a.resume now answer).2.count (.verdict k) =
      Step.answers k ⟨a.request, answer, now, (a.resume now answer).2⟩ := by
  cases a with
  | flowing job f =>
      simp only [Active.resume]
      rw [List.count_append, count_verdict_onNext, count_verdict_flow job f answer, Nat.add_zero]
      rfl
  | reporting kind e =>
      simp [Active.resume, Step.answers, Step.consulted?, Active.request]
  | finishing status => rfl

/-- **Counting verdicts.**  In every run each step counts a verdict exactly if it is a question to
the gate, and of the kind of the answer. -/
theorem Run.count_verdicts {s t : Stage} {steps : List Step} (run : Run s steps t) :
    ∀ st ∈ steps, st.counted.count (.verdict k) = st.answers k := by
  induction run with
  | here => simp
  | step a now answer _ ih =>
      rw [List.forall_mem_cons]
      exact ⟨count_verdict_resume a answer, ih⟩

theorem Run.recorded_verdicts {s t : Stage} {steps : List Step} (run : Run s steps t)
    (r : Registry) :
    (r.recordAll (steps.flatMap Step.counted)).verdicts.count k =
      r.verdicts.count k +
        (consultations steps).countP fun c => Flow.verdictKind c.2 = k := by
  rw [Registry.count_verdicts_recordAll]
  congr 1
  induction run with
  | here => rfl
  | @step a now answer steps _ _ ih =>
      rw [List.flatMap_cons, List.count_append, ih, consultations_cons, List.countP_append]
      congr 1
      rw [count_verdict_resume a answer, Step.answers]
      cases Step.consulted? ⟨a.request, answer, now, (a.resume now answer).2⟩ with
      | none => rfl
      | some c => simp [List.countP_singleton]

end

end Relay

end ForgeGateway
