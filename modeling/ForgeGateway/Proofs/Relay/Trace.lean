import ForgeGateway.Relay.Command

/-! # What the steps of a command show

A run of a command is read off its list of steps: what the gate was asked (`consultations`),
what the forge was sent (`sent`, `inputEnds`) and what it wrote (`received`), what the client
was shown (`offered`, `shown`), and what was taken from it (`clientMessages`).  Runs can be cut
(`Run.split`), and an invariant of the history of a flow holds in every run of its command
(`Run.flow_invariant`). -/

namespace ForgeGateway.Relay

/-! ### One step -/

/-- A request that may take a message from the client. -/
def Request.readsClient : Request → Bool
  | .readClientBy _ | .readEither => true
  | _ => false

namespace Step

/-- The question to the gate that a step is, with the gate's answer. -/
def consulted? : Step → Option (Approval.Request × Except Failure Approval.Verdict)
  | ⟨.consult r, a, _, _⟩ => some (r, a)
  | _ => none

/-- What a step sends to the forge, and how that went. -/
def sent? : Step → Option (Bytes × Except Failure Unit)
  | ⟨.send b, a, _, _⟩ => some (b, a)
  | _ => none

/-- The step tells the forge that its input is complete. -/
def endsInput : Step → Bool
  | ⟨.sendEof, _, _, _⟩ => true
  | _ => false

/-- The message of the client that a step takes. -/
def taken? : Step → Option ClientMessage
  | ⟨.readClientBy _, .got m, _, _⟩ => m
  | ⟨.readEither, .client m, _, _⟩ => m
  | _ => none

def forgeRead? : Step → Option ForgeRead
  | ⟨.readForgeBy _, .got r, _, _⟩ => some r
  | ⟨.readForge, r, _, _⟩ => some r
  | ⟨.readEither, .forge r, _, _⟩ => some r
  | _ => none

/-- What the forge has written, if the step reads that. -/
def data (st : Step) : Bytes :=
  match st.forgeRead? with
  | some (.ok (some (.data b))) => b
  | _ => []

/-- The step reads the orderly end of the forge's channel. -/
def readsEnd (st : Step) : Bool :=
  match st.forgeRead? with
  | some (.ok none) => true
  | _ => false

/-- What a step writes to the client's output, and how that went. -/
def output? : Step → Option (Bytes × Except Failure Unit)
  | ⟨.writeOut b, a, _, _⟩ => some (b, a)
  | _ => none

/-- The octets of something that was written, if that went well. -/
def ifWritten : Bytes × Except Failure Unit → Bytes
  | (b, .ok ()) => b
  | (_, .error _) => []

/-- The step writes to the client, and that fails. -/
def sinkFails : Step → Bool
  | ⟨.writeOut _, .error _, _, _⟩ | ⟨.writeErr _, .error _, _, _⟩
  | ⟨.writeErrBy _ _, .got (.error _), _, _⟩ => true
  | _ => false

end Step

/-! ### All steps -/

/-- Everything the gate was asked, with its answers. -/
def consultations (h : List Step) : List (Approval.Request × Except Failure Approval.Verdict) :=
  h.filterMap Step.consulted?

/-- Everything that the forge was sent, one entry for each call. -/
def sent (h : List Step) : List Bytes := (h.filterMap Step.sent?).map Prod.fst

/-- How often the forge was told that its input is complete. -/
def inputEnds (h : List Step) : Nat := h.countP Step.endsInput

def clientMessages (h : List Step) : List ClientMessage := h.filterMap Step.taken?

/-- Everything that the forge has written. -/
def received (h : List Step) : Bytes := (h.map Step.data).flatten

/-- Everything that was written to the client's output, also where that failed. -/
def offered (h : List Step) : Bytes := ((h.filterMap Step.output?).map Prod.fst).flatten

/-- Everything that was written to the client's output without a failure. -/
def shown (h : List Step) : Bytes := ((h.filterMap Step.output?).map Step.ifWritten).flatten

/-- Something was sent to the forge without a failure. -/
def Forwarded (h : List Step) : Prop := ∃ st ∈ h, ∃ b, st.sent? = some (b, .ok ())

/-- Something was written to the client's output without a failure. -/
def Displayed (h : List Step) : Prop := ∃ st ∈ h, ∃ b, st.output? = some (b, .ok ())

/-- The orderly end of the forge's channel was read. -/
def EndedCleanly (h : List Step) : Prop := ∃ st ∈ h, st.readsEnd

/-- Some writing to the client failed. -/
def SinkFailed (h : List Step) : Prop := ∃ st ∈ h, st.sinkFails

section
variable (h k : List Step) (st : Step)

@[simp] theorem consultations_nil : consultations [] = [] := rfl

@[simp] theorem consultations_append :
    consultations (h ++ k) = consultations h ++ consultations k := by
  simp [consultations]

@[simp] theorem consultations_cons :
    consultations (st :: h) = st.consulted?.toList ++ consultations h := by
  cases hc : st.consulted? <;> simp [consultations, hc]

@[simp] theorem sent_nil : sent [] = [] := rfl

@[simp] theorem sent_append : sent (h ++ k) = sent h ++ sent k := by simp [sent]

@[simp] theorem sent_cons : sent (st :: h) = (st.sent?.map Prod.fst).toList ++ sent h := by
  cases hc : st.sent? <;> simp [sent, hc]

@[simp] theorem inputEnds_nil : inputEnds [] = 0 := rfl

@[simp] theorem inputEnds_append : inputEnds (h ++ k) = inputEnds h + inputEnds k := by
  simp [inputEnds]

@[simp] theorem inputEnds_cons : inputEnds (st :: h) = st.endsInput.toNat + inputEnds h := by
  cases hc : st.endsInput <;> simp [inputEnds, hc, Nat.add_comm]

@[simp] theorem clientMessages_nil : clientMessages [] = [] := rfl

@[simp] theorem clientMessages_append :
    clientMessages (h ++ k) = clientMessages h ++ clientMessages k := by
  simp [clientMessages]

@[simp] theorem clientMessages_cons :
    clientMessages (st :: h) = st.taken?.toList ++ clientMessages h := by
  cases hc : st.taken? <;> simp [clientMessages, hc]

@[simp] theorem received_nil : received [] = [] := rfl

@[simp] theorem received_append : received (h ++ k) = received h ++ received k := by
  simp [received]

@[simp] theorem received_cons : received (st :: h) = st.data ++ received h := by simp [received]

@[simp] theorem offered_nil : offered [] = [] := rfl

@[simp] theorem offered_append : offered (h ++ k) = offered h ++ offered k := by simp [offered]

@[simp] theorem offered_cons :
    offered (st :: h) = (st.output?.map Prod.fst).getD [] ++ offered h := by
  cases hc : st.output? <;> simp [offered, hc]

@[simp] theorem shown_nil : shown [] = [] := rfl

@[simp] theorem shown_append : shown (h ++ k) = shown h ++ shown k := by simp [shown]

@[simp] theorem shown_cons :
    shown (st :: h) = (st.output?.map Step.ifWritten).getD [] ++ shown h := by
  cases hc : st.output? <;> simp [shown, hc]

@[simp] theorem not_forwarded_nil : ¬Forwarded [] := by simp [Forwarded]

@[simp] theorem forwarded_append : Forwarded (h ++ k) ↔ Forwarded h ∨ Forwarded k := by
  simp [Forwarded, or_and_right, exists_or]

@[simp] theorem forwarded_cons :
    Forwarded (st :: h) ↔ (∃ b, st.sent? = some (b, .ok ())) ∨ Forwarded h := by
  simp [Forwarded]

@[simp] theorem not_displayed_nil : ¬Displayed [] := by simp [Displayed]

@[simp] theorem displayed_append : Displayed (h ++ k) ↔ Displayed h ∨ Displayed k := by
  simp [Displayed, or_and_right, exists_or]

@[simp] theorem displayed_cons :
    Displayed (st :: h) ↔ (∃ b, st.output? = some (b, .ok ())) ∨ Displayed h := by
  simp [Displayed]

@[simp] theorem not_endedCleanly_nil : ¬EndedCleanly [] := by simp [EndedCleanly]

@[simp] theorem endedCleanly_append : EndedCleanly (h ++ k) ↔ EndedCleanly h ∨ EndedCleanly k := by
  simp [EndedCleanly, or_and_right, exists_or]

@[simp] theorem endedCleanly_cons : EndedCleanly (st :: h) ↔ st.readsEnd ∨ EndedCleanly h := by
  simp [EndedCleanly]

@[simp] theorem not_sinkFailed_nil : ¬SinkFailed [] := by simp [SinkFailed]

@[simp] theorem sinkFailed_append : SinkFailed (h ++ k) ↔ SinkFailed h ∨ SinkFailed k := by
  simp [SinkFailed, or_and_right, exists_or]

@[simp] theorem sinkFailed_cons : SinkFailed (st :: h) ↔ st.sinkFails ∨ SinkFailed h := by
  simp [SinkFailed]

end

/-! ### Runs -/

theorem Run.split {s u : Stage} {ys : List Step} :
    ∀ {xs : List Step}, Run s (xs ++ ys) u → ∃ t, Run s xs t ∧ Run t ys u := by
  intro xs
  induction xs generalizing s with
  | nil => intro h; exact ⟨s, .here s, h⟩
  | cons x xs ih =>
      intro h
      cases h with
      | step a now answer rest =>
          obtain ⟨t, h₁, h₂⟩ := ih rest
          exact ⟨t, .step a now answer h₁, h₂⟩

/-- A step whose outcome is known in another form. -/
theorem Run.cons {a : Active} {now : Time} {answer : a.request.Answer} {t s : Stage}
    {steps : List Step} (next : (a.resume now answer).1 = t) (rest : Run t steps s) :
    Run (.active a) (⟨a.request, answer, now, (a.resume now answer).2⟩ :: steps) s :=
  .step a now answer (next ▸ rest)

theorem Run.request_eq {a : Active} {st : Step} {rest : List Step} {s : Stage}
    (run : Run (.active a) (st :: rest) s) : st.request = a.request := by
  cases run with
  | step => rfl

/-- What one step keeps of the history, a run keeps. -/
theorem Run.invariant {I : List Step → Stage → Prop}
    (keep : ∀ h (a : Active) now (answer : a.request.Answer), I h (.active a) →
      I (h ++ [⟨a.request, answer, now, (a.resume now answer).2⟩]) (a.resume now answer).1)
    {s t : Stage} {steps : List Step} (run : Run s steps t) {h : List Step} (start : I h s) :
    I (h ++ steps) t := by
  induction run generalizing h with
  | here s => simpa using start
  | step a now answer _ ih =>
      have := ih (keep h a now answer start)
      simpa using this

/-- What holds of a stage of a command: `P` of the stages of its flow, and `Q` after it. -/
def Stage.Holds (job : Job) (P : Flow → Prop) (Q : Prop) : Stage → Prop
  | .active (.flowing job' f) => job' = job ∧ P f
  | _ => Q

theorem Stage.Holds.elim {job : Job} {P : Flow → Prop} {Q : Prop} {s : Stage}
    (h : s.Holds job P Q) (hPQ : ∀ f, P f → Q) : Q := by
  cases s with
  | active a =>
      cases a with
      | flowing job' f => exact hPQ f h.2
      | reporting | finishing => exact h
  | finished | aborted => exact h

/-- What holds of what a flow leads to. -/
def Next.Holds (P : Flow → Prop) (Q : Prop) : Next → Prop
  | .stage f => P f
  | .ended _ | .aborted => Q

/-- An invariant `P` of a flow's history holds in every run of its command, if what `Q` says
of the history behind the flow is not touched by reporting and finishing. -/
theorem Run.flow_invariant {job : Job} {P : List Step → Flow → Prop} {Q : List Step → Prop}
    (keep : ∀ h f now (answer : (f.request job).Answer) counted, P h f →
      (f.resume job now answer).1.Holds
        (P (h ++ [⟨f.request job, answer, now, counted⟩]))
        (Q (h ++ [⟨f.request job, answer, now, counted⟩])))
    (report : ∀ h b answer now counted, Q h → Q (h ++ [⟨.writeErr b, answer, now, counted⟩]))
    (finish : ∀ h status answer now counted, Q h →
      Q (h ++ [⟨.finish status, answer, now, counted⟩]))
    {f : Flow} {s : Stage} {steps : List Step}
    (run : Run (.active (.flowing job f)) steps s) (start : P [] f) :
    s.Holds job (P steps) (Q steps) := by
  refine run.invariant (I := fun h s => s.Holds job (P h) (Q h)) ?_ (h := []) ⟨rfl, start⟩
  intro h a now answer hI
  cases a with
  | flowing job' f =>
      obtain ⟨rfl, hP⟩ := hI
      have := keep h f now answer (Active.resume now (.flowing job' f) answer).2 hP
      simp only [Active.resume, Active.onNext, Active.request] at this ⊢
      cases hn : (f.resume job' now answer).1 with
      | stage g => rw [hn] at this; exact ⟨rfl, this⟩
      | ended result => rw [hn] at this; cases result <;> exact this
      | aborted => rw [hn] at this; exact this
  | reporting kind e => exact report h _ answer now _ hI
  | finishing status => exact finish h status answer now _ hI

end ForgeGateway.Relay
