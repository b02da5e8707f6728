import ForgeGateway.Proofs.Metrics.Recording
import ForgeGateway.Proofs.Relay.PullRelay
import ForgeGateway.Proofs.Relay.PushGate
import ForgeGateway.Proofs.Relay.VerdictCounts

/-! # What a command counts

What the steps of a command have counted (`measured`) is determined by what they show.  A try to
connect is counted by the step that makes it, whatever comes of it (`Run.connects_counted`), and a
question to the gate by the step that asks it (`Run.verdicts_counted`).  The command itself is
counted when its status is known, under the kind of its exec line (`Run.command_counted`), and the
pack of a push when the client's end of file was taken (`Run.pack_counted`). -/

namespace ForgeGateway.Relay

open ForgeGateway.Git (ExecLine)
open ForgeGateway.Metrics (Measurement CommandKind VerdictKind Outcome)

def measured (h : List Step) : List Measurement := h.flatMap Step.counted

@[simp] theorem measured_nil : measured [] = [] := rfl

@[simp] theorem measured_append (h k : List Step) :
    measured (h ++ k) = measured h ++ measured k := by
  simp [measured]

theorem measured_singleton (st : Step) : measured [st] = st.counted := by simp [measured]

/-! ### Connections and verdicts -/

section
variable {now : Time}

/-- What follows from where a flow leads is the end of the command at most. -/
theorem onNext_counts (job : Job) (next : Next) :
    (Active.onNext job next).2.filterMap Measurement.connect? = [] ∧
      (Active.onNext job next).2.filterMap Measurement.pushed? = [] := by
  cases next with
  | stage | aborted => exact ⟨rfl, rfl⟩
  | ended result => cases result <;> exact ⟨rfl, rfl⟩

/-- A stage of a flow counts a connection exactly when it tries one, and never a command. -/
theorem Flow.resume_counts (job : Job) (f : Flow) (answer : (f.request job).Answer)
    (counted : List Measurement) :
    ((f.resume job now answer).2.filterMap Measurement.connect?).length =
        (Step.dials ⟨f.request job, answer, now, counted⟩).toNat ∧
      (f.resume job now answer).2.filterMap Measurement.command? = [] := by
  cases f with
  | prefetching deadline s => cases s <;> exact ⟨rfl, rfl⟩
  | capturing p deadline b =>
      simp only [Flow.resume]
      rcases Capture.onRead job.limits b answer with b' | (e | pack) <;> exact ⟨rfl, rfl⟩
  | piping exit clientOpen => cases clientOpen <;> exact ⟨rfl, rfl⟩
  | _ => exact ⟨rfl, rfl⟩

theorem length_connects_resume (a : Active) (answer : a.request.Answer) :
    ((a.resume now answer).2.filterMap Measurement.connect?).length =
      (Step.dials ⟨a.request, answer, now, (a.resume now answer).2⟩).toNat := by
  cases a with
  | flowing job f =>
      simp only [Active.resume]
      rw [List.filterMap_append, (onNext_counts job _).1, List.append_nil]
      exact (f.resume_counts job answer _).1
  | reporting | finishing => rfl

theorem Run.connects_counted {s t : Stage} {steps : List Step} (run : Run s steps t) :
    ((measured steps).filterMap Measurement.connect?).length = steps.countP Step.dials := by
  induction run with
  | here => rfl
  | @step a now answer steps _ _ ih =>
      rw [measured, List.flatMap_cons, List.filterMap_append, List.length_append,
        length_connects_resume a answer, List.countP_cons]
      unfold measured at ih
      rw [ih]
      cases Step.dials ⟨a.request, answer, now, (a.resume now answer).2⟩ <;> simp [Nat.add_comm]

theorem Run.verdicts_counted {s t : Stage} {steps : List Step} (run : Run s steps t) :
    ((measured steps).filterMap Measurement.verdict?).Perm
      ((consultations steps).map fun c => Flow.verdictKind c.2) := by
  rw [List.perm_iff_count]
  intro k
  have recorded := run.recorded_verdicts (k := k) {}
  rw [Metrics.Registry.verdicts_recordAll, Metrics.Tally.count_addAll] at recorded
  have same := Nat.add_left_cancel recorded
  rw [List.count_eq_countP, measured, List.count_eq_countP, List.countP_map]
  exact same

end

/-! ### The command itself -/

/-- The kind under which the command of an exec line is counted. -/
def kindOf (raw : String) : CommandKind :=
  match ExecLine.parse raw with
  | .ok exec => .of exec.service
  | .error _ => .rejected

/-- What has been counted of a command of this kind at a stage: nothing up to the status, and then
the kind with whether the status is zero. -/
def CommandCounted (kind : CommandKind) (h : List Step) : Stage → Prop
  | .active (.flowing job _) =>
    job.kind = kind ∧ (measured h).filterMap Measurement.command? = []
  | .active (.reporting kind' _) =>
    kind' = kind ∧ (measured h).filterMap Measurement.command? = []
  | .active (.finishing status) | .finished status =>
    (measured h).filterMap Measurement.command? = [(kind, .of (status = 0))]
  | .aborted => (measured h).filterMap Measurement.command? = []

section
variable {kind : CommandKind} {h : List Step} {now : Time}

theorem commands_snoc (st : Step) : (measured (h ++ [st])).filterMap Measurement.command? =
    (measured h).filterMap Measurement.command? ++ st.counted.filterMap Measurement.command? := by
  rw [measured_append, measured_singleton, List.filterMap_append]

theorem CommandCounted.keep (a : Active) (answer : a.request.Answer)
    (before : CommandCounted kind h (.active a)) :
    CommandCounted kind (h ++ [⟨a.request, answer, now, (a.resume now answer).2⟩])
      (a.resume now answer).1 := by
  cases a with
  | flowing job f =>
      obtain ⟨same, none⟩ := before
      have new := commands_snoc (h := h) ⟨(Active.flowing job f).request, answer, now,
        (Active.resume now (.flowing job f) answer).2⟩
      simp only [Active.resume] at new ⊢
      rw [none, List.nil_append, List.filterMap_append, (f.resume_counts job answer []).2,
        List.nil_append] at new
      cases leads : (f.resume job now answer).1 with
      | stage g =>
          rw [leads] at new
          exact ⟨same, new⟩
      | aborted =>
          rw [leads] at new
          exact new
      | ended result =>
          rw [leads] at new
          cases result with
          | ok status => exact same ▸ new
          | error e => exact ⟨same, new⟩
  | reporting kind' e =>
      obtain ⟨rfl, none⟩ := before
      simp only [Active.resume, CommandCounted]
      rw [commands_snoc, none]
      rfl
  | finishing status =>
      simp only [Active.resume, CommandCounted] at before ⊢
      rw [commands_snoc, before]
      rfl

end

/-- A command that has finished was counted once: under its kind, and as a success exactly if its
status is zero. -/
theorem Run.command_counted {context : Context} {limits : Limits} {raw : String} {started : Time}
    {steps : List Step} {status : Nat}
    (run : Run (.start context limits raw started) steps (.finished status)) :
    (measured steps).filterMap Measurement.command? = [(kindOf raw, .of (status = 0))] := by
  have start : CommandCounted (kindOf raw) [] (.start context limits raw started) := by
    unfold Stage.start kindOf
    cases ExecLine.parse raw <;> exact ⟨rfl, rfl⟩
  exact run.invariant (fun _ a _ answer before => before.keep a answer) start

/-! ### The pack of a push -/

/-- The step takes the end of the client's input, before the time for its pack is over. -/
def Step.endsCapture : Step → Bool
  | ⟨.readClientBy _, .got (some .eof), _, _⟩ => true
  | _ => false

/-- The pack whose capture was completed: what the client had sent before its end of file. -/
def capturedPack? (h : List Step) : Option Bytes :=
  if h.any Step.endsCapture then some (clientData h) else none

/-- No capture was completed, and no pack counted. -/
def Uncaptured (h : List Step) : Prop :=
  h.any Step.endsCapture = false ∧ (measured h).filterMap Measurement.pushed? = []

/-- The pack whose capture was completed was counted by its length, once. -/
def PackCounted (h : List Step) : Prop :=
  (measured h).filterMap Measurement.pushed? = (capturedPack? h).toList.map List.length

/-- The length that a stage counts when its step ends the capture. -/
def Flow.packLength : Flow → List Nat
  | .capturing _ _ b =>
    match b.intoPack with
    | .ok pack => [pack.length]
    | .error _ => []
  | _ => []

section
variable {job : Job} {h : List Step} {st : Step}

theorem clientData_snoc : clientData (h ++ [st]) = clientData h ++ st.clientData := by
  simp [clientData]

theorem Uncaptured.packCounted (hu : Uncaptured h) : PackCounted h := by
  rw [PackCounted, hu.2, capturedPack?, hu.1]
  rfl

theorem Uncaptured.snoc (hu : Uncaptured h) (ends : st.endsCapture = false)
    (none : st.counted.filterMap Measurement.pushed? = []) : Uncaptured (h ++ [st]) := by
  refine ⟨by simp [hu.1, ends], ?_⟩
  rw [measured_append, measured_singleton, List.filterMap_append, hu.2, none, List.append_nil]

theorem Uncaptured.captures {chunks : List Bytes} (hu : Uncaptured h)
    (data : clientData h = chunks.flatten) (ends : st.endsCapture = true)
    (none : st.clientData = [])
    (counts : st.counted.filterMap Measurement.pushed? = [chunks.flatten.length]) :
    PackCounted (h ++ [st]) := by
  have pack : capturedPack? (h ++ [st]) = some chunks.flatten := by
    have whole : clientData (h ++ [st]) = chunks.flatten := by
      rw [clientData_snoc, data, none, List.append_nil]
    simp [capturedPack?, ends, whole]
  rw [PackCounted, pack, measured_append, measured_singleton, List.filterMap_append, hu.2, counts]
  rfl

theorem PackCounted.snoc (hc : PackCounted h) (ends : st.endsCapture = false)
    (data : st.clientData = []) (none : st.counted.filterMap Measurement.pushed? = []) :
    PackCounted (h ++ [st]) := by
  have same : capturedPack? (h ++ [st]) = capturedPack? h := by
    have unchanged : clientData (h ++ [st]) = clientData h := by
      rw [clientData_snoc, data, List.append_nil]
    simp [capturedPack?, ends, unchanged]
  rw [PackCounted, same, measured_append, measured_singleton, List.filterMap_append, none,
    List.append_nil]
  exact hc

theorem pushed_resume (now : Time) (f : Flow) (answer : (f.request job).Answer) :
    (Active.resume now (.flowing job f) answer).2.filterMap Measurement.pushed? =
      if Step.endsCapture ⟨f.request job, answer, now,
          (Active.resume now (.flowing job f) answer).2⟩
      then f.packLength else [] := by
  simp only [Active.resume]
  rw [List.filterMap_append, (onNext_counts job _).2, List.append_nil]
  cases f with
  | prefetching deadline s => cases s <;> rfl
  | piping exit clientOpen => cases clientOpen <;> rfl
  | capturing p deadline b =>
      rcases answer with (_ | (chunk | _)) | _
      · rfl
      · simp only [Flow.resume, Capture.onRead]
        rcases b.push chunk with ⟨e | _, b'⟩ <;> rfl
      · simp only [Flow.resume, Capture.onRead, Flow.packLength]
        cases b.intoPack <;> rfl
      · rfl
  | _ => rfl

/-- What has been taken in and counted of a pack when a push is at a stage. -/
def PackHistory (job : Job) (h : List Step) : Flow → Prop
  | .dialling _ | .prefetching _ _ | .advertising _ => Uncaptured h ∧ clientData h = []
  | .capturing _ _ b =>
    Uncaptured h ∧
      ∃ chunks : List Bytes, clientData h = chunks.flatten ∧ b.Holds job.limits.pack chunks
  | .consultingPack _ _ | .forwarding _ _ | .endingInput _ | .replaying _ _ | .relaying _ _
  | .relayingOut _ _ _ | .relayingErr _ _ _ | .closing _ => PackCounted h
  | _ => False

theorem PackHistory.inPush {f : Flow} (hf : PackHistory job h f) : f.InPush := by
  cases f <;> trivial

theorem PackHistory.keep {f : Flow} {next : Next} (move : PushMove job f st next)
    (hf : PackHistory job h f)
    (counts : st.counted.filterMap Measurement.pushed? =
      if st.endsCapture then f.packLength else []) :
    next.Holds (PackHistory job (h ++ [st])) (PackCounted (h ++ [st])) := by
  cases move with
  | unconnected | late | unadvertised | malformed | unpassed | unshown | dies | overfull =>
      exact (hf.1.snoc rfl counts).packCounted
  | uncaptured missing =>
      rcases missing with rfl | rfl <;> exact (hf.1.snoc rfl counts).packCounted
  | connected | more | advertised | passing | passed =>
      exact ⟨hf.1.snoc rfl counts, by rw [clientData_snoc, hf.2]; rfl⟩
  | shown => exact ⟨hf.1.snoc rfl counts, [], by rw [clientData_snoc, hf.2]; rfl, .empty _⟩
  | takes taken =>
      obtain ⟨hu, chunks, data, holds⟩ := hf
      refine ⟨hu.snoc rfl counts, chunks ++ [_], ?_, holds.push taken⟩
      rw [clientData_snoc, data, List.flatten_append, List.flatten_singleton]
      rfl
  | miscounted fails =>
      obtain ⟨-, chunks, -, holds⟩ := hf
      cases holds.intoPack_eq.symm.trans fails
  | nothing | captured =>
      obtain ⟨hu, chunks, data, holds⟩ := hf
      refine hu.captures data rfl rfl (counts.trans ?_)
      simp [Step.endsCapture, Flow.packLength, holds.intoPack_eq]
  | denied | allowed | unsent | sent | unended | ended | replays | replayed | unreplayed | broken
  | done | skipped | data | stderr | exits | outputEnds | relayedOut | unrelayedOut | relayedErr
  | unrelayedErr | closed => exact PackCounted.snoc hf rfl rfl counts

end

/-- What has been counted of a pack at a stage of a command. -/
def PackStage (h : List Step) : Stage → Prop
  | .active (.flowing job f) =>
    (job.exec.service = .receivePack ∧ PackHistory job h f) ∨
      (job.exec.service = .uploadPack ∧ f.InPull ∧ Uncaptured h)
  | _ => PackCounted h

section
variable {job : Job} {h : List Step} {now : Time}

theorem packStage_onNext {next : Next} {P : Flow → Prop}
    (holds : next.Holds P (PackCounted h))
    (inside : ∀ f, P f → PackStage h (.active (.flowing job f))) :
    PackStage h (Active.onNext job next).1 := by
  cases next with
  | stage f => exact inside f holds
  | ended result => cases result <;> exact holds
  | aborted => exact holds

theorem PullMove.holds_inPull {f : Flow} {st : Step} {next : Next} {Q : Prop}
    (move : PullMove job f st next) (q : Q) : next.Holds Flow.InPull Q := by
  cases next with
  | stage g => exact move.inPull
  | ended | aborted => exact q

theorem Flow.not_endsCapture {f : Flow} (stage : f.InPull) (answer : (f.request job).Answer)
    (now : Time) (counted : List Measurement) :
    Step.endsCapture ⟨f.request job, answer, now, counted⟩ = false := by
  cases f with
  | piping exit clientOpen => cases clientOpen <;> rfl
  | consulting | dialling | pipingOut | pipingErr | pipingSend | pipingEof | closing => rfl
  | _ => exact stage.elim

theorem PackStage.keep (a : Active) (answer : a.request.Answer)
    (before : PackStage h (.active a)) :
    PackStage (h ++ [⟨a.request, answer, now, (a.resume now answer).2⟩])
      (a.resume now answer).1 := by
  cases a with
  | reporting | finishing => exact PackCounted.snoc before rfl rfl rfl
  | flowing job f =>
      have counts := pushed_resume now f answer
      rcases before with ⟨push, hf⟩ | ⟨pull, stage, hu⟩
      · have move := PushMove.of_resume now (Active.resume now (.flowing job f) answer).2
          push hf.inPush answer
        exact packStage_onNext (hf.keep move counts) fun g hg => .inl ⟨push, hg⟩
      · have ends := Flow.not_endsCapture stage answer now
          (Active.resume now (.flowing job f) answer).2
        rw [if_neg (by rw [ends]; exact Bool.false_ne_true)] at counts
        have after := hu.snoc ends counts
        have move := PullMove.of_resume now (Active.resume now (.flowing job f) answer).2
          pull stage answer
        exact packStage_onNext (move.holds_inPull after.packCounted)
          fun g hg => .inr ⟨pull, hg, after⟩

end

/-- In every run of a command the pack is counted whose capture was completed, by its length and
once, and nothing else. -/
theorem Run.pack_counted {context : Context} {limits : Limits} {raw : String} {started : Time}
    {steps : List Step} {s : Stage} (run : Run (.start context limits raw started) steps s) :
    PackCounted steps := by
  have start : PackStage [] (.start context limits raw started) := by
    cases parsed : ExecLine.parse raw with
    | error e =>
        unfold Stage.start
        rw [parsed]
        exact rfl
    | ok exec =>
        cases service : exec.service with
        | uploadPack =>
            rw [Stage.start_pull parsed service]
            exact .inr ⟨service, trivial, rfl, rfl⟩
        | receivePack =>
            rw [Stage.start_push parsed service]
            exact .inl ⟨service, ⟨rfl, rfl⟩, rfl⟩
  have kept := run.invariant (fun _ a _ answer before => before.keep a answer) start
  rw [List.nil_append] at kept
  cases s with
  | finished | aborted => exact kept
  | active a =>
      cases a with
      | reporting | finishing => exact kept
      | flowing job f =>
          rcases kept with ⟨-, hf⟩ | ⟨-, -, hu⟩
          · cases f with
            | dialling | prefetching | advertising | capturing => exact hf.1.packCounted
            | consultingPack | forwarding | endingInput | replaying | relaying | relayingOut
            | relayingErr | closing => exact hf
            | consulting | piping | pipingOut | pipingErr | pipingSend | pipingEof => exact hf.elim
          · exact hu.packCounted

end ForgeGateway.Relay
