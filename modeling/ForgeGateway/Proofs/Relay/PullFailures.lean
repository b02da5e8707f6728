import ForgeGateway.Forge.Stream
import ForgeGateway.Proofs.Relay.PullOutput
import ForgeGateway.Proofs.Text.Split

/-! # Failures of the forge's channel in a pull

A failure to read the forge's channel ends a pull: quietly, and with the last exit status that was
read, if its wording is one that is usual at the end of a fetch (`Benign`), and else with an error
line.  A failure to write to the channel, or to end its input, is not looked at in this way: it is
reported whatever its wording (`benign_reported`).  `pull_failures` says so of all runs. -/

namespace ForgeGateway.Relay

/-! ### Benign failures -/

/-- A failure of the forge's channel whose wording is one that is usual at the end of a fetch. -/
def Benign (e : Failure) : Prop :=
  ∃ text, e = .forge text ∧
    ("early EOF".toList <:+: text.toList ∨ "unexpected disconnect".toList <:+: text.toList)

theorem isBenign_iff {e : Failure} : Flow.isBenign e = true ↔ Benign e := by
  cases e with
  | forge text =>
      rw [Flow.isBenign, Bool.or_eq_true, Flow.mentions, Flow.mentions, Text.occursIn_iff,
        Text.occursIn_iff]
      constructor
      · intro h
        exact ⟨text, rfl, h⟩
      · rintro ⟨_, ⟨⟩, h⟩
        exact h
  | _ =>
      constructor
      · intro h
        cases h
      · rintro ⟨_, ⟨⟩, -⟩

theorem benign_eofFailure (cause : String) : Benign (Forge.eofFailure cause) := by
  refine ⟨_, rfl, .inr ⟨[], ": ".toList ++ cause.toList, ?_⟩⟩
  rw [String.toList_append]
  rfl

/-- How writing to the forge's channel, or ending its input, fails at a step. -/
def Step.sendFailure? : Step → Option Failure
  | ⟨.send _, .error e, _, _⟩ | ⟨.sendEof, .error e, _, _⟩ => some e
  | _ => none

@[simp] theorem sendFailure?_readStep (clientOpen : Bool) (r : ForgeRead) (now : Time)
    (c : List Metrics.Measurement) : (readStep clientOpen r now c).sendFailure? = none := by
  cases clientOpen <;> rfl

/-! ### What a pull remembers -/

/-- A pull remembers the last exit status that it has read. -/
def RemembersExit (h : List Step) : Flow → Prop
  | .consulting | .dialling _ => exitsRead h = []
  | .piping exit _ | .pipingOut _ exit _ | .pipingErr _ exit _ | .pipingSend _ exit
  | .pipingEof exit => exit = (exitsRead h).getLast?
  | _ => True

section
variable {job : Job} {h : List Step} {st : Step}

theorem PullMove.keeps_exit {f g : Flow} (move : PullMove job f st (.stage g))
    (hf : RemembersExit h f) : RemembersExit (h ++ [st]) g := by
  have unread (hst : st.forgeRead? = none) : exitsRead (h ++ [st]) = exitsRead h :=
    exitsRead_snoc_none hst
  have other {r : ForgeRead} (hst : st.forgeRead? = some r) (hr : exitRead? r = none) :
      exitsRead (h ++ [st]) = exitsRead h := exitsRead_snoc_other hst hr
  cases move with
  | clientGone | unsent | unended | broken | breaksOff | done | unshown | unshownErr => trivial
  | allowed => exact (unread rfl).trans hf
  | connected => exact (congrArg List.getLast? ((unread rfl).trans hf)).symm
  | clientData | clientEof | sent | ended | shown | shownErr =>
      exact hf.trans (congrArg List.getLast? (unread rfl)).symm
  | data | stderr | outputEnds =>
      exact hf.trans (congrArg List.getLast? (other (forgeRead?_readStep ..) rfl)).symm
  | exits => exact (exitsRead_snoc_status (forgeRead?_readStep ..)).symm

/-! ### What follows a failure -/

/-- A failed reading of the forge's channel in a pull that the gate has allowed. -/
theorem Run.after_failed_read (pull : job.exec.service = .uploadPack) {before after : List Step}
    {s : Stage} (run : Run (.active (.flowing job .consulting)) (before ++ st :: after) s)
    {e : Failure} (fails : st.forgeRead? = some (.error e)) :
    AllowedPull job before ∧
      (Benign e → Settles (.ok ((exitsRead before).getLast?.getD 0)) after s) ∧
      (¬Benign e → Settles (.error e) after s) := by
  rcases run.pull_step pull (P := fun h f => PullGate job h f ∧ RemembersExit h f)
      (fun _ _ _ _ move hf => ⟨move.keeps_gate hf.1, move.keeps_exit hf.2⟩) ⟨rfl, rfl⟩ with
    ⟨f, next, ⟨gate, remembers⟩, -, move, rest⟩ | other
  · cases move with
    | @broken _ _ _ _ e' harmful =>
        rw [forgeRead?_readStep] at fails
        cases fails
        refine ⟨gate, fun benign => ?_, fun _ => rest.settles⟩
        rw [isBenign_iff.2 benign] at harmful
        cases harmful
    | breaksOff benign =>
        rw [forgeRead?_readStep] at fails
        cases fails
        refine ⟨gate, fun _ => ?_, fun harmful => absurd (isBenign_iff.1 benign) harmful⟩
        rw [← remembers]
        exact rest.settles
    | done | data | stderr | exits | outputEnds =>
        rw [forgeRead?_readStep] at fails
        cases fails
    | _ => cases fails
  · obtain ⟨r, a, t, c⟩ := st
    rcases other with ⟨b, rfl⟩ | ⟨status, rfl⟩ <;> cases fails

/-- A failed writing to the forge's channel in a pull that the gate has allowed. -/
theorem Run.after_failed_send (pull : job.exec.service = .uploadPack) {before after : List Step}
    {s : Stage} (run : Run (.active (.flowing job .consulting)) (before ++ st :: after) s)
    {e : Failure} (fails : st.sendFailure? = some e) :
    AllowedPull job before ∧ Settles (.error e) after s := by
  rcases run.pull_at pull with ⟨f, next, gate, -, move, rest⟩ | other
  · cases move with
    | unsent | unended =>
        cases fails
        exact ⟨gate, rest.settles⟩
    | broken | breaksOff | done | data | stderr | exits | outputEnds =>
        rw [sendFailure?_readStep] at fails
        cases fails
    | _ => cases fails
  · obtain ⟨r, a, t, c⟩ := st
    rcases other with ⟨b, rfl⟩ | ⟨status, rfl⟩ <;> cases fails

end

/-! ### All runs of a pull -/

/-- **Failures in a pull.**  In every run of an accepted pull, at every step at which the forge's
channel fails, the gate has allowed the pull.  If reading fails in benign words, the pull ends
without an error line and with the last exit status that was read, or 0; if reading fails in other
words, and if writing or ending the input fails in any words, it ends with the failure's message
and status 1. -/
theorem pull_failures {context : Context} {limits : Limits} {raw : String} {now : Time}
    {exec : Git.ExecLine} {before after : List Step} {st : Step} {s : Stage}
    (parsed : Git.ExecLine.parse raw = .ok exec) (pull : exec.service = .uploadPack)
    (run : Run (.start context limits raw now) (before ++ st :: after) s) :
    (∀ e, st.forgeRead? = some (.error e) →
      AllowedPull ⟨exec, context, limits⟩ before ∧
      (Benign e → Settles (.ok ((exitsRead before).getLast?.getD 0)) after s) ∧
      (¬Benign e → Settles (.error e) after s)) ∧
    ∀ e, st.sendFailure? = some e →
      AllowedPull ⟨exec, context, limits⟩ before ∧ Settles (.error e) after s := by
  rw [Stage.start_pull parsed pull] at run
  constructor
  · intro e fails
    exact run.after_failed_read pull fails
  · intro e fails
    exact run.after_failed_send pull fails

/-! ### A pull whose connection breaks -/

/-- The steps of a pull in which the forge gives the status 3, up to the reading behind it. -/
def sampleBefore : List Step :=
  [⟨.consult (samplePull.approval none), .ok {}, 0, [.verdict .allowed]⟩,
    ⟨.dial samplePull.dial 30000, .got (.ok ()), 0, [.connect 0]⟩,
    ⟨.readEither, .forge (.ok (some (.exit 3))), 0, []⟩]

def sampleFailure : Failure := .forge "unexpected disconnect before exit status"

theorem benign_sampleFailure : Benign sampleFailure := isBenign_iff.1 (by decide)

theorem sample_pull_breaksOff :
    ∃ after, Run (.start samplePull.context samplePull.limits samplePullLine 0)
      (sampleBefore ++ ⟨.readEither, .forge (.error sampleFailure), 0, []⟩ :: after)
      (.finished 3) := by
  rw [Stage.start_pull parse_samplePullLine rfl]
  have benign : (Flow.onPipeForge (some 3) true (.error sampleFailure)) =
      .stage (.closing (.ok 3)) := by
    rw [Flow.onPipeForge, if_pos (isBenign_iff.2 benign_sampleFailure)]
    rfl
  have breaks : ((Active.flowing samplePull (.piping (some 3) true)).resume 0
      (.forge (.error sampleFailure))).1 = .active (.flowing samplePull (.closing (.ok 3))) := by
    simp only [Active.resume, Flow.resume, Flow.onPipe, benign, Active.onNext]
  refine ⟨_, .step (.flowing samplePull .consulting) 0 (.ok {}) <|
    .step (.flowing samplePull (.dialling 0)) 0 (.got (.ok ())) <|
    .step (.flowing samplePull (.piping none true)) 0 (.forge (.ok (some (.exit 3)))) <|
    .cons breaks <|
    .step (.flowing samplePull (.closing (.ok 3))) 0 () <|
    .step (.finishing 3) 0 () <| .here (.finished 3)⟩

theorem pull_failures_sample :
    ∃ after, Run (.start samplePull.context samplePull.limits samplePullLine 0)
        (sampleBefore ++ ⟨.readEither, .forge (.error sampleFailure), 0, []⟩ :: after)
        (.finished 3) ∧
      after.map Step.request = [.close, .finish 3] := by
  obtain ⟨after, run⟩ := sample_pull_breaksOff
  obtain ⟨reads, -⟩ := pull_failures parse_samplePullLine rfl run
  obtain ⟨-, quiet, -⟩ := reads sampleFailure rfl
  exact ⟨after, run, (((quiet benign_sampleFailure).finished 3).1 rfl).1⟩

/-- The client ends its input, but the forge cannot be told so: that fails in benign words, and is
reported all the same. -/
theorem benign_reported :
    ∃ before st after e,
      Run (.start samplePull.context samplePull.limits samplePullLine 0) (before ++ st :: after)
        (.finished 1) ∧
      st.sendFailure? = some e ∧ Benign e ∧ exitsRead before = [] ∧
      after.map Step.request =
        [.close, .writeErr (Bytes.ofString
          "upstream error: unexpected disconnect: Channel send error\n"), .finish 1] ∧
      ¬Settles (.ok ((exitsRead before).getLast?.getD 0)) after (.finished 1) := by
  have run : ∃ before st after,
      Run (.start samplePull.context samplePull.limits samplePullLine 0) (before ++ st :: after)
        (.finished 1) ∧
      st.sendFailure? = some (Forge.eofFailure "Channel send error") ∧ exitsRead before = [] ∧
      after.map Step.request =
        .close :: ending (.error (Forge.eofFailure "Channel send error")) := by
    rw [Stage.start_pull parse_samplePullLine rfl]
    refine ⟨[_, _, _], _, _, .step (.flowing samplePull .consulting) 0 (.ok {}) <|
      .step (.flowing samplePull (.dialling 0)) 0 (.got (.ok ())) <|
      .step (.flowing samplePull (.piping none true)) 0 (.client (some .eof)) <|
      .step (.flowing samplePull (.pipingEof none)) 0
        (.error (Forge.eofFailure "Channel send error")) <|
      .step (.flowing samplePull (.closing (.error (Forge.eofFailure "Channel send error")))) 0
        () <|
      .step (.reporting samplePull.kind (Forge.eofFailure "Channel send error")) 0 (.ok ()) <|
      .step (.finishing 1) 0 () <| .here (.finished 1), rfl, rfl, rfl⟩
  obtain ⟨before, st, after, run, fails, none_read, requests⟩ := run
  refine ⟨before, st, after, _, run, fails, benign_eofFailure _, none_read, requests, ?_⟩
  intro quiet
  have ends := ((quiet.finished 1).1 rfl).1
  rw [requests, none_read] at ends
  cases ends

end ForgeGateway.Relay
