import ForgeGateway.Proofs.Bytes.Utf8
import ForgeGateway.Proofs.Git.CommandLine
import ForgeGateway.Proofs.Relay.Pull
import ForgeGateway.Proofs.Relay.Push
import ForgeGateway.Session

/-! # What is approved is what is run

A command reaches beyond the gateway in two places: it asks the gate about a repository, and it
has a command run on a forge.  Both are about the job that its exec line stands for
(`Run.about`), and the job is read off the line without loss: the octets of the line were text,
the name for the gate stands for one host and one path, and the command for the forge is two words
to a shell.  `approved_is_run` puts this together, from the octets that the client sent. -/

namespace ForgeGateway.Relay

open ForgeGateway.Git (ExecLine Service Harmless)

/-! ### Requests beyond the gateway -/

/-- The request goes to the gate, or connects to the forge. -/
def Request.reachesOut : Request → Bool
  | .consult _ | .dial _ _ => true
  | _ => false

theorem Step.reachesOut_of_connects {st : Step} (h : st.connects = true) :
    st.request.reachesOut = true := by
  unfold Step.connects at h
  split at h
  · rfl
  · cases h

/-- What the request says about the job, if it reaches out: the gate is asked about the repository
of the job, with a pack if it is a push, and the forge is to run its command. -/
def Request.About (job : Job) : Request → Prop
  | .consult r => ∃ pack, r = job.approval pack ∧ (pack = none ↔ job.exec.service = .uploadPack)
  | .dial d _ => d = job.dial
  | _ => True

/-- The stages of a service. -/
def Flow.OfService : Service → Flow → Prop
  | .uploadPack, f => f.InPull
  | .receivePack, f => f.InPush

theorem PushMove.inPush {job : Job} {f g : Flow} {st : Step}
    (move : PushMove job f st (.stage g)) : g.InPush := by
  cases move <;> trivial

section
variable {job : Job} {f : Flow}

theorem Flow.ofService_start (job : Job) (now : Time) :
    (Flow.start job now).OfService job.exec.service := by
  unfold Flow.start
  cases job.exec.service <;> trivial

theorem Flow.request_about (stage : f.OfService job.exec.service) :
    (f.request job).About job := by
  cases hs : job.exec.service with
  | uploadPack =>
      rw [hs] at stage
      cases f with
      | consulting => exact ⟨none, rfl, by simp [hs]⟩
      | dialling => exact rfl
      | piping exit clientOpen => cases clientOpen <;> trivial
      | pipingOut | pipingErr | pipingSend | pipingEof | closing => trivial
      | _ => exact stage.elim
  | receivePack =>
      rw [hs] at stage
      cases f with
      | consultingPack p pack => exact ⟨some pack, rfl, by simp [hs]⟩
      | dialling => exact rfl
      | prefetching deadline s => cases s <;> trivial
      | consulting | piping | pipingOut | pipingErr | pipingSend | pipingEof => exact stage.elim
      | _ => trivial

theorem Flow.ofService_resume (now : Time) (stage : f.OfService job.exec.service)
    (answer : (f.request job).Answer) {g : Flow}
    (leads : (f.resume job now answer).1 = .stage g) : g.OfService job.exec.service := by
  cases hs : job.exec.service with
  | uploadPack =>
      rw [hs] at stage
      have move := PullMove.of_resume now [] hs stage answer
      rw [leads] at move
      exact move.inPull
  | receivePack =>
      rw [hs] at stage
      have move := PushMove.of_resume now [] hs stage answer
      rw [leads] at move
      exact move.inPush

end

/-- Whatever a job asks beyond the gateway is about the job. -/
theorem Run.about {job : Job} {now : Time} {steps : List Step} {s : Stage}
    (run : Run (.active (.flowing job (.start job now))) steps s) :
    ∀ st ∈ steps, st.request.About job := by
  have snoc {h : List Step} {last : Step} (hh : ∀ st ∈ h, st.request.About job)
      (hlast : last.request.About job) : ∀ st ∈ h ++ [last], st.request.About job :=
    List.forall_mem_append.2 ⟨hh, List.forall_mem_singleton.2 hlast⟩
  have whole := run.flow_invariant
    (P := fun h f => f.OfService job.exec.service ∧ ∀ st ∈ h, st.request.About job)
    (Q := fun h => ∀ st ∈ h, st.request.About job) ?keep ?report ?finish
    ⟨Flow.ofService_start job now, by simp⟩
  · exact whole.elim fun f hf => hf.2
  case keep =>
    rintro h f now answer counted ⟨stage, before⟩
    have now_too : ∀ st ∈ h ++ [⟨f.request job, answer, now, counted⟩], st.request.About job :=
      snoc before (Flow.request_about stage)
    cases leads : (f.resume job now answer).1 with
    | stage g => exact ⟨Flow.ofService_resume now stage answer leads, now_too⟩
    | ended result => exact now_too
    | aborted => exact now_too
  case report => exact fun h b answer now counted hh => snoc hh trivial
  case finish => exact fun h status answer now counted hh => snoc hh trivial

theorem Run.parsed_of_reachesOut {context : Context} {limits : Limits} {raw : String} {now : Time}
    {steps : List Step} {s : Stage} (run : Run (.start context limits raw now) steps s)
    (reaches : ∃ st ∈ steps, st.request.reachesOut = true) :
    ∃ exec, ExecLine.parse raw = .ok exec ∧
      ∀ st ∈ steps, st.request.About ⟨exec, context, limits⟩ := by
  unfold Stage.start at run
  cases parsed : ExecLine.parse raw with
  | ok exec =>
      rw [parsed] at run
      exact ⟨exec, rfl, run.about⟩
  | error e =>
      rw [parsed] at run
      have reported : Run (Active.conclude .rejected (.error (.ofExec e))).1 steps s := run
      obtain ⟨st, hst, out⟩ := reaches
      have asked := reported.concludes.1.subset (List.mem_map_of_mem hst)
      simp only [ending, List.mem_cons, List.not_mem_nil, or_false] at asked
      rcases asked with asked | asked
      · rw [asked] at out
        cases out
      · rw [asked] at out
        cases out

/-! ### From the octets of the client to the gate and the forge -/

/-- The method under which the gate is asked about a service. -/
def approvalMethod : Service → String
  | .uploadPack => "GET"
  | .receivePack => "POST"

theorem approvalMethod_inj {a b : Service} (h : approvalMethod a = approvalMethod b) : a = b := by
  cases a <;> cases b <;> first | rfl | exact absurd h (by decide)

theorem method_approval {job : Job} {pack : Option Bytes}
    (h : pack = none ↔ job.exec.service = .uploadPack) :
    (job.approval pack).method = approvalMethod job.exec.service := by
  cases pack with
  | none =>
      rw [h.1 rfl]
      rfl
  | some pack =>
      cases hs : job.exec.service with
      | uploadPack => cases h.2 hs
      | receivePack => rfl

theorem eq_lossy_of_started {store : Identity.Store} {session : Session} {channel n : Nat}
    {line : Bytes} {raw : String} {context : Context}
    (started : .start n raw context ∈ (session.step store (.exec channel line)).2) :
    raw = Utf8.lossy line := by
  simp only [Session.step, Session.exec] at started
  split at started
  · simp at started
  · split at started
    · simp at started
    · simp at started
      exact started.2.1

/-- **What is approved is what is run.**  If a command that a client asked for reaches the gate or
the forge, then the octets of its exec line were well-formed text, and that text is accepted.  The
connector is asked for the host of the accepted line and for its command; the gate is asked about
its repository.  Cutting the repository at its first slash gives that host and the path; the
command is the name of the service and the path in single quotes, and a shell reads it as these two
words, because the path is harmless.  No other accepted line has the same repository with another
host or path, or with the same method another command. -/
theorem approved_is_run {store : Identity.Store} {session : Session} {channel n : Nat}
    {line : Bytes} {raw : String} {context : Context} {limits : Limits} {now : Time}
    {steps : List Step} {s : Stage}
    (started : .start n raw context ∈ (session.step store (.exec channel line)).2)
    (run : Run (.start context limits raw now) steps s)
    (reaches : ∃ st ∈ steps, st.request.reachesOut = true) :
    Utf8.decode? line = some raw ∧ ∃ exec, ExecLine.parse raw = .ok exec ∧
      (∀ st ∈ steps, ∀ d deadline, st.request = .dial d deadline →
        d.target.host = exec.target.host ∧ d.command = exec.commandLine) ∧
      (∀ st ∈ steps, ∀ r, st.request = .consult r →
        r.repository = exec.target.repository ∧ r.method = approvalMethod exec.service) ∧
      exec.target.repository.toList.span (· != '/') =
        (exec.target.host.toList, '/' :: exec.target.path.toList) ∧
      exec.commandLine = exec.service.name ++ " '" ++ exec.target.path ++ "'" ∧
      Shell.words exec.commandLine.toList =
        some [exec.service.name.toList, exec.target.path.toList] ∧
      Harmless exec.target.path.toList ∧
      ∀ raw' exec', ExecLine.parse raw' = .ok exec' →
        exec'.target.repository = exec.target.repository →
        exec'.target.host = exec.target.host ∧ exec'.target.path = exec.target.path ∧
          (approvalMethod exec'.service = approvalMethod exec.service →
            exec'.commandLine = exec.commandLine) := by
  obtain ⟨exec, parsed, about⟩ := run.parsed_of_reachesOut reaches
  have no_slash := ExecLine.slash_not_mem_host parsed
  refine ⟨?octets, exec, parsed, ?dialled, ?consulted, Git.Target.span_repository no_slash, rfl,
    ExecLine.words_commandLine parsed, ExecLine.harmless parsed, ?unique⟩
  case octets =>
    have reading := eq_lossy_of_started started
    have whole := ExecLine.not_replaced parsed
    rw [reading] at whole ⊢
    exact Utf8.decode?_lossy whole
  case dialled =>
    intro st hst d deadline dials
    have told := about st hst
    rw [dials] at told
    obtain rfl : d = _ := told
    exact ⟨rfl, rfl⟩
  case consulted =>
    intro st hst r asks
    have told := about st hst
    rw [asks] at told
    obtain ⟨pack, rfl, kind⟩ := told
    exact ⟨rfl, method_approval kind⟩
  case unique =>
    intro raw' exec' parsed' same
    have target := Git.Target.repository_inj (ExecLine.slash_not_mem_host parsed') no_slash same
    refine ⟨by rw [target], by rw [target], ?_⟩
    intro method
    rw [ExecLine.commandLine, ExecLine.commandLine, approvalMethod_inj method, target]

/-- The session of a client that has proven its key. -/
def sampleSession : Session := { user := some samplePull.context.user, lendsAgent := true }

theorem sample_started : .start 0 samplePullLine samplePull.context ∈
    (sampleSession.step {} (.exec 0 (Bytes.ofString samplePullLine))).2 := by
  have reading := Utf8.lossy_ofString samplePullLine
  simp [Session.step, Session.exec, sampleSession, Session.commandOn?, reading, samplePull]

/-- A pull that the gate allows and the connector is asked for. -/
theorem approved_is_run_sample :
    ∃ steps, Run (.start samplePull.context samplePull.limits samplePullLine 0) steps
        (.finished 1) ∧
      (∃ st ∈ steps, st.request.reachesOut = true) ∧
      Utf8.decode? (Bytes.ofString samplePullLine) = some samplePullLine ∧
      (∀ st ∈ steps, ∀ d deadline, st.request = .dial d deadline →
        d.target.host = "github.com" ∧ d.command = "git-upload-pack 'a/b.git'") ∧
      (∀ st ∈ steps, ∀ r, st.request = .consult r →
        r.repository = "github.com/a/b.git" ∧ r.method = "GET") ∧
      Shell.words "git-upload-pack 'a/b.git'".toList =
        some ["git-upload-pack".toList, "a/b.git".toList] := by
  obtain ⟨steps, run, connects, -⟩ := sample_pull_abandoned
  have reaches : ∃ st ∈ steps, st.request.reachesOut = true := by
    have some_connects : 0 < steps.countP Step.connects := by
      rw [connects]
      exact Nat.one_pos
    obtain ⟨st, hst, hc⟩ := List.countP_pos_iff.1 some_connects
    exact ⟨st, hst, Step.reachesOut_of_connects hc⟩
  obtain ⟨octets, exec, parsed, dialled, consulted, -, -, words, -⟩ :=
    approved_is_run sample_started run reaches
  obtain rfl := Except.ok.inj (parse_samplePullLine.symm.trans parsed)
  exact ⟨steps, run, reaches, octets, dialled, consulted, words⟩

end ForgeGateway.Relay
