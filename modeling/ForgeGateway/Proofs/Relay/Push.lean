import ForgeGateway.Proofs.Git.Advertisement
import ForgeGateway.Proofs.Relay.Trace

/-! # What a push does

`PushMove` lists the moves of a push, stage by stage: the request that is made, its answer, and
what follows.  Every step of a push is one of them (`PushMove.of_resume`), so that an invariant
of a push is proved by cases on its moves. -/

namespace ForgeGateway.Relay

open ForgeGateway.Git (Packet)

def Flow.InPush : Flow → Prop
  | .consulting | .piping _ _ | .pipingOut _ _ _ | .pipingErr _ _ _ | .pipingSend _ _
  | .pipingEof _ => False
  | _ => True

inductive PushMove (job : Job) : Flow → Step → Next → Prop
  | unconnected {started d t a now c e} (h : a ≠ .got (.ok ())) :
      PushMove job (.dialling started) ⟨.dial d t, a, now, c⟩ (.ended (.error e))
  | connected {started d t now c deadline} :
      PushMove job (.dialling started) ⟨.dial d t, .got (.ok ()), now, c⟩
        (.stage (.prefetching deadline (.reading [])))
  -- Reading the advertisement.
  | late {deadline buffer now c e} :
      PushMove job (.prefetching deadline (.reading buffer)) ⟨.readForgeBy deadline, .late, now, c⟩
        (.stage (.closing (.error e)))
  | unadvertised {deadline buffer r now c e} (h : ∀ b, r ≠ .ok (some (.data b))) :
      PushMove job (.prefetching deadline (.reading buffer)) ⟨.readForgeBy deadline, .got r, now, c⟩
        (.stage (.closing (.error e)))
  | malformed {deadline buffer chunk now c e e'}
      (h : Packet.advertisementEnd (buffer ++ chunk) = .error e') :
      PushMove job (.prefetching deadline (.reading buffer))
        ⟨.readForgeBy deadline, .got (.ok (some (.data chunk))), now, c⟩
        (.stage (.closing (.error e)))
  | more {deadline buffer chunk now c}
      (h : Packet.advertisementEnd (buffer ++ chunk) = .ok none) :
      PushMove job (.prefetching deadline (.reading buffer))
        ⟨.readForgeBy deadline, .got (.ok (some (.data chunk))), now, c⟩
        (.stage (.prefetching deadline (.reading (buffer ++ chunk))))
  | advertised {deadline buffer chunk n now c}
      (h : Packet.advertisementEnd (buffer ++ chunk) = .ok (some n)) :
      PushMove job (.prefetching deadline (.reading buffer))
        ⟨.readForgeBy deadline, .got (.ok (some (.data chunk))), now, c⟩
        (.stage (.advertising ⟨buffer ++ chunk, n⟩))
  | passing {deadline buffer chunk now c} :
      PushMove job (.prefetching deadline (.reading buffer))
        ⟨.readForgeBy deadline, .got (.ok (some (.stderr chunk))), now, c⟩
        (.stage (.prefetching deadline (.passing buffer chunk)))
  | passed {deadline buffer chunk now c} :
      PushMove job (.prefetching deadline (.passing buffer chunk))
        ⟨.writeErrBy chunk deadline, .got (.ok ()), now, c⟩
        (.stage (.prefetching deadline (.reading buffer)))
  | unpassed {deadline buffer chunk a now c e} (h : a ≠ .got (.ok ())) :
      PushMove job (.prefetching deadline (.passing buffer chunk))
        ⟨.writeErrBy chunk deadline, a, now, c⟩ (.stage (.closing (.error e)))
  -- Showing it.
  | unshown {p now c e} :
      PushMove job (.advertising p) ⟨.writeOut p.advertisement, .error e, now, c⟩
        (.stage (.closing (.error e)))
  | shown {p now c deadline} :
      PushMove job (.advertising p) ⟨.writeOut p.advertisement, .ok (), now, c⟩
        (.stage (.capturing p deadline (.empty job.limits.pack)))
  | dies {p now c} :
      PushMove job (.advertising p) ⟨.writeOut p.advertisement, .ok (), now, c⟩ .aborted
  -- Taking in the pack.
  | uncaptured {p deadline b a now c e} (h : a = .late ∨ a = .got none) :
      PushMove job (.capturing p deadline b) ⟨.readClientBy deadline, a, now, c⟩
        (.stage (.closing (.error e)))
  | takes {p deadline b b' chunk now c} (h : b.push chunk = (.ok (), b')) :
      PushMove job (.capturing p deadline b)
        ⟨.readClientBy deadline, .got (some (.data chunk)), now, c⟩
        (.stage (.capturing p deadline b'))
  | overfull {p deadline b b' chunk now c e} (h : b.push chunk = (.error e, b')) :
      PushMove job (.capturing p deadline b)
        ⟨.readClientBy deadline, .got (some (.data chunk)), now, c⟩
        (.stage (.closing (.error e)))
  | miscounted {p deadline b now c e} (h : b.intoPack = .error e) :
      PushMove job (.capturing p deadline b) ⟨.readClientBy deadline, .got (some .eof), now, c⟩
        (.stage (.closing (.error e)))
  | nothing {p deadline b pack now c} (h : b.intoPack = .ok pack)
      (empty : pack = [] ∨ pack = Packet.wire .flush) :
      PushMove job (.capturing p deadline b) ⟨.readClientBy deadline, .got (some .eof), now, c⟩
        (.stage (.closing (.ok 0)))
  | captured {p deadline b pack now c} (h : b.intoPack = .ok pack)
      (nonempty : pack ≠ []) (unflushed : pack ≠ Packet.wire .flush) :
      PushMove job (.capturing p deadline b) ⟨.readClientBy deadline, .got (some .eof), now, c⟩
        (.stage (.consultingPack p pack))
  -- The gate.
  | denied {p pack a now c e} (h : Flow.decision a = .error e) :
      PushMove job (.consultingPack p pack) ⟨.consult (job.approval (some pack)), a, now, c⟩
        (.stage (.closing (.error e)))
  | allowed {p pack v now c} (h : v.error = none ∧ v.blocked = none) :
      PushMove job (.consultingPack p pack) ⟨.consult (job.approval (some pack)), .ok v, now, c⟩
        (.stage (.forwarding p pack))
  -- The forge.
  | unsent {p pack now c e} :
      PushMove job (.forwarding p pack) ⟨.send pack, .error e, now, c⟩ (.stage (.closing (.error e)))
  | sent {p pack now c} :
      PushMove job (.forwarding p pack) ⟨.send pack, .ok (), now, c⟩ (.stage (.endingInput p))
  | unended {p now c e} :
      PushMove job (.endingInput p) ⟨.sendEof, .error e, now, c⟩ (.stage (.closing (.error e)))
  | ended {p now c} (h : p.buffer.drop p.length = []) :
      PushMove job (.endingInput p) ⟨.sendEof, .ok (), now, c⟩
        (.stage (.relaying ⟨p.length - p.buffer.length⟩ none))
  | replays {p now c} :
      PushMove job (.endingInput p) ⟨.sendEof, .ok (), now, c⟩
        (.stage (.replaying (p.buffer.drop p.length) ⟨p.length - p.buffer.length⟩))
  -- What the forge answers.
  | replayed {rest skip now c} :
      PushMove job (.replaying rest skip) ⟨.writeOut rest, .ok (), now, c⟩
        (.stage (.relaying skip none))
  | unreplayed {rest skip now c e} :
      PushMove job (.replaying rest skip) ⟨.writeOut rest, .error e, now, c⟩
        (.stage (.closing (.error e)))
  | broken {skip exit now c e} :
      PushMove job (.relaying skip exit) ⟨.readForge, .error e, now, c⟩
        (.stage (.closing (.error e)))
  | done {skip exit now c} :
      PushMove job (.relaying skip exit) ⟨.readForge, .ok none, now, c⟩
        (.stage (.closing (Flow.exitOr0 exit)))
  | skipped {skip exit chunk now c} (h : chunk.drop skip.remaining = []) :
      PushMove job (.relaying skip exit) ⟨.readForge, .ok (some (.data chunk)), now, c⟩
        (.stage (.relaying ⟨skip.remaining - chunk.length⟩ exit))
  | data {skip exit chunk now c} :
      PushMove job (.relaying skip exit) ⟨.readForge, .ok (some (.data chunk)), now, c⟩
        (.stage (.relayingOut (chunk.drop skip.remaining) ⟨skip.remaining - chunk.length⟩ exit))
  | stderr {skip exit chunk now c} :
      PushMove job (.relaying skip exit) ⟨.readForge, .ok (some (.stderr chunk)), now, c⟩
        (.stage (.relayingErr chunk skip exit))
  | exits {skip exit status now c} :
      PushMove job (.relaying skip exit) ⟨.readForge, .ok (some (.exit status)), now, c⟩
        (.stage (.relaying skip (some status)))
  | outputEnds {skip exit now c} :
      PushMove job (.relaying skip exit) ⟨.readForge, .ok (some .eof), now, c⟩
        (.stage (.relaying skip exit))
  | relayedOut {chunk skip exit now c} :
      PushMove job (.relayingOut chunk skip exit) ⟨.writeOut chunk, .ok (), now, c⟩
        (.stage (.relaying skip exit))
  | unrelayedOut {chunk skip exit now c e} :
      PushMove job (.relayingOut chunk skip exit) ⟨.writeOut chunk, .error e, now, c⟩
        (.stage (.closing (.error e)))
  | relayedErr {chunk skip exit now c} :
      PushMove job (.relayingErr chunk skip exit) ⟨.writeErr chunk, .ok (), now, c⟩
        (.stage (.relaying skip exit))
  | unrelayedErr {chunk skip exit now c e} :
      PushMove job (.relayingErr chunk skip exit) ⟨.writeErr chunk, .error e, now, c⟩
        (.stage (.closing (.error e)))
  | closed {result a now c} :
      PushMove job (.closing result) ⟨.close, a, now, c⟩ (.ended result)

/-- What the forge has written by then decides where the reading of the advertisement goes. -/
theorem Flow.resume_output (job : Job) (deadline now : Time) (buffer chunk : Bytes) :
    ((Flow.prefetching deadline (.reading buffer)).resume job now
        (.got (.ok (some (.data chunk))))).1 =
      match Packet.advertisementEnd (buffer ++ chunk) with
      | .error e => .stage (.closing (.error (.ofFraming e)))
      | .ok none => .stage (.prefetching deadline (.reading (buffer ++ chunk)))
      | .ok (some m) => .stage (.advertising ⟨buffer ++ chunk, m⟩) := by
  simp only [Flow.resume, Flow.inTime, Flow.onPrefetch, Prefetch.onRead, Prefetch.take]
  rcases Packet.advertisementEnd (buffer ++ chunk) with e | (_ | m) <;> rfl

namespace PushMove

variable {job : Job} (now : Time) (c : List Metrics.Measurement)

theorem of_dialling (push : job.exec.service = .receivePack) (started : Time)
    (a : Timed (Except Failure Unit)) :
    PushMove job (.dialling started) ⟨.dial job.dial (started + job.limits.connect), a, now, c⟩
      ((Flow.dialling started).resume job now a).1 := by
  rcases a with (e | _) | _
  · exact .unconnected (fun h => by cases h)
  · simp only [Flow.resume, Flow.onDial, push]
    exact .connected
  · exact .unconnected (fun h => by cases h)

theorem of_prefetching (deadline : Time) (buffer : Bytes) (a : Timed ForgeRead) :
    PushMove job (.prefetching deadline (.reading buffer)) ⟨.readForgeBy deadline, a, now, c⟩
      ((Flow.prefetching deadline (.reading buffer)).resume job now a).1 := by
  rcases a with r | _
  · rcases r with e | _ | (chunk | chunk | status | _)
    · exact .unadvertised (by simp)
    · exact .unadvertised (by simp)
    · rw [Flow.resume_output]
      cases h : Packet.advertisementEnd (buffer ++ chunk) with
      | error e => exact .malformed h
      | ok end? =>
          cases end? with
          | none => exact .more h
          | some n => exact .advertised h
    · exact .passing
    · exact .unadvertised (by simp)
    · exact .unadvertised (by simp)
  · exact .late

theorem of_capturing (p : Prefetched) (deadline : Time) (b : PackBuffer)
    (a : Timed (Option ClientMessage)) :
    PushMove job (.capturing p deadline b) ⟨.readClientBy deadline, a, now, c⟩
      ((Flow.capturing p deadline b).resume job now a).1 := by
  rcases a with m | _
  · rcases m with _ | (chunk | _)
    · exact .uncaptured (.inr rfl)
    · simp only [Flow.resume, Capture.onRead]
      rcases h : b.push chunk with ⟨e | _, b'⟩
      · exact .overfull h
      · exact .takes h
    · simp only [Flow.resume, Capture.onRead]
      cases h : b.intoPack with
      | error e => exact .miscounted h
      | ok pack =>
          simp only [Flow.onCapture]
          split
          next empty =>
            refine .nothing h ?_
            simpa [Packet.isFlushOnly] using empty
          next full =>
            simp only [Packet.isFlushOnly, Bool.or_eq_true, List.isEmpty_iff, beq_iff_eq,
              not_or] at full
            exact .captured h full.1 full.2
  · exact .uncaptured (.inl rfl)

theorem of_consultingPack (p : Prefetched) (pack : Bytes) (a : Except Failure Approval.Verdict) :
    PushMove job (.consultingPack p pack) ⟨.consult (job.approval (some pack)), a, now, c⟩
      ((Flow.consultingPack p pack).resume job now a).1 := by
  rcases a with e | ⟨error, blocked⟩
  · exact .denied rfl
  · rcases blocked with _ | reason
    · rcases error with _ | reason
      · exact .allowed ⟨rfl, rfl⟩
      · exact .denied rfl
    · exact .denied rfl

theorem of_endingInput (p : Prefetched) (a : Except Failure Unit) :
    PushMove job (.endingInput p) ⟨.sendEof, a, now, c⟩
      ((Flow.endingInput p).resume job now a).1 := by
  rcases a with e | _
  · exact .unended
  · simp only [Flow.resume, Flow.onInputEnded, Skip.filter, List.isEmpty_iff]
    by_cases h : p.buffer.drop p.length = []
    · rw [if_pos h]
      exact .ended h
    · rw [if_neg h]
      exact .replays

theorem of_relaying (skip : Skip) (exit : Option Nat) (a : ForgeRead) :
    PushMove job (.relaying skip exit) ⟨.readForge, a, now, c⟩
      ((Flow.relaying skip exit).resume job now a).1 := by
  rcases a with e | _ | (chunk | chunk | status | _)
  · exact .broken
  · exact .done
  · simp only [Flow.resume, Flow.onRelay, Skip.filter, List.isEmpty_iff]
    by_cases h : chunk.drop skip.remaining = []
    · rw [if_pos h]
      exact .skipped h
    · rw [if_neg h]
      exact .data
  · exact .stderr
  · exact .exits
  · exact .outputEnds

theorem of_resume (push : job.exec.service = .receivePack) {f : Flow} (stage : f.InPush)
    (answer : (f.request job).Answer) :
    PushMove job f ⟨f.request job, answer, now, c⟩ (f.resume job now answer).1 := by
  cases f with
  | consulting | piping | pipingOut | pipingErr | pipingSend | pipingEof => exact stage.elim
  | dialling started => exact of_dialling now c push started answer
  | prefetching deadline s =>
      cases s with
      | reading buffer => exact of_prefetching now c deadline buffer answer
      | passing buffer chunk =>
          rcases answer with (e | _) | _
          · exact .unpassed nofun
          · exact .passed
          · exact .unpassed nofun
  | advertising p =>
      rcases answer with e | _
      · exact .unshown
      · simp only [Flow.resume, Flow.onAdvertised]
        cases Capture.deadline? now job.limits.capture with
        | none => exact .dies
        | some deadline => exact .shown
  | capturing p deadline b => exact of_capturing now c p deadline b answer
  | consultingPack p pack => exact of_consultingPack now c p pack answer
  | forwarding p pack =>
      rcases answer with e | _
      · exact .unsent
      · exact .sent
  | endingInput p => exact of_endingInput now c p answer
  | replaying rest skip =>
      rcases answer with e | _
      · exact .unreplayed
      · exact .replayed
  | relaying skip exit => exact of_relaying now c skip exit answer
  | relayingOut chunk skip exit =>
      rcases answer with e | _
      · exact .unrelayedOut
      · exact .relayedOut
  | relayingErr chunk skip exit =>
      rcases answer with e | _
      · exact .unrelayedErr
      · exact .relayedErr
  | closing result => exact .closed

end PushMove

/-- An invariant of a push's history that its moves keep holds in all its runs. -/
theorem Run.push_invariant {job : Job} (push : job.exec.service = .receivePack)
    {P : List Step → Flow → Prop} {Q : List Step → Prop}
    (inPush : ∀ h f, P h f → f.InPush)
    (keep : ∀ h f st next, PushMove job f st next → P h f →
      next.Holds (P (h ++ [st])) (Q (h ++ [st])))
    (report : ∀ h b answer now counted, Q h → Q (h ++ [⟨.writeErr b, answer, now, counted⟩]))
    (finish : ∀ h status answer now counted, Q h →
      Q (h ++ [⟨.finish status, answer, now, counted⟩]))
    {f : Flow} {s : Stage} {steps : List Step}
    (run : Run (.active (.flowing job f)) steps s) (start : P [] f) :
    s.Holds job (P steps) (Q steps) := by
  refine run.flow_invariant ?_ report finish start
  intro h f now answer counted hP
  exact keep h f _ _ (.of_resume now counted push (inPush h f hP) answer) hP

theorem Run.push_cons {job : Job} (push : job.exec.service = .receivePack) {f : Flow}
    (stage : f.InPush) {st : Step} {rest : List Step} {s : Stage}
    (run : Run (.active (.flowing job f)) (st :: rest) s) :
    ∃ next, PushMove job f st next ∧ Run (Active.onNext job next).1 rest s := by
  cases run with
  | step a now answer rest => exact ⟨_, .of_resume now _ push stage answer, rest⟩

theorem Stage.start_push {context : Context} {limits : Limits} {raw : String} {now : Time}
    {exec : Git.ExecLine} (parsed : Git.ExecLine.parse raw = .ok exec)
    (push : exec.service = .receivePack) :
    Stage.start context limits raw now =
      .active (.flowing ⟨exec, context, limits⟩ (.dialling now)) := by
  simp [Stage.start, parsed, Flow.start, push]

/-! ### A push of one octet -/

def sampleLine : String := "git-receive-pack 'github.com/a/b.git'"

/-- What is pushed with it, for whom, and under the usual limits. -/
def sampleJob : Job :=
  ⟨⟨.receivePack, ⟨"github.com", "a/b.git"⟩⟩, ⟨⟨"alice", "alice@example.com", "alice"⟩, true, none⟩,
    {}⟩

theorem parse_sampleLine : Git.ExecLine.parse sampleLine = .ok sampleJob.exec := by rfl

/-- The empty advertisement, which comes together with the octet 7. -/
def samplePrefetched : Prefetched := ⟨[0x30, 0x30, 0x30, 0x30, 7], 4⟩

theorem sample_run_forwards :
    ∃ steps, Run (.active (.flowing sampleJob (.consultingPack samplePrefetched [1]))) steps
        (.finished 0) ∧
      sent steps = [[1]] ∧ inputEnds steps = 1 ∧ received steps = [8] ∧ shown steps = [7, 8] ∧
      Forwarded steps ∧ EndedCleanly steps ∧ ¬SinkFailed steps := by
  refine ⟨_, .step (.flowing sampleJob (.consultingPack samplePrefetched [1])) 0 (.ok {}) <|
    .step (.flowing sampleJob (.forwarding samplePrefetched [1])) 0 (.ok ()) <|
    .step (.flowing sampleJob (.endingInput samplePrefetched)) 0 (.ok ()) <|
    .step (.flowing sampleJob (.replaying [7] ⟨0⟩)) 0 (.ok ()) <|
    .step (.flowing sampleJob (.relaying ⟨0⟩ none)) 0 (.ok (some (.data [8]))) <|
    .step (.flowing sampleJob (.relayingOut [8] ⟨0⟩ none)) 0 (.ok ()) <|
    .step (.flowing sampleJob (.relaying ⟨0⟩ none)) 0 (.ok none) <|
    .step (.flowing sampleJob (.closing (.ok 0))) 0 () <|
    .step (.finishing 0) 0 () <| .here (.finished 0), rfl, rfl, rfl, rfl, ?_, ?_, ?_⟩
  · exact ⟨_, .tail _ (.head _), [1], rfl⟩
  · simp [Step.readsEnd, Step.forgeRead?, Active.request, Flow.request]
  · simp [Step.sinkFails, Active.request, Flow.request]

theorem sample_advertised (job : Job) (deadline : Time) :
    ((Active.flowing job (.prefetching deadline (.reading []))).resume 0
      (.got (.ok (some (.data samplePrefetched.buffer))))).1 =
        .active (.flowing job (.advertising samplePrefetched)) := by
  have flush : Packet.front samplePrefetched.buffer = .complete .flush 4 := rfl
  have ends : Packet.advertisementEnd ([] ++ samplePrefetched.buffer) = .ok (some (0 + 4)) :=
    Packet.advertisementEndFrom_of_flush flush
  simp only [Active.resume, Flow.resume, Flow.inTime, Prefetch.onRead, Prefetch.take, ends]
  rfl

theorem sample_run_captures {steps : List Step} {s : Stage}
    (run : Run (.active (.flowing sampleJob (.consultingPack samplePrefetched [1]))) steps s) :
    ∃ before, Run (.start sampleJob.context sampleJob.limits sampleLine 0) (before ++ steps) s ∧
      sent before = [] ∧ inputEnds before = 0 ∧ received before = samplePrefetched.buffer ∧
      before.filterMap Step.forgeRead? = [.ok (some (.data samplePrefetched.buffer))] ∧
      shown before = samplePrefetched.advertisement ∧ ¬SinkFailed before := by
  have show' : ((Active.flowing sampleJob (.advertising samplePrefetched)).resume 0 (.ok ())).1 =
      .active (.flowing sampleJob (.capturing samplePrefetched 300000
        (.empty sampleJob.limits.pack))) := by rfl
  rw [Stage.start_push parse_sampleLine rfl]
  refine ⟨[_, _, _, _, _], .step (.flowing sampleJob (.dialling 0)) 0 (.got (.ok ())) <|
    .cons (sample_advertised sampleJob 30000) <| .cons show' <|
    .step (.flowing sampleJob (.capturing samplePrefetched 300000
      (.empty sampleJob.limits.pack))) 0 (.got (some (.data [1]))) <|
    .step (.flowing sampleJob (.capturing samplePrefetched 300000
      ⟨sampleJob.limits.pack, [[1]], 1⟩)) 0 (.got (some .eof)) run, rfl, rfl, rfl, rfl, rfl, ?_⟩
  simp [Step.sinkFails, Active.request, Flow.request]

theorem sample_run :
    ∃ steps, Run (.start sampleJob.context sampleJob.limits sampleLine 0) steps (.finished 0) ∧
      sent steps = [[1]] ∧ inputEnds steps = 1 ∧ received steps = [0x30, 0x30, 0x30, 0x30, 7, 8] ∧
      shown steps = [0x30, 0x30, 0x30, 0x30, 7, 8] ∧
      Forwarded steps ∧ EndedCleanly steps ∧ ¬SinkFailed steps := by
  obtain ⟨steps, run, hs, he, hr, ho, hf, hc, hn⟩ := sample_run_forwards
  obtain ⟨before, whole, hs', he', hr', -, ho', hn'⟩ := sample_run_captures run
  refine ⟨before ++ steps, whole, ?_, ?_, ?_, ?_, ?_, ?_, ?_⟩
  · rw [sent_append, hs', hs]
    rfl
  · rw [inputEnds_append, he', he]
  · rw [received_append, hr', hr]
    rfl
  · rw [shown_append, ho', ho]
    rfl
  · exact (forwarded_append before steps).2 (.inr hf)
  · exact (endedCleanly_append before steps).2 (.inr hc)
  · rw [sinkFailed_append, not_or]
    exact ⟨hn', hn⟩

end ForgeGateway.Relay
