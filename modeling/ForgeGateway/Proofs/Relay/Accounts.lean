import ForgeGateway.Proofs.Relay.Measured
import Mathlib.Data.List.Perm.Basic

/-! # The accounts of a relay

A relay runs any number of commands, and what they count may be recorded in any order, as it is when
they run side by side.  What the registry holds afterwards is what can be read off the commands: how
many there were of each kind and how they ended, how the gate has answered, how often a forge was
dialled, and how long the packs were whose capture was completed (`commands_accounted`).  A command
that needs to be allowed has counted its own allowance before it goes on
(`Run.allowance_counted`). -/

namespace ForgeGateway.Relay

open ForgeGateway.Git (ExecLine)
open ForgeGateway.Metrics (Measurement CommandKind VerdictKind Outcome Registry)

/-- A command that has come to its end, on a relay with these limits. -/
structure Call (limits : Limits) where
  context : Context
  raw : String
  started : Time
  steps : List Step
  status : Nat
  run : Run (.start context limits raw started) steps (.finished status)

namespace Call

variable {limits : Limits}

def kind (c : Call limits) : CommandKind := kindOf c.raw

def counted (c : Call limits) : List Measurement := measured c.steps

end Call

/-! ### The gate -/

/-- The answer of the gate is of this kind. -/
def AnsweredAs : VerdictKind → Except Failure Approval.Verdict → Prop
  | .allowed, .ok v => v.error = none ∧ v.blocked = none
  | .blocked, .ok v => v.error ≠ none ∨ v.blocked ≠ none
  | .unavailable, .error _ => True
  | _, _ => False

instance : ∀ kind a, Decidable (AnsweredAs kind a)
  | .allowed, .ok v => inferInstanceAs (Decidable (v.error = none ∧ v.blocked = none))
  | .blocked, .ok v => inferInstanceAs (Decidable (v.error ≠ none ∨ v.blocked ≠ none))
  | .unavailable, .error _ => inferInstanceAs (Decidable True)
  | .unavailable, .ok _ | .allowed, .error _ | .blocked, .error _ =>
    inferInstanceAs (Decidable False)

theorem verdictKind_eq_iff (kind : VerdictKind) (a : Except Failure Approval.Verdict) :
    Flow.verdictKind a = kind ↔ AnsweredAs kind a := by
  rcases a with e | ⟨error, blocked⟩
  · cases kind <;> simp [Flow.verdictKind, AnsweredAs]
  · cases kind <;> cases error <;> cases blocked <;>
      simp [Flow.verdictKind, AnsweredAs, Approval.Verdict.isAllow, Approval.Verdict.denial]

/-- The step is one for which a command of this kind needs to be allowed: a pull to connect to the
forge, and a push to send it something. -/
def Step.needsAllowance (kind : CommandKind) (st : Step) : Bool :=
  match kind with
  | .uploadPack => st.dials
  | .receivePack => st.sent?.isSome || st.endsInput
  | .rejected => false

theorem Step.dials_of_connects {st : Step} (h : st.connects = true) : st.dials = true := by
  unfold Step.connects at h
  split at h
  · rfl
  · cases h

section
variable {context : Context} {limits : Limits} {raw : String} {started : Time}
  {before after : List Step} {st : Step} {s : Stage}

/-- When a pack is released the gate has been asked once, and has allowed it. -/
theorem Released.allowed {job : Job} {h : List Step} {pack : Bytes} {after : List Step}
    (released : Released job h pack after) :
    ∃ r v, consultations h = [(r, .ok v)] ∧ v.error = none ∧ v.blocked = none := by
  obtain ⟨before, v, t, c, rfl, captured, error, blocked, none⟩ := released
  refine ⟨job.approval (some pack), v, ?_, error, blocked⟩
  rw [consultations_append, consultations_cons, captured.unasked, none]
  rfl

/-- Before a command does what it needs to be allowed for, the gate has been asked once, and has
allowed it. -/
theorem Run.allowance_before
    (run : Run (.start context limits raw started) (before ++ st :: after) s)
    (needs : st.needsAllowance (kindOf raw)) :
    ∃ r v, consultations before = [(r, .ok v)] ∧ v.error = none ∧ v.blocked = none := by
  cases parsed : ExecLine.parse raw with
  | error e =>
      simp only [kindOf, parsed] at needs
      cases needs
  | ok exec =>
      simp only [kindOf, parsed] at needs
      cases service : exec.service with
      | uploadPack =>
          rw [service] at needs
          rw [Stage.start_pull parsed service] at run
          obtain ⟨v, asked, allowed⟩ := run.allowed_before service (.inl needs)
          exact ⟨_, v, asked, allowed⟩
      | receivePack =>
          rw [service] at needs
          rw [Stage.start_push parsed service] at run
          obtain ⟨m, reaches, rest⟩ := run.split
          have hist := reaches.gateHistory service
          cases m with
          | finished | aborted => cases rest
          | active a =>
              cases a with
              | reporting | finishing =>
                  have request := rest.request_eq
                  obtain ⟨r, a, t, c⟩ := st
                  obtain rfl : r = _ := request
                  cases needs
              | flowing job f =>
                  obtain ⟨rfl, hf⟩ := hist
                  obtain ⟨next, move, -⟩ := rest.push_cons service hf.inPush
                  cases move with
                  | unsent | sent => exact Released.allowed hf
                  | unended | ended | replays =>
                      obtain ⟨pack, a, t, c, released⟩ := hf
                      exact released.allowed
                  | _ => cases needs

/-- What a command needs to be allowed for comes behind a verdict that was counted, the only one of
the command so far, and the gate has allowed it. -/
theorem Run.allowance_counted
    (run : Run (.start context limits raw started) (before ++ st :: after) s)
    (needs : st.needsAllowance (kindOf raw)) :
    (measured before).filterMap Measurement.verdict? = [.allowed] := by
  obtain ⟨r, v, asked, allowed⟩ := run.allowance_before needs
  obtain ⟨m, reaches, -⟩ := run.split
  have counted := reaches.verdicts_counted
  have kind : Flow.verdictKind (.ok v) = .allowed := (verdictKind_eq_iff _ _).2 allowed
  rw [asked, List.map_singleton, kind] at counted
  exact List.perm_singleton.1 counted

end

/-! ### The registry -/

section
variable {limits : Limits} {calls : List (Call limits)} {ms : List Measurement}

/-- The measurements of one kind are those of the commands, one command after the other. -/
theorem filterMap_recorded {α : Type} (key? : Measurement → Option α)
    (recorded : ms.Perm (calls.flatMap Call.counted)) :
    (ms.filterMap key?).Perm (calls.flatMap fun c => c.counted.filterMap key?) := by
  rw [← List.filterMap_flatMap]
  exact recorded.filterMap key?

theorem commands_recorded (recorded : ms.Perm (calls.flatMap Call.counted)) :
    (ms.filterMap Measurement.command?).Perm
      (calls.map fun c => (c.kind, Outcome.of (c.status = 0))) := by
  have each : (fun c : Call limits => c.counted.filterMap Measurement.command?) =
      fun c => [(c.kind, Outcome.of (c.status = 0))] := funext fun c => c.run.command_counted
  have all := filterMap_recorded Measurement.command? recorded
  rwa [each, ← List.map_eq_flatMap] at all

theorem verdicts_recorded (recorded : ms.Perm (calls.flatMap Call.counted)) :
    (ms.filterMap Measurement.verdict?).Perm
      ((calls.flatMap fun c => consultations c.steps).map fun q => Flow.verdictKind q.2) := by
  have all := filterMap_recorded Measurement.verdict? recorded
  rw [List.map_flatMap]
  exact all.trans (List.Perm.flatMap_left calls fun c _ => c.run.verdicts_counted)

theorem connects_recorded (recorded : ms.Perm (calls.flatMap Call.counted)) :
    (ms.filterMap Measurement.connect?).length =
      (calls.map fun c => c.steps.countP Step.dials).sum := by
  have each : (fun c : Call limits => (c.counted.filterMap Measurement.connect?).length) =
      fun c => c.steps.countP Step.dials := funext fun c => c.run.connects_counted
  rw [(filterMap_recorded Measurement.connect? recorded).length_eq, List.length_flatMap, each]

theorem packs_recorded (recorded : ms.Perm (calls.flatMap Call.counted)) :
    (ms.filterMap Measurement.pushed?).Perm
      ((calls.filterMap fun c => capturedPack? c.steps).map List.length) := by
  have each : (fun c : Call limits => c.counted.filterMap Measurement.pushed?) =
      fun c => (capturedPack? c.steps).toList.map List.length := funext fun c => c.run.pack_counted
  have all := filterMap_recorded Measurement.pushed? recorded
  rwa [each, ← List.map_flatMap, ← List.filterMap_eq_flatMap_toList] at all

/-- Each command that did what it needs to be allowed for has an allowance among those counted. -/
theorem allowances_recorded (recorded : ms.Perm (calls.flatMap Call.counted)) :
    (calls.countP fun c => c.steps.any (Step.needsAllowance c.kind)) ≤
      (ms.filterMap Measurement.verdict?).countP (· = .allowed) := by
  rw [(filterMap_recorded Measurement.verdict? recorded).countP_eq]
  clear recorded
  induction calls with
  | nil => exact Nat.le_refl 0
  | cons c calls ih =>
      rw [List.flatMap_cons, List.countP_append, List.countP_cons, Nat.add_comm]
      refine Nat.add_le_add ?_ ih
      split
      next needs =>
        obtain ⟨st, member, needs⟩ := List.any_eq_true.1 needs
        obtain ⟨before, after, cut⟩ := List.append_of_mem member
        have counted := Run.allowance_counted (cut ▸ c.run) needs
        rw [Call.counted, cut, measured_append, List.filterMap_append, counted,
          List.countP_append]
        exact Nat.le_add_right 1 _
      next => exact Nat.zero_le _

end

/-- **The accounts of a relay.**  After any commands have come to their end on a relay, and however
their measurements were mixed, the registry tells this about them.  The counters of commands add up
to their number; each command is counted once, under its kind, and as a success exactly if its
status is zero.  The counters of verdicts add up to the number of questions to the gate, each of
which is counted as it was answered.  Before a pull dials, and before a push sends the forge
anything, exactly one verdict of its own was counted, which allows it; so there are at least as many
allowances as there are such commands.  The histogram of connections has an entry for each dial,
whatever came of it.  The octets pushed are those of all packs whose capture was completed, allowed
or not. -/
theorem commands_accounted {limits : Limits} (calls : List (Call limits)) {ms : List Measurement}
    (recorded : ms.Perm (calls.flatMap Call.counted)) :
    let r := Registry.recordAll {} ms
    let asked := calls.flatMap fun c => consultations c.steps
    (r.commands.total = calls.length ∧
      (∀ kind outcome, r.commands.count (kind, outcome) =
        calls.countP fun c => c.kind = kind ∧ (outcome = .success ↔ c.status = 0)) ∧
      ∀ c ∈ calls, c.counted.filterMap Measurement.command? =
        [(c.kind, if c.status = 0 then .success else .failure)]) ∧
    (r.verdicts.total = asked.length ∧
      ∀ kind, r.verdicts.count kind = asked.countP fun q => AnsweredAs kind q.2) ∧
    ((∀ c ∈ calls, ∀ before st after, c.steps = before ++ st :: after →
        st.needsAllowance c.kind →
        (measured before).filterMap Measurement.verdict? = [.allowed]) ∧
      (calls.countP fun c => c.steps.any (Step.needsAllowance c.kind)) ≤
        r.verdicts.count .allowed) ∧
    r.connects.length = (calls.map fun c => c.steps.countP Step.dials).sum ∧
    r.pushBytes = ((calls.filterMap fun c => capturedPack? c.steps).map List.length).sum := by
  intro r asked
  have commands : r.commands = Metrics.Tally.addAll {} (ms.filterMap Measurement.command?) :=
    Registry.commands_recordAll {} ms
  have verdicts : r.verdicts = Metrics.Tally.addAll {} (ms.filterMap Measurement.verdict?) :=
    Registry.verdicts_recordAll {} ms
  have count_verdicts (kind : VerdictKind) :
      r.verdicts.count kind = (ms.filterMap Measurement.verdict?).countP (· = kind) := by
    rw [verdicts, Metrics.Tally.count_addAll]
    exact Nat.zero_add _
  refine ⟨⟨?total, ?kinds, ?once⟩, ⟨?questions, ?answers⟩, ⟨?before, ?allowances⟩, ?dials, ?packs⟩
  case total =>
    rw [commands, Metrics.Tally.total_addAll, (commands_recorded recorded).length_eq,
      List.length_map]
    exact Nat.zero_add _
  case kinds =>
    intro kind outcome
    rw [commands, Metrics.Tally.count_addAll, (commands_recorded recorded).countP_eq,
      List.countP_map]
    refine (Nat.zero_add _).trans (List.countP_congr fun c _ => ?_)
    cases outcome <;> by_cases zero : c.status = 0 <;> simp [Outcome.of, zero]
  case once =>
    intro c _
    rw [Call.counted, c.run.command_counted]
    by_cases zero : c.status = 0 <;> simp [Outcome.of, zero, Call.kind]
  case questions =>
    rw [verdicts, Metrics.Tally.total_addAll, (verdicts_recorded recorded).length_eq,
      List.length_map]
    exact Nat.zero_add _
  case answers =>
    intro kind
    rw [count_verdicts, (verdicts_recorded recorded).countP_eq, List.countP_map]
    refine List.countP_congr fun q _ => ?_
    simp [verdictKind_eq_iff]
  case before =>
    intro c _ before st after cut needs
    exact Run.allowance_counted (cut ▸ c.run) needs
  case allowances =>
    rw [count_verdicts]
    exact allowances_recorded recorded
  case dials =>
    rw [Registry.connects_recordAll, ← connects_recorded recorded]
    rfl
  case packs =>
    rw [Registry.pushBytes_recordAll, (packs_recorded recorded).sum_nat]
    exact Nat.zero_add _

/-- A push that is forwarded and a pull whose client goes away, with their measurements in the
reverse order. -/
theorem commands_accounted_sample :
    ∃ (calls : List (Call {})) (ms : List Measurement), calls.length = 2 ∧
      ms.Perm (calls.flatMap Call.counted) ∧
      (Registry.recordAll {} ms).commands.total = 2 ∧
      (Registry.recordAll {} ms).commands.count (.receivePack, .success) = 1 ∧
      (Registry.recordAll {} ms).commands.count (.uploadPack, .failure) = 1 ∧
      2 ≤ (Registry.recordAll {} ms).verdicts.count .allowed := by
  obtain ⟨pushing, push, sends, -⟩ := sample_run
  obtain ⟨pulling, pull, connects, -⟩ := sample_pull_abandoned
  let pushed : Call {} := ⟨sampleJob.context, sampleLine, 0, pushing, 0, push⟩
  let pulled : Call {} := ⟨samplePull.context, samplePullLine, 0, pulling, 1, pull⟩
  have pushKind : pushed.kind = .receivePack := by
    rw [Call.kind, kindOf, parse_sampleLine]
    rfl
  have pullKind : pulled.kind = .uploadPack := by
    rw [Call.kind, kindOf, parse_samplePullLine]
    rfl
  have forwards : pushing.any (Step.needsAllowance .receivePack) = true := by
    have some_sent : 0 < (pushing.filterMap Step.sent?).length := by
      rw [← List.length_map Prod.fst, ← sent, sends]
      exact Nat.one_pos
    obtain ⟨b, hb⟩ := List.exists_mem_of_length_pos some_sent
    obtain ⟨st, member, hst⟩ := List.mem_filterMap.1 hb
    exact List.any_eq_true.2 ⟨st, member, by simp [Step.needsAllowance, hst]⟩
  have dials : pulling.any (Step.needsAllowance .uploadPack) = true := by
    have some_connects : 0 < pulling.countP Step.connects := by
      rw [connects]
      exact Nat.one_pos
    obtain ⟨st, member, hst⟩ := List.countP_pos_iff.1 some_connects
    exact List.any_eq_true.2 ⟨st, member, Step.dials_of_connects hst⟩
  obtain ⟨⟨total, kinds, -⟩, -, ⟨-, allowances⟩, -⟩ :=
    commands_accounted [pushed, pulled] (List.reverse_perm _)
  refine ⟨[pushed, pulled], _, rfl, List.reverse_perm _, total, ?_, ?_, ?_⟩
  · rw [kinds]
    simp [pushKind, pullKind, pushed]
  · rw [kinds]
    simp [pushKind, pullKind, pulled]
  · refine Nat.le_trans ?_ allowances
    simp [pushKind, pullKind, pushed, pulled, forwards, dials]

end ForgeGateway.Relay
