import ForgeGateway.Proofs.Approval.Verdicts
import ForgeGateway.Proofs.Relay.VerdictCounts

/-! # Approval fails closed

Whatever comes back from the gate, a command is approved exactly by a reply of success whose body
is a text of a value that stands for a verdict and gives no reason.  Any other verdict denies it
with its reason; everything else leaves the gate unavailable.  `approval_fails_closed` puts this
together with the counters, for every reply and every failure to get one. -/

namespace ForgeGateway.Approval

open ForgeGateway.Json (Literal Value)
open ForgeGateway.Relay (Failure Flow Run Stage Step)

/-- The reply is one of success, and its body a text of a value that stands for the verdict. -/
def Gives (r : Except Http.SendError Http.Reply) (v : Verdict) : Prop :=
  ∃ reply j, r = .ok reply ∧ (200 ≤ reply.status ∧ reply.status < 300) ∧
    Value.Text j reply.body ∧ Verdict.ReadAs j v

section
variable {r : Except Http.SendError Http.Reply} {reply : Http.Reply} {v : Verdict}

theorem isSuccess_iff {s : Http.Status} : s.isSuccess = true ↔ 200 ≤ s ∧ s < 300 := by
  simp [Http.Status.isSuccess]

theorem gives_reply_iff : Gives (.ok reply) v ↔
    reply.status.isSuccess = true ∧ Verdict.parse? reply.body = some v := by
  rw [isSuccess_iff, Verdict.parse?_eq_some_iff]
  constructor
  · rintro ⟨_, j, ⟨⟩, success, text, read⟩
    exact ⟨success, j, text, read⟩
  · rintro ⟨success, j, text, read⟩
    exact ⟨reply, j, rfl, success, text, read⟩

theorem not_gives_error (e : Http.SendError) : ¬Gives (.error e) v := by
  rintro ⟨_, _, ⟨⟩, -⟩

theorem ofReply_eq_ok_iff : Verdict.ofReply r = .ok v ↔ Gives r v := by
  cases r with
  | error e =>
      constructor
      · intro h
        cases h
      · intro h
        exact absurd h (not_gives_error e)
  | ok reply =>
      rw [gives_reply_iff, Verdict.ofReply]
      by_cases success : reply.status.isSuccess
      · rw [if_pos success]
        cases Verdict.parse? reply.body <;> simp [success]
      · rw [if_neg success]
        simp [success]

theorem ofReply_of_not_gives (h : ∀ v, ¬Gives r v) :
    ∃ text, Verdict.ofReply r = .error (.gateUnavailable text) := by
  cases r with
  | error e => exact ⟨_, rfl⟩
  | ok reply =>
      rw [Verdict.ofReply]
      by_cases success : reply.status.isSuccess
      · rw [if_pos success]
        cases read : Verdict.parse? reply.body with
        | none => exact ⟨_, rfl⟩
        | some v => exact absurd (gives_reply_iff.2 ⟨success, read⟩) (h v)
      · rw [if_neg success]
        exact ⟨_, rfl⟩

/-! ### Results -/

/-- What a verdict means for the command agrees with the reason that it gives. -/
theorem outcome_iff (v : Verdict) :
    (v.outcome = .ok () ↔ v.denial = none) ∧
      ∀ reason, v.outcome = .error (.denied reason) ↔ v.denial = some reason := by
  rw [Verdict.outcome_eq]
  cases v.denial <;> simp

theorem denial_eq_none_iff : v.denial = none ↔ v = {} := by
  obtain ⟨error, blocked⟩ := v
  cases error <;> cases blocked <;> simp [Verdict.denial]

theorem decision_of_gives (h : Gives r v) : Flow.decision (Verdict.ofReply r) = v.outcome := by
  rw [ofReply_eq_ok_iff.2 h]
  rfl

theorem decision_of_not_gives (h : ∀ v, ¬Gives r v) :
    ∃ text, Flow.decision (Verdict.ofReply r) = .error (.gateUnavailable text) := by
  obtain ⟨text, unavailable⟩ := ofReply_of_not_gives h
  rw [unavailable]
  exact ⟨text, rfl⟩

theorem gives_or_not (r : Except Http.SendError Http.Reply) :
    (∃ v, Gives r v) ∨ ∀ v, ¬Gives r v := by
  by_cases h : ∃ v, Gives r v
  · exact .inl h
  · exact .inr fun v hv => h ⟨v, hv⟩

theorem approved_iff : Flow.decision (Verdict.ofReply r) = .ok () ↔ Gives r {} := by
  rcases gives_or_not r with ⟨v, gives⟩ | none
  · rw [decision_of_gives gives, (outcome_iff v).1, denial_eq_none_iff]
    constructor
    · rintro rfl
      exact gives
    · intro allows
      have same := (ofReply_eq_ok_iff.2 gives).symm.trans (ofReply_eq_ok_iff.2 allows)
      cases same
      rfl
  · obtain ⟨text, unavailable⟩ := decision_of_not_gives none
    rw [unavailable]
    constructor
    · intro h
      cases h
    · intro allows
      exact absurd allows (none _)

theorem denied_iff {reason : String} : Flow.decision (Verdict.ofReply r) = .error (.denied reason) ↔
    ∃ v, Gives r v ∧ v.denial = some reason := by
  rcases gives_or_not r with ⟨v, gives⟩ | none
  · rw [decision_of_gives gives, (outcome_iff v).2]
    constructor
    · intro denial
      exact ⟨v, gives, denial⟩
    · rintro ⟨w, gives', denial⟩
      have same := (ofReply_eq_ok_iff.2 gives).symm.trans (ofReply_eq_ok_iff.2 gives')
      cases same
      exact denial
  · obtain ⟨text, unavailable⟩ := decision_of_not_gives none
    rw [unavailable]
    constructor
    · intro h
      cases h
    · rintro ⟨v, gives, -⟩
      exact absurd gives (none v)

theorem unavailable_iff :
    (∃ text, Flow.decision (Verdict.ofReply r) = .error (.gateUnavailable text)) ↔
      ∀ v, ¬Gives r v := by
  constructor
  · rintro ⟨text, unavailable⟩ v gives
    rw [decision_of_gives gives, Verdict.outcome] at unavailable
    split at unavailable <;> cases unavailable
  · exact decision_of_not_gives

theorem refused_of_refuses {ms : List (Literal × Value)} (text : Value.Text (.object ms) reply.body)
    {m : Literal × Value} (mem : m ∈ ms) (refuses : Verdict.Refuses m) :
    (∃ reason, Flow.decision (Verdict.ofReply (.ok reply)) = .error (.denied reason) ∧
      (Verdict.Field "blocked" ms (some reason) ∨
        Verdict.Field "blocked" ms none ∧ Verdict.Field "error" ms (some reason))) ∨
    ((∀ v, ¬Gives (.ok reply) v) ∧
      ∃ text, Flow.decision (Verdict.ofReply (.ok reply)) = .error (.gateUnavailable text)) := by
  rcases gives_or_not (.ok reply) with ⟨v, gives⟩ | none
  · have given := gives
    obtain ⟨_, j, ⟨⟩, -, text', read⟩ := given
    obtain rfl := text.unique text'
    obtain ⟨reason, denial, fields⟩ := Verdict.denial_of_refuses read mem refuses
    exact .inl ⟨reason, denied_iff.2 ⟨v, gives, denial⟩, fields⟩
  · exact .inr ⟨none, decision_of_not_gives none⟩

end

/-! ### All replies -/

/-- **Approval fails closed.**  Whatever comes back from the gate, a command is approved if and
only if the reply is one of success and its body a text of a value that stands for a verdict
without a reason.  It is denied with the reason of the verdict that the reply gives, `blocked`
before `error`, and the gate counts as unavailable exactly if the reply gives none.  In particular
no object with a member other than null for one of the fields approves: it denies with that
field's text, or makes the gate unavailable if no verdict can be read.  Wherever a command asks the
gate and gets this answer, exactly one counter of verdicts grows, that of approvals exactly if the
command is approved. -/
theorem approval_fails_closed (r : Except Http.SendError Http.Reply) :
    (Flow.decision (Verdict.ofReply r) = .ok () ↔
      ∃ reply j, r = .ok reply ∧ (200 ≤ reply.status ∧ reply.status < 300) ∧
        Value.Text j reply.body ∧ Verdict.Silent j) ∧
    (∀ reason, Flow.decision (Verdict.ofReply r) = .error (.denied reason) ↔
      ∃ v, Gives r v ∧ v.denial = some reason) ∧
    ((∃ text, Flow.decision (Verdict.ofReply r) = .error (.gateUnavailable text)) ↔
      ∀ v, ¬Gives r v) ∧
    (∀ reply ms, r = .ok reply → Value.Text (.object ms) reply.body →
      (∃ m ∈ ms, Verdict.Refuses m) →
      (∃ reason, Flow.decision (Verdict.ofReply r) = .error (.denied reason) ∧
        (Verdict.Field "blocked" ms (some reason) ∨
          Verdict.Field "blocked" ms none ∧ Verdict.Field "error" ms (some reason))) ∨
      ((∀ v, ¬Gives r v) ∧
        ∃ text, Flow.decision (Verdict.ofReply r) = .error (.gateUnavailable text))) ∧
    (∀ v : Verdict, (v.outcome = .ok () ↔ v.denial = none) ∧
      ∀ reason, v.outcome = .error (.denied reason) ↔ v.denial = some reason) ∧
    ∃ kind, (kind = .allowed ↔ Flow.decision (Verdict.ofReply r) = .ok ()) ∧
      ∀ s steps t, Run s steps t → ∀ st ∈ steps, ∀ q, st.consulted? = some (q, Verdict.ofReply r) →
        ∀ (registry : Metrics.Registry) k, (registry.recordAll st.counted).verdicts.count k =
          registry.verdicts.count k + if k = kind then 1 else 0 := by
  refine ⟨?_, fun reason => denied_iff, unavailable_iff, ?_, outcome_iff, ?_⟩
  · rw [approved_iff]
    constructor
    · rintro ⟨reply, j, reply_eq, success, text, read⟩
      exact ⟨reply, j, reply_eq, success, text, Verdict.readAs_allow_iff.1 read⟩
    · rintro ⟨reply, j, reply_eq, success, text, silent⟩
      exact ⟨reply, j, reply_eq, success, text, Verdict.readAs_allow_iff.2 silent⟩
  · rintro reply ms rfl text ⟨m, mem, refuses⟩
    exact refused_of_refuses text mem refuses
  · refine ⟨Flow.verdictKind (Verdict.ofReply r), (Relay.verdictKind_iff _).1, ?_⟩
    intro s steps t run st mem q asked registry k
    rw [Metrics.Registry.count_verdicts_recordAll, run.count_verdicts st mem, Step.answers, asked]
    simp [eq_comm]

/-- A reply whose second member means an empty `error`, with an escape in its name. -/
def sampleReply : Http.Reply :=
  ⟨200, Bytes.ofString "\x7b\"x\":[1],\"\\u0065rror\":\"\"\x7d"⟩

def sampleMembers : List (Literal × Value) :=
  [([.plain 120], .array [.number [49]]),
    (.unit 0x65 :: [114, 114, 111, 114].map Json.Piece.plain, .string [])]

theorem approval_fails_closed_sample :
    Value.Text (.object sampleMembers) sampleReply.body ∧
      (∃ m ∈ sampleMembers, Verdict.Refuses m) ∧
      Flow.decision (Verdict.ofReply (.ok sampleReply)) = .error (.denied "") := by
  have text : Value.Text (.object sampleMembers) sampleReply.body :=
    Json.parse?_eq_some_iff.1 rfl
  have refuses : ∃ m ∈ sampleMembers, Verdict.Refuses m := by
    refine ⟨_, .tail _ (.head _), .inl (Literal.decode?_eq_some_iff.1 rfl), ?_⟩
    intro h
    cases h
  have read : Verdict.ReadAs (.object sampleMembers) ⟨some "", none⟩ :=
    Verdict.ofJson?_eq_some_iff.1 rfl
  have gives : Gives (.ok sampleReply) ⟨some "", none⟩ :=
    ⟨sampleReply, _, rfl, by decide, text, read⟩
  obtain ⟨-, denied, -⟩ := approval_fails_closed (.ok sampleReply)
  exact ⟨text, refuses, (denied "").2 ⟨_, gives, rfl⟩⟩

end ForgeGateway.Approval
