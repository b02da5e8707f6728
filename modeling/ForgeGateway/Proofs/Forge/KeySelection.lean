import ForgeGateway.Proofs.Forge.OpeningOrder
import ForgeGateway.Proofs.Key.Public

/-! # Which of the agent's keys are offered

The login is a loop over the agent's keys, with steps of forge and agent in between.  An `Offer` is
one key with the steps that are made for it and what comes of it.  One offer leads out of the login
or to the next key (`run_offering_iff`); from this, by induction on the keys that are left, a login
is a row of offers that is `Selected`: the first of the keys that can be used, up to one that is not
rejected (`run_tryNext_iff`).  `keys_offered_in_order` is the main theorem. -/

namespace ForgeGateway.Forge.Opening

open ForgeGateway.Agent (AgentError Identity Signature Names)
open ForgeGateway.Relay (Failure)

variable {κ : Type}

/-- The identity has a key that can be used. -/
def supported (format : Key.Format κ) (i : Identity) : Bool := (candidate? format i).isSome

/-! ### Offers -/

/-- What comes of offering a key. -/
inductive Outcome where
  | accepted
  | rejected
  /-- The agent did not sign. -/
  | unsigned (e : AgentError)
  | lost

/-- How the login ends with an outcome, if it does. -/
def Outcome.verdict? (t : Target) : Outcome → Option (Except Failure Unit)
  | .accepted => some (.ok ())
  | .rejected => none
  | .unsigned e => some (.error (.ofAgent e))
  | .lost => some (.error (Opening.lost t.host))

/-- The steps that are made for a key, and what comes of it. -/
inductive Settled (format : Key.Format κ) (t : Target) (c : Candidate κ) :
    List (Step κ) → Outcome → Prop where
  | accepted {steps : List (Step κ)} (tried : Tried format t c steps .accepted) :
      Settled format t c steps .accepted
  | rejected {steps : List (Step κ)} (tried : Tried format t c steps .rejected) :
      Settled format t c steps .rejected
  | unsigned {steps : List (Step κ)} {data : Bytes}
      (tried : Tried format t c steps (.wanted data)) (e : AgentError) :
      Settled format t c (steps ++ [⟨.sign (format.blob c.key) data c.flags, .error e⟩])
        (.unsigned e)
  | lost {steps : List (Step κ)} (tried : Tried format t c steps .lost) :
      Settled format t c steps .lost

/-- A key of the agent that is offered, with all that follows from it. -/
structure Offer (format : Key.Format κ) (t : Target) where
  identity : Identity
  candidate : Candidate κ
  usable : candidate? format identity = some candidate
  steps : List (Step κ)
  outcome : Outcome
  settled : Settled format t candidate steps outcome

theorem Offer.supported {format : Key.Format κ} {t : Target} (o : Offer format t) :
    supported format o.identity = true := by
  rw [Opening.supported, o.usable, Option.isSome_some]

/-- Where a login leads. -/
def afterLogin : Except Failure Unit → Progress (Opening κ) Result
  | .ok () => .more .openingChannel
  | .error e => .done (.error e)

/-- Why a login fails in which no key is accepted. -/
def noneAccepted (t : Target) : List Identity → Failure
  | [] => noKeys
  | keys => rejectedAll t keys.length

/-- The offers that are made of the keys that can be used, and the result of the login. -/
structure Selected (format : Key.Format κ) (t : Target) (keys : List Identity) (failure : Failure)
    (offers : List (Offer format t)) (login : Except Failure Unit) : Prop where
  /-- They are made in order, from the first key on. -/
  inOrder : offers.map (·.identity) <+: keys
  /-- A key is only offered when the ones before it were rejected. -/
  earlier : ∀ o ∈ offers.dropLast, o.outcome = .rejected
  /-- A key that is not rejected decides. -/
  decided : ∀ o ∈ offers, ∀ v, o.outcome.verdict? t = some v → login = v
  /-- If all are rejected, none was left out. -/
  undecided : (∀ o ∈ offers, o.outcome = .rejected) →
    offers.map (·.identity) = keys ∧ login = .error failure

section
variable {format : Key.Format κ} {t : Target} {c : Candidate κ} {left keys : List Identity}
  {total : Nat} {i : Identity} {steps tries : List (Step κ)} {reply : Reply} {r : Result}
  {o : Offer format t} {offers : List (Offer format t)} {failure : Failure}
  {login : Except Failure Unit}

/-! ### Runs -/

theorem run_more_iff {s : Opening κ} : Run format t (.more s) steps r ↔
    ∃ answer rest, steps = ⟨s.request format t, answer⟩ :: rest ∧
      Run format t (s.resume format t answer) rest r := by
  constructor
  · intro run
    cases run with
    | step _ answer rest => exact ⟨answer, _, rfl, rest⟩
  · rintro ⟨answer, rest, rfl, run⟩
    exact .step s answer run

/-- The steps for a key are those of its tries, with what the forge said last. -/
theorem Tried.run (tried : Tried format t c tries reply)
    (run : Run format t (onReply format t c left total reply) steps r) :
    Run format t (.more (.offering c left total)) (tries ++ steps) r := by
  induction tried generalizing steps with
  | offered reply => exact .step (.offering c left total) reply run
  | @signed tries data tried s reply ih =>
      rw [List.append_assoc]
      exact ih (.step (.signing c data left total) (.ok s) <|
        .step (.proving c (signedData data s) left total) reply run)

/-- After a reply of the forge, the steps for the key go on until its offer is settled. -/
theorem Run.exists_settled (tried : Tried format t c tries reply)
    (run : Run format t (onReply format t c left total reply) steps r) :
    ∃ more outcome rest, steps = more ++ rest ∧ Settled format t c (tries ++ more) outcome ∧
      Run format t ((outcome.verdict? t).elim (tryNext format t total left) afterLogin) rest r := by
  induction length : steps.length using Nat.strong_induction_on
    generalizing steps tries reply with
  | _ n ih =>
    have settled : ∀ {outcome}, Settled format t c tries outcome →
        Settled format t c (tries ++ []) outcome := fun h =>
      (List.append_nil tries).symm ▸ h
    cases reply with
    | accepted => exact ⟨[], .accepted, steps, rfl, settled (.accepted tried), run⟩
    | rejected => exact ⟨[], .rejected, steps, rfl, settled (.rejected tried), run⟩
    | lost => exact ⟨[], .lost, steps, rfl, settled (.lost tried), run⟩
    | wanted data =>
        obtain ⟨answer, behind, rfl, signed⟩ := run_more_iff.1 run
        rcases answer with e | s
        · exact ⟨[_], .unsigned e, behind, rfl, .unsigned tried e, signed⟩
        · obtain ⟨reply, behind, rfl, proved⟩ := run_more_iff.1 signed
          obtain ⟨more, outcome, rest, rfl, settled, next⟩ :=
            ih behind.length (by simp at length; omega) (tried.signed s reply) proved rfl
          refine ⟨_ :: _ :: more, outcome, rest, rfl, ?_, next⟩
          rw [List.append_assoc] at settled
          exact settled

theorem run_offering_iff : Run format t (.more (.offering c left total)) steps r ↔
    ∃ tries outcome rest, steps = tries ++ rest ∧ Settled format t c tries outcome ∧
      Run format t ((outcome.verdict? t).elim (tryNext format t total left) afterLogin) rest r := by
  constructor
  · intro run
    obtain ⟨reply, behind, rfl, offered⟩ := run_more_iff.1 run
    obtain ⟨more, outcome, rest, rfl, settled, next⟩ := Run.exists_settled (.offered reply) offered
    exact ⟨_, outcome, rest, rfl, settled, next⟩
  · rintro ⟨tries, outcome, rest, rfl, settled, run⟩
    cases settled with
    | accepted tried => exact tried.run run
    | rejected tried => exact tried.run run
    | lost tried => exact tried.run run
    | @unsigned tries data tried e =>
        rw [List.append_assoc]
        exact tried.run (.step (.signing c data left total) (.error e) run)

/-! ### The keys one after the other -/

theorem Outcome.verdict?_eq_none_iff {outcome : Outcome} :
    outcome.verdict? t = none ↔ outcome = .rejected := by
  cases outcome <;> simp [verdict?]

theorem selected_nil_iff :
    Selected format t [] failure offers login ↔ offers = [] ∧ login = .error failure := by
  constructor
  · intro h
    obtain rfl : offers = [] := by simpa using h.inOrder
    exact ⟨rfl, (h.undecided (List.forall_mem_nil _)).2⟩
  · rintro ⟨rfl, rfl⟩
    exact ⟨List.nil_prefix, List.forall_mem_nil _, List.forall_mem_nil _, fun _ => ⟨rfl, rfl⟩⟩

theorem Selected.cons (rejected : o.outcome = .rejected)
    (h : Selected format t keys failure offers login) :
    Selected format t (o.identity :: keys) failure (o :: offers) login where
  inOrder := by
    rw [List.map_cons, List.prefix_cons_inj]
    exact h.inOrder
  earlier := by
    cases offers with
    | nil => exact List.forall_mem_nil _
    | cons o' more =>
        rw [List.dropLast_cons_cons, List.forall_mem_cons]
        exact ⟨rejected, h.earlier⟩
  decided := by
    rw [List.forall_mem_cons]
    refine ⟨fun v ends => ?_, h.decided⟩
    rw [Outcome.verdict?_eq_none_iff.2 rejected] at ends
    cases ends
  undecided all := by
    obtain ⟨whole, failed⟩ := h.undecided fun o' member => all o' (.tail o member)
    exact ⟨by rw [List.map_cons, whole], failed⟩

theorem Selected.single (ends : o.outcome.verdict? t = some login) :
    Selected format t (o.identity :: keys) failure [o] login where
  inOrder := by simp
  earlier := by simp
  decided := by
    rw [List.forall_mem_singleton]
    intro v verdict
    exact Option.some.inj (ends.symm.trans verdict)
  undecided all := by
    rw [Outcome.verdict?_eq_none_iff.2 (all o List.mem_cons_self)] at ends
    cases ends

theorem Selected.uncons (h : Selected format t (i :: keys) failure offers login) :
    ∃ o more, offers = o :: more ∧ o.identity = i ∧
      (o.outcome = .rejected ∧ Selected format t keys failure more login ∨
        more = [] ∧ o.outcome.verdict? t = some login) := by
  cases offers with
  | nil =>
      have whole := (h.undecided (List.forall_mem_nil _)).1
      cases whole
  | cons o more =>
      have order := h.inOrder
      rw [List.map_cons, List.cons_prefix_cons] at order
      refine ⟨o, more, rfl, order.1, ?_⟩
      cases verdict : o.outcome.verdict? t with
      | none =>
          have rejected := Outcome.verdict?_eq_none_iff.1 verdict
          refine .inl ⟨rejected, order.2, ?_, fun o' member => h.decided o' (.tail o member), ?_⟩
          · intro o' member
            cases more with
            | nil => cases member
            | cons o'' more => exact h.earlier o' (.tail o member)
          · intro all
            obtain ⟨whole, failed⟩ := h.undecided (List.forall_mem_cons.2 ⟨rejected, all⟩)
            exact ⟨List.tail_eq_of_cons_eq whole, failed⟩
      | some v =>
          have ended : login = v := h.decided o List.mem_cons_self v verdict
          refine .inr ⟨?_, by rw [ended]⟩
          cases more with
          | nil => rfl
          | cons o' more =>
              have rejected := h.earlier o List.mem_cons_self
              rw [Outcome.verdict?_eq_none_iff.2 rejected] at verdict
              cases verdict

/-- A login with these keys left: some of them are offered, and then it is over. -/
theorem run_tryNext_iff : Run format t (tryNext format t total left) steps r ↔
    ∃ offers login rest,
      Selected format t (left.filter (supported format)) (rejectedAll t total) offers login ∧
      steps = offers.flatMap (·.steps) ++ rest ∧ Run format t (afterLogin login) rest r := by
  induction left generalizing steps with
  | nil =>
      simp only [List.filter_nil, selected_nil_iff, tryNext]
      constructor
      · intro run
        exact ⟨[], _, steps, ⟨rfl, rfl⟩, rfl, run⟩
      · rintro ⟨_, _, rest, ⟨rfl, rfl⟩, rfl, run⟩
        exact run
  | cons i left ih =>
      cases usable : candidate? format i with
      | none =>
          rw [tryNext, usable, List.filter_cons_of_neg (by simp [supported, usable])]
          exact ih
      | some c =>
          rw [tryNext, usable, List.filter_cons_of_pos (by simp [supported, usable])]
          simp only [run_offering_iff]
          constructor
          · rintro ⟨tries, outcome, behind, rfl, settled, next⟩
            let o : Offer format t := ⟨i, c, usable, tries, outcome, settled⟩
            cases verdict : outcome.verdict? t with
            | none =>
                rw [verdict, Option.elim_none, ih] at next
                obtain ⟨offers, login, rest, selected, rfl, run⟩ := next
                have first := selected.cons (o := o) (Outcome.verdict?_eq_none_iff.1 verdict)
                exact ⟨o :: offers, login, rest, first, by simp [o], run⟩
            | some login =>
                rw [verdict, Option.elim_some] at next
                have only : Selected format t (o.identity :: left.filter (supported format))
                    (rejectedAll t total) [o] login := .single verdict
                exact ⟨[o], login, behind, only, by simp [o], next⟩
          · rintro ⟨offers, login, rest, selected, rfl, run⟩
            obtain ⟨o, more, rfl, rfl, next⟩ := selected.uncons
            obtain rfl : o.candidate = c := Option.some.inj (o.usable.symm.trans usable)
            refine ⟨o.steps, o.outcome, more.flatMap (·.steps) ++ rest, by simp, o.settled, ?_⟩
            rcases next with ⟨rejected, selected⟩ | ⟨rfl, ends⟩
            · rw [Outcome.verdict?_eq_none_iff.2 rejected, Option.elim_none, ih]
              exact ⟨more, login, rest, selected, rfl, run⟩
            · rw [ends, Option.elim_some]
              exact run

/-! ### What is offered and signed -/

theorem exists_selected (all : List (Offer format t)) (failure : Failure) :
    ∃ offers login, offers <+: all ∧
      Selected format t (all.map (·.identity)) failure offers login := by
  induction all with
  | nil => exact ⟨[], _, List.nil_prefix, selected_nil_iff.2 ⟨rfl, rfl⟩⟩
  | cons o all ih =>
      cases verdict : o.outcome.verdict? t with
      | none =>
          obtain ⟨offers, login, front, selected⟩ := ih
          have rejected := Outcome.verdict?_eq_none_iff.1 verdict
          exact ⟨o :: offers, login, by simpa using front, selected.cons rejected⟩
      | some login => exact ⟨[o], login, by simp, .single verdict⟩

theorem Selected.unique {all offers' : List (Offer format t)} {login' : Except Failure Unit}
    (h : Selected format t keys failure offers login) (front : offers <+: all)
    (h' : Selected format t keys failure offers' login') (front' : offers' <+: all) :
    offers = offers' ∧ login = login' := by
  induction keys generalizing all offers offers' with
  | nil =>
      obtain ⟨rfl, rfl⟩ := selected_nil_iff.1 h
      obtain ⟨rfl, rfl⟩ := selected_nil_iff.1 h'
      exact ⟨rfl, rfl⟩
  | cons i keys ih =>
      obtain ⟨o, more, rfl, -, next⟩ := h.uncons
      obtain ⟨o', more', rfl, -, next'⟩ := h'.uncons
      obtain ⟨all, rfl⟩ : ∃ rest, all = o :: rest := by
        obtain ⟨behind, rfl⟩ := front
        exact ⟨_, rfl⟩
      rw [List.cons_prefix_cons] at front front'
      obtain ⟨rfl, front'⟩ := front'
      rcases next with ⟨rejected, selected⟩ | ⟨rfl, ends⟩ <;>
        rcases next' with ⟨rejected', selected'⟩ | ⟨rfl, ends'⟩
      · obtain ⟨rfl, rfl⟩ := ih selected front.2 selected' front'
        exact ⟨rfl, rfl⟩
      · rw [Outcome.verdict?_eq_none_iff.2 rejected] at ends'
        cases ends'
      · rw [Outcome.verdict?_eq_none_iff.2 rejected'] at ends
        cases ends
      · exact ⟨rfl, Option.some.inj (ends.symm.trans ends')⟩

def Step.offered? : Step κ → Option (String × κ)
  | ⟨.offer user key, _⟩ => some (user, key)
  | _ => none

theorem Tried.offeredKeys (h : Tried format t c steps reply) :
    steps.filterMap Step.offered? = [(t.user, c.key)] := by
  induction h with
  | offered reply => rfl
  | signed tried s reply ih =>
      rw [List.filterMap_append, ih]
      rfl

theorem Settled.offeredKeys {outcome : Outcome} (h : Settled format t c steps outcome) :
    steps.filterMap Step.offered? = [(t.user, c.key)] := by
  cases h with
  | accepted tried | rejected tried | lost tried => exact tried.offeredKeys
  | unsigned tried e =>
      rw [List.filterMap_append, tried.offeredKeys]
      rfl

theorem offers_flatMap (offers : List (Offer format t)) :
    (offers.flatMap (·.steps)).filterMap Step.offered? =
      offers.map fun o => (t.user, o.candidate.key) := by
  induction offers with
  | nil => rfl
  | cons o offers ih =>
      rw [List.flatMap_cons, List.filterMap_append, ih, o.settled.offeredKeys]
      rfl

/-- The step asks for a signature with the key, if for any. -/
def Step.SignsWith (format : Key.Format κ) (c : Candidate κ) (st : Step κ) : Prop :=
  ∀ blob data n, st.ask = .sign blob data n → blob = format.blob c.key ∧ n = c.flags

theorem signsWith_sign (data : Bytes) (answer : Except AgentError Signature) :
    Step.SignsWith format c ⟨.sign (format.blob c.key) data c.flags, answer⟩ := by
  intro blob data' n asked
  cases asked
  exact ⟨rfl, rfl⟩

theorem Tried.signsWith (h : Tried format t c steps reply) :
    ∀ st ∈ steps, st.SignsWith format c := by
  induction h with
  | offered reply => simp [Step.SignsWith]
  | signed tried s reply ih =>
      rw [List.forall_mem_append]
      refine ⟨ih, ?_⟩
      rw [List.forall_mem_cons]
      exact ⟨signsWith_sign _ _, by simp [Step.SignsWith]⟩

theorem Settled.signsWith {outcome : Outcome} (h : Settled format t c steps outcome) :
    ∀ st ∈ steps, st.SignsWith format c := by
  cases h with
  | accepted tried | rejected tried | lost tried => exact tried.signsWith
  | unsigned tried e =>
      rw [List.forall_mem_append, List.forall_mem_singleton]
      exact ⟨tried.signsWith, signsWith_sign _ _⟩

/-- The flags come from the algorithm of the identity, and so does the hash that its key is read
with. -/
theorem flags_of_candidate? (usable : candidate? format i = some c) :
    (i.algorithm = "ssh-rsa" ∧ c.flags = 2 ∧
        format.read? (some .sha256) i.keyBlob = some c.key) ∨
      (i.algorithm ≠ "ssh-rsa" ∧ c.flags = 0 ∧ format.read? none i.keyBlob = some c.key) := by
  unfold candidate? signsWith at usable
  obtain ⟨key, read, rfl⟩ := Option.map_eq_some_iff.1 usable
  by_cases rsa : i.algorithm = "ssh-rsa"
  · rw [if_pos rsa] at read ⊢
    exact .inl ⟨rsa, rfl, read⟩
  · rw [if_neg rsa] at read ⊢
    exact .inr ⟨rsa, rfl, read⟩

/-- What is known of a key that can be used, if its identity has the name that stands in the blob.
The blob that the key is written as has that name too. -/
theorem names_of_candidate? (keeps : format.KeepsNames) (named : Names i.keyBlob i.algorithm)
    (usable : candidate? format i = some c) :
    (∀ name, Names (format.blob c.key) name ↔ Names i.keyBlob name) ∧
      (Names i.keyBlob "ssh-rsa" → c.flags = 2) ∧ (¬Names i.keyBlob "ssh-rsa" → c.flags = 0) := by
  have written {hash : Option Key.SignatureHash}
      (read : format.read? hash i.keyBlob = some c.key) (name : String) :
      Names (format.blob c.key) name ↔ Names i.keyBlob name := by
    constructor
    · intro there
      rw [there.unique (keeps _ _ _ _ read named)]
      exact named
    · exact keeps _ _ _ _ read
  rcases flags_of_candidate? usable with ⟨rsa, flags, read⟩ | ⟨other, flags, read⟩
  · rw [rsa] at named
    exact ⟨written read, fun _ => flags, fun absent => absurd named absent⟩
  · exact ⟨written read, fun rsa => absurd (named.unique rsa) other, fun _ => flags⟩

theorem Offer.signs (o : Offer format t) (keeps : format.KeepsNames)
    (named : Names o.identity.keyBlob o.identity.algorithm) {st : Step κ} (made : st ∈ o.steps)
    {blob data : Bytes} {n : Nat} (asked : st.ask = .sign blob data n) :
    blob = format.blob o.candidate.key ∧
      (∀ name, Names blob name ↔ Names o.identity.keyBlob name) ∧
      (Names o.identity.keyBlob "ssh-rsa" → n = 2) ∧
      (¬Names o.identity.keyBlob "ssh-rsa" → n = 0) := by
  obtain ⟨rfl, rfl⟩ := o.settled.signsWith st made blob data n asked
  exact ⟨rfl, names_of_candidate? keeps named o.usable⟩

/-! ### The result -/

theorem Outcome.forge_of_verdict? {outcome : Outcome} {e : Failure}
    (h : outcome.verdict? t = some (.error e)) : ∃ text, e = .forge text := by
  cases outcome with
  | accepted | rejected => cases h
  | unsigned e' | lost =>
      cases h
      exact ⟨_, rfl⟩

theorem Selected.decided_or (h : Selected format t keys failure offers login) :
    (∃ o ∈ offers, o.outcome.verdict? t = some login) ∨
      (∀ o ∈ offers, o.outcome = .rejected) ∧ login = .error failure := by
  by_cases all : ∀ o ∈ offers, o.outcome = .rejected
  · exact .inr ⟨all, (h.undecided all).2⟩
  · push Not at all
    obtain ⟨o, member, other⟩ := all
    obtain ⟨v, verdict⟩ := Option.ne_none_iff_exists'.1 (mt Outcome.verdict?_eq_none_iff.1 other)
    exact .inl ⟨o, member, by rw [h.decided o member v verdict, verdict]⟩

theorem Selected.ok_iff (h : Selected format t keys failure offers login) :
    login = .ok () ↔ ∃ o ∈ offers, o.outcome = .accepted := by
  constructor
  · rintro rfl
    rcases h.decided_or with ⟨o, member, verdict⟩ | ⟨-, failed⟩
    · refine ⟨o, member, ?_⟩
      cases outcome : o.outcome with
      | accepted => rfl
      | rejected | unsigned | lost =>
          rw [outcome] at verdict
          cases verdict
    · cases failed
  · rintro ⟨o, member, accepted⟩
    exact h.decided o member _ (by rw [accepted]; rfl)

theorem Selected.forge_of_error (h : Selected format t keys (noneAccepted t left) offers login)
    {e : Failure} (failed : login = .error e) : ∃ text, e = .forge text := by
  subst failed
  rcases h.decided_or with ⟨o, -, verdict⟩ | ⟨-, same⟩
  · exact Outcome.forge_of_verdict? verdict
  · cases same
    cases left with
    | nil => exact ⟨_, rfl⟩
    | cons i left => exact ⟨_, rfl⟩

/-- It is over, or the login is behind. -/
def PastLogin : Progress (Opening κ) Result → Prop
  | .done _ | .more .openingChannel | .more (.settingProtocol _) | .more .executing => True
  | _ => False

theorem pastLogin_afterLogin (login : Except Failure Unit) :
    PastLogin (afterLogin login : Progress (Opening κ) Result) := by
  rcases login with e | ⟨⟩ <;> trivial

/-- Behind the login there is no way back to it. -/
theorem PastLogin.resume {s : Opening κ} (h : PastLogin (.more s))
    (answer : (s.request format t).Answer) :
    (s.request format t).ofSession = true ∧ PastLogin (s.resume format t answer) := by
  cases s with
  | openingChannel =>
      refine ⟨rfl, ?_⟩
      rcases answer with cause | ⟨⟩
      · trivial
      · show PastLogin (onChannel t (.ok ()))
        cases version : t.gitProtocol <;> simp [onChannel, version, PastLogin]
  | settingProtocol version | executing =>
      refine ⟨rfl, ?_⟩
      rcases answer with cause | ⟨⟩ <;> trivial
  | _ => cases h

theorem PastLogin.ofSession {p : Progress (Opening κ) Result} (h : PastLogin p)
    (run : Run format t p steps r) : ∀ st ∈ steps, st.ask.ofSession = true := by
  induction run with
  | done r => exact List.forall_mem_nil _
  | step s answer run ih =>
      obtain ⟨inside, next⟩ := h.resume answer
      exact List.forall_mem_cons.2 ⟨inside, ih next⟩

theorem run_onKeys_iff : Run format t (onKeys format t (.ok keys)) steps r ↔
    ∃ offers login rest,
      Selected format t (keys.filter (supported format)) (noneAccepted t keys) offers login ∧
      steps = offers.flatMap (·.steps) ++ rest ∧ Run format t (afterLogin login) rest r := by
  cases keys with
  | nil =>
      simp only [List.filter_nil, selected_nil_iff]
      constructor
      · intro run
        exact ⟨[], _, steps, ⟨rfl, rfl⟩, rfl, run⟩
      · rintro ⟨_, _, rest, ⟨rfl, rfl⟩, rfl, run⟩
        exact run
  | cons i keys => exact run_tryNext_iff

theorem run_listing_iff : Run format t (.more .listing) (⟨.listKeys, .ok keys⟩ :: steps) r ↔
    Run format t (onKeys format t (.ok keys)) steps r := by
  constructor
  · intro run
    obtain ⟨answer, rest, same, listed⟩ := run_more_iff.1 run
    cases same
    exact listed
  · intro run
    exact .step .listing (.ok keys) run

end

/-- What is known of the offers that are made, and of the result of the login. -/
structure Login (format : Key.Format κ) (t : Target) (keys : List Identity)
    (offers : List (Offer format t)) (login : Except Failure Unit) : Prop where
  succeeds : login = .ok () ↔ ∃ o ∈ offers, o.outcome = .accepted
  fails : ∀ e, login = .error e → ∃ text, e = .forge text
  empty : keys = [] → offers = [] ∧ login = .error noKeys
  /-- Every key is offered once. -/
  offered : (offers.flatMap (·.steps)).filterMap Step.offered? =
    offers.map fun o => (t.user, o.candidate.key)
  /-- A signature is asked for with the key that is offered alone, and with the flag for SHA-256
  exactly if its blob names `ssh-rsa`. -/
  signed : ∀ o ∈ offers, ∀ st ∈ o.steps, ∀ blob data n, st.ask = .sign blob data n →
    blob = format.blob o.candidate.key ∧
      (∀ name, Names blob name ↔ Names o.identity.keyBlob name) ∧
      (Names o.identity.keyBlob "ssh-rsa" → n = 2) ∧
      (¬Names o.identity.keyBlob "ssh-rsa" → n = 0)
  /-- Behind the login nothing is offered or signed. -/
  past : ∀ rest r, Run format t (afterLogin login) rest r → ∀ st ∈ rest, st.ask.ofSession = true

theorem Selected.login {format : Key.Format κ} {t : Target} {keys : List Identity}
    {offers : List (Offer format t)} {login : Except Failure Unit} (keeps : format.KeepsNames)
    (named : ∀ i ∈ keys, Names i.keyBlob i.algorithm)
    (h : Selected format t (keys.filter (supported format)) (noneAccepted t keys) offers login) :
    Login format t keys offers login where
  succeeds := h.ok_iff
  fails _ failed := h.forge_of_error failed
  empty := by
    rintro rfl
    exact selected_nil_iff.1 h
  offered := offers_flatMap offers
  signed o member _ made _ _ _ asked := by
    have listed : o.identity ∈ keys.filter (supported format) :=
      h.inOrder.subset (List.mem_map_of_mem member)
    exact o.signs keeps (named _ (List.mem_of_mem_filter listed)) made asked
  past _ _ run := (pastLogin_afterLogin login).ofSession run

/-- **The selection of a key.**  Let the agent have listed any keys, each under the name at the
start of its blob, as it is read from an answer (`Agent.Response.names_of_decode`), and let keys be
read and written in any way that keeps the name.  However forge and agent react: the steps that
follow are those of the offers that are made, and then of what comes after the login.  Offered are
the keys that can be used, in the agent's order and each once, up to the first one that is not
rejected (`Selected`).  The reactions to the keys determine the offers and the result of the login:
it succeeds exactly if a key is accepted, and fails for the key that the agent did not sign with or
at which the connection was lost, or because there is no key or none that was accepted.  What is
offered is what is signed with, and nothing after the login (`Login`). -/
theorem keys_offered_in_order (format : Key.Format κ) (keeps : format.KeepsNames) (t : Target)
    (keys : List Identity) (named : ∀ i ∈ keys, Names i.keyBlob i.algorithm) :
    (∀ steps r, Run format t (.more .listing) (⟨.listKeys, .ok keys⟩ :: steps) r ↔
      ∃ offers login rest,
        Selected format t (keys.filter (supported format)) (noneAccepted t keys) offers login ∧
        steps = offers.flatMap (·.steps) ++ rest ∧ Run format t (afterLogin login) rest r) ∧
    (∀ all : List (Offer format t), all.map (·.identity) = keys.filter (supported format) →
      ∃ offers login,
        (offers <+: all ∧
          Selected format t (keys.filter (supported format)) (noneAccepted t keys) offers login) ∧
        ∀ offers' login', offers' <+: all →
          Selected format t (keys.filter (supported format)) (noneAccepted t keys)
            offers' login' →
          offers' = offers ∧ login' = login) ∧
    ∀ offers login,
      Selected format t (keys.filter (supported format)) (noneAccepted t keys) offers login →
      Login format t keys offers login := by
  refine ⟨fun steps r => run_listing_iff.trans run_onKeys_iff, ?determined,
    fun offers login selected => selected.login keeps named⟩
  case determined =>
    intro all same
    obtain ⟨offers, login, front, selected⟩ := exists_selected all (noneAccepted t keys)
    rw [same] at selected
    refine ⟨offers, login, ⟨front, selected⟩, fun offers' login' front' selected' => ?_⟩
    exact selected'.unique front' selected front

/-! ### A login with the second of two keys -/

/-- A key that cannot be used. -/
def sampleUnusable : Identity := ⟨"ssh-dss", Key.Public.field "ssh-dss" ++ [0, 0, 0, 0], []⟩

def sampleCurveKey : Key.Public := .ecdsa .p256 (Key.Curve.octets .p256 (Key.Curve.base .p256))

def sampleCurveIdentity : Identity := ⟨sampleCurveKey.algorithm, sampleCurveKey.blob, []⟩

/-- The last key is listed twice. -/
def sampleListed : List Identity :=
  [sampleUnusable, sampleIdentity, sampleCurveIdentity, sampleCurveIdentity]

/-- The forge wants a signature and rejects it. -/
def sampleRejected : Offer Key.Public.format sampleTarget where
  identity := sampleIdentity
  candidate := sampleCandidate
  usable := by decide +kernel
  steps := [⟨.offer "git" sampleKey, .wanted sampleData⟩,
    ⟨.sign sampleKey.blob sampleData 2, .ok sampleSignature⟩,
    ⟨.prove (signedData sampleData sampleSignature), .rejected⟩]
  outcome := .rejected
  settled := .rejected (.signed (.offered (.wanted sampleData)) sampleSignature .rejected)

/-- The forge wants a signature and accepts it. -/
def sampleAccepted : Offer Key.Public.format sampleTarget where
  identity := sampleCurveIdentity
  candidate := ⟨sampleCurveKey, 0⟩
  usable := by decide +kernel
  steps := [⟨.offer "git" sampleCurveKey, .wanted sampleData⟩,
    ⟨.sign sampleCurveKey.blob sampleData 0, .ok sampleSignature⟩,
    ⟨.prove (signedData sampleData sampleSignature), .accepted⟩]
  outcome := .accepted
  settled := .accepted (.signed (.offered (.wanted sampleData)) sampleSignature .accepted)

theorem filter_sampleListed : sampleListed.filter (supported Key.Public.format) =
    [sampleIdentity, sampleCurveIdentity, sampleCurveIdentity] := by
  have unusable : supported Key.Public.format sampleUnusable = false := by decide +kernel
  have first : supported Key.Public.format sampleIdentity = true := sampleRejected.supported
  have second : supported Key.Public.format sampleCurveIdentity = true := sampleAccepted.supported
  simp [sampleListed, unusable, first, second]

theorem selected_sampleListed :
    Selected Key.Public.format sampleTarget (sampleListed.filter (supported Key.Public.format))
      (noneAccepted sampleTarget sampleListed) [sampleRejected, sampleAccepted] (.ok ()) := by
  rw [filter_sampleListed]
  exact Selected.cons (o := sampleRejected) rfl (.single (o := sampleAccepted) rfl)

theorem decode_sampleListed :
    Agent.Response.decode (Agent.Response.payload (.identities sampleListed)) =
      .ok (.identities sampleListed) := by
  decide +kernel

/-- The login goes on to the second key that can be used and ends there. -/
theorem keys_offered_in_order_sample :
    Run Key.Public.format sampleTarget (.more .listing)
      (⟨.listKeys, .ok sampleListed⟩ :: (sampleRejected.steps ++ sampleAccepted.steps ++
        [⟨.openChannel, .ok ()⟩, ⟨.setEnv "GIT_PROTOCOL" "version=2", .ok ()⟩,
          ⟨.exec "git-upload-pack 'a/b'", .ok ()⟩])) (.ok ()) ∧
    (sampleRejected.steps ++ sampleAccepted.steps).filterMap Step.offered? =
      [("git", sampleKey), ("git", sampleCurveKey)] ∧
    ∀ st ∈ sampleRejected.steps, ∀ blob data n, st.ask = .sign blob data n →
      Names blob "ssh-rsa" ∧ n = 2 := by
  have opens : Run Key.Public.format sampleTarget (.more .openingChannel)
      [⟨.openChannel, .ok ()⟩, ⟨.setEnv "GIT_PROTOCOL" "version=2", .ok ()⟩,
        ⟨.exec "git-upload-pack 'a/b'", .ok ()⟩] (.ok ()) :=
    .step .openingChannel (.ok ()) <| .step (.settingProtocol "version=2") (.ok ()) <|
    .step .executing (.ok ()) <| .done (.ok ())
  have named := Agent.Response.names_of_decode decode_sampleListed
  have rsa : Names sampleKey.blob "ssh-rsa" := sampleKey.names_blob
  obtain ⟨runs, -, logins⟩ := keys_offered_in_order Key.Public.format Key.Public.keepsNames_format
    sampleTarget sampleListed named
  have login := logins _ _ selected_sampleListed
  refine ⟨(runs _ _).2 ⟨_, _, _, selected_sampleListed, rfl, opens⟩, login.offered, ?_⟩
  intro st made blob data n asked
  obtain ⟨-, names, flag, -⟩ := login.signed _ List.mem_cons_self st made blob data n asked
  exact ⟨(names _).2 rsa, flag rsa⟩

end ForgeGateway.Forge.Opening
