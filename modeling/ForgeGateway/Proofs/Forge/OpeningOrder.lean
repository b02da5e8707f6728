import ForgeGateway.Forge.Opening
import ForgeGateway.Proofs.Positions
import Mathlib.Data.List.Infix

/-! # The order in which a connection is opened

`Reached` relates the steps that were made to where they have led, for all answers of forge and
agent; it may stop anywhere, as an opening does that is given up.  What has happened at a stage
(`At`) is kept by every step.  So no forge is connected to that is not pinned, no agent is asked
before the forge's key was found among the pinned ones, and no channel is opened before the forge
has accepted one of the agent's keys; nothing follows a step that fails, and only for such a step,
or because the forge has rejected all keys, a connection is not opened (`opening_in_order`). -/

namespace ForgeGateway.Forge

open ForgeGateway.Agent (Identity Signature)
open ForgeGateway.Relay (Failure)

/-- The forge is asked for something that needs a login. -/
def Ask.ofSession {κ : Type} : Ask κ → Bool
  | .openChannel | .setEnv _ _ | .exec _ => true
  | _ => false

namespace Opening

variable {κ : Type}

/-! ### What has to come first -/

/-- The key is one of those pinned for the forge. -/
def Pinned (t : Target) (blob : Bytes) : Prop :=
  ∃ fingerprints, t.pins.find? t.host = some fingerprints ∧ Key.fingerprint blob ∈ fingerprints

/-- The forge was connected to and has shown a key that is pinned for it. -/
def Verified (t : Target) (before : List (Step κ)) : Prop :=
  ∃ blob, ⟨.connect t.host, .ok blob⟩ ∈ before ∧ Pinned t blob

def Listed (format : Key.Format κ) (before : List (Step κ)) (c : Candidate κ) : Prop :=
  ∃ keys i, ⟨.listKeys, .ok keys⟩ ∈ before ∧ i ∈ keys ∧ candidate? format i = some c

/-- The key was offered, and signed with as often as the forge wanted it. -/
inductive Tried (format : Key.Format κ) (t : Target) (c : Candidate κ) :
    List (Step κ) → Reply → Prop where
  | offered (reply : Reply) : Tried format t c [⟨.offer t.user c.key, reply⟩] reply
  | signed {steps : List (Step κ)} {data : Bytes} (tried : Tried format t c steps (.wanted data))
      (s : Signature) (reply : Reply) :
      Tried format t c (steps ++ [⟨.sign (format.blob c.key) data c.flags, .ok s⟩,
        ⟨.prove (signedData data s), reply⟩]) reply

/-- The agent has listed a key, and then the forge has accepted it. -/
def LoggedIn (format : Key.Format κ) (t : Target) (before : List (Step κ)) : Prop :=
  ∃ front c login, front ++ login <+: before ∧ Listed format front c ∧
    Tried format t c login .accepted

def Step.Fails (t : Target) : Step κ → Prop
  | ⟨.connect _, .ok blob⟩ => ¬Pinned t blob
  | ⟨.connect _, .error _⟩ => True
  | ⟨.listKeys, .ok keys⟩ => keys = []
  | ⟨.listKeys, .error _⟩ | ⟨.sign _ _ _, .error _⟩ => True
  | ⟨.offer _ _, .lost⟩ | ⟨.prove _, .lost⟩ => True
  | ⟨.openChannel, .error _⟩ | ⟨.setEnv _ _, .error _⟩ | ⟨.exec _, .error _⟩ => True
  | _ => False

/-- The key of the identity was tried and rejected, if it has one. -/
def Rejected (format : Key.Format κ) (t : Target) (before : List (Step κ)) (i : Identity) : Prop :=
  ∀ c, candidate? format i = some c →
    ∃ tries, Tried format t c tries .rejected ∧ tries <:+: before

/-- Why a connection is not opened. -/
inductive Hindered (format : Key.Format κ) (t : Target) (forwarding : Bool)
    (steps : List (Step κ)) : Prop where
  | unpinned (unknown : t.pins.find? t.host = none) (begun : steps = [])
  | unlent (unlent : forwarding = false) (begun : steps = [])
  | failed {before : List (Step κ)} {st : Step κ} (split : steps = before ++ [st])
      (fails : st.Fails t)
  | rejected {keys : List Identity} (listed : ⟨.listKeys, .ok keys⟩ ∈ steps)
      (all : ∀ i ∈ keys, Rejected format t steps i)

/-- Nothing was asked that needs a login. -/
def Outside (before : List (Step κ)) : Prop := ∀ st ∈ before, st.ask.ofSession = false

/-- What has to come before something is asked.  The version of Git's protocol is set behind the
opening of the channel, if there is one, and the command is started behind both. -/
def Allowed (format : Key.Format κ) (t : Target) (forwarding : Bool) (before : List (Step κ)) :
    Ask κ → Prop
  | .connect host => host = t.host ∧ before = [] ∧
      (∃ fingerprints, t.pins.find? t.host = some fingerprints) ∧ forwarding = true
  | .listKeys | .offer _ _ | .sign _ _ _ | .prove _ => Verified t before
  | .openChannel => LoggedIn format t before ∧ Outside before
  | .setEnv name value => LoggedIn format t before ∧ name = "GIT_PROTOCOL" ∧
      t.gitProtocol = some value ∧
      ∃ login, Outside login ∧ before = login ++ [⟨.openChannel, .ok ()⟩]
  | .exec command => LoggedIn format t before ∧ command = t.command ∧
      ∃ login, Outside login ∧ before = login ++ ⟨.openChannel, .ok ()⟩ ::
        t.gitProtocol.toList.map fun value => ⟨.setEnv "GIT_PROTOCOL" value, .ok ()⟩

/-- The steps up to some point, for some answers, and what follows them. -/
inductive Reached (format : Key.Format κ) (t : Target) (forwarding : Bool) :
    List (Step κ) → Progress (Opening κ) Result → Prop where
  | begun : Reached format t forwarding [] (start t forwarding)
  | step {steps : List (Step κ)} {s : Opening κ}
      (reached : Reached format t forwarding steps (.more s))
      (answer : (s.request format t).Answer) :
      Reached format t forwarding (steps ++ [⟨s.request format t, answer⟩])
        (s.resume format t answer)

section
variable {format : Key.Format κ} {t : Target} {forwarding : Bool} {p : Progress (Opening κ) Result}
  {steps before after rest : List (Step κ)} {st : Step κ} {r : Result} {c : Candidate κ}
  {left : List Identity} {total : Nat} {blob : Bytes}

theorem Run.reached (run : Run format t p rest r)
    (reached : Reached format t forwarding steps p) :
    Reached format t forwarding (steps ++ rest) (.done r) := by
  induction run generalizing steps with
  | done r =>
      rw [List.append_nil]
      exact reached
  | step s answer run ih =>
      have further := ih (reached.step answer)
      rwa [List.append_assoc, List.singleton_append] at further

theorem Reached.run (reached : Reached format t forwarding steps p)
    (run : Run format t p rest r) :
    Run format t (Opening.start t forwarding) (steps ++ rest) r := by
  induction reached generalizing rest with
  | begun => exact run
  | step reached answer ih =>
      rw [List.append_assoc, List.singleton_append]
      exact ih (run.step _ answer)

theorem run_iff_reached :
    Run format t (Opening.start t forwarding) steps r ↔
      Reached format t forwarding steps (.done r) := by
  constructor
  · intro run
    exact run.reached .begun
  · intro reached
    have run := reached.run (.done r)
    rwa [List.append_nil] at run

/-! ### What has happened at a stage -/

/-- The forge is verified, and the agent has listed its keys, of which these have not been
rejected. -/
structure Trying (format : Key.Format κ) (t : Target) (before : List (Step κ))
    (left : List Identity) : Prop where
  verified : Verified t before
  outside : Outside before
  listed : ∃ keys, ⟨.listKeys, .ok keys⟩ ∈ before ∧ (∀ i ∈ left, i ∈ keys) ∧
    ∀ i ∈ keys, i ∈ left ∨ Rejected format t before i

/-- What has happened when a stage is reached. -/
def At (format : Key.Format κ) (t : Target) (forwarding : Bool) (before : List (Step κ)) :
    Opening κ → Prop
  | .connecting => before = [] ∧ (∃ fingerprints, t.pins.find? t.host = some fingerprints) ∧
      forwarding = true
  | .listing => Verified t before ∧ Outside before
  | .offering c left _ => ∃ i, candidate? format i = some c ∧ Trying format t before (i :: left)
  | .signing c data left _ => ∃ i, candidate? format i = some c ∧
      Trying format t before (i :: left) ∧
      ∃ front login, before = front ++ login ∧ Listed format front c ∧
        Tried format t c login (.wanted data)
  | .proving c signed left _ => ∃ i, candidate? format i = some c ∧
      Trying format t before (i :: left) ∧
      ∃ front login data s,
        before = front ++ login ++ [⟨.sign (format.blob c.key) data c.flags, .ok s⟩] ∧
        Listed format front c ∧ Tried format t c login (.wanted data) ∧ signed = signedData data s
  | .openingChannel => LoggedIn format t before ∧ Outside before
  | .settingProtocol version => LoggedIn format t before ∧ t.gitProtocol = some version ∧
      ∃ login, Outside login ∧ before = login ++ [⟨.openChannel, .ok ()⟩]
  | .executing => LoggedIn format t before ∧ ∃ login, Outside login ∧
      before = login ++ ⟨.openChannel, .ok ()⟩ ::
        t.gitProtocol.toList.map fun version => ⟨.setEnv protocolVariable version, .ok ()⟩

/-- What has happened, and at the end what has come of it. -/
def Holds (format : Key.Format κ) (t : Target) (forwarding : Bool) (steps : List (Step κ)) :
    Progress (Opening κ) Result → Prop
  | .more s => At format t forwarding steps s
  | .done (.ok ()) => ∃ before, steps = before ++ [⟨.exec t.command, .ok ()⟩]
  | .done (.error e) => (∃ text, e = .forge text) ∧ Hindered format t forwarding steps

theorem Verified.snoc (h : Verified t before) (st : Step κ) : Verified t (before ++ [st]) := by
  obtain ⟨blob, shown, pinned⟩ := h
  exact ⟨blob, List.mem_append_left _ shown, pinned⟩

theorem Rejected.snoc {i : Identity} (h : Rejected format t before i) (st : Step κ) :
    Rejected format t (before ++ [st]) i := by
  intro c usable
  obtain ⟨tries, tried, within⟩ := h c usable
  exact ⟨tries, tried, within.trans (List.prefix_append _ _).isInfix⟩

theorem LoggedIn.snoc (h : LoggedIn format t before) (st : Step κ) :
    LoggedIn format t (before ++ [st]) := by
  obtain ⟨front, c, login, within, known⟩ := h
  exact ⟨front, c, login, within.trans (List.prefix_append _ _), known⟩

theorem Outside.snoc (h : Outside before) (hst : st.ask.ofSession = false) :
    Outside (before ++ [st]) := by
  intro st' member
  rcases List.mem_append.1 member with old | new
  · exact h st' old
  · rw [List.mem_singleton.1 new]
    exact hst

theorem Trying.snoc (h : Trying format t before left) (hst : st.ask.ofSession = false) :
    Trying format t (before ++ [st]) left := by
  obtain ⟨keys, listed, known, others⟩ := h.listed
  refine ⟨h.verified.snoc st, h.outside.snoc hst, keys, List.mem_append_left _ listed, known, ?_⟩
  intro i member
  rcases others i member with untried | rejected
  · exact .inl untried
  · exact .inr (rejected.snoc st)

theorem Trying.isListed {i : Identity} (h : Trying format t before (i :: left))
    (usable : candidate? format i = some c) : Listed format before c := by
  obtain ⟨keys, listed, known, -⟩ := h.listed
  exact ⟨keys, i, listed, known i (.head left), usable⟩

theorem Trying.tail {i : Identity} (h : Trying format t before (i :: left))
    (rejected : Rejected format t before i) : Trying format t before left := by
  obtain ⟨keys, listed, known, others⟩ := h.listed
  refine ⟨h.verified, h.outside, keys, listed, fun j member => known j (.tail i member), ?_⟩
  intro j member
  rcases others j member with untried | done
  · rcases List.mem_cons.1 untried with rfl | later
    · exact .inr rejected
    · exact .inl later
  · exact .inr done

theorem Tried.fails_of_lost {tries : List (Step κ)} (h : Tried format t c tries .lost) :
    ∃ first st, tries = first ++ [st] ∧ st.Fails t := by
  cases h with
  | offered => exact ⟨[], _, rfl, trivial⟩
  | @signed steps data _ s =>
      refine ⟨steps ++ [⟨.sign (format.blob c.key) data c.flags, .ok s⟩],
        ⟨.prove (signedData data s), .lost⟩, ?_, trivial⟩
      rw [List.append_assoc, List.singleton_append]

theorem verify_iff : t.pins.verify t.host (Key.fingerprint blob) = true ↔ Pinned t blob := by
  unfold HostPins.verify Pinned
  cases t.pins.find? t.host with
  | none => simp
  | some fingerprints => simp

/-! ### One step -/

theorem holds_start : Holds format t forwarding [] (start t forwarding) := by
  unfold start
  split_ifs with unknown unlent
  · have absent : t.pins.find? t.host = none := by
      simpa [HostPins.isKnown] using unknown
    exact ⟨⟨_, rfl⟩, .unpinned absent rfl⟩
  · exact ⟨⟨_, rfl⟩, .unlent (by simpa using unlent) rfl⟩
  · have known : t.pins.isKnown t.host = true := by simpa using unknown
    have lent : forwarding = true := by simpa using unlent
    exact ⟨rfl, Option.isSome_iff_exists.1 known, lent⟩

theorem holds_onConnect {answer : Except String Bytes} :
    Holds format t forwarding [⟨.connect t.host, answer⟩] (onConnect t answer) := by
  cases answer with
  | error cause => exact ⟨⟨_, rfl⟩, .failed (List.nil_append _).symm trivial⟩
  | ok blob =>
      rw [onConnect]
      split_ifs with pinned
      · refine ⟨⟨blob, List.mem_singleton.2 rfl, verify_iff.1 pinned⟩, ?_⟩
        intro st member
        rw [List.mem_singleton.1 member]
        rfl
      · rw [verify_iff] at pinned
        exact ⟨⟨_, rfl⟩, .failed (List.nil_append _).symm pinned⟩

theorem holds_tryNext (trying : Trying format t before left) :
    Holds format t forwarding before (tryNext format t total left) := by
  induction left with
  | nil =>
      obtain ⟨keys, listed, -, others⟩ := trying.listed
      refine ⟨⟨_, rfl⟩, .rejected listed fun i member => ?_⟩
      rcases others i member with untried | rejected
      · cases untried
      · exact rejected
  | cons i left ih =>
      unfold tryNext
      split
      next c usable => exact ⟨i, usable, trying⟩
      next unusable =>
        refine ih (trying.tail fun c usable => ?_)
        rw [unusable] at usable
        cases usable

theorem holds_onReply {front login : List (Step κ)} {reply : Reply} {i : Identity}
    (split : before = front ++ login) (usable : candidate? format i = some c)
    (trying : Trying format t before (i :: left)) (listed : Listed format front c)
    (tried : Tried format t c login reply) :
    Holds format t forwarding before (onReply format t c left total reply) := by
  cases reply with
  | accepted =>
      have within : front ++ login <+: before := ⟨[], by rw [List.append_nil, split]⟩
      exact ⟨⟨front, c, login, within, listed, tried⟩, trying.outside⟩
  | rejected =>
      have within : login <:+: before := ⟨front, [], by rw [List.append_nil, split]⟩
      refine holds_tryNext (trying.tail fun c' usable' => ?_)
      rw [usable] at usable'
      cases usable'
      exact ⟨login, tried, within⟩
  | wanted data => exact ⟨i, usable, trying, front, login, split, listed, tried⟩
  | lost =>
      obtain ⟨first, st, last, fails⟩ := tried.fails_of_lost
      rw [last, ← List.append_assoc] at split
      exact ⟨⟨_, rfl⟩, .failed split fails⟩

theorem holds_onKeys {answer : Except Agent.AgentError (List Identity)}
    (verified : Verified t before) (outside : Outside before) :
    Holds format t forwarding (before ++ [⟨.listKeys, answer⟩]) (onKeys format t answer) := by
  cases answer with
  | error e => exact ⟨⟨_, rfl⟩, .failed rfl trivial⟩
  | ok keys =>
      cases keys with
      | nil => exact ⟨⟨_, rfl⟩, .failed rfl rfl⟩
      | cons i left =>
          apply holds_tryNext
          refine ⟨verified.snoc _, outside.snoc rfl, i :: left, by simp, ?_, ?_⟩
          · exact fun j member => member
          · exact fun j member => .inl member

theorem holds_onChannel {answer : Except String Unit} (loggedIn : LoggedIn format t before)
    (outside : Outside before) :
    Holds format t forwarding (before ++ [⟨.openChannel, answer⟩]) (onChannel t answer) := by
  rcases answer with cause | ⟨⟩
  · exact ⟨⟨_, rfl⟩, .failed rfl trivial⟩
  · rw [onChannel]
    cases given : t.gitProtocol with
    | some version => exact ⟨loggedIn.snoc _, given, before, outside, rfl⟩
    | none =>
        refine ⟨loggedIn.snoc _, before, outside, ?_⟩
        rw [given]
        rfl

/-- What has happened stays known whatever a stage is answered. -/
theorem At.step {s : Opening κ} (h : At format t forwarding before s)
    (answer : (s.request format t).Answer) :
    Holds format t forwarding (before ++ [⟨s.request format t, answer⟩])
      (s.resume format t answer) := by
  cases s with
  | connecting =>
      obtain ⟨rfl, -⟩ := h
      exact holds_onConnect
  | listing => exact holds_onKeys h.1 h.2
  | offering c left total =>
      obtain ⟨i, usable, trying⟩ := h
      exact holds_onReply rfl usable (trying.snoc rfl) (trying.isListed usable) (.offered answer)
  | signing c data left total =>
      obtain ⟨i, usable, trying, front, login, rfl, listed, tried⟩ := h
      rcases answer with e | s
      · exact ⟨⟨_, rfl⟩, .failed rfl trivial⟩
      · exact ⟨i, usable, trying.snoc rfl, front, login, data, s, rfl, listed, tried, rfl⟩
  | proving c signed left total =>
      obtain ⟨i, usable, trying, front, login, data, s, rfl, listed, tried, rfl⟩ := h
      have split (a b : Step κ) : front ++ login ++ [a] ++ [b] = front ++ (login ++ [a, b]) := by
        simp
      exact holds_onReply (split _ _) usable (trying.snoc rfl) listed (tried.signed s answer)
  | openingChannel =>
      obtain ⟨loggedIn, outside⟩ := h
      exact holds_onChannel loggedIn outside
  | settingProtocol version =>
      obtain ⟨loggedIn, given, login, outside, rfl⟩ := h
      rcases answer with cause | ⟨⟩
      · exact ⟨⟨_, rfl⟩, .failed rfl trivial⟩
      · refine ⟨loggedIn.snoc _, login, outside, ?_⟩
        rw [given, List.append_assoc]
        rfl
  | executing =>
      rcases answer with cause | ⟨⟩
      · exact ⟨⟨_, rfl⟩, .failed rfl trivial⟩
      · exact ⟨before, rfl⟩

theorem At.allowed {s : Opening κ} (h : At format t forwarding before s) :
    Allowed format t forwarding before (s.request format t) := by
  cases s with
  | connecting => exact ⟨rfl, h⟩
  | listing => exact h.1
  | offering =>
      obtain ⟨i, -, trying⟩ := h
      exact trying.verified
  | signing | proving =>
      obtain ⟨i, -, trying, -⟩ := h
      exact trying.verified
  | openingChannel => exact h
  | settingProtocol version => exact ⟨h.1, rfl, h.2⟩
  | executing => exact ⟨h.1, rfl, h.2⟩

theorem fails_at {s : Opening κ} {answer : (s.request format t).Answer}
    (fails : Step.Fails t ⟨s.request format t, answer⟩) :
    ∃ text, s.resume format t answer = .done (.error (.forge text)) := by
  cases s with
  | connecting =>
      rcases answer with cause | blob
      · exact ⟨_, rfl⟩
      · have unknown : ¬t.pins.verify t.host (Key.fingerprint blob) = true := by
          rw [verify_iff]
          exact fails
        have ends : (onConnect t (.ok blob) : Progress (Opening κ) Result) =
            .done (.error (mismatch t.host)) := by
          rw [onConnect, if_neg unknown]
        exact ⟨_, ends⟩
  | listing =>
      rcases answer with e | keys
      · exact ⟨_, rfl⟩
      · have none_listed : keys = [] := fails
        subst none_listed
        exact ⟨_, rfl⟩
  | offering | proving =>
      cases answer with
      | lost => exact ⟨_, rfl⟩
      | accepted | rejected | wanted => exact False.elim fails
  | signing | openingChannel | settingProtocol | executing =>
      rcases answer with e | a
      · exact ⟨_, rfl⟩
      · exact False.elim fails

/-! ### All steps -/

/-- What has happened is known wherever the steps have led. -/
theorem Reached.holds (reached : Reached format t forwarding steps p) :
    Holds format t forwarding steps p := by
  induction reached with
  | begun => exact holds_start
  | step _ answer ih => exact At.step ih answer

/-- Every step was allowed, and one that failed was the last. -/
theorem Reached.at_step (reached : Reached format t forwarding steps p)
    (split : steps = before ++ st :: after) :
    Allowed format t forwarding before st.ask ∧
      (st.Fails t → after = [] ∧ ∃ text, p = .done (.error (.forge text))) := by
  induction reached generalizing after with
  | begun => exact absurd split.symm (by simp)
  | step reached answer ih =>
      rcases position_snoc_iff.1 split with ⟨rfl, rfl, rfl⟩ | ⟨after, rfl, earlier⟩
      · exact ⟨At.allowed reached.holds, fun fails => ⟨rfl, fails_at fails⟩⟩
      · obtain ⟨allowed, failed⟩ := ih earlier
        refine ⟨allowed, fun fails => ?_⟩
        obtain ⟨-, text, ended⟩ := failed fails
        cases ended

theorem Reached.of_refused
    (refused : (start t forwarding : Progress (Opening κ) Result) = .done r)
    (reached : Reached format t forwarding steps p) : steps = [] ∧ p = .done r := by
  induction reached with
  | begun => exact ⟨rfl, refused⟩
  | step _ _ ih => cases ih.2

theorem start_refused (h : t.pins.find? t.host = none ∨ forwarding = false) :
    ∃ text, (start t forwarding : Progress (Opening κ) Result) =
      .done (.error (.forge text)) := by
  unfold start
  split_ifs with unknown unlent
  · exact ⟨_, rfl⟩
  · exact ⟨_, rfl⟩
  · rcases h with absent | rfl
    · exact absurd (by rw [HostPins.isKnown, absent]; rfl) unknown
    · exact absurd rfl unlent

theorem Reached.opened_of_exec
    (reached : Reached format t forwarding (before ++ [⟨.exec t.command, .ok ()⟩]) p) :
    p = .done (.ok ()) := by
  generalize whole : before ++ [⟨.exec t.command, .ok ()⟩] = steps at reached
  cases reached with
  | begun => exact absurd whole (by simp)
  | @step _ s _ answer =>
      obtain ⟨-, same⟩ := List.append_inj' whole rfl
      have last := List.singleton_inj.1 same
      cases s with
      | executing =>
          have started : (Except.ok () : Except String Unit) = answer :=
            eq_of_heq (Step.mk.inj last).2
          subst started
          rfl
      | _ => cases congrArg Step.ask last

end

/-- The order of the steps to some point. -/
structure InOrder (format : Key.Format κ) (t : Target) (forwarding : Bool)
    (steps : List (Step κ)) (p : Progress (Opening κ) Result) : Prop where
  /-- Nothing is asked before what has to come first. -/
  allowed : ∀ before st after, steps = before ++ st :: after →
    Allowed format t forwarding before st.ask
  /-- A step that fails is the last one. -/
  failed : ∀ before st after, steps = before ++ st :: after → st.Fails t →
    after = [] ∧ ∃ text, p = .done (.error (.forge text))
  /-- Without a pinned key or without an agent nothing is asked at all. -/
  refused : t.pins.find? t.host = none ∨ forwarding = false →
    steps = [] ∧ ∃ text, p = .done (.error (.forge text))
  /-- The connection is open when the command is started. -/
  opened : p = .done (.ok ()) ↔ ∃ before, steps = before ++ [⟨.exec t.command, .ok ()⟩]
  /-- If it is not, something has hindered it. -/
  unopened : ∀ e, p = .done (.error e) →
    (∃ text, e = .forge text) ∧ Hindered format t forwarding steps

/-- **The order of an opening.**  Whatever forge and agent answer, whichever keys can be used, and
wherever it stops. -/
theorem opening_in_order {format : Key.Format κ} {t : Target} {forwarding : Bool}
    {steps : List (Step κ)} {p : Progress (Opening κ) Result}
    (reached : Reached format t forwarding steps p) :
    InOrder format t forwarding steps p where
  allowed _ _ _ split := (reached.at_step split).1
  failed _ _ _ split := (reached.at_step split).2
  refused h := by
    obtain ⟨text, refused⟩ := start_refused h
    obtain ⟨none_asked, ended⟩ := reached.of_refused refused
    exact ⟨none_asked, text, ended⟩
  opened := by
    constructor
    · rintro rfl
      exact reached.holds
    · rintro ⟨before, rfl⟩
      exact reached.opened_of_exec
  unopened e := by
    rintro rfl
    exact reached.holds

/-! ### A connection that is opened -/

def sampleKey : Key.Public := .rsa 3 35

def sampleIdentity : Identity := ⟨"ssh-rsa", sampleKey.blob, []⟩

/-- What the agent signs. -/
def sampleData : Bytes := [1, 2, 3]

def sampleSignature : Signature := ⟨"rsa-sha2-256", [4, 5]⟩

/-- A forge whose key is pinned. -/
def sampleTarget : Target where
  host := "forge.example"
  user := "git"
  gitProtocol := some "version=2"
  command := "git-upload-pack 'a/b'"
  pins := [("forge.example", [Key.fingerprint sampleKey.blob])]

/-- The key as it is used. -/
def sampleCandidate : Candidate Key.Public := ⟨sampleKey, 2⟩

/-- The forge wants a signature and accepts it. -/
def sampleSteps : List (Step Key.Public) :=
  [⟨.connect "forge.example", .ok sampleKey.blob⟩,
    ⟨.listKeys, .ok [sampleIdentity]⟩,
    ⟨.offer "git" sampleKey, .wanted sampleData⟩,
    ⟨.sign sampleKey.blob sampleData 2, .ok sampleSignature⟩,
    ⟨.prove (signedData sampleData sampleSignature), .accepted⟩,
    ⟨.openChannel, .ok ()⟩,
    ⟨.setEnv "GIT_PROTOCOL" "version=2", .ok ()⟩,
    ⟨.exec "git-upload-pack 'a/b'", .ok ()⟩]

theorem reached_sampleSteps :
    Reached Key.Public.format sampleTarget true sampleSteps (.done (.ok ())) := by
  have known : sampleTarget.pins.find? sampleTarget.host = some [Key.fingerprint sampleKey.blob] :=
    rfl
  have begins : (start sampleTarget true : Progress (Opening Key.Public) Result) =
      .more .connecting := by
    rw [start, HostPins.isKnown, known]
    rfl
  have shown : (onConnect sampleTarget (.ok sampleKey.blob) :
      Progress (Opening Key.Public) Result) = .more .listing := by
    rw [onConnect, if_pos (verify_iff.2 ⟨_, known, List.mem_singleton.2 rfl⟩)]
  have usable : candidate? Key.Public.format sampleIdentity = some sampleCandidate := by
    decide +kernel
  have listed : onKeys Key.Public.format sampleTarget (.ok [sampleIdentity]) =
      .more (.offering sampleCandidate [] 1) := by
    simp only [onKeys, tryNext, usable, List.length_cons, List.length_nil, Nat.zero_add]
  have run : Run Key.Public.format sampleTarget (start sampleTarget true) sampleSteps (.ok ()) := by
    rw [begins]
    have opens : Run Key.Public.format sampleTarget (.more .openingChannel) _ (.ok ()) :=
      .step .openingChannel (.ok ()) <| .step (.settingProtocol "version=2") (.ok ()) <|
      .step .executing (.ok ()) <| .done (.ok ())
    have offers : Run Key.Public.format sampleTarget (.more (.offering sampleCandidate [] 1)) _
        (.ok ()) :=
      .step (.offering sampleCandidate [] 1) (.wanted sampleData) <|
      .step (.signing sampleCandidate sampleData [] 1) (.ok sampleSignature) <|
      .step (.proving sampleCandidate _ [] 1) .accepted opens
    rw [← listed] at offers
    have lists : Run Key.Public.format sampleTarget (.more .listing) _ (.ok ()) :=
      .step .listing (.ok [sampleIdentity]) offers
    rw [← shown] at lists
    exact .step .connecting (.ok sampleKey.blob) lists
  exact run_iff_reached.1 run

/-- The command is started in the order in which it has to be. -/
theorem opening_in_order_sample :
    Reached Key.Public.format sampleTarget true sampleSteps (.done (.ok ())) ∧
      LoggedIn Key.Public.format sampleTarget (sampleSteps.take 7) :=
  ⟨reached_sampleSteps,
    ((opening_in_order reached_sampleSteps).allowed (sampleSteps.take 7) _ [] rfl).1⟩

end Opening

end ForgeGateway.Forge
