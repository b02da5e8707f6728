import ForgeGateway.Approval.HttpGate
import ForgeGateway.Proofs.Approval.Verdicts
import ForgeGateway.Proofs.Bytes.Base64
import ForgeGateway.Proofs.Json.Writing

/-! # What the gate can tell from a request

`Tells` says, without the writer, what an object tells about a request: a member for the method, the
repository and the protocol, an object for the user, and null or base64 for the pack.  What the
gate is sent is UTF-8 and a text of one value, an object that tells the request and no other one
(`request_recovered`); so no two requests are sent as the same text. -/

namespace ForgeGateway.Approval.Request

open ForgeGateway.Json (Literal Value WellWritten named)
open Verdict (valuesOf)

/-- One member has the name, and it is a string that means the text. -/
def Says (ms : List (Literal × Value)) (name text : String) : Prop :=
  ∃ l : Literal, valuesOf name ms = [.string l] ∧ l.Means text

/-- Null stands for no pack, and a string for the octets of which it means the base64. -/
inductive PackTold : Value → Option Bytes → Prop where
  | pull : PackTold .null none
  | push {l : Literal} {text : String} {pack : Bytes} (means : l.Means text)
      (base64 : Base64.Writes text.toList pack) : PackTold (.string l) (some pack)

/-- What the members of an object tell about a request. -/
structure Tells (ms : List (Literal × Value)) (r : Request) : Prop where
  method : Says ms "method" (if r.pack.isNone then "GET" else "POST")
  repository : Says ms "repository" r.repository
  protocol : Says ms "protocol" "ssh"
  user : ∃ us, valuesOf "identity" ms = [.object us] ∧ Says us "username" r.user.username ∧
    Says us "email" r.user.email ∧ Says us "account" r.user.account
  pack : ∃ v, valuesOf "pack" ms = [v] ∧ PackTold v r.pack

section
variable {ms : List (Literal × Value)} {name text text' : String} {q r : Request}

/-! ### Members tell one request -/

theorem Says.unique (h : Says ms name text) (h' : Says ms name text') : text = text' := by
  obtain ⟨l, values, means⟩ := h
  obtain ⟨l', values', means'⟩ := h'
  rw [values] at values'
  cases values'
  rw [← Literal.decode?_eq_some_iff] at means means'
  exact Option.some.inj (means.symm.trans means')

theorem PackTold.unique {v : Value} {p p' : Option Bytes} (h : PackTold v p)
    (h' : PackTold v p') : p = p' := by
  cases h with
  | pull =>
      cases h'
      rfl
  | push means base64 =>
      cases h' with
      | push means' base64' =>
          rw [← Literal.decode?_eq_some_iff] at means means'
          cases means.symm.trans means'
          rw [← Base64.decode?_eq_some_iff] at base64 base64'
          exact base64.symm.trans base64'

theorem Tells.unique (h : Tells ms q) (h' : Tells ms r) : q = r := by
  obtain ⟨us, users, username, email, account⟩ := h.user
  obtain ⟨us', users', username', email', account'⟩ := h'.user
  obtain ⟨v, packs, pack⟩ := h.pack
  obtain ⟨v', packs', pack'⟩ := h'.pack
  cases users.symm.trans users'
  cases packs.symm.trans packs'
  obtain ⟨repository, ⟨_, _, _⟩, _⟩ := q
  obtain ⟨repository', ⟨_, _, _⟩, _⟩ := r
  obtain rfl := h.repository.unique h'.repository
  obtain rfl := username.unique username'
  obtain rfl := email.unique email'
  obtain rfl := account.unique account'
  obtain rfl := pack.unique pack'
  rfl

/-! ### What is sent tells the request -/

theorem valuesOf_named (name : String) (ms : List (String × Value)) :
    valuesOf name (named ms) = (ms.filter (·.1 = name)).map Prod.snd := by
  induction ms with
  | nil => rfl
  | cons m ms ih =>
      have decoded := Literal.decode?_eq_some_iff.2 (Literal.means_ofString m.1)
      by_cases same : m.1 = name
      · rw [List.filter_cons_of_pos (by simpa using same), List.map_cons, ← ih]
        exact Verdict.valuesOf_cons_same (by rw [decoded, same])
      · rw [List.filter_cons_of_neg (by simpa using same), ← ih]
        exact Verdict.valuesOf_cons_other (by simpa [decoded] using same)

theorem says_named {ms : List (String × Value)}
    (h : (ms.filter (·.1 = name)).map Prod.snd = [.text text]) : Says (named ms) name text :=
  ⟨Literal.ofString text, (valuesOf_named name ms).trans h, Literal.means_ofString text⟩

theorem wellWritten_userJson (u : User) : WellWritten (Description.userJson u) := by
  refine Json.wellWritten_record _ ?_
  intro m member
  simp only [List.mem_cons, List.not_mem_nil, or_false] at member
  rcases member with rfl | rfl | rfl <;> exact Json.wellWritten_text _

theorem wellWritten_packJson (pack : Option Bytes) : WellWritten (Description.packJson pack) := by
  cases pack with
  | none => exact Json.wellWritten_null
  | some pack => exact Json.wellWritten_text _

theorem wellWritten_toValue (r : Request) : WellWritten r.toValue := by
  refine Json.wellWritten_record _ ?_
  intro m member
  simp only [List.mem_cons, List.not_mem_nil, or_false] at member
  rcases member with rfl | rfl | rfl | rfl | rfl
  · exact Json.wellWritten_text _
  · exact Json.wellWritten_text _
  · exact Json.wellWritten_text _
  · exact wellWritten_userJson _
  · exact wellWritten_packJson _

theorem packTold_packJson (pack : Option Bytes) : PackTold (Description.packJson pack) pack := by
  cases pack with
  | none => exact .pull
  | some pack =>
      have base64 := Base64.decode?_eq_some_iff.1 (Base64.decode?_encode pack)
      exact .push (Literal.means_ofString _) base64

/-- Whichever way a description is made, it is of the request. -/
theorem description_eq (r : Request) : r.description =
    ⟨if r.pack.isNone then .get else .post, r.repository, "ssh", r.user, r.pack⟩ := by
  obtain ⟨repository, user, pack⟩ := r
  cases pack <;> rfl

theorem toValue_tells (r : Request) : ∃ ms, r.toValue = .object ms ∧ Tells ms r := by
  rw [toValue, description_eq]
  refine ⟨_, rfl, ?_, ?_, ?_, ?_, ?_⟩
  · refine says_named ?_
    cases r.pack <;> simp [Method.name]
  · exact says_named (by simp)
  · exact says_named (by simp)
  · refine ⟨_, (valuesOf_named _ _).trans (by simp; rfl), ?_, ?_, ?_⟩ <;>
      exact says_named (by simp)
  · exact ⟨_, (valuesOf_named _ _).trans (by simp), packTold_packJson r.pack⟩

end

/-! ### What is sent -/

/-- The octets are a text of one value, which is an object that tells the request and no other
one, and nothing else is sent as these octets. -/
structure Recoverable (r : Request) (b : Bytes) : Prop where
  isText : ∃ text : String, b = Bytes.ofString text
  object : ∃ ms, Value.parse? b = some (.object ms) ∧ (∀ v, Value.Text v b ↔ v = .object ms) ∧
    Tells ms r ∧ ∀ q, Tells ms q → q = r
  only : ∀ (q : Request) (url : Http.Url), (q.toHttp url).body = b → q = r

/-- **The gate can tell what it is asked.** From the text that is sent for a request the request is
recovered, and no other request is sent as the same text. -/
theorem request_recovered (r : Request) (url : Http.Url) : Recoverable r (r.toHttp url).body where
  isText := ⟨_, (wellWritten_toValue r).isText.eq_ofString⟩
  object := by
    obtain ⟨ms, value, tells⟩ := toValue_tells r
    have text : Value.Text (.object ms) (r.toHttp url).body := by
      rw [← value]
      exact (wellWritten_toValue r).text
    refine ⟨ms, Json.parse?_eq_some_iff.2 text, fun v => ⟨fun h => h.unique text, ?_⟩, tells,
      fun q h => h.unique tells⟩
    rintro rfl
    exact text
  only q url' same := by
    obtain ⟨ms, value, tells⟩ := toValue_tells q
    obtain ⟨ms', value', tells'⟩ := toValue_tells r
    have text : Value.Text (.object ms) (q.toHttp url').body := value ▸ (wellWritten_toValue q).text
    have text' : Value.Text (.object ms') (r.toHttp url).body :=
      value' ▸ (wellWritten_toValue r).text
    rw [same] at text
    cases text.unique text'
    exact tells.unique tells'

end ForgeGateway.Approval.Request
