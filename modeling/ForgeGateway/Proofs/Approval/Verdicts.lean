import ForgeGateway.Approval.HttpGate
import ForgeGateway.Proofs.Json.Reading

/-! # Which texts are verdicts

`Verdict.ReadAs` says, without a reader, which JSON values stand for which verdict: an object with
each of the two fields at most once and other members of any kind, or an array of at most two
items.  `Verdict.parse?_eq_some_iff` says that a verdict is read from exactly the texts of such
values, and `readAs_allow_iff` which of them give no reason (`Silent`). -/

namespace ForgeGateway.Approval.Verdict

open ForgeGateway.Json (Literal Value)

/-! ### The values that are verdicts -/

/-- The values of the members whose name means this text, in order. -/
def valuesOf (name : String) (ms : List (Literal × Value)) : List Value :=
  (ms.filter fun m => m.1.decode? = some name).map Prod.snd

/-- The names of all members mean texts. -/
def Named (ms : List (Literal × Value)) : Prop := ∀ m ∈ ms, ∃ name, m.1.Means name

/-- A value that gives a reason, or none. -/
inductive Reason : Value → Option String → Prop where
  | null : Reason .null none
  | string {l : Literal} {text : String} (h : l.Means text) : Reason (.string l) (some text)

/-- What the members say about one field, which is given at most once. -/
inductive Field (name : String) (ms : List (Literal × Value)) : Option String → Prop where
  | absent (h : valuesOf name ms = []) : Field name ms none
  | present {v : Value} {r : Option String} (h : valuesOf name ms = [v]) (reason : Reason v r) :
      Field name ms r

/-- The verdict for which a value stands. -/
inductive ReadAs : Value → Verdict → Prop where
  | object {ms : List (Literal × Value)} {v : Verdict} (named : Named ms)
      (error : Field "error" ms v.error) (blocked : Field "blocked" ms v.blocked) :
      ReadAs (.object ms) v
  | noItems : ReadAs (.array []) {}
  | oneItem {e : Value} {r : Option String} (error : Reason e r) : ReadAs (.array [e]) ⟨r, none⟩
  | twoItems {e b : Value} {r s : Option String} (error : Reason e r) (blocked : Reason b s) :
      ReadAs (.array [e, b]) ⟨r, s⟩

/-- A value that stands for a verdict and gives no reason. -/
inductive Silent : Value → Prop where
  | object {ms : List (Literal × Value)} (named : Named ms)
      (error : valuesOf "error" ms = [] ∨ valuesOf "error" ms = [.null])
      (blocked : valuesOf "blocked" ms = [] ∨ valuesOf "blocked" ms = [.null]) :
      Silent (.object ms)
  | array {vs : List Value} (few : vs.length ≤ 2) (null : ∀ v ∈ vs, v = .null) :
      Silent (.array vs)

/-- The member gives a value other than null to one of the two fields. -/
def Refuses (m : Literal × Value) : Prop :=
  (m.1.Means "error" ∨ m.1.Means "blocked") ∧ m.2 ≠ .null

/-! ### Fields -/

section
variable {name other : String} {key : Literal} {w : Value} {ms : List (Literal × Value)}
  {r : Option String} {v : Verdict}

theorem reason_none_iff : Reason w none ↔ w = .null := by
  constructor
  · rintro ⟨⟩
    rfl
  · rintro rfl
    exact .null

theorem reason?_eq_some_iff : reason? w = some r ↔ Reason w r := by
  cases w with
  | null =>
      constructor
      · rintro ⟨⟩
        exact .null
      · rintro ⟨⟩
        rfl
  | string l =>
      simp only [reason?, Option.map_eq_some_iff, Literal.decode?_eq_some_iff]
      constructor
      · rintro ⟨text, decoded, rfl⟩
        exact .string decoded
      · intro reason
        cases reason with
        | string decoded => exact ⟨_, decoded, rfl⟩
  | _ =>
      constructor <;> intro h <;> cases h

theorem mem_valuesOf_iff :
    w ∈ valuesOf name ms ↔ ∃ key : Literal, (key, w) ∈ ms ∧ key.Means name := by
  simp [valuesOf, Literal.decode?_eq_some_iff]

theorem valuesOf_cons_same (h : key.decode? = some name) :
    valuesOf name ((key, w) :: ms) = w :: valuesOf name ms := by
  simp [valuesOf, h]

theorem valuesOf_cons_other (h : key.decode? ≠ some name) :
    valuesOf name ((key, w) :: ms) = valuesOf name ms := by
  simp [valuesOf, h]

/-- What the members still to come say about a field, of which `seen` was said before. -/
def FieldFrom (seen : Option (Option String)) (name : String) (ms : List (Literal × Value))
    (r : Option String) : Prop :=
  match seen with
  | none => Field name ms r
  | some said => valuesOf name ms = [] ∧ r = said

theorem fieldFrom_nil {seen : Option (Option String)} :
    FieldFrom seen name [] r ↔ r = seen.join := by
  cases seen with
  | none =>
      constructor
      · intro h
        cases h with
        | absent => rfl
        | present h => cases h
      · rintro rfl
        exact .absent rfl
  | some said => simp [FieldFrom, valuesOf]

theorem fieldFrom_cons_other {seen : Option (Option String)} (h : key.decode? ≠ some name) :
    FieldFrom seen name ((key, w) :: ms) r ↔ FieldFrom seen name ms r := by
  have same : valuesOf name ((key, w) :: ms) = valuesOf name ms := valuesOf_cons_other h
  cases seen with
  | none =>
      constructor
      · intro field
        cases field with
        | absent h => exact .absent (same.symm.trans h)
        | present h reason => exact .present (same.symm.trans h) reason
      · intro field
        cases field with
        | absent h => exact .absent (same.trans h)
        | present h reason => exact .present (same.trans h) reason
  | some said => rw [FieldFrom, FieldFrom, same]

theorem not_fieldFrom_cons_seen {said : Option String} (h : key.decode? = some name) :
    ¬FieldFrom (some said) name ((key, w) :: ms) r := by
  rintro ⟨none, -⟩
  rw [valuesOf_cons_same h] at none
  cases none

theorem fieldFrom_cons_new (h : key.decode? = some name) :
    FieldFrom none name ((key, w) :: ms) r ↔
      ∃ said, Reason w said ∧ FieldFrom (some said) name ms r := by
  constructor
  · intro field
    cases field with
    | absent none =>
        rw [valuesOf_cons_same h] at none
        cases none
    | present one reason =>
        rw [valuesOf_cons_same h, List.cons.injEq] at one
        obtain ⟨rfl, rest⟩ := one
        exact ⟨r, reason, rest, rfl⟩
  · rintro ⟨said, reason, rest, rfl⟩
    refine .present ?_ reason
    rw [valuesOf_cons_same h, rest]

theorem named_cons (h : key.Means name) : Named ((key, w) :: ms) ↔ Named ms := by
  rw [Named, List.forall_mem_cons]
  exact and_iff_right ⟨name, h⟩

theorem ofMembers?_error {blocked : Option (Option String)} (h : key.decode? = some "error") :
    ofMembers? none blocked ((key, w) :: ms) =
      (reason? w).bind fun said => ofMembers? (some said) blocked ms := by
  simp [ofMembers?, h]

theorem ofMembers?_blocked {error : Option (Option String)} (h : key.decode? = some "blocked") :
    ofMembers? error none ((key, w) :: ms) =
      (reason? w).bind fun said => ofMembers? error (some said) ms := by
  simp [ofMembers?, h]

theorem ofMembers?_other {error blocked : Option (Option String)} (h : key.decode? = some name)
    (notError : name ≠ "error") (notBlocked : name ≠ "blocked") :
    ofMembers? error blocked ((key, w) :: ms) = ofMembers? error blocked ms := by
  simp [ofMembers?, h, notError, notBlocked]

/-- A verdict is read from members that can be named and give each field at most once. -/
theorem ofMembers?_eq_some_iff {error blocked : Option (Option String)} :
    ofMembers? error blocked ms = some v ↔
      Named ms ∧ FieldFrom error "error" ms v.error ∧ FieldFrom blocked "blocked" ms v.blocked := by
  induction ms generalizing error blocked with
  | nil =>
      rw [fieldFrom_nil, fieldFrom_nil]
      obtain ⟨e, b⟩ := v
      simp [ofMembers?, Named, eq_comm]
  | cons m ms ih =>
      obtain ⟨key, w⟩ := m
      cases named : key.decode? with
      | none =>
          constructor
          · intro h
            simp [ofMembers?, named] at h
          · rintro ⟨all, -⟩
            obtain ⟨name, means⟩ := all _ List.mem_cons_self
            rw [Literal.decode?_eq_some_iff.2 means] at named
            cases named
      | some name =>
          rw [named_cons (Literal.decode?_eq_some_iff.1 named)]
          by_cases isError : name = "error"
          · subst isError
            have notBlocked : key.decode? ≠ some "blocked" := by simp [named]
            rw [fieldFrom_cons_other notBlocked]
            cases error with
            | some said => simp [ofMembers?, named, not_fieldFrom_cons_seen named]
            | none =>
                rw [fieldFrom_cons_new named, ofMembers?_error named, Option.bind_eq_some_iff]
                simp only [ih, reason?_eq_some_iff]
                constructor
                · rintro ⟨said, reason, rest, here, there⟩
                  exact ⟨rest, ⟨said, reason, here⟩, there⟩
                · rintro ⟨rest, ⟨said, reason, here⟩, there⟩
                  exact ⟨said, reason, rest, here, there⟩
          · have notError : key.decode? ≠ some "error" := by simp [named, isError]
            rw [fieldFrom_cons_other notError]
            by_cases isBlocked : name = "blocked"
            · subst isBlocked
              cases blocked with
              | some said => simp [ofMembers?, named, not_fieldFrom_cons_seen named]
              | none =>
                  rw [fieldFrom_cons_new named, ofMembers?_blocked named, Option.bind_eq_some_iff]
                  simp only [ih, reason?_eq_some_iff]
                  constructor
                  · rintro ⟨said, reason, rest, there, here⟩
                    exact ⟨rest, there, said, reason, here⟩
                  · rintro ⟨rest, there, said, reason, here⟩
                    exact ⟨said, reason, rest, there, here⟩
            · rw [fieldFrom_cons_other (by simp [named, isBlocked]),
                ofMembers?_other named isError isBlocked]
              exact ih

end

/-! ### Verdicts -/

section
variable {j : Value} {v : Verdict} {body : Bytes}

theorem ofJson?_eq_some_iff : ofJson? j = some v ↔ ReadAs j v := by
  cases j with
  | object ms =>
      rw [ofJson?, ofMembers?_eq_some_iff]
      constructor
      · rintro ⟨named, error, blocked⟩
        exact .object named error blocked
      · intro h
        cases h with
        | object named error blocked => exact ⟨named, error, blocked⟩
  | array items =>
      match items with
      | [] =>
          constructor
          · rintro ⟨⟩
            exact .noItems
          · rintro ⟨⟩
            rfl
      | [e] =>
          simp only [ofJson?, Option.map_eq_some_iff, reason?_eq_some_iff]
          constructor
          · rintro ⟨r, error, rfl⟩
            exact .oneItem error
          · intro h
            cases h with
            | oneItem error => exact ⟨_, error, rfl⟩
      | [e, b] =>
          simp only [ofJson?, Option.bind_eq_bind, Option.bind_eq_some_iff, Option.pure_def,
            Option.some.injEq, reason?_eq_some_iff]
          constructor
          · rintro ⟨r, error, s, blocked, rfl⟩
            exact .twoItems error blocked
          · intro h
            cases h with
            | twoItems error blocked => exact ⟨_, error, _, blocked, rfl⟩
      | _ :: _ :: _ :: _ =>
          constructor <;> intro h <;> cases h
  | _ =>
      constructor <;> intro h <;> cases h

/-- A verdict is read from exactly the texts of the values that stand for it. -/
theorem parse?_eq_some_iff :
    Verdict.parse? body = some v ↔ ∃ j, Value.Text j body ∧ ReadAs j v := by
  rw [Verdict.parse?, Option.bind_eq_some_iff]
  simp only [Json.parse?_eq_some_iff, ofJson?_eq_some_iff]

theorem field_none_iff {name : String} {ms : List (Literal × Value)} :
    Field name ms none ↔ valuesOf name ms = [] ∨ valuesOf name ms = [.null] := by
  constructor
  · intro h
    cases h with
    | absent none => exact .inl none
    | present one reason =>
        rw [reason_none_iff.1 reason] at one
        exact .inr one
  · rintro (none | one)
    · exact .absent none
    · exact .present one .null

/-- The values that stand for a verdict without a reason. -/
theorem readAs_allow_iff : ReadAs j {} ↔ Silent j := by
  constructor
  · intro h
    cases h with
    | object named error blocked =>
        exact .object named (field_none_iff.1 error) (field_none_iff.1 blocked)
    | noItems => exact .array (by simp) (by simp)
    | oneItem error =>
        rw [reason_none_iff.1 error]
        exact .array (by simp) (by simp)
    | twoItems error blocked =>
        rw [reason_none_iff.1 error, reason_none_iff.1 blocked]
        exact .array (by simp) (by simp)
  · intro h
    cases h with
    | object named error blocked =>
        exact .object named (field_none_iff.2 error) (field_none_iff.2 blocked)
    | @array items few null =>
        match items, few with
        | [], _ => exact .noItems
        | [e], _ =>
            obtain rfl := null e (by simp)
            exact .oneItem .null
        | [e, b], _ =>
            obtain rfl := null e (by simp)
            obtain rfl := null b (by simp)
            exact .twoItems .null .null
        | _ :: _ :: _ :: _, few => simp at few

/-- An object with a member that gives a value other than null to a field is not silent: if it
stands for a verdict, that gives a reason. -/
theorem denial_of_refuses {ms : List (Literal × Value)} (read : ReadAs (.object ms) v)
    {m : Literal × Value} (mem : m ∈ ms) (refuses : Refuses m) :
    ∃ reason, v.denial = some reason ∧ (Field "blocked" ms (some reason) ∨
      Field "blocked" ms none ∧ Field "error" ms (some reason)) := by
  -- A field that was read as giving no reason has no value but null.
  have notNone {name : String} (means : m.1.Means name) : ¬Field name ms none := by
    intro field
    have given : m.2 ∈ valuesOf name ms := mem_valuesOf_iff.2 ⟨m.1, mem, means⟩
    rcases field_none_iff.1 field with none | null
    · rw [none] at given
      cases given
    · rw [null, List.mem_singleton] at given
      exact refuses.2 given
  cases read with
  | object named error blocked =>
      rw [denial]
      cases hb : v.blocked with
      | some reason =>
          rw [hb] at blocked
          exact ⟨reason, rfl, .inl blocked⟩
      | none =>
          rw [hb] at blocked
          cases he : v.error with
          | some reason =>
              rw [he] at error
              exact ⟨reason, rfl, .inr ⟨blocked, error⟩⟩
          | none =>
              rw [he] at error
              rcases refuses.1 with isError | isBlocked
              · exact absurd error (notNone isError)
              · exact absurd blocked (notNone isBlocked)

end

end ForgeGateway.Approval.Verdict
