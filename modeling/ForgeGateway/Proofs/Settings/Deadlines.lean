import ForgeGateway.Settings.Reading

/-! # The lengths of time of accepted settings

Settings are loaded if they are read and checked (`Settings.load_eq_ok_iff`), and a part of them is
read from its field or is a default (`Settings.exists_fields`, `Settings.of_getD?`).  They are
admitted with any lengths of time that are numbers of seconds of the right size and are not zero
(`Settings.deadlines_of_load`): the size is what the reading of a number bounds, and that they are
not zero is what is checked afterwards.  No other bound is set. -/

namespace ForgeGateway

/-- All lengths of time that a command, a session or its agent is given. -/
def Deadlines.all (d : Deadlines) : List Nat :=
  [d.session, d.agentRequest, d.agentChannelOpen, d.capabilityPrefetch, d.pushCapture,
    d.forgeConnect]

namespace Settings

section
variable {s : Settings}

theorem positive_eq_ok_iff {name : String} {n : Nat} : positive name n = .ok () ↔ 0 < n := by
  unfold positive
  split <;> simp <;> omega

/-- A check passes before another one exactly if both pass. -/
theorem check_bind_eq_ok_iff {a b : Except SettingsFault Unit} :
    (a >>= fun _ => b) = .ok () ↔ a = .ok () ∧ b = .ok () := by
  cases a with
  | error fault => exact ⟨nofun, fun h => nomatch h.1⟩
  | ok => exact ⟨fun h => ⟨rfl, h⟩, And.right⟩

theorem deadlines_of_validate (valid : s.validate = .ok ()) : ∀ n ∈ s.deadlines.all, 0 < n := by
  unfold validate at valid
  simp only [check_bind_eq_ok_iff, positive_eq_ok_iff] at valid
  obtain ⟨-, -, -, -, -, session, request, opening, prefetch, capture, connect, -⟩ := valid
  simp only [Deadlines.all, List.forall_mem_cons]
  exact ⟨session, request, opening, prefetch, capture, connect, nofun⟩

/-- A field is what its node is read as, or its default where there is none. -/
theorem of_getD? {α : Type} {r : Yaml.Record} {name : String} {read : Yaml.Node → Option α}
    {default a : α} (given : r.getD? name read default = some a) :
    (∃ node, read node = some a) ∨ a = default := by
  unfold Yaml.Record.getD? at given
  split at given
  next node _ => exact .inl ⟨node, given⟩
  next => exact .inr (Option.some.inj given).symm

theorem getD?_natural?_lt {r : Yaml.Record} {name : String} {bound default n : Nat}
    (read : r.getD? name (Yaml.Node.natural? bound) default = some n) (small : default < bound) :
    n < bound := by
  rcases of_getD? read with ⟨node, read⟩ | rfl
  · unfold Yaml.Node.natural? at read
    split at read
    next =>
      split at read
      next => exact of_decide_eq_true (Option.filter_eq_some_iff.1 read).2
      next => cases read
    next => cases read
  · exact small

theorem deadlines_of_node {n : Yaml.Node} {d : Deadlines} (read : Deadlines.ofNode? n = some d) :
    ∀ n ∈ d.all, n < wordBound := by
  simp only [Deadlines.ofNode?, Option.bind_eq_bind, Option.bind_eq_some_iff, Option.pure_def,
    Option.some.injEq] at read
  obtain ⟨r, -, session, h₁, request, h₂, opening, h₃, prefetch, h₄, capture, h₅, connect, h₆,
    rfl⟩ := read
  simp only [Deadlines.all, List.forall_mem_cons]
  exact ⟨getD?_natural?_lt h₁ (by decide), getD?_natural?_lt h₂ (by decide),
    getD?_natural?_lt h₃ (by decide), getD?_natural?_lt h₄ (by decide),
    getD?_natural?_lt h₅ (by decide), getD?_natural?_lt h₆ (by decide), nofun⟩

/-- Where the lengths of time and the pins of settings come from. -/
theorem exists_fields {text : String} (read : ofText? text = some s) : ∃ r : Yaml.Record,
    r.getD? "timeouts" Deadlines.ofNode? {} = some s.deadlines ∧
      r.getD? "known_hosts" pinsOfNode? [] = some s.pins := by
  obtain ⟨node, -, read⟩ := Option.bind_eq_some_iff.1 read
  simp only [ofNode?, Option.bind_eq_bind, Option.bind_eq_some_iff, Option.pure_def,
    Option.some.injEq] at read
  obtain ⟨r, -, _, -, _, -, _, -, _, -, _, -, _, deadlines, _, -, _, pins, rfl⟩ := read
  exact ⟨r, deadlines, pins⟩

theorem deadlines_of_text {text : String} (read : ofText? text = some s) :
    ∀ n ∈ s.deadlines.all, n < wordBound := by
  obtain ⟨r, given, -⟩ := exists_fields read
  rcases of_getD? given with ⟨node, given⟩ | default
  · exact deadlines_of_node given
  · rw [default]
    decide

theorem load_eq_ok_iff {path : String} {contents : Option String} : load path contents = .ok s ↔
    ∃ text, contents = some text ∧ ofText? text = some s ∧ s.validate = .ok () := by
  constructor
  · intro loaded
    unfold load at loaded
    split at loaded
    next => cases loaded
    next text =>
      split at loaded
      next => cases loaded
      next s' read =>
        split at loaded
        next => cases loaded
        next valid =>
          cases loaded
          exact ⟨text, rfl, read, valid⟩
  · rintro ⟨text, rfl, read, valid⟩
    simp only [load, read, valid]

/-- An accepted length of time is any positive number of sixty-four bits. -/
theorem deadlines_of_load {path : String} {contents : Option String}
    (loaded : load path contents = .ok s) : ∀ n ∈ s.deadlines.all, 0 < n ∧ n < wordBound := by
  obtain ⟨text, -, read, valid⟩ := load_eq_ok_iff.1 loaded
  intro n member
  exact ⟨deadlines_of_validate valid n member, deadlines_of_text read n member⟩

end

end Settings

end ForgeGateway
