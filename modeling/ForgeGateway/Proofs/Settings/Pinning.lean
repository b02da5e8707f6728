import ForgeGateway.HostPins
import ForgeGateway.Proofs.Settings.Deadlines
import Mathlib.Data.List.Induction
import Mathlib.Data.List.Nodup

/-! # Pins in any order

The entries of a map of pins are put in place one after the other, in an order that nothing fixes.
An entry changes what is said about one host only, and of several entries for one host the last one
counts (`find?_withOverrides`).  The entries of a map have different names, but names that differ
in case alone are for one host, and each of their entries can be the last (`exists_order`).
`pins_in_any_order` is the main theorem: the order makes no difference exactly where all entries for
a host agree.  Accepted settings need not be of this kind (`answer_depends_on_order`). -/

namespace ForgeGateway

namespace HostPins

/-- The lists that the entries for a host give, one after the other. -/
def listed (overrides : List (String × List String)) (host : String) : List (List String) :=
  (overrides.filter fun o => Text.lowered o.1 = Text.lowered host).map (·.2)

/-- All entries for a host say the same about a fingerprint. -/
def Agree (overrides : List (String × List String)) (host fingerprint : String) : Prop :=
  ∀ l ∈ listed overrides host, ∀ l' ∈ listed overrides host, fingerprint ∈ l → fingerprint ∈ l'

section
variable {overrides order : List (String × List String)} {host fingerprint : String}
  {l : List String}

/-! ### The entries for a host -/

theorem mem_listed_iff : l ∈ listed overrides host ↔
    ∃ name, (name, l) ∈ overrides ∧ Text.lowered name = Text.lowered host := by
  simp [listed]

theorem listed_append (front back : List (String × List String)) :
    listed (front ++ back) host = listed front host ++ listed back host := by
  simp [listed]

theorem listed_perm (h : order.Perm overrides) :
    (listed order host).Perm (listed overrides host) :=
  (h.filter _).map _

theorem mem_listed_perm (h : order.Perm overrides) :
    l ∈ listed order host ↔ l ∈ listed overrides host :=
  (listed_perm h).mem_iff

/-- Each list for a host can be the last. -/
theorem exists_order (h : l ∈ listed overrides host) :
    ∃ order, order.Perm overrides ∧ (listed order host).getLast? = some l := by
  obtain ⟨name, entry, same⟩ := mem_listed_iff.1 h
  refine ⟨overrides.erase (name, l) ++ [(name, l)], ?_, ?_⟩
  · exact List.perm_append_singleton _ _ |>.trans (List.perm_cons_erase entry).symm
  · simp [listed, same]

theorem agree_of_names (names : (overrides.map (·.1)).Nodup)
    (apart : ∀ p ∈ overrides, ∀ q ∈ overrides, Text.lowered p.1 = Text.lowered q.1 → p.1 = q.1) :
    Agree overrides host fingerprint := by
  intro l hl l' hl' member
  obtain ⟨name, entry, same⟩ := mem_listed_iff.1 hl
  obtain ⟨name', entry', same'⟩ := mem_listed_iff.1 hl'
  have one := apart _ entry _ entry' (same.trans same'.symm)
  have equal := List.inj_on_of_nodup_map names entry entry' one
  rw [← (Prod.mk.inj equal).2]
  exact member

/-! ### What is pinned -/

theorem find?_pin (pins : HostPins) (name : String) (l : List String) :
    (pins.pin name l).find? host =
      if Text.lowered name = Text.lowered host then some l else pins.find? host := by
  unfold find? pin
  rw [List.lookup_cons]
  by_cases same : Text.lowered name = Text.lowered host
  · simp [same]
  · simp [same, beq_false_of_ne (Ne.symm same)]

/-- The last entry for a host counts, and the built-in table if there is none. -/
theorem find?_withOverrides (overrides : List (String × List String)) (host : String) :
    (withOverrides overrides).find? host =
      ((listed overrides host).getLast?).or (builtin.find? host) := by
  induction overrides using List.reverseRecOn with
  | nil => rfl
  | append_singleton front entry ih =>
      have step : withOverrides (front ++ [entry]) =
          (withOverrides front).pin entry.1 entry.2 := by
        simp [withOverrides]
      rw [step, find?_pin, ih, listed_append]
      by_cases same : Text.lowered entry.1 = Text.lowered host
      · simp [listed, same]
      · simp [listed, same]

theorem verify_withOverrides (overrides : List (String × List String))
    (host fingerprint : String) :
    (withOverrides overrides).verify host fingerprint =
      match (listed overrides host).getLast? with
      | some l => l.contains fingerprint
      | none => builtin.verify host fingerprint := by
  rw [verify, find?_withOverrides]
  cases (listed overrides host).getLast? <;> rfl

/-- Where all entries agree, any of them decides, and the built-in table if there is none. -/
theorem Agree.verify_iff (agree : Agree overrides host fingerprint) (h : order.Perm overrides) :
    (withOverrides order).verify host fingerprint = true ↔
      (∃ l ∈ listed overrides host, fingerprint ∈ l) ∨
        (listed overrides host = [] ∧ builtin.verify host fingerprint = true) := by
  rw [verify_withOverrides]
  cases last : (listed order host).getLast? with
  | none =>
      rw [List.getLast?_eq_none_iff] at last
      have empty : listed overrides host = [] := (last ▸ listed_perm h).nil_eq.symm
      simp [empty]
  | some l =>
      have member : l ∈ listed overrides host :=
        (mem_listed_perm h).1 (List.mem_of_getLast? last)
      have nonempty : listed overrides host ≠ [] := List.ne_nil_of_mem member
      rw [List.contains_iff_mem]
      constructor
      · exact fun inside => .inl ⟨l, member, inside⟩
      · rintro (⟨l', member', inside⟩ | ⟨empty, -⟩)
        · exact agree l' member' l member inside
        · exact absurd empty nonempty

/-- The order makes no difference to an answer exactly if all entries agree on it. -/
theorem agree_iff : Agree overrides host fingerprint ↔ ∀ order, order.Perm overrides →
    (withOverrides order).verify host fingerprint =
      (withOverrides overrides).verify host fingerprint := by
  constructor
  · intro agree order h
    rw [Bool.eq_iff_iff, agree.verify_iff h, agree.verify_iff (.refl _)]
  · intro same l hl l' hl' inside
    obtain ⟨order, perm, last⟩ := exists_order hl
    obtain ⟨order', perm', last'⟩ := exists_order hl'
    have answers := (same order perm).trans (same order' perm').symm
    simp only [verify_withOverrides, last, last'] at answers
    rwa [← List.contains_iff_mem, ← answers, List.contains_iff_mem]

theorem isKnown_withOverrides (h : order.Perm overrides) :
    (withOverrides order).isKnown host = true ↔
      listed overrides host ≠ [] ∨ builtin.isKnown host = true := by
  have empty_iff : listed order host = [] ↔ listed overrides host = [] := by
    rw [← List.length_eq_zero_iff, (listed_perm h).length_eq, List.length_eq_zero_iff]
  rw [isKnown, find?_withOverrides, Option.isSome_or, Bool.or_eq_true, ← Option.ne_none_iff_isSome,
    ne_eq, List.getLast?_eq_none_iff, empty_iff]
  rfl

theorem verify_of_not_isKnown {pins : HostPins} (h : pins.isKnown host = false) :
    pins.verify host fingerprint = false := by
  rw [isKnown, Option.isSome_eq_false_iff, Option.isNone_iff_eq_none] at h
  rw [verify, h]

theorem find?_insert (front back : List (String × List String)) {entry : String × List String}
    (other : Text.lowered entry.1 ≠ Text.lowered host) :
    (withOverrides (front ++ entry :: back)).find? host =
      (withOverrides (front ++ back)).find? host := by
  have same : listed (front ++ entry :: back) host = listed (front ++ back) host := by
    simp [listed, other]
  rw [find?_withOverrides, find?_withOverrides, same]

end

end HostPins

/-! ### The pins of accepted settings -/

/-- A host that comes again replaces the one before, so no name is left twice. -/
theorem names_of_node {n : Yaml.Node} {pins : List (String × List String)}
    (read : pinsOfNode? n = some pins) : (pins.map (·.1)).Nodup := by
  have replaced : ∀ entries kept : List (String × List String), (kept.map (·.1)).Nodup →
      ((entries.foldl (fun ps p => ps.filter (·.1 ≠ p.1) ++ [p]) kept).map (·.1)).Nodup := by
    intro entries
    induction entries with
    | nil => exact fun _ => id
    | cons p entries ih =>
        intro kept names
        refine ih _ ?_
        have rest : ((kept.filter (·.1 ≠ p.1)).map (·.1)).Nodup :=
          names.sublist (List.filter_sublist.map _)
        rw [List.map_append, List.nodup_append]
        exact ⟨rest, List.nodup_singleton _, by simp⟩
  simp only [pinsOfNode?, Option.bind_eq_bind, Option.bind_eq_some_iff, Option.pure_def,
    Option.some.injEq] at read
  obtain ⟨entries, -, lists, -, rfl⟩ := read
  exact replaced lists [] List.nodup_nil

namespace Settings

/-- The names in accepted settings are different, as they are written. -/
theorem names_of_load {path : String} {contents : Option String} {s : Settings}
    (loaded : load path contents = .ok s) : (s.pins.map (·.1)).Nodup := by
  obtain ⟨text, -, read, -⟩ := load_eq_ok_iff.1 loaded
  obtain ⟨r, -, given⟩ := exists_fields read
  rcases of_getD? given with ⟨node, given⟩ | default
  · exact names_of_node given
  · rw [default]
    exact List.nodup_nil

end Settings

/-! ### The main theorem -/

open HostPins

/-- **Pins in any order.**  Take a map of pins, as that of accepted settings is
(`Settings.names_of_load`), and put its entries in place in any order.  The order makes no
difference to whether a fingerprint verifies for a host exactly if all entries for the host, with
names compared without case, agree about it; they do where no two names differ in case alone.  Then
the fingerprint verifies exactly if it is listed for the host, or is in the built-in table where the
map has no entry for the host.  A host is pinned exactly if it has an entry or a place in the
built-in table, and otherwise never verifies; and in no order does an entry make a difference for
another host. -/
theorem pins_in_any_order {overrides : List (String × List String)}
    (names : (overrides.map (·.1)).Nodup) (host fingerprint : String) :
    (Agree overrides host fingerprint ↔ ∀ order, order.Perm overrides →
      (withOverrides order).verify host fingerprint =
        (withOverrides overrides).verify host fingerprint) ∧
    ((∀ p ∈ overrides, ∀ q ∈ overrides, Text.lowered p.1 = Text.lowered q.1 → p.1 = q.1) →
      Agree overrides host fingerprint) ∧
    ∀ order, order.Perm overrides →
      (Agree overrides host fingerprint →
        ((withOverrides order).verify host fingerprint = true ↔
          (∃ l ∈ listed overrides host, fingerprint ∈ l) ∨
            (listed overrides host = [] ∧ builtin.verify host fingerprint = true))) ∧
      ((withOverrides order).isKnown host = true ↔
        listed overrides host ≠ [] ∨ builtin.isKnown host = true) ∧
      ((withOverrides order).isKnown host = false →
        (withOverrides order).verify host fingerprint = false) ∧
      ∀ front entry back, order = front ++ entry :: back →
        Text.lowered entry.1 ≠ Text.lowered host →
        (withOverrides order).find? host = (withOverrides (front ++ back)).find? host := by
  refine ⟨agree_iff, agree_of_names names, ?_⟩
  intro order perm
  refine ⟨fun agree => agree.verify_iff perm, isKnown_withOverrides perm, verify_of_not_isKnown, ?_⟩
  rintro front entry back rfl other
  exact find?_insert front back other

/-- Two entries, one of them for a host of the built-in table. -/
def sampleOverrides : List (String × List String) :=
  [("github.com", ["SHA256:rotated"]), ("Git.Example.com", ["SHA256:internal"])]

/-- In any order the first replaces what was built in, and the second is for its host. -/
theorem pins_in_any_order_sample :
    (sampleOverrides.map (·.1)).Nodup ∧ ∀ order, order.Perm sampleOverrides →
      (withOverrides order).verify "git.example.com" "SHA256:internal" = true ∧
      (withOverrides order).verify "GitHub.com" "SHA256:rotated" = true ∧
      (withOverrides order).verify "github.com"
        "SHA256:+DiY3wvvV6TuJJhbpZisF/zLDA0zPMSvHdkr4UvCOqU" = false := by
  have names : (sampleOverrides.map (·.1)).Nodup := by decide
  have apart : ∀ p ∈ sampleOverrides, ∀ q ∈ sampleOverrides,
      Text.lowered p.1 = Text.lowered q.1 → p.1 = q.1 := by decide
  refine ⟨names, fun order perm => ?_⟩
  have answer : ∀ host fingerprint, (withOverrides order).verify host fingerprint = true ↔
      (∃ l ∈ listed sampleOverrides host, fingerprint ∈ l) ∨
        (listed sampleOverrides host = [] ∧ builtin.verify host fingerprint = true) := by
    intro host fingerprint
    obtain ⟨-, agree, answers⟩ := pins_in_any_order names host fingerprint
    exact (answers order perm).1 (agree apart)
  refine ⟨(answer _ _).2 (by decide), (answer _ _).2 (by decide), ?_⟩
  rw [← Bool.not_eq_true, answer]
  decide

/-- Settings with two names for one host. -/
def ambiguousSettings : String :=
  "identity_store:\n  path: users\napproval:\n  url: gate\nknown_hosts:\n" ++
    "  Git.Example.com: [\"SHA256:a\"]\n  git.example.com: [\"SHA256:b\"]\n"

theorem load_ambiguousSettings : Settings.load "settings" (some ambiguousSettings) = .ok {
    identityPath := "users", gate := { url := "gate" },
    pins := [("Git.Example.com", ["SHA256:a"]), ("git.example.com", ["SHA256:b"])] } := by
  rw [Settings.load_eq_ok_iff]
  exact ⟨_, rfl, by decide +kernel, by decide +kernel⟩

/-- Both orders of the entries of these accepted settings are possible, and a key verifies in one
of them only. -/
theorem answer_depends_on_order : ∃ (s : Settings) (order : List (String × List String)),
    Settings.load "settings" (some ambiguousSettings) = .ok s ∧ order.Perm s.pins ∧
    (withOverrides s.pins).verify "git.example.com" "SHA256:b" = true ∧
    (withOverrides order).verify "git.example.com" "SHA256:b" = false :=
  ⟨_, [("git.example.com", ["SHA256:b"]), ("Git.Example.com", ["SHA256:a"])],
    load_ambiguousSettings, .swap _ _ _, by decide, by decide⟩

end ForgeGateway
