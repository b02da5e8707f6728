import ForgeGateway.Identity.File
import ForgeGateway.Proofs.Identity.KeyLine

/-! # Who owns a key

A store is made by going through the lines of all users, and what is compared on the way are the
wire texts of keys.  These stand for the keys themselves, so a store `Knows` whose line carries a
key; a line that cannot be read, or carries a key that an earlier one carries, ends it.  One step
says what each line does (`Knows.assign`), and `judged_foldlM` takes it over the lines of a user and
over the users.  `keys_have_owners` is the main theorem: the store of a list of users
exists exactly if the list is `Sound`, and then it finds the owner of every key. -/

namespace ForgeGateway.Identity

def linesOf (entries : List Entry) : List (User × String) :=
  entries.flatMap fun e => e.keyLines.map fun line => (e.user, line)

/-- One of the user's lines carries this key. -/
def Entry.Lists (e : Entry) (blob : Bytes) : Prop := ∃ line ∈ e.keyLines, Carries line blob

/-- The lines carry no key in common. -/
def Apart (p q : User × String) : Prop := ∀ blob, Carries p.2 blob → ¬Carries q.2 blob

/-- Every line can be read, and no two of them carry the same key. -/
structure Sound (lines : List (User × String)) : Prop where
  read : ∀ p ∈ lines, ∃ wire, parseKeyLine p.2 = .ok wire
  apart : lines.Pairwise Apart

/-- The store is made of these lines: they are sound, and what is found in it is what is read from
one of them. -/
structure Knows (s : Store) (lines : List (User × String)) : Prop where
  sound : Sound lines
  owner : ∀ wire user, s.find? wire = some user ↔
    ∃ p ∈ lines, p.1 = user ∧ parseKeyLine p.2 = .ok wire

/-- What may become of these lines: their store, or a refusal if they are not sound. -/
def Judged (lines : List (User × String)) : Except StoreFault Store → Prop
  | .ok s => Knows s lines
  | .error _ => ¬Sound lines

section
variable {s : Store} {lines more : List (User × String)} {user : User} {line wire : String}

theorem Sound.front (h : Sound (lines ++ more)) : Sound lines :=
  ⟨fun p hp => h.read p (List.mem_append_left more hp), (List.pairwise_append.1 h.apart).1⟩

theorem Knows.find?_iff (h : Knows s lines) :
    s.find? wire = some user ↔
      ∃ blob, Key.wireText blob = .ok wire ∧ ∃ p ∈ lines, p.1 = user ∧ Carries p.2 blob := by
  rw [h.owner]
  constructor
  · rintro ⟨p, hp, owner, read⟩
    obtain ⟨blob, carries, written⟩ := exists_carried read
    exact ⟨blob, written, p, hp, owner, carries⟩
  · rintro ⟨blob, written, p, hp, owner, carries⟩
    obtain ⟨wire', read⟩ := h.sound.read p hp
    have same := written.symm.trans (wireText_of_carries read carries)
    exact ⟨p, hp, owner, Except.ok.inj same ▸ read⟩

/-- The key on a line is nobody's yet exactly if no line carries it. -/
theorem Knows.find?_eq_none_iff (h : Knows s lines) (read : parseKeyLine line = .ok wire) :
    s.find? wire = none ↔ ∀ p ∈ lines, Apart p (user, line) := by
  constructor
  · intro none p hp blob carried carried'
    have found := h.find?_iff.2 ⟨blob, wireText_of_carries read carried', p, hp, rfl, carried⟩
    rw [none] at found
    cases found
  · intro apart
    rw [Option.eq_none_iff_forall_ne_some]
    intro owner found
    obtain ⟨blob, written, p, hp, -, carried⟩ := h.find?_iff.1 found
    exact apart p hp blob carried ((carries_iff read).2 written)

theorem find?_cons (s : Store) (wire wire' : String) (user : User) :
    Store.find? { s with owners := (wire, user) :: s.owners } wire' =
      if wire = wire' then some user else s.find? wire' := by
  unfold Store.find?
  rw [List.lookup_cons]
  by_cases same : wire = wire'
  · simp [same]
  · simp [same, beq_false_of_ne (Ne.symm same)]

theorem Knows.take (h : Knows s lines) (read : parseKeyLine line = .ok wire)
    (fresh : s.find? wire = none) :
    Knows { s with owners := (wire, user) :: s.owners } (lines ++ [(user, line)]) := by
  have apart : ∀ p ∈ lines, Apart p (user, line) := (h.find?_eq_none_iff read).1 fresh
  refine ⟨⟨?_, ?_⟩, ?_⟩
  · rw [List.forall_mem_append]
    exact ⟨h.sound.read, by simp [read]⟩
  · rw [List.pairwise_append]
    exact ⟨h.sound.apart, List.pairwise_singleton _ _, by simpa using apart⟩
  · intro wire' user'
    have last : (∃ p ∈ lines ++ [(user, line)], p.1 = user' ∧ parseKeyLine p.2 = .ok wire') ↔
        s.find? wire' = some user' ∨ (user = user' ∧ wire = wire') := by
      rw [h.owner]
      simp [or_and_right, exists_or, read]
    rw [last, find?_cons]
    by_cases same : wire = wire'
    · subst same
      simp [fresh]
    · simp [same]

/-- A line that cannot be read, or whose key is known, is refused; any other one is taken in. -/
theorem Knows.assign (h : Knows s lines) (user : User) (line : String) :
    Judged (lines ++ [(user, line)]) (s.assign user line) := by
  cases read : parseKeyLine line with
  | error fault =>
      have refused : s.assign user line = .error (.badKey user.username fault) := by
        simp only [Store.assign, read]
      rw [refused]
      intro sound
      obtain ⟨wire, ok⟩ := sound.read (user, line) (by simp)
      rw [read] at ok
      cases ok
  | ok wire =>
      cases found : s.find? wire with
      | some owner =>
          have refused : s.assign user line = .error (.shared user.username owner.username) := by
            simp only [Store.assign, read, found]
          rw [refused]
          intro sound
          have apart := (List.pairwise_append.1 sound.apart).2.2
          have fresh : s.find? wire = none :=
            (h.find?_eq_none_iff read).2 fun p hp => apart p hp (user, line) (by simp)
          rw [found] at fresh
          cases fresh
      | none =>
          have taken : s.assign user line =
              .ok { s with owners := (wire, user) :: s.owners } := by
            simp only [Store.assign, read, found]
          rw [taken]
          exact h.take read found

theorem Judged.bind {r : Except StoreFault Store} {f : Store → Except StoreFault Store}
    (h : Judged lines r) (next : ∀ s, Knows s lines → Judged (lines ++ more) (f s)) :
    Judged (lines ++ more) (r >>= f) := by
  cases r with
  | error fault => exact fun sound => h sound.front
  | ok s => exact next s h

/-- What one step does to the lines it is given, all of them do together. -/
theorem judged_foldlM {α : Type} {given : α → List (User × String)}
    {step : Store → α → Except StoreFault Store}
    (one : ∀ s before a, Knows s before → Judged (before ++ given a) (step s a)) (as : List α)
    (h : Knows s lines) : Judged (lines ++ as.flatMap given) (as.foldlM step s) := by
  induction as generalizing s lines with
  | nil =>
      rw [List.flatMap_nil, List.append_nil]
      exact h
  | cons a as ih =>
      rw [List.flatMap_cons, ← List.append_assoc, List.foldlM_cons]
      exact (one s lines a h).bind fun s' h' => ih h'

theorem Knows.enrol (h : Knows s lines) (e : Entry) :
    Judged (lines ++ e.keyLines.map fun line => (e.user, line)) (s.enrol e) := by
  have counted : Knows { s with userCount := s.userCount + 1 } lines := ⟨h.sound, h.owner⟩
  rw [← List.flatMap_singleton' (e.keyLines.map _), List.flatMap_map]
  exact judged_foldlM (fun s before line known => known.assign e.user line) e.keyLines counted

end

theorem knows_empty : Knows {} [] :=
  ⟨⟨nofun, .nil⟩, by simp [Store.find?]⟩

/-- What becomes of a list of users. -/
theorem judged_ofEntries (entries : List Entry) :
    Judged (linesOf entries) (Store.ofEntries entries) :=
  judged_foldlM (fun _ _ e known => known.enrol e) entries knows_empty

theorem ofText_eq_ok_iff {text : String} {s : Store} : Store.ofText text = .ok s ↔
    ∃ entries, entriesOfText? text = some entries ∧ Store.ofEntries entries = .ok s := by
  unfold Store.ofText
  cases entriesOfText? text with
  | none => simp
  | some entries => cases made : Store.ofEntries entries <;> simp [made]

theorem exists_line_iff {entries : List Entry} {user : User} {blob : Bytes} :
    (∃ p ∈ linesOf entries, p.1 = user ∧ Carries p.2 blob) ↔
      ∃ e ∈ entries, e.user = user ∧ e.Lists blob := by
  constructor
  · rintro ⟨p, hp, owner, carries⟩
    obtain ⟨e, he, hp⟩ := List.mem_flatMap.1 hp
    obtain ⟨line, hline, rfl⟩ := List.mem_map.1 hp
    exact ⟨e, he, owner, line, hline, carries⟩
  · rintro ⟨e, he, owner, line, hline, carries⟩
    exact ⟨(e.user, line), List.mem_flatMap.2 ⟨e, he, List.mem_map.2 ⟨line, hline, rfl⟩⟩, owner,
      carries⟩

theorem Sound.entries {entries : List Entry} (h : Sound (linesOf entries)) :
    entries.Pairwise fun e e' => ∀ blob, e.Lists blob → ¬e'.Lists blob := by
  refine (List.pairwise_flatMap.1 h.apart).2.imp ?_
  rintro e e' apart blob ⟨line, hline, carries⟩ ⟨line', hline', carries'⟩
  exact apart _ (List.mem_map_of_mem hline) _ (List.mem_map_of_mem hline') blob carries carries'

/-! ### The main theorem -/

/-- **The owners of keys.**  A list of users has a store exactly if every line can be read and no
two lines, of one user or of several, carry the same key; a text gives the store of the users it
lists.
In the store the wire text of a key finds the user of the entry that has a line with this key,
whatever else stands on that line and wherever it comes; it finds nobody if there is none, and so
does what is no wire text.  No two keys have the same wire text, and no two entries list the same
key, so a key has one owner at most. -/
theorem keys_have_owners (entries : List Entry) :
    ((∃ s, Store.ofEntries entries = .ok s) ↔ Sound (linesOf entries)) ∧
    (∀ text, entriesOfText? text = some entries →
      ∀ s, Store.ofText text = .ok s ↔ Store.ofEntries entries = .ok s) ∧
    (∀ blob blob' wire, Key.wireText blob = .ok wire → Key.wireText blob' = .ok wire →
      blob = blob') ∧
    ∀ s, Store.ofEntries entries = .ok s →
      (∀ blob wire, Key.wireText blob = .ok wire →
        (∀ user, s.find? wire = some user ↔ ∃ e ∈ entries, e.user = user ∧ e.Lists blob) ∧
        (s.find? wire = none ↔ ∀ e ∈ entries, ¬e.Lists blob)) ∧
      (∀ wire, (∀ blob, Key.wireText blob ≠ .ok wire) → s.find? wire = none) ∧
      entries.Pairwise fun e e' => ∀ blob, e.Lists blob → ¬e'.Lists blob := by
  have judged := judged_ofEntries entries
  refine ⟨?accepted, ?text, fun _ _ _ => Key.wireText_inj, ?found⟩
  case accepted =>
    cases made : Store.ofEntries entries with
    | error fault =>
        rw [made] at judged
        exact ⟨nofun, fun sound => absurd sound judged⟩
    | ok s =>
        rw [made] at judged
        exact ⟨fun _ => judged.sound, fun _ => ⟨s, rfl⟩⟩
  case text =>
    intro text lists s
    simp [ofText_eq_ok_iff, lists]
  case found =>
    intro s made
    rw [made] at judged
    have known : Knows s (linesOf entries) := judged
    have owner : ∀ blob wire, Key.wireText blob = .ok wire → ∀ user,
        s.find? wire = some user ↔ ∃ e ∈ entries, e.user = user ∧ e.Lists blob := by
      intro blob wire written user
      rw [known.find?_iff, ← exists_line_iff]
      constructor
      · rintro ⟨blob', written', line⟩
        rw [Key.wireText_inj written written']
        exact line
      · exact fun line => ⟨blob, written, line⟩
    refine ⟨?_, ?_, known.sound.entries⟩
    · intro blob wire written
      refine ⟨owner blob wire written, ?_⟩
      rw [Option.eq_none_iff_forall_ne_some]
      constructor
      · intro none e he listed
        exact none e.user ((owner blob wire written e.user).2 ⟨e, he, rfl, listed⟩)
      · intro none user found
        obtain ⟨e, he, -, listed⟩ := (owner blob wire written user).1 found
        exact none e he listed
    · intro wire strange
      rw [Option.eq_none_iff_forall_ne_some]
      intro user found
      obtain ⟨blob, written, -⟩ := known.find?_iff.1 found
      exact strange blob written

/-- Two users with a key each. -/
def sampleText : String :=
  "users:\n- {username: al, email: a@x, account: alice, public_keys: [a AAAAAWE= laptop]}\n" ++
    "- {username: bo, email: b@x, account: bob, public_keys: [b   AAAAAWI=]}\n"

def sampleEntries : List Entry := [
  ⟨⟨"al", "a@x", "alice"⟩, ["a AAAAAWE= laptop"]⟩,
  ⟨⟨"bo", "b@x", "bob"⟩, ["b   AAAAAWI="]⟩]

/-- Both are found by their keys. -/
theorem keys_have_owners_sample : entriesOfText? sampleText = some sampleEntries ∧
    ∃ s, Store.ofText sampleText = .ok s ∧
      s.find? "a AAAAAWE=" = some ⟨"al", "a@x", "alice"⟩ ∧
      s.find? "b AAAAAWI=" = some ⟨"bo", "b@x", "bob"⟩ ∧
      s.find? "c AAAAAWM=" = none := by
  have lists : entriesOfText? sampleText = some sampleEntries := by decide +kernel
  have made : ∃ s, Store.ofEntries sampleEntries = .ok s := ⟨_, rfl⟩
  obtain ⟨-, text, -, found⟩ := keys_have_owners sampleEntries
  obtain ⟨s, made⟩ := made
  obtain ⟨owner, -, -⟩ := found s made
  have first : Carries "a AAAAAWE= laptop" [0, 0, 0, 1, 97] := ⟨_, _, _, rfl, by decide +kernel⟩
  have second : Carries "b   AAAAAWI=" [0, 0, 0, 1, 98] := ⟨_, _, _, rfl, by decide +kernel⟩
  refine ⟨lists, s, (text sampleText lists s).2 made, ?_, ?_, ?_⟩
  · exact ((owner _ _ rfl).1 _).2 ⟨_, List.mem_cons_self, rfl, _, List.mem_cons_self, first⟩
  · exact ((owner _ _ rfl).1 _).2
      ⟨_, List.mem_cons_of_mem _ List.mem_cons_self, rfl, _, List.mem_cons_self, second⟩
  · refine (owner [0, 0, 0, 1, 99] _ rfl).2.2 ?_
    rintro e he ⟨line, hline, carries⟩
    rw [sampleEntries, List.mem_cons, List.mem_singleton] at he
    rcases he with rfl | rfl
    · rw [List.mem_singleton.1 hline] at carries
      exact absurd (carries.unique first) (by decide)
    · rw [List.mem_singleton.1 hline] at carries
      exact absurd (carries.unique second) (by decide)

end ForgeGateway.Identity
