/-! # How a shell splits a command

A POSIX shell cuts a command at blanks that are not quoted, and takes the quotes off.  `words`
does so character by character.  It gives up where a shell has other rules: at operators,
expansions, patterns, comments, reserved words, and quotes that are not closed.  A plain word and
a word in single quotes are found as they are (`words_quoted`). -/

namespace ForgeGateway.Shell

/-- How the next character is to be taken. -/
inductive Quoting where
  | plain
  /-- Everything up to the next quote stands for itself. -/
  | single
  | double
  /-- Behind a backslash. -/
  | escape
  /-- Behind a backslash between double quotes. -/
  | doubleEscape
  deriving DecidableEq, Repr

/-- What has been read of a command. -/
structure State where
  words : List (List Char) := []
  /-- The word that has been started. -/
  word : Option (List Char) := none
  quoting : Quoting := .plain
  deriving DecidableEq, Repr

/-- The characters that a shell does not take for themselves outside quotes, or not everywhere. -/
def specials : List Char :=
  ['|', '&', ';', '<', '>', '(', ')', '$', '\x60', '\\', '"', '\'', ' ', '\t', '\n', '*', '?',
    '[', ']', '#', '~', '=', '%', '!', '^', '\x7b', '\x7d']

/-- Outside quotes `c` may mean something to a shell. -/
def isSpecial (c : Char) : Bool := specials.contains c

/-- Between double quotes a backslash takes the meaning from `c`. -/
def isEscapable (c : Char) : Bool := ['$', '\x60', '"', '\\'].contains c

namespace State

/-- The word goes on, or starts. -/
def add (s : State) (cs : List Char) : State := { s with word := some (s.word.getD [] ++ cs) }

/-- The word, if there is one, is complete. -/
def cut (s : State) : State := { s with words := s.words ++ s.word.toList, word := none }

/-- Reads a character outside quotes. -/
def stepPlain (s : State) (c : Char) : Option State :=
  if c = ' ' ∨ c = '\t' then some s.cut
  else if c = '\'' then some { s.add [] with quoting := .single }
  else if c = '"' then some { s.add [] with quoting := .double }
  else if c = '\\' then some { s with quoting := .escape }
  else if isSpecial c then none
  else some (s.add [c])

/-- Reads a character. A backslash in front of the end of a line drops both. -/
def step (s : State) (c : Char) : Option State :=
  match s.quoting with
  | .plain => s.stepPlain c
  | .single => if c = '\'' then some { s with quoting := .plain } else some (s.add [c])
  | .double =>
    if c = '"' then some { s with quoting := .plain }
    else if c = '\\' then some { s with quoting := .doubleEscape }
    else if c = '$' ∨ c = '\x60' then none
    else some (s.add [c])
  | .escape => some { (if c = '\n' then s else s.add [c]) with quoting := .plain }
  | .doubleEscape =>
    some { (if c = '\n' then s else if isEscapable c then s.add [c] else s.add ['\\', c]) with
      quoting := .double }

/-- The words, if no quote is open. -/
def finish (s : State) : Option (List (List Char)) :=
  if s.quoting = .plain then some s.cut.words else none

end State

def words (cs : List Char) : Option (List (List Char)) :=
  (cs.foldlM State.step {}).bind State.finish

section
variable {ws : List (List Char)} {v w : List Char}

theorem step_plain {o : Option (List Char)} {c : Char} (h : isSpecial c = false) :
    State.step ⟨ws, o, .plain⟩ c = some ⟨ws, some (o.getD [] ++ [c]), .plain⟩ := by
  have other : ∀ d, isSpecial d = true → c ≠ d := by
    rintro d hd rfl
    rw [h] at hd
    cases hd
  have blank : ¬(c = ' ' ∨ c = '\t') := by
    rintro (hc | hc)
    · exact other ' ' rfl hc
    · exact other '\t' rfl hc
  simp only [State.step, State.stepPlain, if_neg blank, if_neg (other '\'' rfl),
    if_neg (other '"' rfl), if_neg (other '\\' rfl), h, State.add]
  rfl

theorem read_plain (h : ∀ c ∈ w, isSpecial c = false) :
    w.foldlM State.step ⟨ws, some v, .plain⟩ = some ⟨ws, some (v ++ w), .plain⟩ := by
  induction w generalizing v with
  | nil => simp
  | cons c w ih =>
      rw [List.forall_mem_cons] at h
      rw [List.foldlM_cons, step_plain h.1]
      simpa using ih (v := v ++ [c]) h.2

theorem read_single (h : '\'' ∉ w) :
    w.foldlM State.step ⟨ws, some v, .single⟩ = some ⟨ws, some (v ++ w), .single⟩ := by
  induction w generalizing v with
  | nil => simp
  | cons c w ih =>
      rw [List.mem_cons, not_or] at h
      have goes_on : State.step ⟨ws, some v, .single⟩ c = some ⟨ws, some (v ++ [c]), .single⟩ := by
        simp only [State.step, if_neg (Ne.symm h.1)]
        rfl
      rw [List.foldlM_cons, goes_on]
      simpa using ih (v := v ++ [c]) h.2

theorem words_quoted (ne : w ≠ []) (plain : ∀ c ∈ w, isSpecial c = false) (closed : '\'' ∉ v) :
    words (w ++ ' ' :: '\'' :: (v ++ ['\''])) = some [w, v] := by
  obtain ⟨c, w, rfl⟩ := List.exists_cons_of_ne_nil ne
  rw [List.forall_mem_cons] at plain
  have first : (c :: w).foldlM State.step {} = some ⟨[], some (c :: w), .plain⟩ := by
    rw [List.foldlM_cons, step_plain plain.1]
    exact read_plain (v := [c]) plain.2
  have between : [' ', '\''].foldlM State.step ⟨[], some (c :: w), .plain⟩ =
      some ⟨[c :: w], some [], .single⟩ := rfl
  have second : (v ++ ['\'']).foldlM State.step ⟨[c :: w], some [], .single⟩ =
      some ⟨[c :: w], some v, .plain⟩ := by
    rw [List.foldlM_append, read_single closed]
    rfl
  have parts : c :: w ++ ' ' :: '\'' :: (v ++ ['\'']) =
      c :: w ++ ([' ', '\''] ++ (v ++ ['\''])) := rfl
  rw [words, parts, List.foldlM_append, first, Option.bind_eq_bind, Option.bind_some,
    List.foldlM_append, between, Option.bind_eq_bind, Option.bind_some, second]
  rfl

example : words "git log --format '%H %s' \"a b\"\\ c".toList =
    some ["git".toList, "log".toList, "--format".toList, "%H %s".toList, "a b c".toList] := by
  decide

end

end ForgeGateway.Shell
