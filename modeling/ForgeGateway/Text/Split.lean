/-! # Pieces of a text

`split sep` cuts a text at every `sep`; `join` puts the pieces together again
(`join_split`). `occursIn` looks for a text inside another, `shortened` cuts a long text
for display. -/

namespace ForgeGateway.Text

/-- The pieces between the occurrences of `sep`; one piece if there is none. -/
def split (sep : Char) : List Char → List (List Char)
  | [] => [[]]
  | c :: rest =>
    if c = sep then [] :: split sep rest
    else match split sep rest with
      | [] => [[c]]
      | p :: ps => (c :: p) :: ps

/-- The pieces with `sep` between them. -/
def join (sep : Char) : List (List Char) → List Char
  | [] => []
  | [p] => p
  | p :: ps => p ++ sep :: join sep ps

theorem split_ne_nil (sep : Char) (cs : List Char) : split sep cs ≠ [] := by
  cases cs with
  | nil => simp [split]
  | cons c rest =>
    unfold split
    split
    · simp
    · split <;> simp

theorem join_split (sep : Char) (cs : List Char) : join sep (split sep cs) = cs := by
  induction cs with
  | nil => rfl
  | cons c rest ih =>
    unfold split
    split
    · next h =>
      subst h
      match hs : split c rest with
      | [] => exact absurd hs (split_ne_nil c rest)
      | p :: ps => rw [hs] at ih; simp [join, ih]
    · split
      · next hs => exact absurd hs (split_ne_nil sep rest)
      · next p ps hs =>
        rw [hs] at ih
        cases ps with
        | nil => simp [join] at ih ⊢; exact ih
        | cons q qs => simp [join] at ih ⊢; exact ih

def occursIn (pat : List Char) : List Char → Bool
  | [] => pat.isEmpty
  | c :: rest => pat.isPrefixOf (c :: rest) || occursIn pat rest

/-- The first sixty-four characters and three dots, if there are more. -/
def shortened (cs : List Char) : String :=
  if cs.length ≤ 64 then String.ofList cs else String.ofList (cs.take 64) ++ "..."

def isLetter (c : Char) : Bool := ('a' ≤ c && c ≤ 'z') || ('A' ≤ c && c ≤ 'Z')

def isDigit (c : Char) : Bool := '0' ≤ c && c ≤ '9'

/-- `s` with its ASCII capitals made small. -/
def lowered (s : String) : String := String.ofList (s.toList.map Char.toLower)

end ForgeGateway.Text
