/-! # White space

`isBlank` is the White_Space property of the Unicode standard. `trim` drops it at both ends;
`cut` splits a text at its first blank, which belongs to neither half. -/

namespace ForgeGateway.Text

/-- `c` has the White_Space property. -/
def isBlank (c : Char) : Bool :=
  let n := c.toNat
  (9 ≤ n && n ≤ 13) || n == 0x20 || n == 0x85 || n == 0xA0 || n == 0x1680 ||
    (0x2000 ≤ n && n ≤ 0x200A) || n == 0x2028 || n == 0x2029 || n == 0x202F || n == 0x205F ||
    n == 0x3000

/-- `cs` without the blanks at its end. -/
def trimEnd (cs : List Char) : List Char := (cs.reverse.dropWhile isBlank).reverse

/-- `cs` without the blanks at either end. -/
def trim (cs : List Char) : List Char := trimEnd (cs.dropWhile isBlank)

/-- What stands before the first blank and, if there is one, what follows it. -/
def cut (cs : List Char) : List Char × Option (List Char) :=
  (cs.takeWhile (fun c => !isBlank c),
    match cs.dropWhile (fun c => !isBlank c) with
    | [] => none
    | _ :: rest => some rest)

/-- The longest pieces without blanks, in order. `word` holds the letters of the piece that
is being read, last one first. -/
def wordsFrom (word : List Char) : List Char → List (List Char)
  | [] => if word.isEmpty then [] else [word.reverse]
  | c :: rest =>
    if isBlank c then
      if word.isEmpty then wordsFrom [] rest else word.reverse :: wordsFrom [] rest
    else wordsFrom (c :: word) rest

/-- The words of a text: its longest pieces without blanks. -/
def words (cs : List Char) : List (List Char) := wordsFrom [] cs

end ForgeGateway.Text
