import ForgeGateway.Bytes

/-! # UTF-8

`decode?` reads a whole octet string as text, or refuses it. `lossy` reads any octet string:
each longest start of a character that is not completed becomes one U+FFFD, as the Unicode
standard recommends. A text is well formed exactly when both agree. -/

namespace ForgeGateway.Utf8

/-- The text that `b` encodes, if it is well formed. -/
def decode? (b : Bytes) : Option String := String.fromUTF8? ⟨b.toArray⟩

/-- The low six bits of a continuation octet. -/
def low6 (x : UInt8) : Nat := x.toNat % 64

/-- The only character whose encoding can start with these octets. -/
def candidate : Bytes → Char
  | a :: rest =>
    if a.toNat < 128 then Char.ofNat a.toNat
    else match a.toNat / 32, a.toNat / 16, rest with
      | 6, _, b :: _ => Char.ofNat (a.toNat % 32 * 64 + low6 b)
      | _, 14, b :: c :: _ => Char.ofNat (a.toNat % 16 * 4096 + low6 b * 64 + low6 c)
      | _, 15, b :: c :: d :: _ =>
        Char.ofNat (a.toNat % 8 * 262144 + low6 b * 4096 + low6 c * 64 + low6 d)
      | _, _, _ => Char.ofNat 0
  | [] => Char.ofNat 0

/-- The character that `b` starts with, if it starts with a complete one. -/
def front? (b : Bytes) : Option Char :=
  let c := candidate b
  if (String.utf8EncodeChar c).isPrefixOf b then some c else none

/-- `x` continues a character. -/
def isContinuation (x : UInt8) : Bool := 128 ≤ x.toNat && x.toNat < 192

/-- `b` may be the second octet after the lead octet `a` of three or four. -/
def isSecond (a b : UInt8) : Bool :=
  isContinuation b &&
    (if a.toNat = 224 then 160 ≤ b.toNat
     else if a.toNat = 237 then b.toNat < 160
     else if a.toNat = 240 then 144 ≤ b.toNat
     else if a.toNat = 244 then b.toNat < 144
     else true)

/-- How many octets of `b`, which starts with no complete character, are the longest start
of one; at least one is taken. -/
def brokenLength : Bytes → Nat
  | a :: b :: rest =>
    if 224 ≤ a.toNat ∧ a.toNat < 240 then
      if isSecond a b then 2 else 1
    else if 240 ≤ a.toNat ∧ a.toNat < 245 then
      if isSecond a b then
        match rest with
        | c :: _ => if isContinuation c then 3 else 2
        | [] => 2
      else 1
    else 1
  | _ => 1

theorem one_le_brokenLength (b : Bytes) : 1 ≤ brokenLength b := by
  unfold brokenLength
  split
  · repeat' split
    all_goals omega
  · omega

/-- Characters of the octets, with U+FFFD for each broken start. -/
def lossyChars : Bytes → List Char
  | [] => []
  | x :: r =>
    match front? (x :: r) with
    | some c => c :: lossyChars ((x :: r).drop (String.utf8EncodeChar c).length)
    | none => '\uFFFD' :: lossyChars ((x :: r).drop (brokenLength (x :: r)))
termination_by b => b.length
decreasing_by
  · have : 0 < (String.utf8EncodeChar c).length := by
      simp [String.length_utf8EncodeChar, Char.utf8Size_pos]
    simp only [List.length_drop, List.length_cons]
    omega
  · have := one_le_brokenLength (x :: r)
    simp only [List.length_drop, List.length_cons]
    omega

/-- The text of any octet string. -/
def lossy (b : Bytes) : String := String.ofList (lossyChars b)

end ForgeGateway.Utf8
