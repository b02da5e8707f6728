import ForgeGateway.Proofs.Bytes.Hex
import ForgeGateway.Proofs.Json.Grammar

/-! # What is written for a value

`WellWritten` says of a value that the octets written for it spell it and encode a text.  That
holds of null, of every text as a value, which means this text (`Literal.means_ofString`), and of
an object of such values (`wellWritten_record`).  A string is written octet by octet: one below
128 becomes octets below 128, and those of a longer character stay as they are. -/

namespace ForgeGateway.Json

/-! ### Strings -/

namespace Literal

variable {x : UInt8} {b : Bytes} {c : Char}

theorem shortEscape?_of_shortLetter? (h : shortLetter? x = some c) :
    shortEscape? (UInt8.ofNat c.toNat) = some x := by
  unfold shortLetter? at h
  split at h
  case h_8 => cases h
  all_goals
    next number =>
      cases h
      rw [← UInt8.ofNat_toNat (x := x), number]
      rfl

theorem spells_pieceOf (x : UInt8) : (pieceOf x).Spells (renderPiece (pieceOf x)) := by
  unfold pieceOf
  cases letter : shortLetter? x with
  | some c =>
      simp only [renderPiece, letter]
      exact .short (shortEscape?_of_shortLetter? letter)
  | none =>
      have unescaped : x ≠ 34 ∧ x ≠ 92 := by
        constructor <;> rintro rfl <;> cases letter
      by_cases control : x.toNat < 32
      · simp only [if_pos control]
        exact .unit (Hex.four?_eq_some_iff.2 ⟨by omega, Hex.map_small_four x.toNat⟩)
      · simp only [if_neg control]
        exact .plain (Nat.not_lt.1 control) unescaped.1 unescaped.2

theorem spells_ofString (s : String) : (ofString s).Spells ((ofString s).flatMap renderPiece) := by
  rw [ofString]
  induction Bytes.ofString s with
  | nil => exact .nil
  | cons x b ih => exact .cons (spells_pieceOf x) ih

theorem utf8EncodeChar_ofNat (h : x.toNat < 128) :
    String.utf8EncodeChar (Char.ofNat x.toNat) = [x] := by
  have number : (Char.ofNat x.toNat).val.toNat = x.toNat := Hex.toNat_char (by omega)
  unfold String.utf8EncodeChar
  simp only [number]
  rw [if_pos (by omega), UInt8.ofNat_toNat]

theorem means_ofString (s : String) : (ofString s).Means s := by
  rw [Means, ofString]
  induction Bytes.ofString s with
  | nil => exact .nil
  | cons x b ih =>
      rw [List.map_cons, pieceOf]
      cases shortLetter? x with
      | some c => exact .short ih
      | none =>
          by_cases control : x.toNat < 32
          · have octet := utf8EncodeChar_ofNat (x := x) (by omega)
            have unit := Octets.unit (n := x.toNat) (.inl (by omega)) ih
            rw [octet] at unit
            simp only [if_pos control]
            exact unit
          · simp only [if_neg control]
            exact .plain ih

theorem renderPiece_lt (h : x.toNat < 128) : ∀ y ∈ renderPiece (pieceOf x), y.toNat < 128 := by
  have all : ∀ k : Fin 128, ∀ y ∈ renderPiece (pieceOf (UInt8.ofNat k)), y.toNat < 128 := by
    decide +kernel
  have here := all ⟨x.toNat, h⟩
  rwa [UInt8.ofNat_toNat] at here

theorem renderPiece_of_le (h : 128 ≤ x.toNat) : renderPiece (pieceOf x) = [x] := by
  have unescaped : shortLetter? x = none := by
    unfold shortLetter?
    split
    case h_8 => rfl
    all_goals
      next number => omega
  simp only [pieceOf, unescaped]
  rw [if_neg (by omega), renderPiece]

/-- A character is encoded by one octet below 128, or by octets from 128 on. -/
theorem utf8EncodeChar_cases (c : Char) :
    (∃ x : UInt8, x.toNat < 128 ∧ String.utf8EncodeChar c = [x]) ∨
      ∀ x ∈ String.utf8EncodeChar c, 128 ≤ x.toNat := by
  have bound : c.val.toNat < 1114112 := by
    have : c.val.toNat < 55296 ∨ 57343 < c.val.toNat ∧ c.val.toNat < 1114112 := c.valid
    omega
  unfold String.utf8EncodeChar
  simp only
  split
  next one => exact .inl ⟨_, by rw [Utf8.toNat_octet (by omega)]; omega, rfl⟩
  next =>
    refine .inr ?_
    split
    next =>
      simp only [List.forall_mem_cons, List.not_mem_nil, false_imp_iff, implies_true, and_true]
      refine ⟨?_, ?_⟩ <;> rw [Utf8.toNat_octet (by omega)] <;> omega
    next =>
      split
      next =>
        simp only [List.forall_mem_cons, List.not_mem_nil, false_imp_iff, implies_true, and_true]
        refine ⟨?_, ?_, ?_⟩ <;> rw [Utf8.toNat_octet (by omega)] <;> omega
      next =>
        simp only [List.forall_mem_cons, List.not_mem_nil, false_imp_iff, implies_true, and_true]
        refine ⟨?_, ?_, ?_, ?_⟩ <;> rw [Utf8.toNat_octet (by omega)] <;> omega

end Literal

/-! ### Texts -/

/-- Octets that encode some text. -/
def IsText (b : Bytes) : Prop := ∃ cs : List Char, b = cs.flatMap String.utf8EncodeChar

section
variable {a b : Bytes}

theorem IsText.append (ha : IsText a) (hb : IsText b) : IsText (a ++ b) := by
  obtain ⟨cs, rfl⟩ := ha
  obtain ⟨ds, rfl⟩ := hb
  exact ⟨cs ++ ds, List.flatMap_append.symm⟩

theorem isText_of_lt (h : ∀ x ∈ b, x.toNat < 128) : IsText b := by
  induction b with
  | nil => exact ⟨[], rfl⟩
  | cons x b ih =>
      have first : IsText [x] :=
        ⟨[Char.ofNat x.toNat], by simp [Literal.utf8EncodeChar_ofNat (h x List.mem_cons_self)]⟩
      exact first.append (ih fun y hy => h y (.tail _ hy))

theorem isText_of_all (h : (b.all fun x => decide (x.toNat < 128)) = true) : IsText b :=
  isText_of_lt fun x member => of_decide_eq_true (List.all_eq_true.1 h x member)

theorem IsText.eq_ofString (h : IsText b) : b = Bytes.ofString (Utf8.lossy b) := by
  obtain ⟨cs, rfl⟩ := h
  rw [Utf8.lossy, Utf8.lossyChars_flatMap, Utf8.ofString_ofList]

theorem isText_character (c : Char) :
    IsText ((String.utf8EncodeChar c).flatMap fun x => Literal.renderPiece (Literal.pieceOf x)) := by
  rcases Literal.utf8EncodeChar_cases c with ⟨x, small, single⟩ | large
  · rw [single, List.flatMap_singleton]
    exact isText_of_lt (Literal.renderPiece_lt small)
  · have same : ∀ b : Bytes, (∀ x ∈ b, 128 ≤ x.toNat) →
        (b.flatMap fun x => Literal.renderPiece (Literal.pieceOf x)) = b := by
      intro b h
      induction b with
      | nil => rfl
      | cons x b ih =>
          rw [List.flatMap_cons, Literal.renderPiece_of_le (h x List.mem_cons_self),
            ih fun y hy => h y (.tail _ hy), List.singleton_append]
    rw [same _ large]
    exact ⟨[c], (List.flatMap_singleton ..).symm⟩

theorem isText_string (s : String) : IsText ((Literal.ofString s).flatMap Literal.renderPiece) := by
  have octets := Utf8.ofString_ofList s.toList
  rw [String.ofList_toList] at octets
  rw [Literal.ofString, octets, List.flatMap_map]
  induction s.toList with
  | nil => exact ⟨[], rfl⟩
  | cons c cs ih =>
      rw [List.flatMap_cons, List.flatMap_append]
      exact (isText_character c).append ih

end

/-! ### Values -/

/-- What is written for the value spells it and encodes a text. -/
structure WellWritten (v : Value) : Prop where
  spells : v.Spells v.render
  isText : IsText v.render

theorem isText_render (s : String) : IsText (Literal.ofString s).render :=
  (isText_of_all (b := [34]) (by decide)).append
    ((isText_string s).append (isText_of_all (b := [34]) (by decide)))

theorem wellWritten_null : WellWritten .null where
  spells := .null
  isText := isText_of_all (by decide)

theorem wellWritten_text (s : String) : WellWritten (.text s) where
  spells := .string (Literal.spells_ofString s)
  isText := isText_render s

theorem WellWritten.text {v : Value} (h : WellWritten v) : v.Text v.render := by
  have text := Value.Text.mk blanks_nil h.spells blanks_nil
  rwa [List.nil_append, List.append_nil] at text

theorem WellWritten.member {v : Value} (h : WellWritten v) (name : String) :
    MemberText (Literal.ofString name, v) ((Literal.ofString name).render ++ 58 :: v.render) ∧
      IsText ((Literal.ofString name).render ++ 58 :: v.render) := by
  constructor
  · have member := MemberText.mk blanks_nil (Literal.spells_ofString name) blanks_nil h.text
    simpa [Literal.render] using member
  · exact (isText_render name).append
      ((isText_of_all (b := [58]) (by decide)).append h.isText)

/-- The members of an object, by their names. -/
def named (ms : List (String × Value)) : List (Literal × Value) :=
  ms.map fun (k, v) => (Literal.ofString k, v)

theorem wellWritten_members (m : String × Value) (ms : List (String × Value))
    (h : ∀ n ∈ m :: ms, WellWritten n.2) :
    MembersText (named (m :: ms)) (commaSeparated (renderMembers (named (m :: ms)))) ∧
      IsText (commaSeparated (renderMembers (named (m :: ms)))) := by
  induction ms generalizing m with
  | nil =>
      obtain ⟨member, text⟩ := (h m List.mem_cons_self).member m.1
      exact ⟨.one member, text⟩
  | cons n ms ih =>
      obtain ⟨member, text⟩ := (h m List.mem_cons_self).member m.1
      obtain ⟨members, texts⟩ := ih n fun k hk => h k (.tail _ hk)
      exact ⟨.more member members,
        text.append ((isText_of_all (b := [44]) (by decide)).append texts)⟩

theorem wellWritten_record (ms : List (String × Value)) (h : ∀ m ∈ ms, WellWritten m.2) :
    WellWritten (.record ms) := by
  cases ms with
  | nil => exact ⟨.noMembers blanks_nil, isText_of_all (by decide)⟩
  | cons m ms =>
      obtain ⟨members, texts⟩ := wellWritten_members m ms h
      exact ⟨.object members, (isText_of_all (b := [123]) (by decide)).append
        (texts.append (isText_of_all (b := [125]) (by decide)))⟩

end ForgeGateway.Json
