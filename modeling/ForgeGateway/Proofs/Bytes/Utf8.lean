import ForgeGateway.Bytes.Utf8

/-! # When nothing was replaced

A lossy reading writes U+FFFD for what it cannot read.  If its result has none, the octets are
the encoding of the result (`eq_flatMap_of_lossyChars`), so that they were well formed
(`decode?_lossy`).  The other way round, what encodes a text is read as that text
(`lossy_ofString`). The strict reading accepts the encoding of a text and nothing else
(`decode?_eq_some_iff`). -/

namespace ForgeGateway.Utf8

theorem eq_append_of_front? {b : Bytes} {c : Char} (h : front? b = some c) :
    b = String.utf8EncodeChar c ++ b.drop (String.utf8EncodeChar c).length := by
  simp only [front?] at h
  split at h
  next hp =>
    cases h
    exact (List.prefix_iff_eq_append.1 (List.isPrefixOf_iff_prefix.1 hp)).symm
  next => cases h

theorem eq_flatMap_of_lossyChars {b : Bytes} (h : '\uFFFD' ∉ lossyChars b) :
    b = (lossyChars b).flatMap String.utf8EncodeChar := by
  fun_induction lossyChars b with
  | case1 => rfl
  | case2 x r c front ih =>
      rw [List.mem_cons, not_or] at h
      rw [List.flatMap_cons, ← ih h.2]
      exact eq_append_of_front? front
  | case3 x r broken ih => exact absurd List.mem_cons_self h

theorem decode?_flatMap (cs : List Char) :
    decode? (cs.flatMap String.utf8EncodeChar) = some (String.ofList cs) := by
  have octets : (⟨(cs.flatMap String.utf8EncodeChar).toArray⟩ : ByteArray) = cs.utf8Encode := by
    rw [List.utf8Encode, ← List.data_toByteArray]
  rw [decode?, octets, String.fromUTF8?, dif_pos ByteArray.isValidUTF8_utf8Encode]
  rfl

/-- Octets that are read without a replacement are well formed. -/
theorem decode?_lossy {b : Bytes} (h : '\uFFFD' ∉ (lossy b).toList) :
    decode? b = some (lossy b) := by
  rw [lossy, String.toList_ofList] at h
  have encoded := eq_flatMap_of_lossyChars h
  rw [lossy, ← decode?_flatMap, ← encoded]

/-! ### Reading an encoding -/

section
variable (v : Nat) (rest : Bytes)

theorem toNat_octet {n : Nat} (h : n < 256) : (UInt8.ofNat n).toNat = n := by
  rw [UInt8.toNat_ofNat', Nat.mod_eq_of_lt h]

theorem low6_continuation : low6 (UInt8.ofNat (v % 64 + 128)) = v % 64 := by
  rw [low6, toNat_octet (by omega)]
  omega

theorem candidate_one (h : v ≤ 127) : candidate (UInt8.ofNat v :: rest) = Char.ofNat v := by
  have lead : (UInt8.ofNat v).toNat = v := toNat_octet (by omega)
  unfold candidate
  simp only [lead]
  rw [if_pos (by omega)]

theorem candidate_two (h : v ≤ 2047) :
    candidate (UInt8.ofNat (v / 64 % 32 + 192) :: UInt8.ofNat (v % 64 + 128) :: rest) =
      Char.ofNat v := by
  have lead : (UInt8.ofNat (v / 64 % 32 + 192)).toNat = v / 64 % 32 + 192 := toNat_octet (by omega)
  have kind : (v / 64 % 32 + 192) / 32 = 6 := by omega
  unfold candidate
  simp only [lead, kind, low6_continuation]
  rw [if_neg (by omega)]
  congr 1
  omega

theorem candidate_three (h : v ≤ 65535) :
    candidate (UInt8.ofNat (v / 4096 % 16 + 224) :: UInt8.ofNat (v / 64 % 64 + 128) ::
      UInt8.ofNat (v % 64 + 128) :: rest) = Char.ofNat v := by
  have lead : (UInt8.ofNat (v / 4096 % 16 + 224)).toNat = v / 4096 % 16 + 224 :=
    toNat_octet (by omega)
  have kind : (v / 4096 % 16 + 224) / 16 = 14 := by omega
  have other : (v / 4096 % 16 + 224) / 32 = 7 := by omega
  unfold candidate
  simp only [lead, kind, other, low6_continuation]
  rw [if_neg (by omega)]
  congr 1
  omega

theorem candidate_four (h : v < 1114112) :
    candidate (UInt8.ofNat (v / 262144 % 8 + 240) :: UInt8.ofNat (v / 4096 % 64 + 128) ::
      UInt8.ofNat (v / 64 % 64 + 128) :: UInt8.ofNat (v % 64 + 128) :: rest) = Char.ofNat v := by
  have lead : (UInt8.ofNat (v / 262144 % 8 + 240)).toNat = v / 262144 % 8 + 240 :=
    toNat_octet (by omega)
  have kind : (v / 262144 % 8 + 240) / 16 = 15 := by omega
  have other : (v / 262144 % 8 + 240) / 32 = 7 := by omega
  unfold candidate
  simp only [lead, kind, other, low6_continuation]
  rw [if_neg (by omega)]
  congr 1
  omega

end

theorem candidate_append (c : Char) (rest : Bytes) :
    candidate (String.utf8EncodeChar c ++ rest) = c := by
  have bound : c.val.toNat < 1114112 := by
    have : c.val.toNat < 55296 ∨ 57343 < c.val.toNat ∧ c.val.toNat < 1114112 := c.valid
    omega
  have back : Char.ofNat c.val.toNat = c := Char.ofNat_toNat c
  unfold String.utf8EncodeChar
  simp only
  split
  next one => exact (candidate_one _ rest one).trans back
  split
  next two => exact (candidate_two _ rest two).trans back
  split
  next three => exact (candidate_three _ rest three).trans back
  next four => exact (candidate_four _ rest bound).trans back

theorem front?_append (c : Char) (rest : Bytes) :
    front? (String.utf8EncodeChar c ++ rest) = some c := by
  simp only [front?, candidate_append]
  rw [if_pos (List.isPrefixOf_iff_prefix.2 (List.prefix_append _ _))]

theorem lossyChars_append (c : Char) (rest : Bytes) :
    lossyChars (String.utf8EncodeChar c ++ rest) = c :: lossyChars rest := by
  obtain ⟨x, r, hx⟩ := List.exists_cons_of_ne_nil (String.utf8EncodeChar_ne_nil (c := c))
  have front := front?_append c rest
  have behind : (String.utf8EncodeChar c ++ rest).drop (String.utf8EncodeChar c).length = rest :=
    List.drop_left
  rw [hx, List.cons_append] at front behind ⊢
  rw [lossyChars, front]
  simp only [hx, behind]

theorem lossyChars_flatMap (cs : List Char) :
    lossyChars (cs.flatMap String.utf8EncodeChar) = cs := by
  induction cs with
  | nil => rw [List.flatMap_nil, lossyChars]
  | cons c cs ih => rw [List.flatMap_cons, lossyChars_append, ih]

theorem ofString_ofList (cs : List Char) :
    Bytes.ofString (String.ofList cs) = cs.flatMap String.utf8EncodeChar :=
  List.toList_data_toByteArray

theorem lossy_ofString (s : String) : lossy (Bytes.ofString s) = s := by
  have octets := ofString_ofList s.toList
  rw [String.ofList_toList] at octets
  rw [lossy, octets, lossyChars_flatMap, String.ofList_toList]

/-! ### The strict reading -/

/-- Octets are read as a text exactly when they are its encoding. -/
theorem decode?_eq_some_iff {b : Bytes} {s : String} :
    decode? b = some s ↔ b = Bytes.ofString s := by
  rw [decode?, String.fromUTF8?]
  constructor
  · intro h
    split at h
    next valid =>
      have same : (⟨b.toArray⟩ : ByteArray) = s.toByteArray :=
        congrArg String.toByteArray (Option.some.inj h)
      exact congrArg (fun octets => octets.data.toList) same
    next => cases h
  · rintro rfl
    have encoded : (⟨(Bytes.ofString s).toArray⟩ : ByteArray) = s.toByteArray := rfl
    rw [encoded, dif_pos s.isValidUTF8]
    rfl

end ForgeGateway.Utf8
