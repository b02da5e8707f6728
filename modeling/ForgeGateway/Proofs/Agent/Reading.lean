import ForgeGateway.Proofs.Agent.Cursor

/-! # Which octets are read as which message

`Request.decode_eq_ok_iff` and `Response.decode_eq_ok_iff` say for every payload shorter than
`2 ^ 32` what it is read as.  A request is read off the front of its payload.  An answer is
read from what it spells and from nothing else, where a signature has more than one spelling:
octets behind the two strings of its blob are not looked at (`Response.Spells`). -/

namespace ForgeGateway.Agent

/-! ### Names of keys -/

/-- The text is the first string of the blob, and not empty. -/
structure Names (blob : Bytes) (name : String) : Prop where
  named : name ≠ ""
  short : (Bytes.ofString name).length < word32Span
  leads : lengthPrefixed (Bytes.ofString name) <+: blob

theorem keyAlgorithm_ok_iff {blob : Bytes} {name : String} :
    keyAlgorithm blob = .ok name ↔ Names blob name := by
  unfold keyAlgorithm
  constructor
  · intro h
    split at h
    next => cases h
    next read behind there =>
      split at h
      next => cases h
      next named =>
        cases h
        obtain ⟨short, moved⟩ := Cursor.text_ok_iff.1 there
        exact ⟨fun h => named (String.isEmpty_iff.2 h), short, behind.rest, moved.rest.symm⟩
  · rintro ⟨named, short, behind, rfl⟩
    have read : (Cursor.start (lengthPrefixed (Bytes.ofString name) ++ behind)).text .keyAlgorithm =
        .ok (name, ⟨(lengthPrefixed (Bytes.ofString name)).length, behind⟩) :=
      Cursor.text_ok_iff.2 ⟨short, Cursor.passes_start_iff.2 ⟨rfl, rfl⟩⟩
    rw [read]
    simp only [String.isEmpty_iff, if_neg named]

theorem Names.unique {blob : Bytes} {name name' : String} (h : Names blob name)
    (h' : Names blob name') : name = name' := by
  rw [← keyAlgorithm_ok_iff] at h h'
  exact Except.ok.inj (h.symm.trans h')

theorem keyAlgorithm_eq_ok_iff {blob : Bytes} {name : String} (small : blob.length < word32Span) :
    keyAlgorithm blob = .ok name ↔
      name ≠ "" ∧ lengthPrefixed (Bytes.ofString name) <+: blob := by
  rw [keyAlgorithm_ok_iff]
  constructor
  · exact fun h => ⟨h.named, h.leads⟩
  · rintro ⟨named, leads⟩
    have fits := leads.length_le
    rw [length_lengthPrefixed] at fits
    exact ⟨named, by omega, leads⟩

/-- The algorithm of an identity is the name at the start of its key blob. -/
structure Identity.WellNamed (i : Identity) : Prop where
  named : i.algorithm ≠ ""
  leads : lengthPrefixed (Bytes.ofString i.algorithm) <+: i.keyBlob

/-! ### The list of keys -/

section
variable {c d : Cursor}

theorem Identity.length_entry (i : Identity) :
    i.entry.length = 8 + i.keyBlob.length + i.comment.length := by
  rw [Identity.entry, List.length_append, length_lengthPrefixed, length_lengthPrefixed]
  omega

/-- An entry is read as the identity that it writes. -/
theorem Identity.read_eq_ok_iff {i : Identity} (small : c.rest.length < word32Span) :
    Identity.read c = .ok (i, d) ↔ i.WellNamed ∧ c.Passes i.entry d := by
  unfold Identity.read
  constructor
  · intro h
    obtain ⟨⟨keyBlob, c₁⟩, readBlob, h⟩ := bind_eq_ok_iff.1 h
    obtain ⟨⟨comment, c₂⟩, readComment, h⟩ := bind_eq_ok_iff.1 h
    obtain ⟨algorithm, readName, h⟩ := bind_eq_ok_iff.1 h
    cases h
    have blob := (Cursor.string_eq_ok_iff small).1 readBlob
    have left := blob.length_le
    rw [length_lengthPrefixed] at left
    have behind := (Cursor.string_eq_ok_iff (by omega)).1 readComment
    obtain ⟨named, leads⟩ := (keyAlgorithm_eq_ok_iff (by omega)).1 readName
    exact ⟨⟨named, leads⟩, blob.trans behind⟩
  · rintro ⟨⟨named, leads⟩, moved⟩
    obtain ⟨c₁, blob, behind⟩ := moved.split
    have left := blob.length_le
    rw [length_lengthPrefixed] at left
    refine bind_eq_ok_iff.2 ⟨(i.keyBlob, c₁), (Cursor.string_eq_ok_iff small).2 blob, ?_⟩
    refine bind_eq_ok_iff.2 ⟨(i.comment, d), (Cursor.string_eq_ok_iff (by omega)).2 behind, ?_⟩
    exact bind_eq_ok_iff.2
      ⟨i.algorithm, (keyAlgorithm_eq_ok_iff (by omega)).2 ⟨named, leads⟩, rfl⟩

theorem Identity.readMany_eq_ok_iff {n : Nat} {keys : List Identity}
    (small : c.rest.length < word32Span) :
    Identity.readMany n c = .ok (keys, d) ↔
      keys.length = n ∧ (∀ i ∈ keys, i.WellNamed) ∧ c.Passes (keys.flatMap Identity.entry) d := by
  induction n generalizing c keys with
  | zero =>
      rw [Identity.readMany]
      constructor
      · intro h
        cases h
        exact ⟨rfl, nofun, Cursor.passes_nil_iff.2 rfl⟩
      · rintro ⟨empty, -, moved⟩
        obtain rfl := List.length_eq_zero_iff.1 empty
        rw [List.flatMap_nil, Cursor.passes_nil_iff] at moved
        rw [moved]
  | succ n ih =>
      rw [Identity.readMany]
      constructor
      · intro h
        obtain ⟨⟨key, c₁⟩, readKey, h⟩ := bind_eq_ok_iff.1 h
        obtain ⟨⟨others, c₂⟩, readOthers, h⟩ := bind_eq_ok_iff.1 h
        cases h
        obtain ⟨named, entry⟩ := (Identity.read_eq_ok_iff small).1 readKey
        have left := entry.length_le
        obtain ⟨length, othersNamed, entries⟩ := (ih (by omega)).1 readOthers
        refine ⟨by rw [List.length_cons, length], ?_, entry.trans entries⟩
        exact List.forall_mem_cons.2 ⟨named, othersNamed⟩
      · rintro ⟨length, named, moved⟩
        obtain ⟨key, others, rfl⟩ := List.exists_cons_of_length_eq_add_one length
        obtain ⟨keyNamed, othersNamed⟩ := List.forall_mem_cons.1 named
        rw [List.flatMap_cons] at moved
        -- The entry alone says where it ends, so that the others start where it is cut off.
        obtain ⟨c₁, entry, entries⟩ := moved.split
        have left := entry.length_le
        have count : others.length = n := Nat.succ.inj length
        refine bind_eq_ok_iff.2 ⟨(key, c₁), (Identity.read_eq_ok_iff small).2 ⟨keyNamed, entry⟩, ?_⟩
        exact bind_eq_ok_iff.2
          ⟨(others, d), (ih (by omega)).2 ⟨count, othersNamed, entries⟩, rfl⟩

/-- Each entry has two lengths, so that the check of their number lets every list pass. -/
theorem Identity.eight_mul_length_le (keys : List Identity) :
    8 * keys.length ≤ (keys.flatMap Identity.entry).length := by
  induction keys with
  | nil => exact Nat.le_refl 0
  | cons key keys ih =>
      have entry := key.length_entry
      rw [List.flatMap_cons, List.length_append, List.length_cons]
      omega

theorem Identity.readList_eq_ok_iff {keys : List Identity} (small : c.rest.length < word32Span) :
    Identity.readList c = .ok (keys, d) ↔
      (∀ i ∈ keys, i.WellNamed) ∧
        c.Passes (Bytes.word32 keys.length ++ keys.flatMap Identity.entry) d := by
  unfold Identity.readList
  constructor
  · intro h
    obtain ⟨⟨count, c₁⟩, readCount, h⟩ := bind_eq_ok_iff.1 h
    obtain ⟨-, counted⟩ := Cursor.number_eq_ok_iff.1 readCount
    have left := counted.length_le
    simp only at h
    split at h
    next => cases h
    next =>
      obtain ⟨rfl, named, entries⟩ := (Identity.readMany_eq_ok_iff (by omega)).1 h
      exact ⟨named, counted.trans entries⟩
  · rintro ⟨named, moved⟩
    obtain ⟨c₁, counted, entries⟩ := moved.split
    have left := counted.length_le
    have room := entries.length_le
    have needed := Identity.eight_mul_length_le keys
    have count : keys.length < word32Span := by omega
    refine bind_eq_ok_iff.2 ⟨(keys.length, c₁), Cursor.number_eq_ok_iff.2 ⟨count, counted⟩, ?_⟩
    simp only
    rw [if_neg (by omega)]
    exact (Identity.readMany_eq_ok_iff (by omega)).2 ⟨rfl, named, entries⟩

end

/-! ### Signatures -/

theorem Signature.ofBlob_eq_ok_iff {blob : Bytes} {s : Signature}
    (small : blob.length < word32Span) :
    Signature.ofBlob blob = .ok s ↔ s.toBlob <+: blob := by
  unfold Signature.ofBlob
  constructor
  · intro h
    obtain ⟨⟨algorithm, c₁⟩, readName, h⟩ := bind_eq_ok_iff.1 h
    obtain ⟨⟨bytes, c₂⟩, readBytes, h⟩ := bind_eq_ok_iff.1 h
    cases h
    have name := (Cursor.text_eq_ok_iff small).1 readName
    have left : _ + c₁.rest.length = blob.length := name.length_le
    have all : c₁.rest.length < word32Span := by omega
    have octets := (Cursor.string_eq_ok_iff all).1 readBytes
    exact ⟨c₂.rest, (name.trans octets).rest.symm⟩
  · rintro ⟨surplus, rfl⟩
    obtain ⟨c₁, name, octets⟩ :=
      (Cursor.passes_start_iff (b := s.toBlob) (d := ⟨s.toBlob.length, surplus⟩)).2
        ⟨rfl, rfl⟩ |>.split
    have left : _ + c₁.rest.length = (s.toBlob ++ surplus).length := name.length_le
    have all : c₁.rest.length < word32Span := by omega
    refine bind_eq_ok_iff.2 ⟨(s.algorithm, c₁), (Cursor.text_eq_ok_iff small).2 name, ?_⟩
    exact bind_eq_ok_iff.2 ⟨(s.bytes, _), (Cursor.string_eq_ok_iff all).2 octets, rfl⟩

/-! ### Requests -/

/-- The flags of a request have room in four octets. -/
def Request.FlagsFit : Request → Prop
  | .identities => True
  | .sign _ _ flags => flags < word32Span

theorem Request.decode_eq_ok_iff {p : Bytes} {r : Request} (small : p.length < word32Span) :
    Request.decode p = .ok r ↔ r.FlagsFit ∧ r.payload <+: p := by
  unfold Request.decode
  constructor
  · intro h
    obtain ⟨⟨opcode, c₁⟩, readOpcode, h⟩ := orMalformed_bind_eq_ok_iff.1 h
    obtain ⟨x, rfl, first⟩ := Cursor.octet_eq_ok_iff.1 readOpcode
    have left : 1 + c₁.rest.length = p.length := first.length_le
    simp only at h
    split at h
    next listing =>
      obtain rfl : x = 11 := UInt8.toNat_inj.1 listing
      cases h
      exact ⟨trivial, c₁.rest, first.rest.symm⟩
    next =>
      split at h
      next signing =>
        obtain rfl : x = 13 := UInt8.toNat_inj.1 signing
        obtain ⟨⟨keyBlob, c₂⟩, readBlob, h⟩ := orMalformed_bind_eq_ok_iff.1 h
        obtain ⟨⟨data, c₃⟩, readData, h⟩ := orMalformed_bind_eq_ok_iff.1 h
        obtain ⟨⟨flags, c₄⟩, readFlags, h⟩ := orMalformed_bind_eq_ok_iff.1 h
        cases h
        have blob := (Cursor.string_eq_ok_iff (by omega)).1 readBlob
        have behindBlob : _ + c₂.rest.length = c₁.rest.length := blob.length_le
        have octets := (Cursor.string_eq_ok_iff (show c₂.rest.length < _ by omega)).1 readData
        obtain ⟨fit, number⟩ := Cursor.number_eq_ok_iff.1 readFlags
        exact ⟨fit, c₄.rest, (first.trans ((blob.trans octets).trans number)).rest.symm⟩
      next => cases h
  · rintro ⟨fit, behind, rfl⟩
    obtain ⟨c₁, first, body⟩ :=
      ((Cursor.passes_start_iff (b := r.payload) (d := ⟨r.payload.length, behind⟩)).2
        ⟨rfl, rfl⟩).split (a := [r.opcode])
    have left : 1 + c₁.rest.length = (r.payload ++ behind).length := first.length_le
    refine orMalformed_bind_eq_ok_iff.2
      ⟨(r.opcode.toNat, c₁), Cursor.octet_eq_ok_iff.2 ⟨r.opcode, rfl, first⟩, ?_⟩
    cases r with
    | identities => rfl
    | sign keyBlob data flags =>
        obtain ⟨c₃, strings, number⟩ := body.split
        obtain ⟨c₂, blob, octets⟩ := strings.split
        have behindBlob := blob.length_le
        refine orMalformed_bind_eq_ok_iff.2
          ⟨(keyBlob, c₂), (Cursor.string_eq_ok_iff (by omega)).2 blob, ?_⟩
        refine orMalformed_bind_eq_ok_iff.2
          ⟨(data, c₃), (Cursor.string_eq_ok_iff (by omega)).2 octets, ?_⟩
        exact orMalformed_bind_eq_ok_iff.2
          ⟨(flags, _), Cursor.number_eq_ok_iff.2 ⟨fit, number⟩, rfl⟩

/-! ### Answers -/

/-- The octets behind the opcode that are read as an answer.  The blob of a signature may have
any octets behind those of the signature. -/
inductive Response.Spells : Response → Bytes → Prop
  | failure : Spells .failure []
  | identities {keys : List Identity} (named : ∀ i ∈ keys, i.WellNamed) :
      Spells (.identities keys) (Bytes.word32 keys.length ++ keys.flatMap Identity.entry)
  | signature (s : Signature) (surplus : Bytes) :
      Spells (.signature s) (lengthPrefixed (s.toBlob ++ surplus))

section
variable {c d : Cursor} {r : Response}

theorem Response.readBody_eq_ok_iff {opcode : Nat} (small : c.rest.length < word32Span) :
    Response.readBody opcode c = .ok (r, d) ↔
      r.opcode.toNat = opcode ∧ ∃ body, r.Spells body ∧ c.Passes body d := by
  unfold Response.readBody
  constructor
  · intro h
    split at h
    next failed =>
      cases h
      exact ⟨failed.symm, [], .failure, Cursor.passes_nil_iff.2 rfl⟩
    next =>
      split at h
      next listed =>
        obtain ⟨⟨keys, c₁⟩, readKeys, h⟩ := orMalformed_bind_eq_ok_iff.1 h
        cases h
        obtain ⟨named, moved⟩ := (Identity.readList_eq_ok_iff small).1 readKeys
        exact ⟨listed.symm, _, .identities named, moved⟩
      next =>
        split at h
        next signed =>
          obtain ⟨⟨blob, c₁⟩, readBlob, h⟩ := orMalformed_bind_eq_ok_iff.1 h
          obtain ⟨s, readSignature, h⟩ := orMalformed_bind_eq_ok_iff.1 h
          cases h
          have moved := (Cursor.string_eq_ok_iff small).1 readBlob
          have left := moved.length_le
          rw [length_lengthPrefixed] at left
          have fits : blob.length < word32Span := by omega
          obtain ⟨surplus, rfl⟩ := (Signature.ofBlob_eq_ok_iff fits).1 readSignature
          exact ⟨signed.symm, _, .signature s surplus, moved⟩
        next => cases h
  · rintro ⟨rfl, body, spelled, moved⟩
    cases spelled with
    | failure =>
        rw [Cursor.passes_nil_iff] at moved
        rw [moved]
        rfl
    | @identities keys named =>
        have readKeys := (Identity.readList_eq_ok_iff small).2 ⟨named, moved⟩
        exact orMalformed_bind_eq_ok_iff.2 ⟨(keys, d), readKeys, rfl⟩
    | signature s surplus =>
        have left := moved.length_le
        rw [length_lengthPrefixed] at left
        have readSignature : Signature.ofBlob (s.toBlob ++ surplus) = .ok s :=
          (Signature.ofBlob_eq_ok_iff (by omega)).2 ⟨surplus, rfl⟩
        refine orMalformed_bind_eq_ok_iff.2
          ⟨(s.toBlob ++ surplus, d), (Cursor.string_eq_ok_iff small).2 moved, ?_⟩
        exact orMalformed_bind_eq_ok_iff.2 ⟨s, readSignature, rfl⟩

/-- Behind what spells an answer there may be nothing. -/
theorem Response.decode_append_of_spells {body : Bytes} (spelled : r.Spells body) (x : Bytes)
    (small : (r.opcode :: body ++ x).length < word32Span) :
    Response.decode (r.opcode :: body ++ x) =
      if x.isEmpty then .ok r else .error (.malformed (.trailing x.length)) := by
  obtain ⟨c₁, first, moved⟩ :=
    ((Cursor.passes_start_iff (b := r.opcode :: body) (d := ⟨body.length + 1, x⟩)).2
      ⟨rfl, rfl⟩).split (a := [r.opcode])
  have left : 1 + c₁.rest.length = (r.opcode :: body ++ x).length := first.length_le
  have readOpcode : (Cursor.start (r.opcode :: body ++ x)).octet .responseOpcode =
      .ok (r.opcode.toNat, c₁) := Cursor.octet_eq_ok_iff.2 ⟨r.opcode, rfl, first⟩
  have readBody : Response.readBody r.opcode.toNat c₁ = .ok (r, ⟨body.length + 1, x⟩) :=
    (Response.readBody_eq_ok_iff (by omega)).2 ⟨rfl, body, spelled, moved⟩
  unfold Response.decode
  rw [readOpcode]
  show Response.readBody r.opcode.toNat c₁ >>= _ = _
  rw [readBody]
  rfl

/-- An answer is read from what it spells, and from nothing else. -/
theorem Response.decode_eq_ok_iff {p : Bytes} (small : p.length < word32Span) :
    Response.decode p = .ok r ↔ ∃ body, r.Spells body ∧ p = r.opcode :: body := by
  unfold Response.decode
  constructor
  · intro h
    obtain ⟨⟨opcode, c₁⟩, readOpcode, h⟩ := orMalformed_bind_eq_ok_iff.1 h
    obtain ⟨⟨answer, c₂⟩, readBody, checked⟩ := bind_eq_ok_iff.1 h
    obtain ⟨x, rfl, first⟩ := Cursor.octet_eq_ok_iff.1 readOpcode
    have left : 1 + c₁.rest.length = p.length := first.length_le
    obtain ⟨same, body, spelled, moved⟩ :=
      (Response.readBody_eq_ok_iff (show c₁.rest.length < _ by omega)).1 readBody
    obtain rfl := UInt8.toNat_inj.1 same
    simp only at checked
    split at checked
    next ended =>
      cases checked
      have all := (first.trans moved).rest
      rw [List.isEmpty_iff.1 ended, List.append_nil] at all
      exact ⟨body, spelled, all⟩
    next => cases checked
  · rintro ⟨body, spelled, rfl⟩
    have all := Response.decode_append_of_spells spelled [] (by rwa [List.append_nil])
    rwa [List.append_nil] at all

/-! ### The names of the keys in an answer -/

theorem Identity.names_of_read {i : Identity} (h : Identity.read c = .ok (i, d)) :
    Names i.keyBlob i.algorithm := by
  obtain ⟨⟨keyBlob, c₁⟩, -, h⟩ := bind_eq_ok_iff.1 h
  obtain ⟨⟨comment, c₂⟩, -, h⟩ := bind_eq_ok_iff.1 h
  obtain ⟨algorithm, readName, h⟩ := bind_eq_ok_iff.1 h
  cases h
  exact keyAlgorithm_ok_iff.1 readName

theorem Identity.names_of_readMany {n : Nat} {keys : List Identity}
    (h : Identity.readMany n c = .ok (keys, d)) : ∀ i ∈ keys, Names i.keyBlob i.algorithm := by
  induction n generalizing c keys with
  | zero =>
      cases h
      exact List.forall_mem_nil _
  | succ n ih =>
      obtain ⟨⟨key, c₁⟩, readKey, h⟩ := bind_eq_ok_iff.1 h
      obtain ⟨⟨others, c₂⟩, readOthers, h⟩ := bind_eq_ok_iff.1 h
      cases h
      exact List.forall_mem_cons.2 ⟨Identity.names_of_read readKey, ih readOthers⟩

theorem Identity.names_of_readList {keys : List Identity}
    (h : Identity.readList c = .ok (keys, d)) : ∀ i ∈ keys, Names i.keyBlob i.algorithm := by
  obtain ⟨⟨count, c₁⟩, -, h⟩ := bind_eq_ok_iff.1 h
  simp only at h
  split at h
  next => cases h
  next => exact Identity.names_of_readMany h

/-- Whatever octets an answer is read from, the algorithm of every key is the name at the start of
its blob. -/
theorem Response.names_of_decode {p : Bytes} {keys : List Identity}
    (h : Response.decode p = .ok (.identities keys)) : ∀ i ∈ keys, Names i.keyBlob i.algorithm := by
  obtain ⟨⟨opcode, c₁⟩, -, h⟩ := orMalformed_bind_eq_ok_iff.1 h
  obtain ⟨⟨answer, c₂⟩, readBody, checked⟩ := bind_eq_ok_iff.1 h
  simp only at checked
  split at checked
  next =>
    cases checked
    unfold Response.readBody at readBody
    split at readBody
    next => cases readBody
    next =>
      split at readBody
      next =>
        obtain ⟨⟨keys', c₃⟩, readKeys, same⟩ := orMalformed_bind_eq_ok_iff.1 readBody
        cases same
        exact Identity.names_of_readList readKeys
      next =>
        split at readBody
        next =>
          obtain ⟨⟨blob, c₃⟩, -, signed⟩ := orMalformed_bind_eq_ok_iff.1 readBody
          obtain ⟨s, -, same⟩ := orMalformed_bind_eq_ok_iff.1 signed
          cases same
        next => cases readBody
  next => cases checked

end

end ForgeGateway.Agent
