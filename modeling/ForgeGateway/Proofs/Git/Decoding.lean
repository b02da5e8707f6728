import ForgeGateway.Proofs.Git.WireForm

/-! # Reading packets is exact

Both readers of packets step over spelled packets (`decodeFrom_spelled`,
`advertisementEndFrom_spelled`) and stop at what is no packet, so that each of their answers says
what the octets are.  `packets_exact` says so of all octet strings: what `decode` gives is what is
spelled, up to an incomplete rest; it fails exactly where four octets announce no packet; and
`advertisementEnd` gives the length of the packets up to the first flush, or else what `decode`
says. -/

namespace ForgeGateway.Git.Packet

/-! ### One packet -/

section
variable {offset : Nat} {b : Bytes}

theorem decodeFrom_of_incomplete (h : Incomplete b) : decodeFrom offset b = .ok [] := by
  have front := h.front_eq
  rw [decodeFrom]
  split <;> simp_all

theorem decodeFrom_of_malformed {lead rest : Bytes} (h : Malformed lead) :
    decodeFrom offset (lead ++ rest) = .error ⟨offset, lead⟩ := by
  have front := h.front_append rest
  rw [decodeFrom]
  split <;> simp_all

theorem decodeFrom_cons {p : Packet} {w rest : Bytes} (h : p.Spells w) :
    decodeFrom offset (w ++ rest) = (decodeFrom (offset + w.length) rest).map (p :: ·) := by
  have front : front (w ++ rest) = .complete p w.length := h.front_append
  rw [decodeFrom]
  split
  next stops => rw [front] at stops; cases stops
  next stops => rw [front] at stops; cases stops
  next q n goesOn =>
    rw [front] at goesOn
    cases goesOn
    rw [List.drop_left]
    cases decodeFrom (offset + w.length) rest with
    | error e => rfl
    | ok ps => rfl

theorem advertisementEndFrom_of_spelled_flush {w rest : Bytes} (h : flush.Spells w) :
    advertisementEndFrom offset (w ++ rest) = .ok (some (offset + w.length)) :=
  advertisementEndFrom_of_flush h.front_append

theorem advertisementEndFrom_cons {p : Packet} {w rest : Bytes} (h : p.Spells w)
    (unflushed : p ≠ .flush) :
    advertisementEndFrom offset (w ++ rest) = advertisementEndFrom (offset + w.length) rest := by
  rw [advertisementEndFrom_of_complete h.front_append unflushed, List.drop_left]

end

/-! ### Many packets -/

section
variable {offset : Nat} {ps : List Packet} {w rest : Bytes}

theorem decodeFrom_spelled (h : SpellsAll ps w) :
    decodeFrom offset (w ++ rest) = (decodeFrom (offset + w.length) rest).map (ps ++ ·) := by
  induction h generalizing offset with
  | nil =>
      show decodeFrom offset rest = (decodeFrom offset rest).map _
      cases decodeFrom offset rest <;> rfl
  | @cons p ps u v first others ih =>
      rw [List.append_assoc, decodeFrom_cons first, ih, List.length_append, Nat.add_assoc]
      cases decodeFrom (offset + (u.length + v.length)) rest <;> rfl

theorem advertisementEndFrom_spelled (h : SpellsAll ps w) (unflushed : .flush ∉ ps) :
    advertisementEndFrom offset (w ++ rest) = advertisementEndFrom (offset + w.length) rest := by
  induction h generalizing offset with
  | nil => rfl
  | @cons p ps u v first others ih =>
      rw [List.mem_cons, not_or] at unflushed
      rw [List.append_assoc, advertisementEndFrom_cons first (Ne.symm unflushed.1),
        ih unflushed.2, List.length_append, Nat.add_assoc]

/-- Behind the packets `ps` four octets of `b` announce no packet; `e` says where, and which. -/
def FailsBehind (ps : List Packet) (b : Bytes) (e : FramingError) : Prop :=
  ∃ w lead rest, SpellsAll ps w ∧ Malformed lead ∧ b = w ++ (lead ++ rest) ∧ e = ⟨w.length, lead⟩

/-- `b` spells the packets `ps`, and less than a packet behind them. -/
def SpellsOut (ps : List Packet) (b : Bytes) : Prop :=
  ∃ w tail, SpellsAll ps w ∧ Incomplete tail ∧ b = w ++ tail

/-- `b` spells the packets `ps`, a flush behind them, and anything behind that. -/
def Flushes (ps : List Packet) (b : Bytes) : Prop :=
  ∃ w rest, SpellsAll (ps ++ [.flush]) w ∧ b = w ++ rest

end

/-! ### What each answer says -/

section
variable {ps : List Packet} {b : Bytes} {e : FramingError}

theorem SpellsOut.decode_eq (h : SpellsOut ps b) : decode b = .ok ps := by
  obtain ⟨w, tail, spelled, incomplete, rfl⟩ := h
  rw [decode, decodeFrom_spelled spelled, decodeFrom_of_incomplete incomplete]
  show Except.ok (ps ++ []) = _
  rw [List.append_nil]

theorem FailsBehind.decode_eq (h : FailsBehind ps b e) : decode b = .error e := by
  obtain ⟨w, lead, rest, spelled, malformed, rfl, rfl⟩ := h
  rw [decode, decodeFrom_spelled spelled, decodeFrom_of_malformed malformed, Nat.zero_add]
  rfl

theorem SpellsOut.advertisementEnd_eq (h : SpellsOut ps b) (unflushed : .flush ∉ ps) :
    advertisementEnd b = .ok none := by
  obtain ⟨w, tail, spelled, incomplete, rfl⟩ := h
  rw [advertisementEnd, advertisementEndFrom_spelled spelled unflushed,
    advertisementEndFrom_of_incomplete incomplete.front_eq]

theorem FailsBehind.advertisementEnd_eq (h : FailsBehind ps b e) (unflushed : .flush ∉ ps) :
    advertisementEnd b = .error e := by
  obtain ⟨w, lead, rest, spelled, malformed, rfl, rfl⟩ := h
  rw [advertisementEnd, advertisementEndFrom_spelled spelled unflushed,
    advertisementEndFrom_of_malformed (malformed.front_append rest), Nat.zero_add]

theorem Flushes.advertisementEnd_eq (h : Flushes ps b) (unflushed : .flush ∉ ps) :
    advertisementEnd b = .ok (some ((ps ++ [flush]).flatMap wire).length) := by
  obtain ⟨w, rest, spelled, rfl⟩ := h
  rw [← spelled.length_eq]
  obtain ⟨u, v, before, last, rfl⟩ := spelled.split
  cases last with
  | @cons _ _ v t first others =>
      cases others
      rw [advertisementEnd, List.append_nil, List.append_assoc,
        advertisementEndFrom_spelled before unflushed,
        advertisementEndFrom_of_spelled_flush first, Nat.zero_add, List.length_append]

/-- Octets are packets with less than one behind them, or they fail behind packets. -/
theorem exists_packets (b : Bytes) :
    ∃ ps, SpellsOut ps b ∨ ∃ e, FailsBehind ps b e := by
  obtain ⟨ps, w, r, spelled, rfl, incomplete | ⟨lead, rest, malformed, rfl⟩⟩ := exists_spelled b
  · exact ⟨ps, .inl ⟨w, r, spelled, incomplete, rfl⟩⟩
  · exact ⟨ps, .inr ⟨⟨w.length, lead⟩, w, lead, rest, spelled, malformed, rfl, rfl⟩⟩

theorem decode_eq_ok_iff : decode b = .ok ps ↔ SpellsOut ps b := by
  constructor
  · intro h
    obtain ⟨qs, out | ⟨e, fails⟩⟩ := exists_packets b
    · rw [out.decode_eq] at h
      cases h
      exact out
    · rw [fails.decode_eq] at h
      cases h
  · exact SpellsOut.decode_eq

theorem decode_eq_error_iff : decode b = .error e ↔ ∃ ps, FailsBehind ps b e := by
  constructor
  · intro h
    obtain ⟨qs, out | ⟨e', fails⟩⟩ := exists_packets b
    · rw [out.decode_eq] at h
      cases h
    · rw [fails.decode_eq] at h
      cases h
      exact ⟨qs, fails⟩
  · rintro ⟨ps, fails⟩
    exact fails.decode_eq

/-- Packets among which there is a flush start with packets up to the first one. -/
theorem exists_flushes {w r : Bytes} (spelled : SpellsAll ps w) (flushed : .flush ∈ ps) :
    ∃ qs, .flush ∉ qs ∧ Flushes qs (w ++ r) := by
  obtain ⟨qs, later, rfl, unflushed⟩ := List.eq_append_cons_of_mem flushed
  rw [List.append_cons] at spelled
  obtain ⟨u, v, before, -, rfl⟩ := spelled.split
  exact ⟨qs, unflushed, u, v ++ r, before, List.append_assoc u v r⟩

/-- Octets flush behind packets that are no flush, or there is no flush in them at all. -/
theorem exists_advertisement (b : Bytes) :
    ∃ ps, .flush ∉ ps ∧ (Flushes ps b ∨ SpellsOut ps b ∨ ∃ e, FailsBehind ps b e) := by
  obtain ⟨ps, read⟩ := exists_packets b
  by_cases flushed : .flush ∈ ps
  · obtain ⟨w, tail, spelled, -, rfl⟩ | ⟨e, w, lead, rest, spelled, -, rfl, -⟩ := read
    · obtain ⟨qs, unflushed, found⟩ := exists_flushes (r := tail) spelled flushed
      exact ⟨qs, unflushed, .inl found⟩
    · obtain ⟨qs, unflushed, found⟩ := exists_flushes (r := lead ++ rest) spelled flushed
      exact ⟨qs, unflushed, .inl found⟩
  · exact ⟨ps, flushed, .inr read⟩

theorem advertisementEnd_eq_some_iff {n : Nat} :
    advertisementEnd b = .ok (some n) ↔
      ∃ ps, .flush ∉ ps ∧ Flushes ps b ∧ n = ((ps ++ [flush]).flatMap wire).length := by
  constructor
  · intro h
    obtain ⟨ps, unflushed, found | out | ⟨e, fails⟩⟩ := exists_advertisement b
    · rw [found.advertisementEnd_eq unflushed] at h
      cases h
      exact ⟨ps, unflushed, found, rfl⟩
    · rw [out.advertisementEnd_eq unflushed] at h
      cases h
    · rw [fails.advertisementEnd_eq unflushed] at h
      cases h
  · rintro ⟨ps, unflushed, found, rfl⟩
    exact found.advertisementEnd_eq unflushed

theorem advertisementEnd_eq_none_iff :
    advertisementEnd b = .ok none ↔ ∃ ps, decode b = .ok ps ∧ .flush ∉ ps := by
  constructor
  · intro h
    obtain ⟨ps, unflushed, found | out | ⟨e, fails⟩⟩ := exists_advertisement b
    · rw [found.advertisementEnd_eq unflushed] at h
      cases h
    · exact ⟨ps, out.decode_eq, unflushed⟩
    · rw [fails.advertisementEnd_eq unflushed] at h
      cases h
  · rintro ⟨ps, read, unflushed⟩
    exact (decode_eq_ok_iff.1 read).advertisementEnd_eq unflushed

theorem advertisementEnd_eq_error_iff :
    advertisementEnd b = .error e ↔
      decode b = .error e ∧ ∃ ps, .flush ∉ ps ∧ FailsBehind ps b e := by
  constructor
  · intro h
    obtain ⟨ps, unflushed, found | out | ⟨e', fails⟩⟩ := exists_advertisement b
    · rw [found.advertisementEnd_eq unflushed] at h
      cases h
    · rw [out.advertisementEnd_eq unflushed] at h
      cases h
    · rw [fails.advertisementEnd_eq unflushed] at h
      cases h
      exact ⟨fails.decode_eq, ps, unflushed, fails⟩
  · rintro ⟨-, ps, unflushed, fails⟩
    exact fails.advertisementEnd_eq unflushed

end

/-- **Reading packets is exact.**  For every octet string: `decode` gives packets exactly when the
octets spell them, with digits of either case, and less than a packet behind them; so it gives back
whatever packets were written, if their lengths can be.  It fails exactly when behind some packets
four octets are not all digits or write the number 3, and says where they stand.
`advertisementEnd` gives a number exactly when it is the length of the packets up to and with the
first flush; it gives none exactly when `decode` gives packets without a flush; and it fails exactly
when `decode` fails in the same way, behind packets without a flush. -/
theorem packets_exact :
    (∀ b ps, decode b = .ok ps ↔ SpellsOut ps b) ∧
    (∀ ps tail, (∀ p ∈ ps, p.Fits) → Incomplete tail →
      decode (ps.flatMap wire ++ tail) = .ok ps) ∧
    (∀ b e, decode b = .error e ↔ ∃ ps, FailsBehind ps b e) ∧
    (∀ b n, advertisementEnd b = .ok (some n) ↔
      ∃ ps, .flush ∉ ps ∧ Flushes ps b ∧ n = ((ps ++ [flush]).flatMap wire).length) ∧
    (∀ b, advertisementEnd b = .ok none ↔ ∃ ps, decode b = .ok ps ∧ .flush ∉ ps) ∧
    ∀ b e, advertisementEnd b = .error e ↔
      decode b = .error e ∧ ∃ ps, .flush ∉ ps ∧ FailsBehind ps b e := by
  refine ⟨fun b ps => decode_eq_ok_iff, ?_, fun b e => decode_eq_error_iff,
    fun b n => advertisementEnd_eq_some_iff, fun b => advertisementEnd_eq_none_iff,
    fun b e => advertisementEnd_eq_error_iff⟩
  intro ps tail fits incomplete
  apply SpellsOut.decode_eq
  exact ⟨ps.flatMap wire, tail, spellsAll_wire fits, incomplete, rfl⟩

/-- A packet of one octet, a flush, and three digits. -/
theorem packets_exact_sample :
    (∀ p ∈ [data [7], flush], p.Fits) ∧ Incomplete [0x30, 0x30, 0x41] ∧
      decode ([data [7], flush].flatMap wire ++ [0x30, 0x30, 0x41]) = .ok [data [7], flush] := by
  have fits : ∀ p ∈ [data [7], flush], p.Fits := by simp [Fits]
  have incomplete : Incomplete [0x30, 0x30, 0x41] := .inl (by decide)
  exact ⟨fits, incomplete, packets_exact.2.1 _ _ fits incomplete⟩

end ForgeGateway.Git.Packet
