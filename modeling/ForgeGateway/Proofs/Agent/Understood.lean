import ForgeGateway.Agent.Exchange
import ForgeGateway.Proofs.Agent.Stream

/-! # What an answer to a request means

`Request.Understands` says for every message that fits on a channel what it means as the answer to
a request: success if it is of the kind that was asked for, and otherwise one of three failures.
`Told` says when the octets that have come are enough for a result, which is as soon as their first
message or a fault of its length is there.  The buffer is read accordingly (`Told.read`,
`untold_iff`), and what has been told stands whatever comes behind it (`Told.append`). -/

namespace ForgeGateway.Agent

/-! ### Messages that break the wire format -/

/-- Where this fails, the wire format was broken. -/
def FailsMalformed {α : Type} (x : Except AgentError α) : Prop :=
  ∀ e, x = .error e → ∃ fault, e = .malformed fault

namespace FailsMalformed

variable {α β : Type}

theorem ok (a : α) : FailsMalformed (.ok a) := nofun

theorem malformed (fault : MessageFault) :
    FailsMalformed (.error (.malformed fault) : Except AgentError α) := by
  intro e failed
  cases failed
  exact ⟨fault, rfl⟩

theorem orMalformed (x : Except MessageFault α) : FailsMalformed (orMalformed x) := by
  cases x with
  | error fault => exact malformed fault
  | ok a => exact ok a

theorem bind {first : Except AgentError α} {second : α → Except AgentError β}
    (h : FailsMalformed first) (next : ∀ a, FailsMalformed (second a)) :
    FailsMalformed (first >>= second) := by
  cases first with
  | error e =>
      obtain ⟨fault, rfl⟩ := h e rfl
      exact malformed fault
  | ok a => exact next a

end FailsMalformed

namespace Response

/-- Answers of a known kind. -/
def KnownOpcode (opcode : UInt8) : Prop := opcode = 5 ∨ opcode = 12 ∨ opcode = 14

theorem readBody_failsMalformed {opcode : UInt8} (known : KnownOpcode opcode) (c : Cursor) :
    FailsMalformed (readBody opcode.toNat c) := by
  unfold readBody
  rcases known with rfl | rfl | rfl
  · exact .ok _
  · exact (FailsMalformed.orMalformed _).bind fun _ => .ok _
  · exact (FailsMalformed.orMalformed _).bind fun _ =>
      (FailsMalformed.orMalformed _).bind fun _ => .ok _

theorem decode_failsMalformed {opcode : UInt8} (known : KnownOpcode opcode) (body : Bytes) :
    FailsMalformed (decode (opcode :: body)) := by
  refine (readBody_failsMalformed known ⟨1, body⟩).bind fun ⟨response, c⟩ => ?_
  show FailsMalformed (if c.rest.isEmpty then .ok response else _)
  split
  next => exact .ok _
  next => exact .malformed _

theorem decode_of_unknown {opcode : UInt8} (unknown : ¬ KnownOpcode opcode) (body : Bytes) :
    decode (opcode :: body) = .error (.unexpectedOpcode opcode.toNat) := by
  have other (n : UInt8) (h : opcode ≠ n) : opcode.toNat ≠ n.toNat := fun same =>
    h (UInt8.toNat_inj.1 same)
  have notFailure : opcode.toNat ≠ 5 := other 5 fun h => unknown (.inl h)
  have notKeys : opcode.toNat ≠ 12 := other 12 fun h => unknown (.inr (.inl h))
  have notSignature : opcode.toNat ≠ 14 := other 14 fun h => unknown (.inr (.inr h))
  show readBody opcode.toNat ⟨1, body⟩ >>= _ = _
  rw [readBody, if_neg notFailure, if_neg notKeys, if_neg notSignature]
  rfl

end Response

/-! ### Messages as answers -/

/-- What a message means as the answer to a request. -/
inductive Request.Understands : Request → Bytes → Except AgentError Answer → Prop
  | keys {keys : List Identity} {body : Bytes} (spelled : (Response.identities keys).Spells body) :
      Request.identities.Understands (12 :: body) (.ok (.identities keys))
  | signature {keyBlob data : Bytes} {flags : Nat} {s : Signature} {body : Bytes}
      (spelled : (Response.signature s).Spells body) :
      (Request.sign keyBlob data flags).Understands (14 :: body) (.ok (.signature s))
  | refused {r : Request} : r.Understands [5] (.error .refused)
  | otherSignature {s : Signature} {body : Bytes}
      (spelled : (Response.signature s).Spells body) :
      Request.identities.Understands (14 :: body) (.error (.unexpectedOpcode 14))
  | otherKeys {keyBlob data : Bytes} {flags : Nat} {keys : List Identity} {body : Bytes}
      (spelled : (Response.identities keys).Spells body) :
      (Request.sign keyBlob data flags).Understands (12 :: body) (.error (.unexpectedOpcode 12))
  | unknown {r : Request} {opcode : UInt8} {body : Bytes}
      (unknown : ¬ Response.KnownOpcode opcode) :
      r.Understands (opcode :: body) (.error (.unexpectedOpcode opcode.toNat))
  /-- It is no answer of its kind. -/
  | malformed {r : Request} {opcode : UInt8} {body : Bytes} {fault : MessageFault}
      (known : Response.KnownOpcode opcode)
      (unspelled : ∀ response : Response, response.opcode = opcode → ¬ response.Spells body)
      (read : Response.decode (opcode :: body) = .error (.malformed fault)) :
      r.Understands (opcode :: body) (.error (.malformed fault))

namespace Request

section
variable {r : Request} {payload : Bytes} {res : Except AgentError Answer}

theorem understands_accept (r : Request) {response : Response} {body : Bytes}
    (spelled : response.Spells body) :
    r.Understands (response.opcode :: body) (r.accept response) := by
  cases r with
  | identities =>
      cases response with
      | failure =>
          cases spelled
          exact .refused
      | identities keys => exact .keys spelled
      | signature s => exact .otherSignature spelled
  | sign keyBlob data flags =>
      cases response with
      | failure =>
          cases spelled
          exact .refused
      | identities keys => exact .otherKeys spelled
      | signature s => exact .signature spelled

theorem understands_iff (nonempty : payload ≠ []) (small : payload.length < word32Span) :
    r.Understands payload res ↔ Response.decode payload >>= r.accept = res := by
  constructor
  · intro understood
    have read {response : Response} {body : Bytes} (spelled : response.Spells body)
        (fits : (response.opcode :: body).length < word32Span) :
        Response.decode (response.opcode :: body) = .ok response :=
      (Response.decode_eq_ok_iff fits).2 ⟨body, spelled, rfl⟩
    cases understood with
    | keys spelled => exact congrArg (· >>= accept _) (read spelled small)
    | signature spelled => exact congrArg (· >>= accept _) (read spelled small)
    | refused =>
        cases r with
        | identities => rfl
        | sign => rfl
    | otherSignature spelled => exact congrArg (· >>= accept _) (read spelled small)
    | otherKeys spelled => exact congrArg (· >>= accept _) (read spelled small)
    | unknown unknown => exact congrArg (· >>= accept _) (Response.decode_of_unknown unknown _)
    | malformed known unspelled read => exact congrArg (· >>= accept _) read
  · rintro rfl
    cases payload with
    | nil => exact absurd rfl nonempty
    | cons opcode body =>
        cases read : Response.decode (opcode :: body) with
        | ok response =>
            obtain ⟨body', spelled, same⟩ := (Response.decode_eq_ok_iff small).1 read
            obtain ⟨rfl, rfl⟩ := List.cons.inj same
            exact understands_accept r spelled
        | error e =>
            by_cases known : Response.KnownOpcode opcode
            · obtain ⟨fault, rfl⟩ := Response.decode_failsMalformed known body e read
              refine .malformed known ?_ read
              rintro response rfl spelled
              rw [(Response.decode_eq_ok_iff small).2 ⟨body, spelled, rfl⟩] at read
              cases read
            · rw [Response.decode_of_unknown known] at read
              cases read
              exact .unknown known

end

end Request

/-! ### The first message -/

/-- What the octets that have come tell about a request. -/
inductive Told (r : Request) : Bytes → Except AgentError Answer → Prop
  | answered {payload : Bytes} {res : Except AgentError Answer} (nonempty : payload ≠ [])
      (short : payload.length ≤ maxMessageLength) (understood : r.Understands payload res)
      (behind : Bytes) : Told r (frame payload ++ behind) res
  | zeroLength (behind : Bytes) :
      Told r (Bytes.word32 0 ++ behind) (.error (.malformed .zeroLength))
  | overlong {length : Nat} (long : maxMessageLength < length) (fits : length < word32Span)
      (behind : Bytes) :
      Told r (Bytes.word32 length ++ behind) (.error (.malformed (.overlong length)))

theorem small_of_short {payload : Bytes} (short : payload.length ≤ maxMessageLength) :
    payload.length < word32Span := by
  rw [maxMessageLength] at short
  rw [word32Span]
  omega

theorem splitFrame_eq_error {b : Bytes} {fault : MessageFault}
    (h : splitFrame b = .error fault) :
    (∃ behind, b = Bytes.word32 0 ++ behind ∧ fault = .zeroLength) ∨
      ∃ length behind, b = Bytes.word32 length ++ behind ∧ maxMessageLength < length ∧
        length < word32Span ∧ fault = .overlong length := by
  unfold splitFrame at h
  split at h
  next => cases h
  next length behind there =>
    obtain ⟨rfl, fits⟩ := Bytes.word32_of_word32? there
    split at h
    next zero =>
      cases h
      exact .inl ⟨behind, by rw [zero], rfl⟩
    next =>
      split at h
      next long =>
        cases h
        exact .inr ⟨length, behind, rfl, long, fits, rfl⟩
      next =>
        split at h
        next => cases h
        next => cases h

theorem splitFrame_zeroLength (behind : Bytes) :
    splitFrame (Bytes.word32 0 ++ behind) = .error .zeroLength := by
  rw [splitFrame, Bytes.word32?_word32_append (by decide)]
  rfl

theorem splitFrame_overlong {length : Nat} (long : maxMessageLength < length)
    (fits : length < word32Span) (behind : Bytes) :
    splitFrame (Bytes.word32 length ++ behind) = .error (.overlong length) := by
  rw [splitFrame, Bytes.word32?_word32_append fits]
  simp only
  rw [if_neg (by omega), if_pos long]

namespace Exchange

section
variable {r : Request} {b payload rest : Bytes} {fault : MessageFault}

theorem read_of_error (h : splitFrame b = .error fault) :
    read r b = .done ⟨.error (.malformed fault), b⟩ := by
  rw [read, h]

theorem read_of_none (h : splitFrame b = .ok none) : read r b = .more b := by
  rw [read, h]

theorem read_of_some (h : splitFrame b = .ok (some (payload, rest))) :
    read r b = .done ⟨Response.decode payload >>= r.accept, rest⟩ := by
  rw [read, h]
  simp only
  cases Response.decode payload with
  | error e => rfl
  | ok response => rfl

end

end Exchange

section
variable {r : Request} {b : Bytes} {res res' : Except AgentError Answer}

theorem Told.read (told : Told r b res) : ∃ left, Exchange.read r b = .done ⟨res, left⟩ := by
  cases told with
  | answered nonempty short understood behind =>
      have first := splitFrame_eq_some_iff.2 ⟨nonempty, short, Eq.refl (frame _ ++ behind)⟩
      rw [Exchange.read_of_some first,
        (Request.understands_iff nonempty (small_of_short short)).1 understood]
      exact ⟨behind, rfl⟩
  | zeroLength behind => exact ⟨_, Exchange.read_of_error (splitFrame_zeroLength behind)⟩
  | overlong long fits behind =>
      exact ⟨_, Exchange.read_of_error (splitFrame_overlong long fits behind)⟩

/-- Either nothing has been told yet and all of the buffer is kept, or there is a result. -/
theorem read_cases (r : Request) (b : Bytes) :
    (splitFrame b = .ok none ∧ Exchange.read r b = .more b) ∨
      ∃ o, Exchange.read r b = .done o ∧ Told r b o.result := by
  cases first : splitFrame b with
  | error fault =>
      refine .inr ⟨_, Exchange.read_of_error first, ?_⟩
      rcases splitFrame_eq_error first with
        ⟨behind, rfl, rfl⟩ | ⟨length, behind, rfl, long, fits, rfl⟩
      · exact .zeroLength behind
      · exact .overlong long fits behind
  | ok found =>
      match found with
      | none => exact .inl ⟨rfl, Exchange.read_of_none first⟩
      | some (payload, behind) =>
          obtain ⟨nonempty, short, rfl⟩ := splitFrame_eq_some_iff.1 first
          refine .inr ⟨_, Exchange.read_of_some first, ?_⟩
          exact .answered nonempty short
            ((Request.understands_iff nonempty (small_of_short short)).2 rfl) behind

/-- Nothing has been told as long as no message is complete and its length is not at fault. -/
theorem untold_iff : (∀ res, ¬ Told r b res) ↔ Exchange.read r b = .more b := by
  constructor
  · intro untold
    rcases read_cases r b with ⟨-, more⟩ | ⟨o, -, told⟩
    · exact more
    · exact absurd told (untold o.result)
  · intro more res told
    obtain ⟨left, done⟩ := told.read
    rw [more] at done
    cases done

theorem Told.unique (told : Told r b res) (told' : Told r b res') : res = res' := by
  obtain ⟨left, found⟩ := told.read
  obtain ⟨left', found'⟩ := told'.read
  rw [found] at found'
  cases found'
  rfl

/-- What has been told stands whatever comes behind it. -/
theorem Told.append (told : Told r b res) (x : Bytes) : Told r (b ++ x) res := by
  cases told with
  | answered nonempty short understood behind =>
      rw [List.append_assoc]
      exact .answered nonempty short understood _
  | zeroLength behind =>
      rw [List.append_assoc]
      exact .zeroLength _
  | overlong long fits behind =>
      rw [List.append_assoc]
      exact .overlong long fits _

/-- Before all octets of a message have come, nothing is told. -/
theorem Told.whole {payload rest : Bytes} (told : Told r b res) (nonempty : payload ≠ [])
    (short : payload.length ≤ maxMessageLength) (message : b ++ rest = frame payload) :
    rest = [] := by
  have first : splitFrame (b ++ rest) = .ok (some (payload, [])) :=
    splitFrame_eq_some_iff.2 ⟨nonempty, short, by rw [message, List.append_nil]⟩
  cases told with
  | @answered payload' _ nonempty' short' understood behind =>
      have found : splitFrame (frame payload' ++ behind ++ rest) =
          .ok (some (payload', behind ++ rest)) :=
        splitFrame_eq_some_iff.2 ⟨nonempty', short', List.append_assoc _ _ _⟩
      rw [found] at first
      injection first with first
      injection first with first
      exact (List.append_eq_nil_iff.1 (Prod.mk.inj first).2).2
  | zeroLength behind =>
      rw [List.append_assoc, splitFrame_zeroLength] at first
      cases first
  | overlong long fits behind =>
      rw [List.append_assoc, splitFrame_overlong long fits] at first
      cases first

end

end ForgeGateway.Agent
