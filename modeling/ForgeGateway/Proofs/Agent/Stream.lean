import ForgeGateway.Agent.Frame
import ForgeGateway.Proofs.Agent.Reading

/-! # Messages in a stream

What comes from a channel is fed to an `Inbox` chunk by chunk, and behind each chunk complete
messages are taken until there is none (`receive`).  However the stream is cut, the same
messages are taken as from the whole of it (`receive_eq_drain`): what is found at the front of
a buffer stays there whatever is fed.  `stream_reread` is the round trip: messages that are
written behind each other are taken in their order, each of them is read as what was written,
and nothing is left. -/

namespace ForgeGateway.Agent

/-! ### The front of a buffer -/

theorem word32?_append {b rest : Bytes} {n : Nat} (there : Bytes.word32? b = some (n, rest))
    (x : Bytes) : Bytes.word32? (b ++ x) = some (n, rest ++ x) := by
  obtain ⟨rfl, small⟩ := Bytes.word32_of_word32? there
  rw [List.append_assoc, Bytes.word32?_word32_append small]

/-- A message is taken off the front of a buffer exactly if it stands there framed. -/
theorem splitFrame_eq_some_iff {b payload rest : Bytes} :
    splitFrame b = .ok (some (payload, rest)) ↔
      payload ≠ [] ∧ payload.length ≤ maxMessageLength ∧ b = frame payload ++ rest := by
  unfold splitFrame
  constructor
  · intro h
    split at h
    next => cases h
    next n behind there =>
      obtain ⟨rfl, -⟩ := Bytes.word32_of_word32? there
      split at h
      next => cases h
      next positive =>
        split at h
        next => cases h
        next short =>
          split at h
          next => cases h
          next complete =>
            cases h
            have length : (behind.take n).length = n := List.length_take_of_le (by omega)
            refine ⟨?_, by omega, ?_⟩
            · intro empty
              rw [empty, List.length_nil] at length
              exact positive length.symm
            · rw [frame, lengthPrefixed, length, List.append_assoc, List.take_append_drop]
  · rintro ⟨nonempty, short, rfl⟩
    have positive : payload.length ≠ 0 := fun h => nonempty (List.length_eq_zero_iff.1 h)
    have small : payload.length < 4294967296 := by
      rw [maxMessageLength] at short
      omega
    have complete : payload.length ≤ (payload ++ rest).length := by
      rw [List.length_append]
      omega
    rw [frame, lengthPrefixed, List.append_assoc, Bytes.word32?_word32_append small]
    simp only
    rw [if_neg positive, if_neg (by omega), if_neg (by omega), List.take_left, List.drop_left]

theorem splitFrame_append_of_error {b : Bytes} {fault : MessageFault}
    (h : splitFrame b = .error fault) (x : Bytes) : splitFrame (b ++ x) = .error fault := by
  unfold splitFrame at h ⊢
  split at h
  next => cases h
  next n behind there =>
    rw [word32?_append there]
    simp only
    split at h
    next zero => rw [if_pos zero, h]
    next positive =>
      split at h
      next long => rw [if_neg positive, if_pos long, h]
      next =>
        split at h
        next => cases h
        next => cases h

/-! ### Taking messages -/

namespace Inbox

section
variable {inbox left : Inbox} {payload : Bytes} {fault : MessageFault}

theorem next_eq_some_iff :
    inbox.next = (.ok (some payload), left) ↔
      payload ≠ [] ∧ payload.length ≤ maxMessageLength ∧
        inbox.pending = frame payload ++ left.pending := by
  rw [← splitFrame_eq_some_iff, next]
  constructor
  · intro h
    split at h
    next => cases h
    next => cases h
    next found =>
      cases h
      exact found
  · intro found
    rw [found]

theorem next_eq_none_iff :
    inbox.next = (.ok none, left) ↔ splitFrame inbox.pending = .ok none ∧ left = inbox := by
  rw [next]
  constructor
  · intro h
    split at h
    next => cases h
    next found =>
      cases h
      exact ⟨found, rfl⟩
    next => cases h
  · rintro ⟨found, rfl⟩
    rw [found]

theorem next_eq_error_iff :
    inbox.next = (.error fault, left) ↔ splitFrame inbox.pending = .error fault ∧ left = inbox := by
  rw [next]
  constructor
  · intro h
    split at h
    next found =>
      cases h
      exact ⟨found, rfl⟩
    next => cases h
    next => cases h
  · rintro ⟨found, rfl⟩
    rw [found]

theorem next_feed_of_some (h : inbox.next = (.ok (some payload), left)) (b : Bytes) :
    (inbox.feed b).next = (.ok (some payload), left.feed b) := by
  obtain ⟨nonempty, short, front⟩ := next_eq_some_iff.1 h
  refine next_eq_some_iff.2 ⟨nonempty, short, ?_⟩
  rw [feed, feed, front, List.append_assoc]

theorem next_feed_of_error (h : inbox.next = (.error fault, left)) (b : Bytes) :
    (inbox.feed b).next = (.error fault, inbox.feed b) := by
  obtain ⟨found, -⟩ := next_eq_error_iff.1 h
  exact next_eq_error_iff.2 ⟨splitFrame_append_of_error found b, rfl⟩

theorem length_lt_of_next (h : inbox.next = (.ok (some payload), left)) :
    left.pending.length < inbox.pending.length := by
  obtain ⟨-, -, front⟩ := next_eq_some_iff.1 h
  rw [front, List.length_append, frame, length_lengthPrefixed]
  omega

end

end Inbox

/-- Messages that were taken, the fault that then came, if one did, and what is left. -/
structure Drained where
  taken : List Bytes
  fault? : Option MessageFault
  left : Inbox
  deriving DecidableEq, Repr

namespace Drained

/-- Other messages were taken before. -/
def behind (before : List Bytes) (d : Drained) : Drained := { d with taken := before ++ d.taken }

end Drained

namespace Inbox

/-- Takes messages until none is complete, or there is a fault. -/
def drain (inbox : Inbox) : Drained :=
  match _found : inbox.next with
  | (.error fault, left) => ⟨[], some fault, left⟩
  | (.ok none, left) => ⟨[], none, left⟩
  | (.ok (some payload), left) => left.drain.behind [payload]
termination_by inbox.pending.length
decreasing_by exact length_lt_of_next _found

end Inbox

def Drained.onChunk (d : Drained) (chunk : Bytes) : Drained :=
  (d.left.feed chunk).drain.behind d.taken

def receive (chunks : List Bytes) : Drained := chunks.foldl Drained.onChunk ⟨[], none, {}⟩

section
variable {inbox left : Inbox} {payload : Bytes}

theorem Inbox.drain_of_none (h : inbox.next = (.ok none, left)) :
    inbox.drain = ⟨[], none, left⟩ := by
  rw [Inbox.drain]
  split <;> simp_all

theorem Inbox.drain_of_some (h : inbox.next = (.ok (some payload), left)) :
    inbox.drain = left.drain.behind [payload] := by
  rw [Inbox.drain]
  split <;> simp_all

end

/-- It is all the same whether messages are taken before more comes, or not. -/
theorem Inbox.drain_feed (inbox : Inbox) (b : Bytes) :
    (inbox.feed b).drain = inbox.drain.onChunk b := by
  fun_induction Inbox.drain inbox with
  | case1 inbox fault left found =>
      obtain ⟨-, rfl⟩ := Inbox.next_eq_error_iff.1 found
      rfl
  | case2 inbox left found =>
      obtain ⟨-, rfl⟩ := Inbox.next_eq_none_iff.1 found
      rfl
  | case3 inbox payload left found ih =>
      rw [Inbox.drain_of_some (Inbox.next_feed_of_some found b), ih]
      rfl

/-- **However a stream is cut, the same messages are taken as from the whole of it.** -/
theorem receive_eq_drain (chunks : List Bytes) :
    receive chunks = (⟨chunks.flatten⟩ : Inbox).drain := by
  -- From any buffer, since the induction goes on with what the first chunk has left.
  have run : ∀ inbox : Inbox,
      chunks.foldl Drained.onChunk inbox.drain = (inbox.feed chunks.flatten).drain := by
    induction chunks with
    | nil =>
        intro inbox
        rw [List.flatten_nil, Inbox.feed, List.append_nil]
        rfl
    | cons chunk chunks ih =>
        intro inbox
        rw [List.foldl_cons, ← Inbox.drain_feed, ih, List.flatten_cons, Inbox.feed, Inbox.feed,
          Inbox.feed, List.append_assoc]
  have start : (⟨[], none, {}⟩ : Drained) = ({} : Inbox).drain :=
    (Inbox.drain_of_none (Inbox.next_eq_none_iff.2 ⟨rfl, rfl⟩)).symm
  rw [receive, start, run]
  rfl

theorem Inbox.drain_frames {payloads : List Bytes}
    (proper : ∀ p ∈ payloads, p ≠ [] ∧ p.length ≤ maxMessageLength) :
    (⟨payloads.flatMap frame⟩ : Inbox).drain = ⟨payloads, none, {}⟩ := by
  induction payloads with
  | nil => exact Inbox.drain_of_none (Inbox.next_eq_none_iff.2 ⟨rfl, rfl⟩)
  | cons p payloads ih =>
      obtain ⟨first, others⟩ := List.forall_mem_cons.1 proper
      have found : (⟨(p :: payloads).flatMap frame⟩ : Inbox).next =
          (.ok (some p), ⟨payloads.flatMap frame⟩) :=
        Inbox.next_eq_some_iff.2 ⟨first.1, first.2, List.flatMap_cons⟩
      rw [Inbox.drain_of_some found, ih others]
      rfl

/-! ### The round trip -/

/-- A message, to the agent or from it. -/
inductive Message where
  | request (r : Request)
  | response (r : Response)
  deriving DecidableEq, Repr

namespace Message

def payload : Message → Bytes
  | .request r => r.payload
  | .response r => r.payload

def encode : Message → Bytes
  | .request r => r.encode
  | .response r => r.encode

/-- Flags have room in four octets, and the algorithm of a key is the name at the start of its
blob. -/
def WellFormed : Message → Prop
  | .request r => r.FlagsFit
  | .response (.identities keys) => ∀ i ∈ keys, i.WellNamed
  | .response _ => True

def readAs : Message → Bytes → Except AgentError Message
  | .request _, p => (Request.decode p).map .request
  | .response _, p => (Response.decode p).map .response

theorem encode_eq (m : Message) : m.encode = frame m.payload := by
  cases m with
  | request r => rfl
  | response r => rfl

theorem payload_ne_nil (m : Message) : m.payload ≠ [] := by
  cases m with
  | request r => exact List.cons_ne_nil _ _
  | response r => exact List.cons_ne_nil _ _

theorem reread {m : Message} (formed : m.WellFormed) (small : m.payload.length < word32Span) :
    m.readAs m.payload = .ok m := by
  cases m with
  | request r =>
      have read : Request.decode r.payload = .ok r :=
        (Request.decode_eq_ok_iff small).2 ⟨formed, List.prefix_refl _⟩
      show (Request.decode r.payload).map Message.request = _
      rw [read]
      rfl
  | response r =>
      have read : Response.decode r.payload = .ok r := by
        refine (Response.decode_eq_ok_iff small).2 ?_
        cases r with
        | failure => exact ⟨[], .failure, rfl⟩
        | identities keys => exact ⟨_, .identities formed, rfl⟩
        | signature s =>
            have spelled := Response.Spells.signature s []
            rw [List.append_nil] at spelled
            exact ⟨_, spelled, rfl⟩
      show (Response.decode r.payload).map Message.response = _
      rw [read]
      rfl

end Message

/-- **Messages survive the stream.**  They are taken in their order, each of them is read as
what was written, and nothing is left.  A buffer from which nothing is taken stays as it is,
and a fault stays the same whatever is fed. -/
theorem stream_reread (messages : List Message) (formed : ∀ m ∈ messages, m.WellFormed)
    (short : ∀ m ∈ messages, m.payload.length ≤ maxMessageLength) (chunks : List Bytes)
    (cut : chunks.flatten = messages.flatMap Message.encode) :
    receive chunks = ⟨messages.map Message.payload, none, {}⟩ ∧
    (∀ m ∈ messages, m.readAs m.payload = .ok m) ∧
    ∀ inbox left : Inbox,
      (inbox.next = (.ok none, left) → left = inbox) ∧
      ∀ fault, inbox.next = (.error fault, left) →
        left = inbox ∧ ∀ b, (inbox.feed b).next = (.error fault, inbox.feed b) := by
  refine ⟨?_, ?_, ?_⟩
  · have framed : messages.flatMap Message.encode =
        (messages.map Message.payload).flatMap frame := by
      rw [List.flatMap_map]
      exact congrArg messages.flatMap (funext Message.encode_eq)
    rw [receive_eq_drain, cut, framed, Inbox.drain_frames]
    intro p taken
    obtain ⟨m, member, rfl⟩ := List.mem_map.1 taken
    exact ⟨m.payload_ne_nil, short m member⟩
  · intro m member
    have within := short m member
    have room : maxMessageLength < word32Span := by decide
    exact Message.reread (formed m member) (by omega)
  · intro inbox left
    refine ⟨fun found => (Inbox.next_eq_none_iff.1 found).2, fun fault found => ?_⟩
    exact ⟨(Inbox.next_eq_error_iff.1 found).2, Inbox.next_feed_of_error found⟩

/-- A key whose comment is no text. -/
def sampleKey : Identity := ⟨"a", [0, 0, 0, 1, 97], [255]⟩

theorem sampleKey_wellNamed : sampleKey.WellNamed := ⟨by decide, [], rfl⟩

/-- A request and a list of one key, cut inside both lengths. -/
theorem stream_reread_sample :
    receive [[0, 0], [0, 1, 11, 0, 0, 0], [19, 12, 0, 0, 0, 1, 0, 0, 0, 5, 0, 0], [],
      [0, 1, 97, 0, 0, 0, 1, 255]] =
      ⟨[[11], [12, 0, 0, 0, 1, 0, 0, 0, 5, 0, 0, 0, 1, 97, 0, 0, 0, 1, 255]], none, {}⟩ ∧
    (Message.response (.identities [sampleKey])).readAs
        [12, 0, 0, 0, 1, 0, 0, 0, 5, 0, 0, 0, 1, 97, 0, 0, 0, 1, 255] =
      .ok (.response (.identities [sampleKey])) := by
  have formed : ∀ m ∈ [Message.request .identities, .response (.identities [sampleKey])],
      m.WellFormed := by
    refine List.forall_mem_cons.2 ⟨trivial, List.forall_mem_singleton.2 ?_⟩
    exact List.forall_mem_singleton.2 sampleKey_wellNamed
  obtain ⟨taken, read, -⟩ := stream_reread _ formed (by decide)
    [[0, 0], [0, 1, 11, 0, 0, 0], [19, 12, 0, 0, 0, 1, 0, 0, 0, 5, 0, 0], [],
      [0, 1, 97, 0, 0, 0, 1, 255]] (by decide)
  exact ⟨taken, read _ (List.mem_cons_of_mem _ List.mem_cons_self)⟩

end ForgeGateway.Agent
