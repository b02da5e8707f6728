import ForgeGateway.Proofs.Agent.Exchange
import ForgeGateway.Scenario.AgentChannel

/-! # Which answer goes to which request

Requests are made one after the other on one channel.  Each result is told by the chunks that its
own exchange has read, and by nothing else, so that what an earlier exchange has read, be it part of
a message or more than one, is never looked at again (`replies_credited`).  What nobody has read is
not thrown away with it: it stands in the channel ahead of all that the agent sends later.

As long as every request has had its answer, and the agent says nothing else, each result comes from
what the agent sent upon the request.  An answer that comes after its exchange was given up is taken
for that of the next request (`late_answer_credited`). -/

namespace ForgeGateway.Scenario

open ForgeGateway.Agent

/-- The chunks that a send causes, with the times from which on they are there. -/
def AgentChannel.caused (c : AgentChannel) (now : Time) : Arrivals (Option Bytes) :=
  match c.sends with
  | .chunks cs _ :: _ => cs.map fun (after, b) => (now + after, b)
  | _ => []

/-- What is read in an exchange. -/
structure Exchanged where
  request : Agent.Request
  /-- What was there to be read before the request was sent. -/
  before : Arrivals (Option Bytes)
  /-- What the agent sends upon the request. -/
  caused : Arrivals (Option Bytes)
  /-- What is still there to be read. -/
  left : Arrivals (Option Bytes)
  result : ProxyResult

namespace Exchanged

def taken (x : Exchanged) : Arrivals (Option Bytes) :=
  (x.before ++ x.caused).take ((x.before ++ x.caused).length - x.left.length)

/-- The octets that have been read. -/
def octets (x : Exchanged) : Bytes := Exchange.octets (x.taken.map Prod.snd)

/-- How the result comes from what has been read. -/
inductive Comes (timeout : Time) (x : Exchanged) : Prop
  /-- The request was not sent. -/
  | unsent {text : String} (nothing : x.taken = [])
      (result : x.result = .answer (.error (.channel text)))
  | told {res : Except AgentError Answer} (told : Told x.request x.octets res)
      (result : x.result = .answer res)
  | ended {t : Time} {behind : Arrivals (Option Bytes)}
      (untold : ∀ res, ¬ Told x.request x.octets res) (closed : x.left = (t, none) :: behind)
      (result : x.result = .answer (.error .channelClosed))
  | late (untold : ∀ res, ¬ Told x.request x.octets res)
      (result : x.result = .answer (.error (.timeout timeout.nanos)))
  | abandoned (untold : ∀ res, ¬ Told x.request x.octets res) (result : x.result = .abandoned)

/-- An exchange reads from the front, and its result comes from what it has read. -/
structure Reads (timeout : Time) (x : Exchanged) : Prop where
  split : x.before ++ x.caused = x.taken ++ x.left
  whole : ∀ c ∈ x.taken, c.2 ≠ none
  comes : x.Comes timeout

/-- The agent sends one message upon the request, in chunks that are not empty. -/
structure OneMessage (x : Exchanged) : Prop where
  message : ∃ payload, payload ≠ [] ∧ payload.length ≤ maxMessageLength ∧
    Exchange.octets (x.caused.map Prod.snd) = frame payload
  chunks : ∀ c ∈ x.caused, ∃ chunk, c.2 = some chunk ∧ chunk ≠ []

end Exchanged

/-- A result that shows what the agent said. -/
inductive ProxyResult.IsReply : ProxyResult → Prop
  | answer (a : Answer) : IsReply (.answer (.ok a))
  | refused : IsReply (.answer (.error .refused))
  | malformed (fault : MessageFault) : IsReply (.answer (.error (.malformed fault)))
  | unexpectedOpcode (opcode : Nat) : IsReply (.answer (.error (.unexpectedOpcode opcode)))

namespace Proxy

/-- What is read in the exchange of a request. -/
def exchanged (timeout : Time) (p : Proxy) (r : Agent.Request) (abandon : Option Time) :
    Exchanged where
  request := r
  before := p.channel.queue
  caused := p.channel.caused p.now
  left := (p.exchange timeout r abandon).1.channel.queue
  result := (p.exchange timeout r abandon).2

/-- The exchange that a call makes, if the channel is open. -/
def exchanged? (timeout : Time) (p : Proxy) : ProxyCall → Option Exchanged
  | .exchange r abandon => if p.isOpen then some (p.exchanged timeout r abandon) else none
  | _ => none

/-- The exchanges of calls that are made one after the other. -/
def exchanges (timeout : Time) (p : Proxy) : List ProxyCall → List Exchanged
  | [] => []
  | c :: rest => (p.exchanged? timeout c).toList ++ (p.call timeout c).1.exchanges timeout rest

/-- The result of a call that has sent something. -/
def sentResult? : Time × ProxyResult × List (Time × ProxyEvent) → Option ProxyResult
  | (_, result, [(_, .send _)]) => some result
  | _ => none

end Proxy

/-! ### One exchange -/

namespace AgentChannel

theorem send_queue (c : AgentChannel) (now : Time) :
    (c.send now).2.queue = c.queue ++ c.caused now := by
  obtain ⟨sends, queue, closed⟩ := c
  match sends with
  | [] => exact (List.append_nil queue).symm
  | .fail _ :: _ => exact (List.append_nil queue).symm
  | .chunks _ _ :: _ => rfl

theorem send_error {c : AgentChannel} {now : Time} {e : AgentError}
    (failed : (c.send now).1 = .error e) : ∃ text, e = .channel text := by
  obtain ⟨sends, queue, closed⟩ := c
  match sends with
  | [] => cases failed
  | .fail text :: _ =>
      cases failed
      exact ⟨text, rfl⟩
  | .chunks _ _ :: _ => cases failed

end AgentChannel

namespace Exchanged

theorem taken_eq {x : Exchanged} {taken : Arrivals (Option Bytes)}
    (split : x.before ++ x.caused = taken ++ x.left) : x.taken = taken := by
  rw [Exchanged.taken, split, List.length_append, Nat.add_sub_cancel, List.take_left]

end Exchanged

namespace Proxy

section
variable (timeout : Time) (p : Proxy) (r : Agent.Request) (abandon : Option Time)

theorem now_le_lastTime : max p.now p.now ≤ p.lastTime timeout abandon := by
  rw [Nat.max_self]
  cases abandon with
  | none => exact Nat.le_add_right _ _
  | some a => exact Nat.le_min.2 ⟨Nat.le_add_right _ _, Nat.le_add_right _ _⟩

theorem exchange_result :
    (∃ o, (p.reading timeout r abandon).progress = .done o ∧
      (p.exchange timeout r abandon).2 = .answer o.result) ∨
    ∃ b, (p.reading timeout r abandon).progress = .more b ∧
      ((p.exchange timeout r abandon).2 = .answer (.error (.timeout timeout.nanos)) ∨
        (p.exchange timeout r abandon).2 = .abandoned) := by
  cases progress : (p.reading timeout r abandon).progress with
  | done o =>
      refine .inl ⟨o, rfl, ?_⟩
      rw [exchange]
      simp only [progress]
  | more b =>
      refine .inr ⟨b, rfl, ?_⟩
      rw [exchange]
      simp only [progress]
      by_cases passed : p.now + timeout ≤ p.lastTime timeout abandon
      · exact .inl (if_pos passed)
      · exact .inr (if_neg passed)

theorem exchange_eq_run :
    let (sent, channel) := p.channel.send p.now
    let e := Exchange.run timeout r p.now (some (p.now, sent)) channel.queue
    (p.exchange timeout r none).2 = .answer e.result ∧
      (p.exchange timeout r none).1.now = e.time ∧
      (p.exchange timeout r none).1.channel.queue = e.left := by
  refine ⟨?_, rfl, rfl⟩
  show _ = ProxyResult.answer
    ((Exchange.reader timeout r).result (p.reading timeout r none).progress).result
  rw [exchange]
  cases progress : (p.reading timeout r none).progress with
  | done o => simp only [Reader.result]
  | more b =>
      simp only [Reader.result]
      exact if_pos (Nat.le_refl _)

theorem result_of_more {b : Bytes} (more : (p.reading timeout r none).progress = .more b) :
    (p.exchanged timeout r none).result = .answer (.error (.timeout timeout.nanos)) := by
  refine (p.exchange_eq_run timeout r).1.trans ?_
  show ProxyResult.answer
    ((Exchange.reader timeout r).result (p.reading timeout r none).progress).result = _
  rw [more]
  rfl

theorem exchanged_whole : (p.exchanged timeout r abandon).before ++
    (p.exchanged timeout r abandon).caused = (p.channel.send p.now).2.queue :=
  (p.channel.send_queue p.now).symm

/-- Where the request cannot be sent nothing is read. -/
theorem reads_of_unsent {e : AgentError} (failed : (p.channel.send p.now).1 = .error e) :
    (p.exchanged timeout r abandon).Reads timeout := by
  obtain ⟨text, rfl⟩ := AgentChannel.send_error failed
  have reading : p.reading timeout r abandon =
      ⟨max p.now p.now, .done ⟨.error (.channel text), []⟩, (p.channel.send p.now).2.queue⟩ := by
    rw [Proxy.reading]
    simp only [failed]
    exact Exchange.upTo_of_unsent (p.now_le_lastTime timeout abandon)
  have left : (p.exchanged timeout r abandon).left = (p.channel.send p.now).2.queue :=
    congrArg Reading.left reading
  have split : (p.exchanged timeout r abandon).before ++ (p.exchanged timeout r abandon).caused =
      [] ++ (p.exchanged timeout r abandon).left :=
    (p.exchanged_whole timeout r abandon).trans left.symm
  have nothing := Exchanged.taken_eq split
  rcases p.exchange_result timeout r abandon with ⟨o, progress, result⟩ | ⟨b, progress, -⟩
  · rw [reading] at progress
    cases progress
    exact ⟨by rwa [nothing], by rw [nothing]; nofun, .unsent nothing result⟩
  · rw [reading] at progress
    cases progress

theorem reads_of_sent (sent : (p.channel.send p.now).1 = .ok ()) :
    (p.exchanged timeout r abandon).Reads timeout := by
  have reading : p.reading timeout r abandon = Exchange.upTo timeout r
      (p.lastTime timeout abandon) p.now (some (p.now, .ok ())) (p.channel.send p.now).2.queue := by
    rw [Proxy.reading]
    simp only [sent]
  obtain ⟨taken, split, chunks, readAs⟩ := Exchange.upTo_reads timeout r
    (p.channel.send p.now).2.queue (p.now_le_lastTime timeout abandon)
  rw [← reading] at split readAs
  obtain rfl := Exchanged.taken_eq ((p.exchanged_whole timeout r abandon).trans split)
  refine ⟨(p.exchanged_whole timeout r abandon).trans split, chunks, ?_⟩
  rcases p.exchange_result timeout r abandon with
    ⟨o, progress, result⟩ | ⟨b, progress, late | abandoned⟩
  · rw [progress] at readAs
    cases readAs with
    | told told => exact .told told result
    | ended untold closed ended => exact .ended untold closed (by rw [← ended]; exact result)
  · rw [progress] at readAs
    cases readAs with
    | more untold => exact .late untold late
  · rw [progress] at readAs
    cases readAs with
    | more untold => exact .abandoned untold abandoned

theorem reads_exchanged : (p.exchanged timeout r abandon).Reads timeout := by
  cases sent : (p.channel.send p.now).1 with
  | error e => exact p.reads_of_unsent timeout r abandon sent
  | ok _ => exact p.reads_of_sent timeout r abandon sent

end

/-- A call makes no exchange and reads nothing, or it makes one exchange. -/
theorem call_cases (timeout : Time) (p : Proxy) (c : ProxyCall) :
    (p.exchanged? timeout c = none ∧ (p.call timeout c).1.channel.queue = p.channel.queue ∧
        ∀ t, sentResult? (t, (p.call timeout c).2) = none) ∨
      ∃ r abandon, p.exchanged? timeout c = some (p.exchanged timeout r abandon) ∧
        p.call timeout c = ((p.exchange timeout r abandon).1, (p.exchange timeout r abandon).2,
          [(p.now, .send r.encode)]) := by
  cases c with
  | wait length => exact .inl ⟨rfl, rfl, fun _ => rfl⟩
  | close =>
      refine .inl ⟨rfl, rfl, fun _ => ?_⟩
      cases isOpen : p.isOpen with
      | true => simp [call, isOpen, sentResult?]
      | false => simp [call, isOpen, sentResult?]
  | exchange r abandon =>
      cases isOpen : p.isOpen with
      | true =>
          refine .inr ⟨r, abandon, ?_, ?_⟩
          · rw [exchanged?, if_pos isOpen]
          · simp [call, isOpen]
      | false =>
          -- On a closed channel a request is refused before anything is sent.
          refine .inl ⟨?_, ?_, fun _ => ?_⟩
          · rw [exchanged?, if_neg (by simp [isOpen])]
          · simp [call, isOpen]
          · simp [call, isOpen, sentResult?]

end Proxy

/-! ### One exchange after the other -/

/-- Each exchange goes on with what the one before it has left. -/
inductive Linked : Arrivals (Option Bytes) → List Exchanged → Arrivals (Option Bytes) → Prop
  | nil {queue : Arrivals (Option Bytes)} : Linked queue [] queue
  | cons {x : Exchanged} {xs : List Exchanged} {queue : Arrivals (Option Bytes)}
      (rest : Linked x.left xs queue) : Linked x.before (x :: xs) queue

namespace Linked

variable {timeout : Time} {queue queue' : Arrivals (Option Bytes)} {xs ys : List Exchanged}
  {x : Exchanged}

theorem split (linked : Linked queue (xs ++ x :: ys) queue') : Linked queue xs x.before := by
  induction xs generalizing queue with
  | nil =>
      cases linked
      exact .nil
  | cons first xs ih =>
      cases linked with
      | cons rest => exact .cons (ih rest)

/-- What is sent is read or left, in the order in which it is sent. -/
theorem conserved (linked : Linked queue xs queue') (reads : ∀ x ∈ xs, x.Reads timeout) :
    queue ++ xs.flatMap Exchanged.caused = xs.flatMap Exchanged.taken ++ queue' := by
  induction linked with
  | nil => exact List.append_nil _
  | @cons x xs queue rest ih =>
      obtain ⟨first, others⟩ := List.forall_mem_cons.1 reads
      calc x.before ++ (x.caused ++ xs.flatMap Exchanged.caused)
          = x.taken ++ (x.left ++ xs.flatMap Exchanged.caused) := by
            rw [← List.append_assoc, first.split, List.append_assoc]
        _ = x.taken ++ (xs.flatMap Exchanged.taken ++ queue) := by rw [ih others]
        _ = (x.taken ++ xs.flatMap Exchanged.taken) ++ queue := (List.append_assoc _ _ _).symm

end Linked

namespace Exchanged

variable {timeout : Time} {x : Exchanged}

/-- What was there before is read first. -/
theorem Reads.first (reads : x.Reads timeout) :
    x.taken <+: x.before ∨ ∃ own, x.taken = x.before ++ own ∧ own <+: x.caused := by
  rcases List.append_eq_append_iff.1 reads.split with ⟨own, all, rest⟩ | ⟨unread, all, -⟩
  · exact .inr ⟨own, all, x.left, rest.symm⟩
  · exact .inl ⟨unread, all.symm⟩

/-- Where nothing was there before, nothing else is read than what the agent sends. -/
theorem Reads.own (reads : x.Reads timeout) (nothing : x.before = []) : x.taken <+: x.caused := by
  have split := reads.split
  rw [nothing, List.nil_append] at split
  exact ⟨x.left, split.symm⟩

theorem Reads.told (reads : x.Reads timeout) (reply : x.result.IsReply) :
    ∃ res, Told x.request x.octets res := by
  cases reads.comes with
  | told told => exact ⟨_, told⟩
  | unsent _ result | ended _ _ result | late _ result | abandoned _ result =>
      rw [result] at reply
      cases reply

theorem eq_nil_of_octets {queue : Arrivals (Option Bytes)}
    (chunks : ∀ c ∈ queue, ∃ chunk, c.2 = some chunk ∧ chunk ≠ [])
    (empty : Exchange.octets (queue.map Prod.snd) = []) : queue = [] := by
  cases queue with
  | nil => rfl
  | cons c queue =>
      obtain ⟨chunk, there, nonempty⟩ := chunks c List.mem_cons_self
      rw [List.map_cons, there, Exchange.octets] at empty
      exact absurd (List.append_eq_nil_iff.1 empty).1 nonempty

theorem Reads.left_eq_nil (reads : x.Reads timeout) (nothing : x.before = []) (one : x.OneMessage)
    (reply : x.result.IsReply) : x.left = [] := by
  obtain ⟨payload, nonempty, short, message⟩ := one.message
  obtain ⟨res, told⟩ := reads.told reply
  have split := reads.split
  rw [nothing, List.nil_append] at split
  have whole : none ∉ x.taken.map Prod.snd := fun member => by
    obtain ⟨c, there, ended⟩ := List.mem_map.1 member
    exact reads.whole c there ended
  have octets : x.octets ++ Exchange.octets (x.left.map Prod.snd) = frame payload := by
    rw [Exchanged.octets, ← Exchange.octets_append whole, ← List.map_append, ← split, message]
  refine eq_nil_of_octets (fun c member => one.chunks c ?_) (told.whole nonempty short octets)
  rw [split]
  exact List.mem_append_right _ member

end Exchanged

/-- As long as every request has its reply, nothing is left. -/
theorem Linked.nothing_left {timeout : Time} {xs : List Exchanged}
    {queue queue' : Arrivals (Option Bytes)} (linked : Linked queue xs queue')
    (nothing : queue = [])
    (replied : ∀ x ∈ xs, x.Reads timeout ∧ x.OneMessage ∧ x.result.IsReply) : queue' = [] := by
  induction linked with
  | nil => exact nothing
  | cons rest ih =>
      obtain ⟨⟨reads, one, reply⟩, others⟩ := List.forall_mem_cons.1 replied
      exact ih (reads.left_eq_nil nothing one reply) others

/-! ### Calls -/

namespace Proxy

theorem calls_cons_fst (timeout : Time) (p : Proxy) (c : ProxyCall) (rest : List ProxyCall) :
    (p.calls timeout (c :: rest)).1 = ((p.call timeout c).1.calls timeout rest).1 := rfl

theorem linked_exchanges (timeout : Time) (p : Proxy) (calls : List ProxyCall) :
    Linked p.channel.queue (p.exchanges timeout calls)
      (p.calls timeout calls).1.channel.queue := by
  induction calls generalizing p with
  | nil => exact .nil
  | cons c rest ih =>
      have others := ih (p.call timeout c).1
      rw [exchanges, calls_cons_fst]
      rcases p.call_cases timeout c with ⟨none, same, -⟩ | ⟨r, abandon, one, called⟩
      · rw [same] at others
        rw [none]
        exact others
      · rw [one]
        rw [called] at others ⊢
        exact Linked.cons (x := p.exchanged timeout r abandon) others

theorem reads_exchanges (timeout : Time) (p : Proxy) (calls : List ProxyCall) :
    ∀ x ∈ p.exchanges timeout calls, x.Reads timeout := by
  induction calls generalizing p with
  | nil => nofun
  | cons c rest ih =>
      rw [exchanges, List.forall_mem_append]
      refine ⟨fun x made => ?_, ih _⟩
      rcases p.call_cases timeout c with ⟨none, -⟩ | ⟨r, abandon, one, -⟩
      · rw [none] at made
        cases made
      · rw [one] at made
        obtain rfl := List.mem_singleton.1 made
        exact reads_exchanged timeout p r abandon

theorem results_exchanges (timeout : Time) (p : Proxy) (calls : List ProxyCall) :
    (p.calls timeout calls).2.filterMap sentResult? =
      (p.exchanges timeout calls).map Exchanged.result := by
  induction calls generalizing p with
  | nil => rfl
  | cons c rest ih =>
      have others := ih (p.call timeout c).1
      rw [exchanges, List.map_append, ← others, Proxy.calls]
      simp only
      rcases p.call_cases timeout c with ⟨none, -, unsent⟩ | ⟨r, abandon, one, called⟩
      · rw [List.filterMap_cons_none (unsent _), none]
        rfl
      · rw [one, called]
        rfl

end Proxy

namespace Proxy

/-- A call is the same whatever is in the buffer, but for what it leaves there. -/
theorem call_buffer (timeout : Time) (p : Proxy) (b : Bytes) (c : ProxyCall) :
    ∃ b', ({ p with buffer := b } : Proxy).call timeout c =
      ({ (p.call timeout c).1 with buffer := b' }, (p.call timeout c).2) := by
  obtain ⟨now, isOpen, buffer, channel⟩ := p
  cases c with
  | wait length => exact ⟨b, rfl⟩
  | close => exact ⟨[], rfl⟩
  | exchange r abandon =>
      cases isOpen with
      | true => exact ⟨(exchange timeout ⟨now, true, buffer, channel⟩ r abandon).1.buffer, rfl⟩
      | false => exact ⟨b, rfl⟩

theorem calls_buffer (timeout : Time) (p : Proxy) (b : Bytes) (calls : List ProxyCall) :
    (({ p with buffer := b } : Proxy).calls timeout calls).2 = (p.calls timeout calls).2 := by
  induction calls generalizing p b with
  | nil => rfl
  | cons c rest ih =>
      obtain ⟨b', same⟩ := p.call_buffer timeout b c
      have others := ih (p.call timeout c).1 b'
      rw [Proxy.calls, Proxy.calls, same]
      simp only
      rw [others]

end Proxy

/-- How the results of calls on one channel come about. -/
structure Credited (timeout : Time) (p : Proxy) (calls : List ProxyCall) : Prop where
  /-- The exchanges are those of the calls that send something. -/
  results : (p.calls timeout calls).2.filterMap Proxy.sentResult? =
    (p.exchanges timeout calls).map Exchanged.result
  /-- Each of them reads from the front, and its result comes from what it has read. -/
  reads : ∀ x ∈ p.exchanges timeout calls, x.Reads timeout
  /-- What was in the buffer before is thrown away. -/
  discarded : ∀ b, (({ p with buffer := b } : Proxy).calls timeout calls).2 =
    (p.calls timeout calls).2
  /-- What one has read no other one reads. -/
  once : p.channel.queue ++ (p.exchanges timeout calls).flatMap Exchanged.caused =
    (p.exchanges timeout calls).flatMap Exchanged.taken ++
      (p.calls timeout calls).1.channel.queue
  /-- What is there before a request is what was sent and read by no exchange before. -/
  before : ∀ xs x ys, p.exchanges timeout calls = xs ++ x :: ys →
    p.channel.queue ++ xs.flatMap Exchanged.caused = xs.flatMap Exchanged.taken ++ x.before
  /-- It is read ahead of what the agent sends upon the request. -/
  first : ∀ x ∈ p.exchanges timeout calls,
    x.taken <+: x.before ∨ ∃ own, x.taken = x.before ++ own ∧ own <+: x.caused
  /-- As long as an agent says one thing upon each request, and that is heard, what is read is what
  it says upon the request. -/
  own : p.channel.queue = [] → ∀ xs x ys, p.exchanges timeout calls = xs ++ x :: ys →
    (∀ y ∈ xs, y.OneMessage ∧ y.result.IsReply) → x.before = [] ∧ x.taken <+: x.caused

/-- **Every octet counts for one request at most.**  It counts for the one whose exchange reads it,
which is the one upon which it was sent if all before that were replied to. -/
theorem replies_credited (timeout : Time) (p : Proxy) (calls : List ProxyCall) :
    Credited timeout p calls where
  results := p.results_exchanges timeout calls
  reads := p.reads_exchanges timeout calls
  discarded b := p.calls_buffer timeout b calls
  once := (p.linked_exchanges timeout calls).conserved (p.reads_exchanges timeout calls)
  before xs x ys all := by
    have linked := p.linked_exchanges timeout calls
    have reads := p.reads_exchanges timeout calls
    rw [all] at linked reads
    exact linked.split.conserved (List.forall_mem_append.1 reads).1
  first x member := (p.reads_exchanges timeout calls x member).first
  own nothing xs x ys all replied := by
    have linked := p.linked_exchanges timeout calls
    have reads := p.reads_exchanges timeout calls
    rw [all] at linked reads
    obtain ⟨before, others⟩ := List.forall_mem_append.1 reads
    have read := linked.split.nothing_left nothing fun y member =>
      ⟨before y member, replied y member⟩
    exact ⟨read, (List.forall_mem_cons.1 others).1.own read⟩

/-- The answer of an agent that holds no key, and its answer when it holds one. -/
def noKeys : Bytes := frame [12, 0, 0, 0, 0]
def oneKey : Bytes := frame [12, 0, 0, 0, 1, 0, 0, 0, 5, 0, 0, 0, 1, 97, 0, 0, 0, 0]

/-- An agent that is asked for its keys twice, gets one between, and takes its time at first. -/
def slowAgent : Proxy where
  channel.sends := [.chunks [(11000, some noKeys)], .chunks [(5000, some oneKey)]]

/-- It is asked for its keys, and asked again. -/
def askedTwice : List ProxyCall := [.exchange .identities none, .exchange .identities none]

/-- The first request has timed out when its answer comes.  The second request gets that answer, and
its own answer is left. -/
theorem late_answer_credited :
    (slowAgent.calls 10000 askedTwice).2.filterMap Proxy.sentResult? =
        [.answer (.error (.timeout 10000000000)), .answer (.ok (.identities []))] ∧
      (slowAgent.exchanges 10000 askedTwice).map Exchanged.caused =
        [[(11000, some noKeys)], [(15000, some oneKey)]] ∧
      (slowAgent.exchanges 10000 askedTwice).map Exchanged.taken =
        [[], [(11000, some noKeys)]] := by
  have both : slowAgent.exchanges 10000 askedTwice =
      [slowAgent.exchanged 10000 .identities none,
        (slowAgent.exchange 10000 .identities none).1.exchanged 10000 .identities none] := rfl
  have late := slowAgent.result_of_more 10000 .identities (b := []) rfl
  refine ⟨?_, rfl, rfl⟩
  rw [Proxy.results_exchanges, both, List.map_cons, late]
  rfl

end ForgeGateway.Scenario
