import ForgeGateway.Proofs.Scenario.EndedChannels
import ForgeGateway.Proofs.Session.Step

/-! # A second exec line on a channel

A session runs one command on each channel and refuses further exec lines there.  A refusal ends
the channel on which it is told, and this is the channel of the command that runs: the client gets
the refusal's text and status 1 in place of what the command writes later and of its own status,
and the command's input ends (`refusal_cuts_off`).  All the rest of the connection stays as it is;
the command, too, runs on. -/

namespace ForgeGateway.Scenario

/-- What the client gets with the refusal of a second exec line. -/
def refusal : List ChannelEvent :=
  [.stderr (Bytes.ofString Session.secondCommandText), .exit 1, .eof]

/-- The channel when a second exec line has been refused on it. -/
def ClientChannel.refused (x : ClientChannel) : ClientChannel :=
  { x with isOpen := false, events := x.events ++ refusal }

namespace Connection

/-- By the change from `c` to `c'`, command `n` loses its channel. -/
structure CutsOff (channel n : Nat) (c c' : Connection) : Prop where
  /-- The client gets the refusal on the command's channel, which ends. -/
  told {k : Nat} {x : ClientChannel} (there : c.channels[k]? = some x)
    (same : x.number = channel) (isOpen : x.isOpen = true) : c'.channels[k]? = some x.refused
  /-- Nothing comes behind the refusal, whatever the command does. -/
  last {k : Nat} {x : ClientChannel} (there : c.channels[k]? = some x)
    (same : x.number = channel) (isOpen : x.isOpen = true) {d : Connection} (later : Later c' d) :
    ∃ x', d.channels[k]? = some x' ∧ Rests x.refused x'
  /-- Other channels stay as they are. -/
  others {k : Nat} {x : ClientChannel} (there : c.channels[k]? = some x)
    (other : x.number ≠ channel) : c'.channels[k]? = some x
  /-- All commands run on. -/
  tasks : c'.tasks = c.tasks
  /-- Nothing is logged or counted, and neither the gate nor a forge gets to know of it. -/
  shared : c'.shared = c.shared
  /-- The command's input ends, -/
  input (free : c.arrivals = []) : c'.session = c.session.onInput n .shut
  /-- behind all that still waits for the session. -/
  waits (heldUp : c.arrivals ≠ []) :
    c'.session = c.session ∧ c'.arrivals = c.arrivals ++ [.close channel]

section
variable {c : Connection} {channel n : Nat}

theorem deliver_channels (up : c.isUp = true) (es : List ChannelEvent) :
    (c.deliver channel es).channels = c.channels.map fun x =>
      if x.isOpen && x.number = channel then { x with events := x.events ++ es } else x := by
  unfold deliver
  rw [up]
  rfl

theorem deliver_rest (c : Connection) (channel : Nat) (es : List ChannelEvent) :
    (c.deliver channel es).shared = c.shared ∧ (c.deliver channel es).session = c.session ∧
      (c.deliver channel es).arrivals = c.arrivals ∧ (c.deliver channel es).tasks = c.tasks := by
  unfold deliver
  split <;> exact ⟨rfl, rfl, rfl, rfl⟩

theorem shut_rest (c : Connection) (channel : Nat) :
    (c.shut channel).shared = c.shared ∧ (c.shut channel).tasks = c.tasks := by
  unfold shut
  dsimp only
  split <;> exact ⟨rfl, rfl⟩

theorem shut_of_free (free : c.arrivals = []) :
    (c.shut channel).session = (c.session.step c.shared.store (.close channel)).1 ∧
      (c.shut channel).arrivals = [] := by
  have waiting : c.arrivals.isEmpty = true := List.isEmpty_iff.2 free
  unfold shut isHeldUp
  dsimp only
  rw [waiting]
  exact ⟨rfl, free⟩

theorem shut_of_heldUp (heldUp : c.arrivals ≠ []) (channel : Nat) :
    (c.shut channel).session = c.session ∧
      (c.shut channel).arrivals = c.arrivals ++ [.close channel] := by
  have waiting : c.arrivals.isEmpty = false := List.isEmpty_eq_false_iff.2 heldUp
  unfold shut isHeldUp
  dsimp only
  rw [waiting]
  exact ⟨rfl, rfl⟩

theorem feed_exec_refused (line : Bytes) (known : c.session.user.isSome = true)
    (running : c.session.commandOn? channel = some n) :
    (c.feed (.exec channel line)).1 = (c.deliver channel refusal).shut channel := by
  obtain ⟨user, known⟩ := Option.isSome_iff_exists.1 known
  have refuses : c.session.step c.shared.store (.exec channel line) =
      (c.session, [.refuse channel Session.secondCommandText]) := by
    rw [Session.step, Session.exec]
    simp only [known, running, Option.isSome_some, if_true]
  unfold feed
  rw [refuses]
  rfl

/-- **A refused exec line cuts off the command that runs.**  Whenever the session takes in an exec
line on the channel of a command, the command's channel ends with the text of the refusal and
status 1, its input ends, and nothing that it writes later reaches the client; all other channels
and commands stay as they are. -/
theorem refusal_cuts_off (line : Bytes) (up : c.isUp = true)
    (known : c.session.user.isSome = true) (running : c.session.commandOn? channel = some n) :
    CutsOff channel n c (c.feed (.exec channel line)).1 := by
  rw [feed_exec_refused line known running]
  obtain ⟨sameShared, sameSession, sameArrivals, sameTasks⟩ := deliver_rest c channel refusal
  have channels := shut_channels (c.deliver channel refusal) channel
  rw [deliver_channels up, List.map_map] at channels
  have told {k : Nat} {x : ClientChannel} (there : c.channels[k]? = some x)
      (same : x.number = channel) (isOpen : x.isOpen = true) :
      ((c.deliver channel refusal).shut channel).channels[k]? = some x.refused := by
    rw [channels, List.getElem?_map, there]
    simp [isOpen, same, ClientChannel.refused]
  refine ⟨told, fun there same isOpen d later => later.rests (told there same isOpen) rfl,
    ?_, ?_, ?_, ?_, ?_⟩
  · intro k x there other
    rw [channels, List.getElem?_map, there]
    simp [other]
  · rw [(shut_rest ..).2, sameTasks]
  · rw [(shut_rest ..).1, sameShared]
  · intro free
    rw [(shut_of_free (sameArrivals.trans free)).1, sameSession, Session.step, Session.onChannel,
      running]
  · intro heldUp
    rw [← sameArrivals] at heldUp
    obtain ⟨session, arrivals⟩ := shut_of_heldUp heldUp channel
    rw [sameSession] at session
    rw [sameArrivals] at arrivals
    exact ⟨session, arrivals⟩

/-- While nothing waits, the session takes in a further exec line at once. -/
theorem act_exec_refused {name : String} {x : ClientChannel} (line : Bytes) (up : c.isUp = true)
    (free : c.arrivals = []) (outbox : c.outbox = []) (here : c.channel? name = some x)
    (isOpen : x.isOpen = true) (known : c.session.user.isSome = true)
    (running : c.session.commandOn? x.number = some n) :
    (c.act (.exec name line)).2 = (c.feed (.exec x.number line)).1 := by
  have sent : (c.act (.exec name line)).2 = c.arrive (.exec x.number line) := by
    rw [act, onChannel, here]
    simp only [up, isOpen, Bool.not_true, Bool.false_eq_true, if_false, if_true]
    rfl
  have same : ({ c with arrivals := [], outbox := [] } : Connection) = c := by
    rw [← free, ← outbox]
  have done : (c.feed (.exec x.number line)).1.arrivals = [] := by
    rw [feed_exec_refused line known running]
    obtain ⟨-, -, sameArrivals, -⟩ := deliver_rest c x.number refusal
    exact (shut_of_free (sameArrivals.trans free)).2
  rw [sent, arrive, takeIn, free, outbox]
  show takeInFrom 1 (feed { c with arrivals := [], outbox := [] } (.exec x.number line)).1 = _
  rw [same, takeInFrom, done]

end

/-! ### One visit with a second exec line -/

/-- A forge that yields an octet and ends when its input has ended. -/
def sampleForge : Surroundings :=
  { outside := .scripted [("github.com/a/b.git",
      { forge := { steps := [(0, .awaitEof), (0, .yield (.data [7])), (0, .yield (.exit 0))] } })]
    store := Session.sampleOwners }

/-- The client pulls on a channel, and its input is open yet. -/
def samplePulling : List ClientStep :=
  [.auth [0, 0, 0, 1, 97], .openChannel "a",
    .exec "a" (Bytes.ofString "git-upload-pack 'github.com/a/b.git'")]

/-- What comes of some steps. -/
def sampleVisit (steps : List ClientStep) : List StepReport × Connection :=
  (start sampleForge []).visit steps

/-- What the client has received on its channel. -/
def received (reports : List StepReport) : List ChannelEvent :=
  reports.flatMap fun report => (report.channels.map Prod.snd).flatten

/-- The pull is cut off by an empty exec line: whatever the client does then, it sees no more than
the refusal. -/
theorem refusal_cuts_off_sample :
    CutsOff 0 0 (sampleVisit samplePulling).2
      ((sampleVisit samplePulling).2.act (.exec "a" [])).2 ∧
    ∀ steps, ∃ x,
      (((sampleVisit samplePulling).2.act (.exec "a" [])).2.visit steps).2.channels[0]? = some x ∧
      (x.events = refusal ∨ x.events = []) := by
  have here : (sampleVisit samplePulling).2.channel? "a" = some { name := "a", number := 0 } := by
    decide +kernel
  have there : (sampleVisit samplePulling).2.channels[0]? =
      some { name := "a", number := 0 } := by
    decide +kernel
  have up : (sampleVisit samplePulling).2.isUp = true := by decide +kernel
  have known : (sampleVisit samplePulling).2.session.user.isSome = true := by decide +kernel
  have running : (sampleVisit samplePulling).2.session.commandOn? 0 = some 0 := by decide +kernel
  rw [act_exec_refused [] up (by decide +kernel) (by decide +kernel) here rfl known running]
  have cut := refusal_cuts_off [] up known running
  refine ⟨cut, fun steps => ?_⟩
  obtain ⟨x, later, rests⟩ := cut.last there rfl rfl (later_visit _ steps)
  refine ⟨x, later, ?_⟩
  rcases rests with rfl | rfl
  · exact .inl rfl
  · exact .inr rfl

/-- Without a second exec line the client gets the octet of the forge and the status of the pull,
with one it gets neither. -/
theorem second_exec_disturbs :
    received (sampleVisit (samplePulling ++ [.eof "a"])).1 =
      [.success, .data [7], .exit 0, .eof] ∧
    received (sampleVisit (samplePulling ++ [.exec "a" [], .eof "a"])).1 =
      .success :: refusal := by
  decide +kernel

end Connection

end ForgeGateway.Scenario
