import ForgeGateway.Scenario.Visit
import Mathlib.Logic.Relation

/-! # A channel that has ended

Most of what happens on a connection leaves its client's channels alone.  What does change one of
them changes an open one (`Keeps`), so a channel that has ended receives nothing any more, whatever
happens later (`Later.rests`): its client can only look at what it has received before. -/

namespace ForgeGateway.Scenario.Connection

open ForgeGateway.Relay (Request)

/-! ### What leaves the channels alone -/

section
variable (c : Connection)

theorem note_channels (e : Sighting) : (c.note e).channels = c.channels := rfl

theorem foldl_channels {α : Type} {f : Connection → α → Connection}
    (same : ∀ c a, (f c a).channels = c.channels) (l : List α) :
    (l.foldl f c).channels = c.channels := by
  induction l generalizing c with
  | nil => rfl
  | cons a l ih => rw [List.foldl_cons, ih, same]

theorem noticeDesk_channels (e : DeskEvent) :
    (c.noticeDesk e).channels = c.channels := by
  unfold noticeDesk
  split
  next => rfl
  next =>
    split
    next => rfl
    next => rfl
    next => split <;> rfl

theorem askNext_channels (t : Task) : (c.askNext t).channels = c.channels := by
  unfold askNext
  split
  next => rfl
  next => split <;> rfl

theorem onAgent_channels (id : Nat) (result : Except Agent.AgentError Agent.Answer) :
    (c.onAgent id result).channels = c.channels := by
  unfold onAgent
  split
  next => rfl
  next t _ =>
    cases result with
    | ok answer => exact askNext_channels ..
    | error e => rfl

theorem applyDesk_channels (e : Agent.Event) :
    (c.applyDesk e).channels = c.channels := by
  unfold applyDesk
  rw [foldl_channels _ fun c a => onAgent_channels c _ _,
    foldl_channels _ fun c e => noticeDesk_channels c e]

theorem beginRequest_channels (t : Task) : (c.beginRequest t).channels = c.channels := by
  unfold beginRequest
  split
  next => rfl
  next => exact askNext_channels ..
  next => rfl

end

/-! ### What changes open channels only -/

/-- The channels that have ended stay as they are. -/
structure Keeps (c c' : Connection) : Prop where
  kept {k : Nat} {x : ClientChannel} (there : c.channels[k]? = some x)
    (ended : x.isOpen = false) : c'.channels[k]? = some x

section
variable {c c' d : Connection}

theorem Keeps.of_eq (same : c'.channels = c.channels) : Keeps c c' where
  kept there _ := by
    rw [same]
    exact there

theorem Keeps.refl (c : Connection) : Keeps c c := .of_eq rfl

theorem Keeps.trans (first : Keeps c c') (second : Keeps c' d) : Keeps c d where
  kept there ended := second.kept (first.kept there ended) ended

theorem Keeps.of_map {f : ClientChannel → ClientChannel} (maps : c'.channels = c.channels.map f)
    (fixes : ∀ x, x.isOpen = false → f x = x) : Keeps c c' where
  kept {k x} there ended := by
    rw [maps, List.getElem?_map, there, Option.map_some, fixes x ended]

theorem Keeps.foldl {α : Type} {f : Connection → α → Connection} (keeps : ∀ c a, Keeps c (f c a))
    (l : List α) (c : Connection) : Keeps c (l.foldl f c) := by
  induction l generalizing c with
  | nil => exact .refl c
  | cons a l ih => exact (keeps c a).trans (ih (f c a))

end

section
variable (c : Connection)

theorem deliver_keeps (channel : Nat) (es : List ChannelEvent) :
    Keeps c (c.deliver channel es) := by
  unfold deliver
  split
  next => exact .refl c
  next =>
    refine .of_map rfl fun x ended => ?_
    rw [ended, Bool.false_and]
    rfl

theorem shut_channels (channel : Nat) :
    (c.shut channel).channels =
      c.channels.map fun x => if x.number = channel then { x with isOpen := false } else x := by
  unfold shut
  dsimp only
  split <;> rfl

theorem shut_keeps (channel : Nat) : Keeps c (c.shut channel) := by
  refine .of_map (shut_channels c channel) fun x ended => ?_
  split
  next =>
    cases x
    cases ended
    rfl
  next => rfl

theorem passOn_keeps (p : Posting) : Keeps c (c.passOn p) := by
  unfold passOn
  have delivered := deliver_keeps c p.channel p.events
  dsimp only
  split
  next => exact delivered.trans (shut_keeps _ _)
  next => exact delivered

theorem post_keeps (p : Posting) : Keeps c (c.post p) := by
  unfold post
  split
  next => exact .of_eq rfl
  next => exact passOn_keeps c p

theorem write_keeps (t : Task) (es : List ChannelEvent) : Keeps c (c.write t es).2 := by
  unfold write
  split
  next => exact post_keeps ..
  next => exact .refl c

theorem answer_keeps (t : Task) (q : Request) : Keeps c (c.answer t q).2.2 := by
  cases q with
  | consult r => exact .refl c
  | dial d deadline =>
      unfold answer
      split
      next => exact .refl c
      next id _ =>
        apply Keeps.of_eq
        dsimp only
        split
        next => rw [applyDesk_channels, applyDesk_channels]
        next => rw [applyDesk_channels]
      next => exact .refl c
  | readForgeBy deadline =>
      unfold answer
      apply Keeps.of_eq
      dsimp only
      split <;> rfl
  | readForge => exact .of_eq rfl
  | readClientBy | readEither =>
      have same : (c.takeInput t).2.channels = c.channels := rfl
      unfold answer
      revert same
      rcases c.takeInput t with ⟨_ | m, c'⟩ <;> exact .of_eq
  | writeOut b => exact write_keeps ..
  | writeErr b => exact write_keeps ..
  | writeErrBy b deadline =>
      unfold answer
      dsimp only
      split
      next => exact write_keeps ..
      next => exact .refl c
  | send b => exact .of_eq rfl
  | sendEof => exact .of_eq rfl
  | close => exact .of_eq rfl
  | finish status => exact post_keeps ..

theorem turn_keeps (t : Task) : Keeps c (c.turn t) := by
  unfold turn
  have answered := answer_keeps c t t.stage.request
  revert answered
  rcases c.answer t t.stage.request with ⟨a, u, c'⟩
  intro answered
  apply answered.trans
  apply Keeps.of_eq
  dsimp only
  split
  next => exact beginRequest_channels ..
  next => rfl
  next => rfl

theorem carryOut_keeps (e : Session.Effect) : Keeps c (c.carryOut e) := by
  cases e with
  | count m => exact .of_eq rfl
  | confirm channel => exact deliver_keeps ..
  | refuse channel text => exact (deliver_keeps ..).trans (shut_keeps ..)
  | start number line context =>
      unfold carryOut
      dsimp only
      split
      next => exact .of_eq (beginRequest_channels ..)
      next => exact .refl c
  | grant | attachAgent | give => exact .refl c

theorem feed_keeps (e : Session.Event) : Keeps c (c.feed e).1 := by
  have taken : Keeps c { c with session := (c.session.step c.shared.store e).1 } := .of_eq rfl
  exact taken.trans (.foldl carryOut_keeps _ _)

theorem takeInFrom_keeps (fuel : Nat) : Keeps c (takeInFrom fuel c) := by
  induction fuel generalizing c with
  | zero => exact .refl c
  | succ fuel ih =>
      rw [takeInFrom]
      split
      next => exact .refl c
      next e _ _ =>
        split
        next => exact .refl c
        next =>
          have emptied : Keeps c { c with outbox := [] } := .of_eq rfl
          have passed := emptied.trans (.foldl passOn_keeps c.outbox _)
          have taken := passed.trans (d := { c.outbox.foldl passOn { c with outbox := [] } with
            arrivals := (c.outbox.foldl passOn { c with outbox := [] }).arrivals.tail }) (.of_eq rfl)
          exact (taken.trans (feed_keeps _ e)).trans (ih _)

theorem arrive_keeps (e : Session.Event) : Keeps c (c.arrive e) := by
  have came : Keeps c { c with arrivals := c.arrivals ++ [e] } := .of_eq rfl
  exact came.trans (takeInFrom_keeps ..)

theorem move_keeps (m : Move) : Keeps c (c.move m) := by
  cases m with
  | desk e => exact .of_eq (applyDesk_channels c e)
  | task t => exact (turn_keeps c t).trans (takeInFrom_keeps ..)
  | seeEnds =>
      apply Keeps.of_eq
      unfold move
      dsimp only
      split
      next => exact foldl_channels _ (fun c n => note_channels c _) _
      next => rfl

theorem runFrom_keeps (fuel : Nat) (t : Time) : Keeps c (runFrom fuel t c) := by
  induction fuel generalizing c with
  | zero => exact .of_eq rfl
  | succ fuel ih =>
      rw [runFrom]
      split
      next u m _ =>
        split
        next =>
          have waited : Keeps c (c.moveTo u) := .of_eq rfl
          exact (waited.trans (move_keeps _ m)).trans (ih _)
        next => exact .of_eq rfl
      next => exact .of_eq rfl

theorem hangUp_keeps : Keeps c c.hangUp := by
  unfold hangUp
  split
  next => exact .refl c
  next => exact (feed_keeps c .hangUp).trans (.of_eq rfl)

theorem openChannel_keeps (name : String) : Keeps c (c.openChannel name).2 := by
  have fed := feed_keeps c .openChannel
  revert fed
  unfold openChannel
  rcases c.feed .openChannel with ⟨c', allowed⟩
  intro fed
  cases allowed with
  | true =>
      refine ⟨fun there ended => ?_⟩
      have kept := fed.kept there ended
      exact (List.getElem?_append_left (List.getElem?_eq_some_iff.1 kept).1).trans kept
  | false => exact fed.trans (hangUp_keeps c')

theorem onChannel_keeps (name : String) {f : ClientChannel → Connection}
    (keeps : ∀ x, Keeps c (f x)) : Keeps c (c.onChannel name f).2 := by
  unfold onChannel
  split
  next => exact .refl c
  next x _ =>
    split
    next => exact .refl c
    next =>
      dsimp only
      split
      next => exact keeps x
      next => exact .refl c

theorem act_keeps (step : ClientStep) : Keeps c (c.act step).2 := by
  have arrived : ∀ es, Keeps c (c.arriveAll es) := fun es => .foldl arrive_keeps es c
  cases step with
  | wait length => exact runFrom_keeps ..
  | setEnv channel name value => exact onChannel_keeps c channel fun x => arrived _
  | lendAgent channel => exact onChannel_keeps c channel fun x => arrived _
  | exec channel line => exact onChannel_keeps c channel fun x => arrived _
  | data channel b => exact onChannel_keeps c channel fun x => arrived _
  | eof channel => exact onChannel_keeps c channel fun x => arrived _
  | close channel => exact onChannel_keeps c channel fun x => shut_keeps ..
  | auth blob =>
      have fed := feed_keeps c (.offerKey blob)
      revert fed
      unfold act
      dsimp only
      split
      next => exact fun _ => .refl c
      next =>
        rcases c.feed (.offerKey blob) with ⟨c', known⟩
        intro fed
        cases known with
        | true => exact fed
        | false => exact fed.trans (runFrom_keeps ..)
  | openChannel name =>
      unfold act
      dsimp only
      split
      next => exact .refl c
      next => exact openChannel_keeps c name
  | forward =>
      unfold act
      dsimp only
      split
      next => exact .refl c
      next =>
        split
        next => exact feed_keeps c .requestForward
        next => exact hangUp_keeps c
  | disconnect =>
      unfold act
      dsimp only
      split
      next => exact .refl c
      next => exact hangUp_keeps c

end

/-! ### Whatever happens later -/

/-- Something happens on a connection. -/
inductive Happens (c : Connection) : Connection → Prop
  /-- The client does something. -/
  | acts (step : ClientStep) : Happens c (c.act step).2
  /-- The session takes in an event. -/
  | feeds (e : Session.Event) : Happens c (c.feed e).1
  /-- The session goes on with what has come. -/
  | goesOn (fuel : Nat) : Happens c (takeInFrom fuel c)
  /-- Something happens by itself. -/
  | moves (m : Move) : Happens c (c.move m)
  | waits (t : Time) : Happens c (c.moveTo t)
  /-- The client looks at what it has received. -/
  | looks : Happens c c.look

/-- What a connection can become. -/
abbrev Later : Connection → Connection → Prop := Relation.ReflTransGen Happens

section
variable {c c' : Connection}

theorem later_runFrom (fuel : Nat) (t : Time) (c : Connection) : Later c (runFrom fuel t c) := by
  induction fuel generalizing c with
  | zero => exact .single (.waits t)
  | succ fuel ih =>
      rw [runFrom]
      split
      next u m _ =>
        split
        next => exact .head (.waits u) (.head (.moves m) (ih _))
        next => exact .single (.waits t)
      next => exact .single (.waits t)

theorem visitStep_snd (c : Connection) (step : ClientStep) :
    (c.visitStep step).2 =
      ((c.act step).2.settle.runTo ((c.act step).2.settle.now + 1)).look := by
  unfold visitStep
  generalize c.act step = acted
  cases acted
  rfl

theorem visit_cons_snd (c : Connection) (step : ClientStep) (steps : List ClientStep) :
    (c.visit (step :: steps)).2 = ((c.visitStep step).2.visit steps).2 := by
  rw [visit]

theorem later_visit (c : Connection) (steps : List ClientStep) : Later c (c.visit steps).2 := by
  induction steps generalizing c with
  | nil => exact .refl
  | cons step steps ih =>
      rw [visit_cons_snd]
      refine Relation.ReflTransGen.trans ?_ (ih _)
      rw [visitStep_snd]
      have settled : Later c (c.act step).2.settle := .head (.acts step) (later_runFrom ..)
      exact (settled.trans (later_runFrom ..)).tail .looks

/-- The channel is as it was, or its client has looked at it. -/
def Rests (x x' : ClientChannel) : Prop := x' = x ∨ x' = { x with events := [] }

theorem Happens.rests (happens : Happens c c') {k : Nat} {x : ClientChannel}
    (there : c.channels[k]? = some x) (ended : x.isOpen = false) :
    ∃ x', c'.channels[k]? = some x' ∧ Rests x x' := by
  have kept (keeps : Keeps c c') : ∃ x', c'.channels[k]? = some x' ∧ Rests x x' :=
    ⟨x, keeps.kept there ended, .inl rfl⟩
  cases happens with
  | acts step => exact kept (act_keeps c step)
  | feeds e => exact kept (feed_keeps c e)
  | goesOn fuel => exact kept (takeInFrom_keeps c fuel)
  | moves m => exact kept (move_keeps c m)
  | waits t => exact kept (.of_eq rfl)
  | looks =>
      refine ⟨{ x with events := [] }, ?_, .inr rfl⟩
      show (c.channels.map _)[k]? = _
      rw [List.getElem?_map, there, Option.map_some]

theorem Later.rests (later : Later c c') {k : Nat} {x : ClientChannel}
    (there : c.channels[k]? = some x) (ended : x.isOpen = false) :
    ∃ x', c'.channels[k]? = some x' ∧ Rests x x' := by
  induction later with
  | refl => exact ⟨x, there, .inl rfl⟩
  | tail _ happens ih =>
      obtain ⟨x₁, there₁, rests₁⟩ := ih
      -- Looking twice is looking once.
      rcases rests₁ with rfl | rfl
      · exact happens.rests there₁ ended
      · obtain ⟨x₂, there₂, rests₂⟩ := happens.rests there₁ ended
        rcases rests₂ with rfl | rfl <;> exact ⟨_, there₂, .inr rfl⟩

end

end ForgeGateway.Scenario.Connection
