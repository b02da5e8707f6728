import ForgeGateway.Clock

/-! # The time to log in

A client has a limited time to prove a known key. The time starts when the greetings have been
exchanged. If no key is proven when it is over, the client is told and the connection ends;
after that nothing is watched any more. -/

namespace ForgeGateway.Session

/-- The watch over the login of a connection. -/
inductive Watch where
  /-- The greetings are being exchanged. -/
  | greeting
  | armed (deadline : Time)
  /-- Nothing is watched any more. -/
  | done
  deriving DecidableEq, Repr

namespace Watch

/-- What the client is told. -/
def lateText : String := "authentication timed out"

def greeted (timeout now : Time) : Watch → Watch
  | .greeting => .armed (now + timeout)
  | w => w

def ended (_ : Watch) : Watch := .done

/-- When the watch has to be looked at. -/
def due? : Watch → Option Time
  | .armed deadline => some deadline
  | _ => none

/-- Looks at the watch, and says whether the connection has to end now. -/
def look (now : Time) (authenticated : Bool) : Watch → Watch × Bool
  | .armed deadline => if deadline ≤ now then (.done, !authenticated) else (.armed deadline, false)
  | w => (w, false)

end Watch

/-! ### Whole connections -/

/-- When the greetings were exchanged, when a key was first proven, and when the connection
ended by itself, as far as these things happened. -/
structure Timeline where
  greeted : Option Time
  authenticated : Option Time
  ended : Option Time
  deriving DecidableEq, Repr

/-- It has happened by a time. -/
def Timeline.past (t : Option Time) (now : Time) : Bool :=
  match t with
  | some t => t ≤ now
  | none => false

/-- When a connection is ended because nobody has logged in. -/
def Timeline.disconnect? (timeout : Time) (l : Timeline) : Option Time := do
  let greeted ← l.greeted
  let deadline ← (Watch.greeting.greeted timeout greeted).due?
  if past l.ended deadline then none
  else if (Watch.look deadline (past l.authenticated deadline) (.armed deadline)).2 then
    some deadline
  else none

/-- Serves a connection from a state of its watch on, with the moments at which something is looked
at. Says when the client is told that it is late, and with what the connection ends. -/
def Timeline.serveFrom {ρ : Type} (timeout : Time) (l : Timeline) (result : ρ) :
    Watch → List Time → List Time × Option ρ
  | _, [] => ([], none)
  | w, t :: rest =>
    let w := if l.greeted = some t then w.greeted timeout t else w
    if l.ended = some t then ([], some result)
    else
      let (w, late) := w.look t (past l.authenticated t)
      let (told, outcome) := serveFrom timeout l result w rest
      (if late then t :: told else told, outcome)

def Timeline.serve {ρ : Type} (timeout : Time) (l : Timeline) (result : ρ) (moments : List Time) :
    List Time × Option ρ :=
  l.serveFrom timeout result .greeting moments

end ForgeGateway.Session
