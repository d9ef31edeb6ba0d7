import Post2Usenet.Session

/-! One connection and the io service that runs its handlers, in any order. Every
operation has a number, and a wait of the timer remembers for which operation it
was armed. The owner calls the connection only while nothing of it is pending. -/

namespace Post2Usenet
open Connection

/-- What can be seen of a connection: what it writes, how its operations end, with the
line that a read has delivered, and which of the owner's handlers it invokes. -/
inductive Occurrence (α : Type) where
  | wrote (buffers : Bytes) (handler : Stage)
  | completed (handler : Stage) (failed : Bool) (line : Option Bytes)
  | invoked (handler : Handler α)
  deriving DecidableEq

/-- `armed` is the wait of the timer that is pending, `expired` the waits that have ended
without an error and whose handlers are queued. The history has its latest entry first. An
exception that leaves the io service ends the program. -/
structure Reactor (α : Type) where
  connection : Connection α
  pending : List (Nat × Handler α)
  started : Nat
  armed : Option Nat
  expired : List Nat
  history : List (Occurrence α)
  terminated : Bool

namespace Reactor

variable {α : Type}

def make (conninfo : ConnectionInfo) (timeout : Int) : Reactor α where
  connection := .make conninfo timeout
  pending := []
  started := 0
  armed := none
  expired := []
  history := []
  terminated := false

def start (reactor : Reactor α) (handler : Handler α) : Reactor α :=
  { reactor with
    pending := reactor.pending ++ [(reactor.started, handler)]
    started := reactor.started + 1 }

/-- What becomes of one thing the connection asks for. Setting the timer, like stopping
it, aborts a wait that is pending, but not a handler that is queued. -/
def ask (reactor : Reactor α) : Call α → Reactor α
  | .post handler => reactor.start handler
  | .asyncResolve handler | .asyncConnect handler | .asyncHandshake handler | .asyncReadUntil handler =>
    reactor.start (.stage handler)
  | .asyncWrite buffers handler =>
    { reactor with history := .wrote buffers handler :: reactor.history }.start (.stage handler)
  | .startTimer _ => { reactor with armed := some reactor.started }
  | .cancelTimer => { reactor with armed := none }

def perform (reactor : Reactor α) (act : Act α) : Reactor α :=
  act.2.foldl ask { reactor with connection := act.1 }

def written? : Call α → Option (Occurrence α)
  | .asyncWrite buffers handler => some (.wrote buffers handler)
  | _ => none

/-- What a list of calls adds to the history. -/
def writes (calls : List (Call α)) : List (Occurrence α) := (calls.filterMap written?).reverse

/-- The functions that are posted; all others are told how an operation has ended. -/
def posted : Stage → Bool
  | .doConnect | .doPost | .doStat => true
  | _ => false

/-- How an operation ended, for the handler that is told: a read has failed unless there is a line. -/
def ended (connection : Connection α) (stage : Stage) (outcome : Outcome) : List (Occurrence α) :=
  if posted stage then []
  else if Session.reads stage then
    let line := (connection.receiveLine outcome).1
    [.completed stage line.isNone line]
  else [.completed stage outcome.failed none]

variable (heap : α → Article)

def complete (reactor : Reactor α) (handler : Handler α) (outcome : Outcome) : Reactor α :=
  match handler with
  | .stage stage =>
    { reactor with history := ended reactor.connection stage outcome ++ reactor.history }.perform
      (reactor.connection.run heap stage outcome)
  | handler => { reactor with history := .invoked handler :: reactor.history }

inductive Event (α : Type) where
  | asyncConnect
  | asyncPost (message : α)
  | asyncStat (mid : Bytes)
  | asyncGracefulDisconnect
  | close (outcome : Outcome)
  | complete (place : Nat) (outcome : Outcome)
  | expire
  | cancel (place : Nat)

/-- The owner's calls need a connection at rest, and those that are refused do nothing. The
last event is the timer's handler, which cancels whatever the socket is doing, and throws when
it is closed. -/
def serve (reactor : Reactor α) : Event α → Option (Reactor α)
  | .asyncConnect => if reactor.pending = [] then some (reactor.perform reactor.connection.asyncConnect) else none
  | .asyncPost message =>
    if reactor.pending = [] then some (reactor.perform (reactor.connection.asyncPost message).2) else none
  | .asyncStat mid => if reactor.pending = [] then some (reactor.perform (reactor.connection.asyncStat mid).2) else none
  | .asyncGracefulDisconnect =>
    if reactor.pending = [] then some (reactor.perform reactor.connection.asyncGracefulDisconnect.2) else none
  | .close outcome =>
    if reactor.pending = [] then some { reactor with connection := reactor.connection.close outcome } else none
  | .complete place outcome =>
    match reactor.pending[place]? with
    | some (_, handler) =>
      some ({ reactor with pending := reactor.pending.eraseIdx place }.complete heap handler outcome)
    | none => none
  | .expire =>
    match reactor.armed with
    | some operation => some { reactor with armed := none, expired := reactor.expired ++ [operation] }
    | none => none
  | .cancel place =>
    match reactor.expired[place]? with
    | some _ => some { reactor with expired := reactor.expired.eraseIdx place, terminated := !reactor.connection.sockOpen }
    | none => none

/-- Nothing goes on in a program that has ended. -/
def step (reactor : Reactor α) (event : Event α) : Option (Reactor α) :=
  if reactor.terminated then none else reactor.serve heap event

end Reactor

end Post2Usenet
