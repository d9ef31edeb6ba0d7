import Post2Usenet.Session
import Post2Usenet.Usenet

/-! The pool together with the replies that its connections receive, byte by byte: what
has arrived at a socket, what the TLS stream before it has taken from there, and how much
of it is from before the last connection error. -/

namespace Post2Usenet
open Connection

/-- `available` waits in the socket and `held` in the TLS stream. Of all bytes that can be
read, the first `old` had been received when the connection was last closed for an error.
What each of these calls of `close` has left is recorded, like whether a socket was open
already when it was to be connected, and whether a line had an old byte in it. -/
structure Replies (α : Type) where
  available : Bytes
  held : Bytes
  old : Nat
  closed : List (Connection α)
  reopened : Bool
  misread : Bool
  deriving DecidableEq

namespace Replies

variable {α : Type}

def make : Replies α := ⟨[], [], 0, [], false, false⟩

def arrive (replies : Replies α) (bytes : Bytes) : Replies α :=
  { replies with available := replies.available ++ bytes }

/-- The TLS stream takes bytes from the socket that nobody has asked it for yet. -/
def pull (replies : Replies α) (count : Nat) : Replies α :=
  { replies with
    held := replies.held ++ replies.available.take count
    available := replies.available.drop count }

/-- Bytes are read in the order in which they have arrived. -/
def receive (replies : Replies α) (received : Bytes) : Option (Replies α) :=
  if received.isPrefixOf (replies.held ++ replies.available) then
    some { replies with
      held := replies.held.drop received.length
      available := replies.available.drop (received.length - replies.held.length) }
  else none

def answer (replies : Replies α) : Option Bytes → Replies α
  | some line =>
    { replies with old := replies.old - line.length, misread := replies.misread || decide (0 < replies.old) }
  | none => replies

/-- A function of the connection runs. `async_connect` of a socket opens it, unless it is open. -/
def serve (replies : Replies α) (connection : Connection α) (stage : Stage) (outcome : Outcome) : Option (Replies α) :=
  if Session.reads stage then
    let received := if (Lines.next cr lf connection.readbuf).isSome then [] else outcome.received
    (replies.receive received).map (fun replies => replies.answer (connection.receiveLine outcome).1)
  else
    some { replies with
      reopened := replies.reopened || (stage == .resolved && !outcome.failed && connection.sockOpen) }

/-- The connection is closed after an error. With the socket goes what waits in it; the
TLS stream stays. -/
def recover (replies : Replies α) (connection : Connection α) (outcome : Outcome) : Replies α :=
  let closed := connection.close outcome
  let held := if connection.conninfo.tls then replies.held else []
  let available := if closed.sockOpen then replies.available else []
  { replies with
    available
    held
    old := closed.readbuf.length + held.length + available.length
    closed := closed :: replies.closed }

end Replies

structure Recovery (α : Type) where
  usenet : Usenet α
  replies : ConnectionHandle → Replies α

namespace Recovery

variable {α : Type}

def make (eraseRule : EraseRule) (iothreads maxQueueSize : Nat) (articles : α → Article) : Recovery α where
  usenet := .make eraseRule iothreads maxQueueSize articles
  replies := fun _ => .make

/-- The function of a connection that a step of the pool runs. -/
def served (usenet : Usenet α) : Usenet.Event α → Option (ConnectionHandle × Connection α × Stage × Outcome)
  | .take _ place outcome =>
    match usenet.pending[place]? with
    | some (connit, .stage stage) =>
      (usenet.connections connit).map (fun connection => (connit, connection, stage, outcome))
    | _ => none
  | _ => none

/-- The connection that a step of the pool closes and connects again: in `on_post_finished`,
or in `on_stat_finished` once it has the mutex. -/
def recovered (usenet : Usenet α) : Usenet.Event α → Option (ConnectionHandle × Connection α × Outcome)
  | .take _ place outcome =>
    match usenet.pending[place]? with
    | some (connit, .postHandler _ .postFailureConnectionError) =>
      (usenet.connections connit).map (fun connection => (connit, connection, outcome))
    | _ => none
  | .proceed index choice =>
    match usenet.threads[index]? with
    | some ⟨_, .requeueStat connit _ :: _⟩ =>
      (usenet.connections connit).map (fun connection => (connit, connection, choice.outcome))
    | _ => none
  | _ => none

inductive Event (α : Type) where
  | pool (event : Usenet.Event α)
  | arrive (connit : ConnectionHandle) (bytes : Bytes)
  | pull (connit : ConnectionHandle) (count : Nat)

/-- What becomes of the replies when the pool takes a step. -/
def follow (recovery : Recovery α) (event : Usenet.Event α) : Option (ConnectionHandle → Replies α) :=
  match recovered recovery.usenet event, served recovery.usenet event with
  | some (connit, connection, outcome), _ =>
    some (Function.update recovery.replies connit ((recovery.replies connit).recover connection outcome))
  | none, some (connit, connection, stage, outcome) =>
    ((recovery.replies connit).serve connection stage outcome).map (Function.update recovery.replies connit)
  | none, none => some recovery.replies

/-- Bytes arrive at open sockets only, and only a TLS connection has a stream before its socket. -/
def step (recovery : Recovery α) : Event α → Option (Recovery α)
  | .pool event =>
    (recovery.usenet.step event).bind (fun usenet => (recovery.follow event).map (fun replies => ⟨usenet, replies⟩))
  | .arrive connit bytes =>
    match recovery.usenet.connections connit with
    | some connection =>
      if connection.sockOpen then
        some { recovery with
          replies := Function.update recovery.replies connit ((recovery.replies connit).arrive bytes) }
      else none
    | none => none
  | .pull connit count =>
    match recovery.usenet.connections connit with
    | some connection =>
      if connection.conninfo.tls then
        some { recovery with
          replies := Function.update recovery.replies connit ((recovery.replies connit).pull count) }
      else none
    | none => none

end Recovery

end Post2Usenet
