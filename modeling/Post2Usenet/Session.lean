import Post2Usenet.Connection
import Post2Usenet.Nntp

/-! One connection and the server at its other end, from the first byte of a TCP
connection to its last. The bytes between the two are in flight for as long as the
environment likes, and the server answers with any lines. An article stands for the
pointer to it. -/

namespace Post2Usenet
open Connection

/-- A connection as it was made, or closed again. -/
structure Unconnected (α : Type) where
  connection : Connection α
  state : connection.state = .disconnected
  readbuf : connection.readbuf = []
  article : connection.article = none

/-- What a server is about to do with the next line it gets; before the first one it
greets. While it receives an article it has the lines so far. -/
inductive Mode where
  | absent | greeting | command
  | article (received : Bytes)
  deriving DecidableEq

def Mode.receiving : Mode → Bool
  | .article _ => true
  | _ => false

/-- A server receives an article only after its answer to `POST` started with a three. -/
def Mode.afterCommand (command answer : Bytes) : Mode :=
  if (ascii "POST").isPrefixOf command ∧ answer.head? = some 51 then .article [] else .command

/-- `asked` is what the client has written last. What the server has answered to and
what the client has taken for an answer to what are recorded, like whether an
article was written to a server that did not expect one. -/
structure Session where
  connection : Connection Article
  pending : Option (Handler Article)
  asked : Bytes
  outgoing : Bytes
  incoming : Bytes
  mode : Mode
  answered : List (Bytes × Bytes)
  consumed : List (Bytes × Bytes)
  strayed : Bool
  reports : List (Article × PostResult)

namespace Session

/-- What becomes of one thing the connection asks for. -/
def ask (session : Session) : Call Article → Session
  | .asyncWrite buffers handler =>
    { session with
      pending := some (.stage handler)
      asked := buffers
      outgoing := session.outgoing ++ buffers
      strayed := session.strayed || (handler == .articleWritten && !session.mode.receiving) }
  | call => { session with pending := call.handler?.or session.pending }

def perform (session : Session) (act : Act Article) : Session :=
  act.2.foldl ask { session with connection := act.1, pending := none }

/-- The functions that wait for a line. -/
def reads : Stage → Bool
  | .greeted | .usernameAnswered | .passwordAnswered | .postAnswered | .articleAnswered | .statAnswered => true
  | _ => false

/-- The bytes a function takes from the socket, and the line it then has. -/
def arrives {α : Type} (connection : Connection α) (stage : Stage) (outcome : Outcome) : Bytes × Option Bytes :=
  if reads stage then
    (if (Lines.next cr lf connection.readbuf).isSome then [] else outcome.received, (connection.receiveLine outcome).1)
  else ([], none)

/-- A handler of the connection runs. With the TCP connection the server appears. -/
def complete (session : Session) (stage : Stage) (outcome : Outcome) : Option Session :=
  let (received, line) := arrives session.connection stage outcome
  if received.isPrefixOf session.incoming then
    some ({ session with
      incoming := session.incoming.drop received.length
      mode := if stage = Stage.connected ∧ outcome.failed = false then .greeting else session.mode
      asked := if stage = Stage.connected then [] else session.asked
      consumed := session.consumed ++ line.toList.map (fun line => (session.asked, line)) }.perform
        (session.connection.run id stage outcome))
  else none

/-- A callback of the connection runs. Its owner closes it after an error. -/
def report (session : Session) (handler : Handler Article) (outcome : Outcome) : Session :=
  match handler with
  | .postHandler article result =>
    { session with
      connection := match result with
        | .postingNotPermitted | .postFailureConnectionError => session.connection.close outcome
        | .postFailure | .postSuccess => session.connection
      pending := none
      reports := (article, result) :: session.reports }
  | .statHandler _ .connectionError => { session with connection := session.connection.close outcome, pending := none }
  | _ => { session with pending := none }

/-- The server answers: when it greets, to a command, and to the end of an article. -/
def answer (session : Session) (line : Bytes) : Option Session :=
  match session.mode, Lines.next cr lf session.outgoing with
  | .greeting, _ =>
    some { session with
      incoming := session.incoming ++ line ++ crlf
      mode := .command
      answered := session.answered ++ [([], line ++ crlf)] }
  | .command, some (command, outgoing) =>
    some { session with
      outgoing
      incoming := session.incoming ++ line ++ crlf
      mode := .afterCommand command line
      answered := session.answered ++ [(command ++ crlf, line ++ crlf)] }
  | .article received, some (text, outgoing) =>
    if text = Nntp.terminator then
      some { session with
        outgoing
        incoming := session.incoming ++ line ++ crlf
        mode := .command
        answered := session.answered ++ [(received ++ text ++ crlf, line ++ crlf)] }
    else none
  | _, _ => none

/-- The server takes one more line of an article. -/
def receive (session : Session) : Option Session :=
  match session.mode, Lines.next cr lf session.outgoing with
  | .article received, some (text, outgoing) =>
    if text = Nntp.terminator then none
    else some { session with outgoing, mode := .article (received ++ text ++ crlf) }
  | _, _ => none

inductive Event where
  | asyncPost (message : Article)
  | asyncStat (mid : Bytes)
  | complete (outcome : Outcome)
  | report (outcome : Outcome)
  | answer (line : Bytes)
  | receive

/-- The connection is posted to only between two reports, and a status line is one line. -/
def step (session : Session) : Event → Option Session
  | .asyncPost message =>
    match session.pending, session.connection.asyncPost message with
    | none, (true, act) => some (session.perform act)
    | _, _ => none
  | .asyncStat mid =>
    match session.pending, session.connection.asyncStat mid with
    | none, (true, act) => some (session.perform act)
    | _, _ => none
  | .complete outcome =>
    match session.pending with
    | some (.stage stage) => session.complete stage outcome
    | _ => none
  | .report outcome =>
    match session.pending with
    | some (.stage _) | none => none
    | some handler => some (session.report handler outcome)
  | .answer line => if Lines.next cr lf (line ++ crlf) = some (line, []) then session.answer line else none
  | .receive => session.receive

def make (unconnected : Unconnected Article) : Session :=
  perform
    { connection := unconnected.connection
      pending := none
      asked := []
      outgoing := []
      incoming := []
      mode := .absent
      answered := []
      consumed := []
      strayed := false
      reports := [] }
    unconnected.connection.asyncConnect

end Session

end Post2Usenet
