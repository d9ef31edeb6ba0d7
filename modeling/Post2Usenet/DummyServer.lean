import Post2Usenet.Session

/-! `dummy_server.cc`, the server the program is tried against, and one connection
of the program to it. A `usenet_session` is a thread: it handles one line at a time
and writes its answer before it reads the next one. -/

namespace Post2Usenet
open Connection

def serverWelcome : Bytes := ascii "200 Some Generic Welcome Message (Posting Allowed)\r\n"
def serverAuth : Bytes := ascii "381 PASS required\r\n"
def serverAuthSuccess : Bytes := ascii "281 Posting allowed\r\n"
def serverSendArticle : Bytes := ascii "381 Send article to be posted\r\n"
def serverArticlePosted : Bytes := ascii "200 Article posted\r\n"

namespace DummyServer

/-- Where a `usenet_session` is. Until `main` has accepted the TCP connection there is
none; an exception ends it with what has been written of a file. -/
inductive Place where
  | accept | handshake | user | pass | command
  | article (outfile : Bytes)
  | violated | terminated | quit
  | lost (outfile : Option Bytes)
  deriving DecidableEq

/-- The places at which the thread waits for a line. -/
def Place.reads : Place → Bool
  | .user | .pass | .command | .article _ => true
  | .accept | .handshake | .violated | .terminated | .quit | .lost _ => false

/-- The file that is open. -/
def Place.outfile? : Place → Option Bytes
  | .article outfile => some outfile
  | _ => none

end DummyServer

open DummyServer in
/-- The files are those that were closed after a whole article, oldest first. -/
structure DummyServer where
  place : Place
  files : List Bytes
  deriving DecidableEq

namespace DummyServer

/-- What becomes of the thread with a line, and what it writes. Commands it does not
know get no answer. -/
def usenetSession (server : DummyServer) (line : Bytes) : DummyServer × Bytes :=
  match server.place with
  | .user =>
    if (ascii "AUTHINFO USER").isPrefixOf line then ({ server with place := .pass }, serverAuth)
    else ({ server with place := .violated }, [])
  | .pass =>
    if (ascii "AUTHINFO PASS").isPrefixOf line then ({ server with place := .command }, serverAuthSuccess)
    else ({ server with place := .violated }, [])
  | .command =>
    if (ascii "POST").isPrefixOf line then ({ server with place := .article [] }, serverSendArticle)
    -- After `socket.shutdown()` the loop goes on, to fail at its next read.
    else if (ascii "QUIT").isPrefixOf line then ({ server with place := .quit }, [])
    else (server, [])
  | .article outfile =>
    if 0 ∈ line then ({ server with place := .terminated }, [])
    else if line = ascii ".\r\n" then
      (⟨.command, server.files ++ [outfile ++ line]⟩, serverArticlePosted)
    else ({ server with place := .article (outfile ++ line) }, [])
  | _ => (server, [])

end DummyServer

/-- An article whose lines end where the protocol's terminator is. -/
structure Framed where
  article : Article
  framed : ∃ lines, article.wire = Lines.join cr lf (lines ++ [Nntp.terminator]) ∧
    ∀ line ∈ lines, cr ∉ line ∧ line ≠ Nntp.terminator

/-- A message id that does not break the line it stands in. -/
structure PlainId where
  msgid : Bytes
  plain : cr ∉ msgid

/-- A connection with credentials that do not break the lines they stand in. -/
structure Credited extends Unconnected Framed where
  username : cr ∉ connection.conninfo.username
  password : cr ∉ connection.conninfo.password

/-- An article without the byte the server cannot stand. -/
structure NullFree where
  framed : Framed
  nullFree : 0 ∉ framed.article.wire

/-- A connection and the thread that serves it, from the TCP connection's first byte to
its last. `posts` are the articles that were accepted for posting, oldest first, and so
are the reports. -/
structure Rehearsal where
  connection : Connection Framed
  pending : Option (Handler Framed)
  outgoing : Bytes
  incoming : Bytes
  server : DummyServer
  posts : List Framed
  reports : List (Framed × PostResult)

namespace Rehearsal

def ask (rehearsal : Rehearsal) : Call Framed → Rehearsal
  | .asyncWrite buffers handler =>
    { rehearsal with pending := some (.stage handler), outgoing := rehearsal.outgoing ++ buffers }
  | call => { rehearsal with pending := call.handler?.or rehearsal.pending }

def perform (rehearsal : Rehearsal) (act : Act Framed) : Rehearsal :=
  act.2.foldl ask { rehearsal with connection := act.1, pending := none }

/-- A handler of the connection runs. With the TCP connection a thread is started. -/
def complete (rehearsal : Rehearsal) (stage : Stage) (outcome : Outcome) : Option Rehearsal :=
  let (received, _) := Session.arrives rehearsal.connection stage outcome
  if received.isPrefixOf rehearsal.incoming then
    some ({ rehearsal with
      incoming := rehearsal.incoming.drop received.length
      server := if stage = Stage.connected ∧ outcome.failed = false then { rehearsal.server with place := .handshake }
        else rehearsal.server }.perform
        (rehearsal.connection.run Framed.article stage outcome))
  else none

/-- A callback of the connection runs. The pool closes a connection after an error. -/
def report (rehearsal : Rehearsal) (handler : Handler Framed) (outcome : Outcome) : Rehearsal :=
  match handler with
  | .postHandler article result =>
    { rehearsal with
      connection := match result with
        | .postingNotPermitted | .postFailureConnectionError => rehearsal.connection.close outcome
        | .postFailure | .postSuccess => rehearsal.connection
      pending := none
      reports := rehearsal.reports ++ [(article, result)] }
  | .statHandler _ .connectionError =>
    { rehearsal with connection := rehearsal.connection.close outcome, pending := none }
  | _ => { rehearsal with pending := none }

/-- The TLS handshake, which a client without TLS does not take part in. An exception
comes from what the thread writes. -/
def handshake (rehearsal : Rehearsal) (throws : Bool) : Option Rehearsal :=
  if rehearsal.server.place = .handshake ∧ rehearsal.connection.conninfo.tls = true then
    some (if throws then { rehearsal with server := { rehearsal.server with place := .lost none } }
      else { rehearsal with
        server := { rehearsal.server with place := .user }, incoming := rehearsal.incoming ++ serverWelcome })
  else none

/-- The thread reads a line. Nothing is written while a file is open. -/
def serve (rehearsal : Rehearsal) (throws : Bool) : Option Rehearsal :=
  if rehearsal.server.place.reads then
    (Lines.next cr lf rehearsal.outgoing).map (fun (line, outgoing) =>
      let (server, reply) := rehearsal.server.usenetSession (line ++ crlf)
      if throws ∧ reply ≠ [] then { rehearsal with outgoing, server := { server with place := .lost none } }
      else { rehearsal with outgoing, server, incoming := rehearsal.incoming ++ reply })
  else none

/-- What the thread waits for does not come. -/
def hangUp (rehearsal : Rehearsal) : Option Rehearsal :=
  if rehearsal.server.place.reads ∨ rehearsal.server.place = .handshake then
    some { rehearsal with
      server := { rehearsal.server with place := .lost rehearsal.server.place.outfile? } }
  else none

inductive Event where
  | asyncPost (message : NullFree)
  | asyncStat (mid : PlainId)
  | asyncGracefulDisconnect
  | complete (outcome : Outcome)
  | report (outcome : Outcome)
  | handshake (throws : Bool)
  | serve (throws : Bool)
  | hangUp

/-- The connection is used only between two reports, as the pool uses it. -/
def step (rehearsal : Rehearsal) : Event → Option Rehearsal
  | .asyncPost message =>
    match rehearsal.pending, rehearsal.connection.asyncPost message.framed with
    | none, (true, act) => some ({ rehearsal with posts := rehearsal.posts ++ [message.framed] }.perform act)
    | _, _ => none
  | .asyncStat mid =>
    match rehearsal.pending, rehearsal.connection.asyncStat mid.msgid with
    | none, (true, act) => some (rehearsal.perform act)
    | _, _ => none
  | .asyncGracefulDisconnect =>
    match rehearsal.pending, rehearsal.connection.asyncGracefulDisconnect with
    | none, (true, act) => some (rehearsal.perform act)
    | _, _ => none
  | .complete outcome =>
    match rehearsal.pending with
    | some (.stage stage) => rehearsal.complete stage outcome
    | _ => none
  | .report outcome =>
    match rehearsal.pending with
    | some (.stage _) | none => none
    | some handler => some (rehearsal.report handler outcome)
  | .handshake throws => rehearsal.handshake throws
  | .serve throws => rehearsal.serve throws
  | .hangUp => rehearsal.hangUp

def make (credited : Credited) : Rehearsal :=
  perform
    { connection := credited.connection
      pending := none
      outgoing := []
      incoming := []
      server := ⟨.accept, []⟩
      posts := []
      reports := [] }
    credited.connection.asyncConnect

end Rehearsal

end Post2Usenet
