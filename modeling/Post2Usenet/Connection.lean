import Post2Usenet.ConnectionInfo
import Post2Usenet.Message

/-! `connection.cc` with every callback given a name. A function of the connection
returns the connection it leaves and what it asked of asio, in this order; what
asio answers is an outcome the environment chooses. Articles are pointers of a
type `α`, read through the heap when they are sent. -/

namespace Post2Usenet

namespace Protocol

def messageTerm : Bytes := ascii "\r\n.\r\n"
def post : Bytes := ascii "POST\r\n"
def authinfouser : Bytes := ascii "AUTHINFO USER "
def authinfopass : Bytes := ascii "AUTHINFO PASS "
def stat : Bytes := ascii "STAT "
def quit : Bytes := ascii "QUIT\r\n"

end Protocol

inductive PostResult where
  | postSuccess | postingNotPermitted | postFailure | postFailureConnectionError
  deriving DecidableEq

inductive ConnectResult where
  | fatalConnectError | invalidCredentials | connectSuccess
  deriving DecidableEq

inductive StatResult where
  | articleExists | invalidArticle | connectionError
  deriving DecidableEq

/-- The buffers of `send_article`, one after the other. -/
def Article.wire (article : Article) : Bytes :=
  article.header.writeTo ++ crlf ++ article.payload.flatten ++ Protocol.messageTerm

namespace Connection

inductive State where
  | disconnected | connecting | connectingAuthenticating | connectedAndAuthenticated | busy
  deriving DecidableEq

/-- The functions that run on the connection itself: `do_connect`, `do_post` and
`do_stat`, which are posted, and the completion handlers, named after what has
completed. -/
inductive Stage where
  | doConnect | resolved | connected | handshaken | greeted
  | usernameWritten | usernameAnswered | passwordWritten | passwordAnswered
  | doPost | postWritten | postAnswered | articleWritten | articleAnswered
  | doStat | statWritten | statAnswered
  | quitWritten
  deriving DecidableEq

/-- Everything asio can be asked to run later on behalf of a connection. The last
three hold the arguments bound to the handlers the owner has set. -/
inductive Handler (α : Type) where
  | stage (stage : Stage)
  | timer
  | connectHandler (result : ConnectResult)
  | postHandler (article : α) (result : PostResult)
  | statHandler (msgid : Bytes) (result : StatResult)
  deriving DecidableEq

inductive Call (α : Type) where
  | post (handler : Handler α)
  | asyncResolve (handler : Stage)
  | asyncConnect (handler : Stage)
  | asyncHandshake (handler : Stage)
  | asyncWrite (buffers : Bytes) (handler : Stage)
  | asyncReadUntil (handler : Stage)
  | startTimer (seconds : Int)
  | cancelTimer
  deriving DecidableEq

def Call.handler? {α : Type} : Call α → Option (Handler α)
  | .post handler => some handler
  | .asyncResolve handler | .asyncConnect handler | .asyncHandshake handler | .asyncReadUntil handler =>
    some (.stage handler)
  | .asyncWrite _ handler => some (.stage handler)
  | .startTimer _ | .cancelTimer => none

/-- Whether the timer's wait is pending after a call. Setting it again aborts the
wait before. -/
def Call.arm {α : Type} (armed : Bool) : Call α → Bool
  | .startTimer _ => true
  | .cancelTimer => false
  | _ => armed

/-- How an operation ended: whether with an error, and which bytes arrived for the
read buffer before it did. The last field is for `close`, whose `shutdown` throws
when the peer is already gone. -/
structure Outcome where
  failed : Bool
  received : Bytes
  shutdownThrows : Bool
  deriving DecidableEq

end Connection

open Connection in
structure Connection (α : Type) where
  conninfo : ConnectionInfo
  timeout : Int
  state : State
  sockOpen : Bool
  readbuf : Bytes
  article : Option α
  postheader : Bytes
  msgid : Bytes
  deriving DecidableEq

namespace Connection

variable {α : Type}

abbrev Act (α : Type) := Connection α × List (Call α)

def make (conninfo : ConnectionInfo) (timeout : Int) : Connection α where
  conninfo
  timeout
  state := .disconnected
  sockOpen := false
  readbuf := []
  article := none
  postheader := []
  msgid := []

/-- What was asked of asio before the rest. -/
def preceded (calls : List (Call α)) (act : Act α) : Act α := (act.1, calls ++ act.2)

def timeoutNextAsyncOperation (connection : Connection α) : List (Call α) :=
  if connection.timeout < 1 then [] else [.startTimer connection.timeout]

def write (connection : Connection α) (buffers : Bytes) (handler : Stage) : Act α :=
  (connection, connection.timeoutNextAsyncOperation ++ [.asyncWrite buffers handler])

def readLine (connection : Connection α) (handler : Stage) : Act α :=
  (connection, connection.timeoutNextAsyncOperation ++ [.asyncReadUntil handler])

def connectHandlerCallback (connection : Connection α) (result : ConnectResult) : Act α :=
  (connection, [.post (.connectHandler result)])

-- An article is held whenever this runs, so there is no null pointer to bind. The article, and below
-- the id, are let go of after the handler was posted, which only another thread can see: `Overlap`.
def postHandlerCallback (connection : Connection α) (result : PostResult) : Act α :=
  ({ connection with state := .connectedAndAuthenticated, article := none },
   connection.article.toList.map (fun article => .post (.postHandler article result)))

def statHandlerCallback (connection : Connection α) (result : StatResult) : Act α :=
  ({ connection with state := .connectedAndAuthenticated, msgid := [] }, [.post (.statHandler connection.msgid result)])

def sendAuthinfoUsername (connection : Connection α) : Act α :=
  connection.write (Protocol.authinfouser ++ connection.conninfo.username ++ crlf) .usernameWritten

def sendAuthinfoPassword (connection : Connection α) : Act α :=
  connection.write (Protocol.authinfopass ++ connection.conninfo.password ++ crlf) .passwordWritten

def checkAuthinfoResult (connection : Connection α) (line : Bytes) : Act α :=
  if line.head? = some 50 then
    connectHandlerCallback { connection with state := .connectedAndAuthenticated } .connectSuccess
  else connection.connectHandlerCallback .invalidCredentials

def doAuthenticate (connection : Connection α) : Act α := connection.readLine .greeted

def doConnect (connection : Connection α) : Act α :=
  ({ connection with state := .connecting }, [.asyncResolve .resolved])

def doPost (connection : Connection α) : Act α :=
  write { connection with state := .busy } Protocol.post .postWritten

def doStat (connection : Connection α) : Act α :=
  write { connection with state := .busy } (Protocol.stat ++ connection.msgid ++ crlf) .statWritten

/-- The article is read when it is sent, not when it was handed over. -/
def sendArticle (heap : α → Article) (connection : Connection α) (message : α) : Act α :=
  let article := heap message
  write { connection with postheader := article.header.writeTo } article.wire .articleWritten

/-- What `async_read_line` hands to its handler: a line with its end, which leaves
the buffer, or nothing for an error. A line that is already in the buffer needs
no reading; a buffer that is full without a line is an error too. -/
def receiveLine (connection : Connection α) (outcome : Outcome) : Option Bytes × Connection α :=
  match Lines.next cr lf connection.readbuf with
  | some (line, readbuf) => (some (line ++ crlf), { connection with readbuf })
  | none =>
    let readbuf := connection.readbuf ++ outcome.received
    if outcome.failed then (none, { connection with readbuf })
    else
      match Lines.next cr lf readbuf with
      | some (line, readbuf) => (some (line ++ crlf), { connection with readbuf })
      | none => (none, { connection with readbuf })

-- `read_line` stops the timer only when a line has arrived.
def onLine (connection : Connection α) (outcome : Outcome) (good : Bytes → Connection α → Act α)
    (bad : Connection α → Act α) : Act α :=
  match connection.receiveLine outcome with
  | (some line, connection) => preceded [.cancelTimer] (good line connection)
  | (none, connection) => bad connection

-- `write` stops the timer in any case.
def onWritten (connection : Connection α) (outcome : Outcome) (good bad : Connection α → Act α) : Act α :=
  preceded [.cancelTimer] (if outcome.failed then bad connection else good connection)

def close (connection : Connection α) (outcome : Outcome) : Connection α :=
  if connection.state = .disconnected then connection
  else
    -- `shutdown` comes first in the `try` block, so `close` is skipped when it throws.
    { connection with
      sockOpen := connection.sockOpen && outcome.shutdownThrows
      readbuf := []
      state := .disconnected }

def asyncConnect (connection : Connection α) : Act α :=
  (connection, if connection.state = .disconnected then [.post (.stage .doConnect)] else [])

def asyncPost (connection : Connection α) (message : α) : Bool × Act α :=
  if connection.state ≠ .connectedAndAuthenticated then (false, connection, [])
  else (true, { connection with article := some message }, [.post (.stage .doPost)])

-- A refusal is `assert(false)` here and below.
def asyncStat (connection : Connection α) (mid : Bytes) : Bool × Act α :=
  if connection.state ≠ .connectedAndAuthenticated then (false, connection, [])
  else (true, { connection with msgid := mid }, [.post (.stage .doStat)])

def asyncGracefulDisconnect (connection : Connection α) : Bool × Act α :=
  if connection.state ≠ .connectedAndAuthenticated then (false, connection, [])
  else (true, write { connection with state := .busy } Protocol.quit .quitWritten)

def run (heap : α → Article) (stage : Stage) (outcome : Outcome) (connection : Connection α) : Act α :=
  match stage with
  | .doConnect => connection.doConnect
  | .resolved =>
    if outcome.failed then connection.connectHandlerCallback .fatalConnectError
    else
      ({ connection with sockOpen := true }, connection.timeoutNextAsyncOperation ++ [.asyncConnect .connected])
  | .connected =>
    if outcome.failed then connection.connectHandlerCallback .fatalConnectError
    else if connection.conninfo.tls then
      preceded [.cancelTimer] (connection, connection.timeoutNextAsyncOperation ++ [.asyncHandshake .handshaken])
    else preceded [.cancelTimer] connection.doAuthenticate
  | .handshaken =>
    if outcome.failed then connection.connectHandlerCallback .fatalConnectError
    else preceded [.cancelTimer] connection.doAuthenticate
  | .greeted =>
    connection.onLine outcome
      (fun line connection =>
        if line.head? ≠ some 50 then connection.connectHandlerCallback .fatalConnectError
        else connection.sendAuthinfoUsername)
      (fun connection => connection.connectHandlerCallback .fatalConnectError)
  | .usernameWritten =>
    connection.onWritten outcome
      (fun connection => connection.readLine .usernameAnswered)
      (fun connection => connection.connectHandlerCallback .fatalConnectError)
  | .usernameAnswered =>
    connection.onLine outcome
      (fun line connection =>
        if (ascii "381").isPrefixOf line then connection.sendAuthinfoPassword else connection.checkAuthinfoResult line)
      (fun connection => connection.connectHandlerCallback .fatalConnectError)
  | .passwordWritten =>
    connection.onWritten outcome
      (fun connection => connection.readLine .passwordAnswered)
      (fun connection => connection.connectHandlerCallback .fatalConnectError)
  | .passwordAnswered =>
    connection.onLine outcome
      (fun line connection => connection.checkAuthinfoResult line)
      (fun connection => connection.connectHandlerCallback .fatalConnectError)
  | .doPost => connection.doPost
  | .postWritten =>
    connection.onWritten outcome
      (fun connection => connection.readLine .postAnswered)
      (fun connection => connection.postHandlerCallback .postFailureConnectionError)
  | .postAnswered =>
    connection.onLine outcome
      (fun line connection =>
        if line.head? = some 52 then connection.postHandlerCallback .postingNotPermitted
        else
          match connection.article with
          | some message => connection.sendArticle heap message
          | none => (connection, []))
      (fun connection => connection.postHandlerCallback .postFailureConnectionError)
  | .articleWritten =>
    connection.onWritten outcome
      (fun connection => connection.readLine .articleAnswered)
      (fun connection => connection.postHandlerCallback .postFailureConnectionError)
  | .articleAnswered =>
    connection.onLine outcome
      (fun line connection =>
        if line.head? = some 50 then connection.postHandlerCallback .postSuccess
        else connection.postHandlerCallback .postFailure)
      (fun connection => connection.postHandlerCallback .postFailureConnectionError)
  | .doStat => connection.doStat
  | .statWritten =>
    connection.onWritten outcome
      (fun connection => connection.readLine .statAnswered)
      (fun connection => connection.statHandlerCallback .connectionError)
  | .statAnswered =>
    connection.onLine outcome
      (fun line connection =>
        if line.head? = some 50 then connection.statHandlerCallback .articleExists
        else connection.statHandlerCallback .invalidArticle)
      (fun connection => connection.statHandlerCallback .connectionError)
  | .quitWritten => (connection.close outcome, [.cancelTimer])

end Connection

end Post2Usenet
