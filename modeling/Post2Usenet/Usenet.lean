import Post2Usenet.Connection

/-! `usenet.cc`: the pool of connections with its two lists, its queue, its mutex
and its threads. One step is one critical section of `m_bfm`, one handler up to
its first one, or one call of an observer, so between any two steps the mutex is
free and any thread may be next. Undefined behaviour has no next state, nor has an
exception that leaves a thread and ends the program. -/

namespace Post2Usenet
open Connection

/-- A node of `m_ready` or `m_busy`, which is what an iterator points to. -/
abbrev ConnectionHandle := Nat

/-- What `queued_command` binds; the connection is given when it is run. -/
inductive Command (α : Type) where
  | startAsyncPost (msg : α)
  | startAsyncStat (msgid : Bytes)
  deriving DecidableEq

/-- The calls a client of the pool makes, from a thread of its own or from an
observer. -/
inductive Request (α : Type) where
  | enqueueStat (msgid : Bytes)
  | enqueuePost (msg : α) (bypassWait : Bool)
  deriving DecidableEq

/-- What a thread still has to do before the call it is in returns. -/
inductive Task (α : Type) where
  | request (request : Request α)
  | wait (command : Command α) (notified : Bool)
  | onConnBecomesReady (connit : ConnectionHandle)
  | discardConnection (connit : ConnectionHandle)
  | dispatchOrQueue (command : Command α)
  | requeueStat (connit : ConnectionHandle) (msgid : Bytes)
  | slotPostFailed (msg : α)
  | slotFinishPost (msg : α)
  | slotFinishStat (msgid : Bytes) (result : StatResult)
  deriving DecidableEq

structure Thread (α : Type) where
  io : Bool
  tasks : List (Task α)
  deriving DecidableEq

/-- The list an iterator is claimed to belong to. -/
inductive Side where
  | ready | busy
  deriving DecidableEq

/-- Which list's cached size `std::list::erase` decreases when the iterator belongs
to the other one: that of the list it was called on, as the library does it, or
that of the list which holds the node. -/
inductive EraseRule where
  | named | holder
  deriving DecidableEq

/-- What can be seen of a run: on the wire, at the observers and in the log. -/
inductive Entry (α : Type) where
  | wrote (connit : ConnectionHandle) (buffers : Bytes) (handler : Stage)
  | refused (connit : ConnectionHandle)
  | passed (command : Command α)
  | connected (connit : ConnectionHandle) (result : ConnectResult)
  | posted (connit : ConnectionHandle) (msg : α) (result : PostResult)
  | stated (connit : ConnectionHandle) (msgid : Bytes) (result : StatResult)
  | postFailed (msg : α)
  | postFinished (msg : α)
  | statFinished (msgid : Bytes) (result : StatResult)
  | discarded (connit : ConnectionHandle)
  | disconnected (connit : ConnectionHandle)
  deriving DecidableEq

/-- The pool with the io service it runs on. The sizes are the ones the lists
cache; the last two fields only record: whether a list was given an iterator of
the other one, and the run so far, latest entry first. -/
structure Usenet (α : Type) where
  eraseRule : EraseRule
  maxsize : Nat
  numthreads : Nat
  optimeout : Int
  work : Bool
  ready : List ConnectionHandle
  busy : List ConnectionHandle
  readySize : Nat
  busySize : Nat
  queue : List (Command α)
  connections : ConnectionHandle → Option (Connection α)
  nextHandle : ConnectionHandle
  pending : List (ConnectionHandle × Handler α)
  armed : ConnectionHandle → Bool
  threads : List (Thread α)
  articles : α → Article
  misused : Bool
  trace : List (Entry α)

namespace Request

variable {α : Type}

def command : Request α → Command α
  | .enqueueStat msgid => .startAsyncStat msgid
  | .enqueuePost msg _ => .startAsyncPost msg

def bypassWait : Request α → Bool
  | .enqueueStat _ => false
  | .enqueuePost _ bypassWait => bypassWait

end Request

namespace Thread

variable {α : Type}

def asleep (thread : Thread α) : Bool :=
  match thread.tasks with
  | .wait _ false :: _ => true
  | _ => false

def wake (thread : Thread α) : Thread α :=
  match thread.tasks with
  | .wait command _ :: tasks => { thread with tasks := .wait command true :: tasks }
  | _ => thread

end Thread

namespace Usenet

variable {α : Type}

def make (eraseRule : EraseRule) (iothreads maxQueueSize : Nat) (articles : α → Article) : Usenet α where
  eraseRule
  maxsize := maxQueueSize
  numthreads := iothreads
  optimeout := 0
  work := false
  ready := []
  busy := []
  readySize := 0
  busySize := 0
  queue := []
  connections := fun _ => none
  nextHandle := 0
  pending := []
  armed := fun _ => false
  threads := []
  articles
  misused := false
  trace := []

def record (usenet : Usenet α) (entry : Entry α) : Usenet α := { usenet with trace := entry :: usenet.trace }

def wrote? (connit : ConnectionHandle) : Call α → Option (Entry α)
  | .asyncWrite buffers handler => some (.wrote connit buffers handler)
  | _ => none

/-- Let a connection do what one of its functions has decided. -/
def perform (usenet : Usenet α) (connit : ConnectionHandle) (act : Act α) : Usenet α :=
  { usenet with
    connections := Function.update usenet.connections connit (some act.1)
    pending := usenet.pending ++ (act.2.filterMap Call.handler?).map (fun handler => (connit, handler))
    armed := Function.update usenet.armed connit (act.2.foldl Call.arm (usenet.armed connit))
    trace := (act.2.filterMap (wrote? connit)).reverse ++ usenet.trace }

/-- A refusal is ignored for a post, and an assertion for the other two. -/
def performAccepted (usenet : Usenet α) (connit : ConnectionHandle) (result : Bool × Act α) : Usenet α :=
  if result.1 then usenet.perform connit result.2 else usenet.record (.refused connit)

def startAsyncPost (usenet : Usenet α) (connit : ConnectionHandle) (msg : α) : Option (Usenet α) :=
  (usenet.connections connit).map (fun connection => usenet.performAccepted connit (connection.asyncPost msg))

def startAsyncStat (usenet : Usenet α) (connit : ConnectionHandle) (msgid : Bytes) : Option (Usenet α) :=
  (usenet.connections connit).map (fun connection => usenet.performAccepted connit (connection.asyncStat msgid))

def run (usenet : Usenet α) (connit : ConnectionHandle) : Command α → Option (Usenet α)
  | .startAsyncPost msg => usenet.startAsyncPost connit msg
  | .startAsyncStat msgid => usenet.startAsyncStat connit msgid

/-- The size of a list that lost a node, a `size_t`. -/
def decrement (size : Nat) : Nat := if size = 0 then 2 ^ 64 - 1 else size - 1

/-- `m_busy.splice(m_busy.begin(), m_ready, m_ready.begin())`, with the node that
was moved. In an empty list `begin` points to no node. -/
def takeReady (usenet : Usenet α) : Option (ConnectionHandle × Usenet α) :=
  match usenet.ready with
  | [] => none
  | connit :: ready =>
    some (connit, { usenet with
      ready
      busy := connit :: usenet.busy
      readySize := decrement usenet.readySize
      busySize := usenet.busySize + 1 })

/-- `m_ready.splice(m_ready.end(), m_busy, connit)`. -/
def becomeReady (usenet : Usenet α) (connit : ConnectionHandle) : Usenet α :=
  { usenet with
    ready := usenet.ready.erase connit ++ [connit]
    busy := usenet.busy.erase connit
    readySize := usenet.readySize + 1
    busySize := decrement usenet.busySize
    misused := usenet.misused || !decide (connit ∈ usenet.busy) }

/-- `erase` of one of the lists: the node leaves the list that holds it, and its
connection is destroyed, which aborts the wait of its timer. -/
def erase (usenet : Usenet α) (named : Side) (connit : ConnectionHandle) : Usenet α :=
  let holder : Side := if connit ∈ usenet.ready then .ready else .busy
  let counted : Side := if usenet.eraseRule = .named then named else holder
  { usenet with
    ready := usenet.ready.erase connit
    busy := usenet.busy.erase connit
    readySize := if counted = .ready then decrement usenet.readySize else usenet.readySize
    busySize := if counted = .busy then decrement usenet.busySize else usenet.busySize
    connections := Function.update usenet.connections connit none
    armed := Function.update usenet.armed connit false
    misused := usenet.misused || decide (holder ≠ named) }

def pushBack (usenet : Usenet α) (command : Command α) : Usenet α := { usenet with queue := usenet.queue ++ [command] }

/-- `m_queuecv.notify_one()`: some thread that sleeps, if there is one. -/
def notifyOne (usenet : Usenet α) : Option Nat → Option (Usenet α)
  | none => if usenet.threads.any Thread.asleep then none else some usenet
  | some index =>
    match usenet.threads[index]? with
    | some thread => if thread.asleep then some { usenet with threads := usenet.threads.set index thread.wake } else none
    | none => none

def dispatch (usenet : Usenet α) (command : Command α) : Option (Usenet α) :=
  usenet.takeReady.bind (fun taken => taken.2.run taken.1 command)

/-- The body shared by the two functions that enqueue, up to the wait. -/
def executeOrDefer (usenet : Usenet α) (command : Command α) (bypassWait : Bool) : Option (Usenet α × List (Task α)) :=
  if 0 < usenet.readySize then ((usenet.record (.passed command)).dispatch command).map (fun usenet => (usenet, []))
  else if bypassWait = false ∧ usenet.maxsize ≠ 0 ∧ usenet.maxsize ≤ usenet.queue.length then
    some (usenet, [.wait command false])
  else some ((usenet.record (.passed command)).pushBack command, [])

def enqueueStat (usenet : Usenet α) (msgid : Bytes) : Option (Usenet α × List (Task α)) :=
  usenet.executeOrDefer (.startAsyncStat msgid) false

def enqueuePost (usenet : Usenet α) (msg : α) (bypassWait : Bool) : Option (Usenet α × List (Task α)) :=
  usenet.executeOrDefer (.startAsyncPost msg) bypassWait

/-- What follows the wait: the predicate again, and then only the queue. -/
def resume (usenet : Usenet α) (command : Command α) : Usenet α × List (Task α) :=
  if usenet.queue.length < usenet.maxsize then ((usenet.record (.passed command)).pushBack command, [])
  else (usenet, [.wait command false])

def gracefulDisconnect (usenet : Usenet α) (named : Side) (connit : ConnectionHandle) : Option (Usenet α) :=
  (usenet.connections connit).map (fun connection =>
    ((usenet.performAccepted connit connection.asyncGracefulDisconnect).erase named connit).record (.disconnected connit))

def disconnectReady (usenet : Usenet α) : List ConnectionHandle → Option (Usenet α)
  | [] => some usenet
  | connit :: rest => (usenet.gracefulDisconnect .ready connit).bind (fun usenet => usenet.disconnectReady rest)

/-- The end of `on_conn_becomes_ready` when the pool was stopped. -/
def shutdown (usenet : Usenet α) (connit : ConnectionHandle) : Option (Usenet α) :=
  (usenet.gracefulDisconnect .busy connit).bind (fun usenet => usenet.disconnectReady usenet.ready)

def onConnBecomesReady (usenet : Usenet α) (connit : ConnectionHandle) (wake : Option Nat) : Option (Usenet α) :=
  match usenet.queue with
  | nextCommand :: queue =>
    if usenet.maxsize ≠ 0 then
      ({ usenet with queue }.notifyOne wake).bind (fun usenet => usenet.run connit nextCommand)
    else { usenet with queue }.run connit nextCommand
  | [] => if usenet.work then some (usenet.becomeReady connit) else (usenet.becomeReady connit).shutdown connit

def dispatchOrQueue (usenet : Usenet α) (command : Command α) : Option (Usenet α) :=
  if 0 < usenet.readySize then usenet.dispatch command else some (usenet.pushBack command)

def discardConnection (usenet : Usenet α) (connit : ConnectionHandle) : Usenet α :=
  let usenet := (usenet.erase .busy connit).record (.discarded connit)
  if usenet.busySize = 0 ∧ usenet.readySize = 0 then { usenet with work := false } else usenet

def requeueStat (usenet : Usenet α) (connit : ConnectionHandle) (msgid : Bytes) (outcome : Outcome) :
    Option (Usenet α) :=
  let usenet := usenet.pushBack (.startAsyncStat msgid)
  (usenet.connections connit).map (fun connection => usenet.perform connit (connection.close outcome).asyncConnect)

def onConnected (usenet : Usenet α) (connit : ConnectionHandle) (result : ConnectResult) : Usenet α × List (Task α) :=
  (usenet.record (.connected connit result),
   match result with
   | .fatalConnectError | .invalidCredentials => [.discardConnection connit]
   | .connectSuccess => [.onConnBecomesReady connit])

def onStatFinished (usenet : Usenet α) (connit : ConnectionHandle) (msgid : Bytes) (result : StatResult) :
    Usenet α × List (Task α) :=
  (usenet.record (.stated connit msgid result),
   match result with
   | .connectionError => [.requeueStat connit msgid]
   | .articleExists | .invalidArticle => [.onConnBecomesReady connit, .slotFinishStat msgid result])

def onPostFinished (usenet : Usenet α) (connit : ConnectionHandle) (connection : Connection α) (msg : α)
    (result : PostResult) (outcome : Outcome) : Usenet α × List (Task α) :=
  let usenet := usenet.record (.posted connit msg result)
  match result with
  | .postingNotPermitted =>
    (usenet.perform connit (connection.close outcome, []),
     [.discardConnection connit, .dispatchOrQueue (.startAsyncPost msg)])
  | .postFailure => (usenet, [.slotPostFailed msg, .onConnBecomesReady connit])
  | .postFailureConnectionError =>
    (usenet.perform connit (connection.close outcome).asyncConnect, [.slotPostFailed msg])
  | .postSuccess => (usenet, [.onConnBecomesReady connit, .slotFinishPost msg])

/-- An io thread is about to run the handler of a timer whose socket is closed, where
`m_sock.cancel()` throws. -/
def throws (usenet : Usenet α) (index place : Nat) : Bool :=
  match usenet.threads[index]?, usenet.pending[place]? with
  | some ⟨true, []⟩, some (connit, .timer) => (usenet.connections connit).any (fun connection => !connection.sockOpen)
  | _, _ => false

/-- An io thread runs a handler up to its first critical section or observer. A
handler whose connection was destroyed finds nothing it could use. The timer's
handler cancels what its connection waits for, if it does not throw, and any
operation may end with an error in any case. -/
def deliver (usenet : Usenet α) (connit : ConnectionHandle) (handler : Handler α) (outcome : Outcome) :
    Usenet α × List (Task α) :=
  match usenet.connections connit with
  | none => (usenet, [])
  | some connection =>
    match handler with
    | .stage stage => (usenet.perform connit (connection.run usenet.articles stage outcome), [])
    | .timer => (usenet, [])
    | .connectHandler result => usenet.onConnected connit result
    | .postHandler msg result => usenet.onPostFinished connit connection msg result outcome
    | .statHandler msgid result => usenet.onStatFinished connit msgid result

/-- What the environment decides while a thread goes on: how `close` ends, which
thread a notification wakes, and what an observer calls before it returns. -/
structure Choice (α : Type) where
  outcome : Outcome
  wake : Option Nat
  calls : List (Request α)

def proceed (usenet : Usenet α) (choice : Choice α) : Task α → Option (Usenet α × List (Task α))
  | .request (.enqueueStat msgid) => usenet.enqueueStat msgid
  | .request (.enqueuePost msg bypassWait) => usenet.enqueuePost msg bypassWait
  | .wait command _ => some (usenet.resume command)
  | .onConnBecomesReady connit => (usenet.onConnBecomesReady connit choice.wake).map (fun usenet => (usenet, []))
  | .discardConnection connit => some (usenet.discardConnection connit, [])
  | .dispatchOrQueue command => (usenet.dispatchOrQueue command).map (fun usenet => (usenet, []))
  | .requeueStat connit msgid => (usenet.requeueStat connit msgid choice.outcome).map (fun usenet => (usenet, []))
  | .slotPostFailed msg => some (usenet.record (.postFailed msg), choice.calls.map .request)
  | .slotFinishPost msg => some (usenet.record (.postFinished msg), choice.calls.map .request)
  | .slotFinishStat msgid result => some (usenet.record (.statFinished msgid result), choice.calls.map .request)

def addConnection (usenet : Usenet α) (conninfo : ConnectionInfo) : Usenet α :=
  let connit := usenet.nextHandle
  let connection := Connection.make conninfo usenet.optimeout
  { usenet with
    busy := usenet.busy ++ [connit]
    busySize := usenet.busySize + 1
    nextHandle := connit + 1 }.perform connit connection.asyncConnect

def addConnections (usenet : Usenet α) (conninfo : ConnectionInfo) : Nat → Usenet α
  | 0 => usenet
  | numConnections + 1 => (usenet.addConnection conninfo).addConnections conninfo numConnections

def start (usenet : Usenet α) : Usenet α :=
  { usenet with
    work := true
    threads := usenet.threads ++ List.replicate usenet.numthreads ⟨true, []⟩ }

def stop (usenet : Usenet α) : Usenet α := { usenet with work := false }

def getQueueSize (usenet : Usenet α) : Nat := usenet.queue.length

/-- The first things a thread does next. -/
def pushTasks (usenet : Usenet α) (index : Nat) (tasks : List (Task α)) : Usenet α :=
  { usenet with
    threads := usenet.threads.modify index (fun thread => { thread with tasks := tasks ++ thread.tasks }) }

inductive Event (α : Type) where
  | setOperationTimeout (seconds : Int)
  | addConnections (conninfo : ConnectionInfo) (numConnections : Nat)
  | start
  | stop
  | spawn
  | call (thread : Nat) (request : Request α)
  | take (thread index : Nat) (outcome : Outcome)
  | expire (connit : ConnectionHandle)
  | proceed (thread : Nat) (choice : Choice α)
  | rewrite (articles : α → Article)

def step (usenet : Usenet α) : Event α → Option (Usenet α)
  | .setOperationTimeout seconds => some { usenet with optimeout := seconds }
  | .addConnections conninfo numConnections => some (usenet.addConnections conninfo numConnections)
  | .start => some usenet.start
  | .stop => some usenet.stop
  | .spawn => some { usenet with threads := usenet.threads ++ [⟨false, []⟩] }
  | .call index request =>
    match usenet.threads[index]? with
    | some ⟨false, []⟩ => some (usenet.pushTasks index [.request request])
    | _ => none
  | .take index place outcome =>
    if usenet.throws index place then none
    else
      match usenet.threads[index]?, usenet.pending[place]? with
      | some ⟨true, []⟩, some (connit, handler) =>
        let usenet := { usenet with pending := usenet.pending.eraseIdx place }
        let result := usenet.deliver connit handler outcome
        some (result.1.pushTasks index result.2)
      | _, _ => none
  | .expire connit =>
    if (usenet.connections connit).isSome ∧ usenet.armed connit then
      some { usenet with
        armed := Function.update usenet.armed connit false
        pending := usenet.pending ++ [(connit, .timer)] }
    else none
  | .proceed index choice =>
    match usenet.threads[index]? with
    | some ⟨io, task :: tasks⟩ =>
      let usenet := { usenet with threads := usenet.threads.set index ⟨io, tasks⟩ }
      (usenet.proceed choice task).map (fun result => result.1.pushTasks index result.2)
    | _ => none
  | .rewrite articles => some { usenet with articles }

/-- `join` has returned: no io thread has anything left to run or to wait for. -/
structure Joined (usenet : Usenet α) : Prop where
  stopped : usenet.work = false
  delivered : usenet.pending = []
  disarmed : ∀ connit ∈ usenet.ready ++ usenet.busy, usenet.armed connit = false
  idle : ∀ thread ∈ usenet.threads, thread.io = true → thread.tasks = []

instance [DecidableEq α] (usenet : Usenet α) : Decidable usenet.Joined :=
  decidable_of_iff
    (usenet.work = false ∧ usenet.pending = [] ∧ (∀ connit ∈ usenet.ready ++ usenet.busy, usenet.armed connit = false) ∧
      ∀ thread ∈ usenet.threads, thread.io = true → thread.tasks = [])
    ⟨fun ⟨stopped, delivered, disarmed, idle⟩ => ⟨stopped, delivered, disarmed, idle⟩,
      fun ⟨stopped, delivered, disarmed, idle⟩ => ⟨stopped, delivered, disarmed, idle⟩⟩

end Usenet

end Post2Usenet
