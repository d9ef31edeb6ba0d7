import Post2Usenet.Reactor

/-! One connection whose owner asks for posts and stats at any moment: before or after
any handler runs that is queued. Its other calls need a connection of which no
function is queued, as in the pool. -/

namespace Post2Usenet
open Connection

inductive Operation (α : Type) where
  | post (message : α)
  | stat (mid : Bytes)
  deriving DecidableEq

/-- An operation that was accepted, what has occurred since, and the handler of the owner
that its result was bound to. What has occurred last comes first. -/
structure Exchange (α : Type) where
  operation : Operation α
  occurred : List (Occurrence α)
  determined : Option (Handler α)
  deriving DecidableEq

/-- The latest exchange comes first. -/
structure Operations (α : Type) where
  connection : Connection α
  pending : List (Handler α)
  exchanges : List (Exchange α)
  deriving DecidableEq

namespace Operations

variable {α : Type}

def make (conninfo : ConnectionInfo) (timeout : Int) : Operations α := ⟨.make conninfo timeout, [], []⟩

def stage? : Handler α → Option Stage
  | .stage stage => some stage
  | _ => none

/-- The functions of the connection that are queued. -/
def stages (operations : Operations α) : List Stage := operations.pending.filterMap stage?

/-- What `post_handler_callback` and `stat_handler_callback` post. -/
def result? : Handler α → Option (Handler α)
  | .postHandler article result => some (.postHandler article result)
  | .statHandler msgid result => some (.statHandler msgid result)
  | _ => none

/-- What occurs belongs to the latest exchange, until its result is determined. -/
def note (new : List (Occurrence α)) (determined : Option (Handler α)) : List (Exchange α) → List (Exchange α)
  | [] => []
  | exchange :: earlier =>
    if exchange.determined.isSome then exchange :: earlier
    else { exchange with occurred := new ++ exchange.occurred, determined } :: earlier

def perform (operations : Operations α) (ended : List (Occurrence α)) (act : Act α) : Operations α :=
  let handlers := act.2.filterMap Call.handler?
  { connection := act.1
    pending := operations.pending ++ handlers
    exchanges := note (Reactor.writes act.2 ++ ended) (handlers.filterMap result?).head?
      operations.exchanges }

/-- What `async_post` and `async_stat` do, and whether they return true. -/
def ask (operations : Operations α) (operation : Operation α) : Bool × Act α :=
  match operation with
  | .post message => operations.connection.asyncPost message
  | .stat mid => operations.connection.asyncStat mid

inductive Event (α : Type) where
  | asyncConnect
  | asyncGracefulDisconnect
  | close (outcome : Outcome)
  | ask (operation : Operation α)
  | complete (place : Nat) (outcome : Outcome)

def step (heap : α → Article) (operations : Operations α) : Event α → Option (Operations α)
  | .asyncConnect =>
    if operations.stages = [] then some (operations.perform [] operations.connection.asyncConnect) else none
  | .asyncGracefulDisconnect =>
    if operations.stages = [] then some (operations.perform [] operations.connection.asyncGracefulDisconnect.2) else none
  | .close outcome =>
    if operations.stages = [] then some { operations with connection := operations.connection.close outcome } else none
  | .ask operation =>
    let (accepted, connection, calls) := operations.ask operation
    some {
      connection
      pending := operations.pending ++ calls.filterMap Call.handler?
      exchanges := if accepted then ⟨operation, [], none⟩ :: operations.exchanges else operations.exchanges }
  | .complete place outcome =>
    match operations.pending[place]? with
    | none => none
    | some (.stage stage) =>
      some ({ operations with pending := operations.pending.eraseIdx place }.perform
        (Reactor.ended operations.connection stage outcome) (operations.connection.run heap stage outcome))
    | some _ => some { operations with pending := operations.pending.eraseIdx place }

end Operations

end Post2Usenet
