import Post2Usenet.Usenet

/-! The pool where its io threads overlap. `post_handler_callback` and
`stat_handler_callback` post the handler before they let go of the article and of the
message id, so another io thread may run the handler in between, and whatever follows
from it. The pool over `Option` has the null pointer among its articles. -/

namespace Post2Usenet
open Connection

/-- The last statement of one of the two functions. -/
inductive Reset where
  | article | msgid
  deriving DecidableEq

/-- A thread that has posted a handler, and is still in the function that did. -/
structure Late where
  thread : Nat
  connit : ConnectionHandle
  reset : Reset
  deriving DecidableEq

/-- Nobody reads what is to be reset before a connection is used again. So the pool has
reset it when the handler was posted, and it is reset once more when the thread gets there. -/
structure Overlap (α : Type) where
  usenet : Usenet (Option α)
  late : List Late

variable {α : Type}

/-- `m_article.reset()` or `m_msgid.clear()`. A connection without an article has a null
pointer already. -/
def Reset.apply (connection : Connection (Option α)) : Reset → Connection (Option α)
  | .article => { connection with article := connection.article.map (fun _ => none) }
  | .msgid => { connection with msgid := [] }

def Reset.after? : Call (Option α) → Option Reset
  | .post (.postHandler _ _) => some .article
  | .post (.statHandler _ _) => some .msgid
  | _ => none

namespace Overlap

/-- What the handler at a place leaves to its thread. -/
def leaves (usenet : Usenet (Option α)) (place : Nat) (outcome : Outcome) : Option (ConnectionHandle × Reset) :=
  match usenet.pending[place]? with
  | some (connit, .stage stage) =>
    (usenet.connections connit).bind (fun connection =>
      ((connection.run usenet.articles stage outcome).2.findSome? Reset.after?).map (fun reset => (connit, reset)))
  | _ => none

/-- `send_article` follows the pointer to the article, which is null. -/
def dereferences (usenet : Usenet (Option α)) (place : Nat) (outcome : Outcome) : Bool :=
  match usenet.pending[place]? with
  | some (connit, .stage stage) =>
    (usenet.connections connit).any (fun connection =>
      connection.article.any Option.isNone &&
        (connection.run usenet.articles stage outcome).2.any (fun call =>
          match call with
          | .asyncWrite _ .articleWritten => true
          | _ => false))
  | _ => false

def late? (usenet : Usenet (Option α)) : Usenet.Event (Option α) → Option Late
  | .take thread place outcome => (leaves usenet place outcome).map (fun (connit, reset) => ⟨thread, connit, reset⟩)
  | _ => none

def faults (usenet : Usenet (Option α)) : Usenet.Event (Option α) → Bool
  | .take _ place outcome => dereferences usenet place outcome
  | _ => false

def thread? : Usenet.Event (Option α) → Option Nat
  | .call thread _ | .take thread _ _ | .proceed thread _ => some thread
  | _ => none

inductive Event (α : Type) where
  | pool (event : Usenet.Event (Option α))
  | reset (index : Nat)

/-- A thread does nothing else before it has left the function. A connection that was
destroyed in the meantime has nothing to reset, and no next state. -/
def step (overlap : Overlap α) : Event α → Option (Overlap α)
  | .pool event =>
    if overlap.late.any (fun late => thread? event = some late.thread) ∨ faults overlap.usenet event then none
    else (overlap.usenet.step event).map (fun usenet =>
      { usenet, late := overlap.late ++ (late? overlap.usenet event).toList })
  | .reset index =>
    overlap.late[index]?.bind (fun late =>
      (overlap.usenet.connections late.connit).map (fun connection =>
        { usenet := { overlap.usenet with
            connections := Function.update overlap.usenet.connections late.connit (some (late.reset.apply connection)) }
          late := overlap.late.eraseIdx index }))

def make (eraseRule : EraseRule) (iothreads maxQueueSize : Nat) (articles : Option α → Article) : Overlap α :=
  ⟨.make eraseRule iothreads maxQueueSize articles, []⟩

end Overlap

end Post2Usenet
