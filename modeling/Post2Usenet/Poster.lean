import Post2Usenet.Lib.Simulation

/-! What posting is about, without a pool: every piece is made once, tried a few times, and
posted once or given up. -/

namespace Post2Usenet

inductive Poster.Status where
  | unmade
  | waiting (failures : Nat)
  | posted (failures : Nat)
  deriving DecidableEq

/-- All pieces, and whether one of them was given up. -/
structure Poster (κ : Type) where
  status : κ → Poster.Status
  abandoned : Bool

namespace Poster

variable {κ : Type} [DecidableEq κ]

/-- What happens to a piece. -/
inductive Deed (κ : Type) where
  | make (key : κ)
  | fail (key : κ)
  | succeed (key : κ)
  deriving DecidableEq

def Deed.key : Deed κ → κ
  | .make key | .fail key | .succeed key => key

def limit : Nat := 3

def idle : Poster κ := ⟨fun _ => .unmade, false⟩

def put (poster : Poster κ) (key : κ) (status : Status) : Poster κ :=
  { poster with status := Function.update poster.status key status }

/-- After the last failure that is allowed nothing happens any more. -/
def step (poster : Poster κ) (deed : Deed κ) : Option (Poster κ) :=
  if poster.abandoned then none
  else
    match deed with
    | .make key =>
      match poster.status key with
      | .unmade => some (poster.put key (.waiting 0))
      | _ => none
    | .fail key =>
      match poster.status key with
      | .waiting failures => some { poster.put key (.waiting (failures + 1)) with abandoned := failures + 1 = limit }
      | _ => none
    | .succeed key =>
      match poster.status key with
      | .waiting failures => some (poster.put key (.posted failures))
      | _ => none

/-- The deeds that a status remembers. -/
def Remembers (history : List (Deed κ)) (key : κ) : Status → Prop
  | .unmade => history.count (.make key) = 0 ∧ history.count (.fail key) = 0 ∧ history.count (.succeed key) = 0
  | .waiting failures =>
    history.count (.make key) = 1 ∧ history.count (.fail key) = failures ∧ history.count (.succeed key) = 0
  | .posted failures =>
    history.count (.make key) = 1 ∧ history.count (.fail key) = failures ∧ history.count (.succeed key) = 1

def isPosted : Status → Bool
  | .posted _ => true
  | _ => false

def Allowed : Status → Prop
  | .unmade => True
  | .waiting failures => failures ≤ limit
  | .posted failures => failures < limit

/-- Every status remembers what was done to its piece, and a piece is given up at its last failure. -/
structure Kept (history : List (Deed κ)) (poster : Poster κ) : Prop where
  remembers : ∀ key, Remembers history key (poster.status key)
  allowed : ∀ key, Allowed (poster.status key)
  abandons : poster.abandoned = true ↔ ∃ key, poster.status key = .waiting limit

end Poster

end Post2Usenet
