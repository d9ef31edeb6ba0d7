import Post2Usenet.Lib.Machine

/-! Runs that have to end. A step may be granted something by its environment, and lowers the
potential otherwise, so a run is no longer than what it started with and was granted. -/

namespace Machine

variable {σ : Type u} {ε : Type v} {step : σ → ε → Option σ}

/-- What the steps of a run are granted. -/
def granted (step : σ → ε → Option σ) (grant : σ → ε → Nat) : σ → List ε → Nat
  | _, [] => 0
  | state, event :: rest =>
    match step state event with
    | none => 0
    | some next => grant state event + granted step grant next rest

/-- The ranking rule, with what the environment adds. -/
theorem length_le_granted {inv : σ → Prop} {potential : σ → Nat} {grant : σ → ε → Nat} {init state : σ} {events : List ε}
    (kept : ∀ before event after, inv before → step before event = some after → inv after)
    (falls : ∀ before event after, inv before → step before event = some after →
      potential after + 1 ≤ potential before + grant before event)
    (start : inv init) (reached : run step init events = some state) :
    potential state + events.length ≤ potential init + granted step grant init events := by
  induction events generalizing init with
  | nil =>
    cases reached
    exact Nat.le_refl _
  | cons event rest ih =>
    obtain ⟨next, taken, reached⟩ := Option.bind_eq_some_iff.mp reached
    have first := falls init event next start taken
    have later := ih (kept init event next start taken) reached
    rw [granted, taken, List.length_cons]
    dsimp only
    omega

/-- A grant for the steps that pass one of two tests. -/
theorem granted_tally (one other : σ → ε → Bool) (much : Nat) (init : σ) (events : List ε) :
    granted step (fun state event => (if one state event then much else 0) + if other state event then 1 else 0) init events =
      much * tally step one init events + tally step other init events := by
  induction events generalizing init with
  | nil => rfl
  | cons event rest ih =>
    rw [granted, tally, tally]
    cases step init event with
    | none => rfl
    | some next =>
      dsimp only
      rw [ih next]
      split <;> split <;> simp only [Nat.mul_add, Nat.mul_one, Nat.mul_zero] <;> omega

end Machine
