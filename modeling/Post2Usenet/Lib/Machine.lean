import Mathlib

/-! Machines driven by an environment. A step is a partial function of the state
and the environment's choice; a run is a finite list of choices. Nothing here
depends on what the states or the choices are. -/

namespace Machine

variable {σ : Type u} {ε : Type v} (step : σ → ε → Option σ)

/-- The state after all choices, unless one of them is not enabled. -/
def run : σ → List ε → Option σ
  | state, [] => some state
  | state, event :: rest => (step state event).bind (fun next => run next rest)

def Reachable (init state : σ) : Prop := ∃ events, run step init events = some state

/-- Every state the run passes through, its first one included. -/
def Holds (property : σ → Prop) : σ → List ε → Prop
  | state, [] => property state
  | state, event :: rest => property state ∧ ∀ next, step state event = some next → Holds property next rest

/-- Every step the run takes meets a condition on the state before it. -/
def Meets (guard : σ → ε → Prop) : σ → List ε → Prop
  | _, [] => True
  | state, event :: rest => ∀ next, step state event = some next → guard state event ∧ Meets guard next rest

theorem run_append (state : σ) (first rest : List ε) :
    run step state (first ++ rest) = (run step state first).bind (fun next => run step next rest) := by
  induction first generalizing state with
  | nil => rfl
  | cons event first ih =>
    simp only [List.cons_append, run]
    cases step state event with
    | none => rfl
    | some next => exact ih next

theorem run_singleton (state : σ) (event : ε) : run step state [event] = step state event := by
  cases h : step state event <;> simp [run, h]

variable {step}

theorem Reachable.refl (init : σ) : Reachable step init init := ⟨[], rfl⟩

theorem Reachable.trans {init middle state : σ} (first : Reachable step init middle)
    (rest : Reachable step middle state) : Reachable step init state := by
  obtain ⟨earlier, reached⟩ := first
  obtain ⟨later, final⟩ := rest
  exact ⟨earlier ++ later, by rw [run_append, reached]; exact final⟩

theorem Reachable.next {init state after : σ} {event : ε} (reached : Reachable step init state)
    (taken : step state event = some after) : Reachable step init after :=
  reached.trans ⟨[event], by rw [run_singleton]; exact taken⟩

/-- The invariant rule: what the first state satisfies and every step keeps. -/
theorem Reachable.invariant {init state : σ} (inv : σ → Prop) (reached : Reachable step init state)
    (start : inv init) (kept : ∀ before event after, inv before → step before event = some after → inv after) :
    inv state := by
  obtain ⟨events, reached⟩ := reached
  induction events generalizing init with
  | nil =>
    cases reached
    exact start
  | cons event rest ih =>
    simp only [run] at reached
    cases taken : step init event with
    | none => simp [taken] at reached
    | some next =>
      rw [taken] at reached
      exact ih (kept init event next start taken) reached

/-- A property of all reachable states is a property of all states of all runs. -/
theorem holds_of_reachable {init : σ} {property : σ → Prop}
    (always : ∀ state, Reachable step init state → property state) (events : List ε) :
    Holds step property init events := by
  induction events generalizing init with
  | nil => exact always init (.refl init)
  | cons event rest ih =>
    refine ⟨always init (.refl init), fun next taken => ih fun state reached => ?_⟩
    exact always state (((Reachable.refl init).next taken).trans reached)

theorem holds_last {init state : σ} {property : σ → Prop} {events : List ε}
    (holds : Holds step property init events) (reached : run step init events = some state) : property state := by
  induction events generalizing init with
  | nil =>
    cases reached
    exact holds
  | cons event rest ih =>
    simp only [run] at reached
    cases taken : step init event with
    | none => simp [taken] at reached
    | some next =>
      rw [taken] at reached
      exact ih (holds.2 next taken) reached

/-- The invariant rule for the runs whose steps all meet a condition. -/
theorem holds_of_meets {init : σ} {guard : σ → ε → Prop} (inv property : σ → Prop)
    (start : inv init) (enough : ∀ state, inv state → property state)
    (kept : ∀ before event after, inv before → guard before event → step before event = some after → inv after)
    {events : List ε} (meets : Meets step guard init events) : Holds step property init events := by
  induction events generalizing init with
  | nil => exact enough init start
  | cons event rest ih =>
    refine ⟨enough init start, fun next taken => ?_⟩
    obtain ⟨guarded, later⟩ := meets next taken
    exact ih (kept init event next start guarded taken) later

/-- A run that meets a condition meets it at each of its steps. -/
theorem meets_at {init state next : σ} {guard : σ → ε → Prop} {before rest : List ε} {event : ε}
    (meets : Meets step guard init (before ++ event :: rest)) (reached : run step init before = some state)
    (taken : step state event = some next) : guard state event := by
  induction before generalizing init with
  | nil =>
    cases reached
    exact (meets next taken).1
  | cons first before ih =>
    obtain ⟨second, begun, reached⟩ := Option.bind_eq_some_iff.mp reached
    exact ih (meets second begun).2 reached

theorem meets_of_holds {init : σ} {guard : σ → ε → Prop} {property : σ → Prop}
    (enough : ∀ state event, property state → guard state event) {events : List ε}
    (holds : Holds step property init events) : Meets step guard init events := by
  induction events generalizing init with
  | nil => trivial
  | cons event rest ih => exact fun next taken => ⟨enough init event holds.1, ih (holds.2 next taken)⟩

/-- A test of every step of a run, to be computed. -/
def passes (step : σ → ε → Option σ) (test : σ → ε → Bool) : σ → List ε → Bool
  | _, [] => true
  | state, event :: rest =>
    match step state event with
    | none => true
    | some next => test state event && passes step test next rest

/-- A test decides a run's condition as far as it implies it. -/
theorem meets_of_passes {guard : σ → ε → Prop} {test : σ → ε → Bool} {init : σ} {events : List ε}
    (sound : ∀ state event, test state event = true → guard state event)
    (passed : passes step test init events = true) : Meets step guard init events := by
  induction events generalizing init with
  | nil => trivial
  | cons event rest ih =>
    intro next taken
    simp only [passes, taken, Bool.and_eq_true] at passed
    exact ⟨sound init event passed.1, ih passed.2⟩

theorem holds_first {init : σ} {property : σ → Prop} {events : List ε} (holds : Holds step property init events) :
    property init := by
  cases events with
  | nil => exact holds
  | cons _ _ => exact holds.1

/-- A condition whose violation shows in the next state. -/
theorem meets_of_next {init : σ} {guard : σ → ε → Prop} {property : σ → Prop}
    (shows : ∀ before event after, step before event = some after → property after → guard before event)
    {events : List ε} (holds : Holds step property init events) : Meets step guard init events := by
  induction events generalizing init with
  | nil => trivial
  | cons event rest ih =>
    intro next taken
    have later := holds.2 next taken
    exact ⟨shows init event next taken (holds_first later), ih later⟩

/-- A condition is exact for a property when the steps that meet it keep the
property and the steps that miss it break it at once. Then a run has the
property throughout precisely when all its steps meet the condition. -/
theorem holds_iff_meets {init : σ} {guard : σ → ε → Prop} (inv property : σ → Prop)
    (start : inv init ∧ property init)
    (kept : ∀ before event after, inv before → property before → step before event = some after →
      guard before event → inv after ∧ property after)
    (broken : ∀ before event after, inv before → property before → step before event = some after →
      ¬ guard before event → ¬ property after) (events : List ε) :
    Holds step property init events ↔ Meets step guard init events := by
  induction events generalizing init with
  | nil => exact ⟨fun _ => trivial, fun _ => start.2⟩
  | cons event rest ih =>
    constructor
    · intro holds next taken
      have later := holds.2 next taken
      have guarded : guard init event := by
        by_contra missed
        exact broken init event next start.1 start.2 taken missed (holds_first later)
      exact ⟨guarded, (ih (kept init event next start.1 start.2 taken guarded)).mp later⟩
    · intro meets
      refine ⟨start.2, fun next taken => ?_⟩
      obtain ⟨guarded, later⟩ := meets next taken
      exact (ih (kept init event next start.1 start.2 taken guarded)).mpr later

/-- The steps of a run that pass a test. -/
def tally (step : σ → ε → Option σ) (test : σ → ε → Bool) : σ → List ε → Nat
  | _, [] => 0
  | state, event :: rest =>
    match step state event with
    | none => 0
    | some next => (if test state event then 1 else 0) + tally step test next rest

/-- The invariant rule with the steps that passed a test counted. -/
theorem tally_invariant {init state : σ} {test : σ → ε → Bool} {events : List ε} (inv : σ → Nat → Prop)
    (reached : run step init events = some state) (start : inv init 0)
    (kept : ∀ before event after count, inv before count → step before event = some after →
      inv after (count + if test before event then 1 else 0)) : inv state (tally step test init events) := by
  suffices counted : ∀ count, inv init count → inv state (count + tally step test init events) by
    simpa using counted 0 start
  clear start
  induction events generalizing init with
  | nil =>
    cases reached
    exact fun count started => started
  | cons event rest ih =>
    intro count started
    obtain ⟨next, taken, reached⟩ := Option.bind_eq_some_iff.mp reached
    rw [tally, taken, ← Nat.add_assoc]
    exact ih reached _ (kept init event next count started taken)

end Machine
