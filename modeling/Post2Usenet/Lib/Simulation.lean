import Post2Usenet.Lib.Machine

/-! Forward simulation between two machines. A step of the lower machine shows some labels,
and the upper machine takes a step for each of them, so what a run shows is a run above. -/

namespace Machine

variable {σ : Type u} {ε : Type v} {τ : Type w} {δ : Type x} {step : σ → ε → Option σ} {above : τ → δ → Option τ}

/-- What a run shows, one step after the other. -/
def history (step : σ → ε → Option σ) (shows : σ → ε → List δ) : σ → List ε → List δ
  | _, [] => []
  | state, event :: rest =>
    match step state event with
    | none => []
    | some next => shows state event ++ history step shows next rest

/-- Related states stay related while the upper machine follows. -/
def Simulates (step : σ → ε → Option σ) (above : τ → δ → Option τ) (shows : σ → ε → List δ) (related : σ → τ → Prop) : Prop :=
  ∀ before event after upper, related before upper → step before event = some after →
    ∃ next, run above upper (shows before event) = some next ∧ related after next

variable {shows : σ → ε → List δ} {related : σ → τ → Prop}

theorem Simulates.run (simulates : Simulates step above shows related) {init state : σ} {upper : τ} {events : List ε}
    (start : related init upper) (reached : run step init events = some state) :
    ∃ final, Machine.run above upper (history step shows init events) = some final ∧ related state final := by
  induction events generalizing init upper with
  | nil =>
    cases reached
    exact ⟨upper, rfl, start⟩
  | cons event rest ih =>
    obtain ⟨next, taken, reached⟩ := Option.bind_eq_some_iff.mp reached
    obtain ⟨middle, followed, holds⟩ := simulates init event next upper start taken
    obtain ⟨final, later, ends⟩ := ih holds reached
    refine ⟨final, ?_, ends⟩
    rw [history, taken]
    show Machine.run above upper (shows init event ++ history step shows next rest) = some final
    rw [run_append, followed]
    exact later

/-- An abstraction function whose steps are followed above while an invariant holds. -/
theorem simulates_of_map {inv : σ → Prop} {abstraction : σ → τ}
    (kept : ∀ before event after, inv before → step before event = some after → inv after)
    (follows : ∀ before event after, inv before → step before event = some after →
      Machine.run above (abstraction before) (shows before event) = some (abstraction after)) :
    Simulates step above shows (fun state upper => inv state ∧ upper = abstraction state) := by
  rintro before event after _ ⟨holds, rfl⟩ taken
  exact ⟨abstraction after, follows before event after holds taken, kept before event after holds taken, rfl⟩

/-- A state is the first one, or was reached by a step. -/
theorem Reachable.last {init state : σ} (reached : Reachable step init state) :
    state = init ∨ ∃ before event, Reachable step init before ∧ step before event = some state := by
  obtain ⟨events, reached⟩ := reached
  rcases List.eq_nil_or_concat events with rfl | ⟨earlier, event, rfl⟩
  · cases reached
    exact .inl rfl
  · rw [List.concat_eq_append, run_append] at reached
    obtain ⟨before, begun, taken⟩ := Option.bind_eq_some_iff.mp reached
    rw [run_singleton] at taken
    exact .inr ⟨before, event, ⟨earlier, begun⟩, taken⟩

end Machine
