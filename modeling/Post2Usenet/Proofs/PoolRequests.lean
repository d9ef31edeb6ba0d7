import Post2Usenet.Proofs.PoolAccounting

/-! What clients and observers ask of the pool, against what has come of it. -/

namespace Post2Usenet.Proofs.PoolRequests
open Connection Usenet ConnectionSteps PoolSteps PoolOwnership PoolTrace PoolAccounting Tally

variable {α : Type} [DecidableEq α] {usenet after : Usenet α} {event : Event α} (msg : α)

/-- A call of `enqueue_post` before the end of its wait. -/
def calledOf : Task α → Nat
  | .request request => queuedOf msg request.command
  | .wait command _ => queuedOf msg command
  | _ => 0

def called (usenet : Usenet α) : Nat := onTasks (calledOf msg) usenet

def asked (requests : List (Request α)) : Nat := total (fun request => queuedOf msg request.command) requests

/-- What an observer calls in a step. -/
def observed (choice : Choice α) : Task α → List (Request α)
  | .slotPostFailed _ | .slotFinishPost _ | .slotFinishStat _ _ => choice.calls
  | _ => []

/-- The calls that a step makes. -/
def calls (usenet : Usenet α) : Event α → List (Request α)
  | .call _ request => [request]
  | .proceed index choice => (headTask usenet index).toList.flatMap (observed choice)
  | _ => []

/-- The task that a step runs. -/
def runs (usenet : Usenet α) : Event α → Option (Task α)
  | .proceed index _ => headTask usenet index
  | _ => none

theorem asked_calls (choice : Choice α) : total (calledOf msg) (choice.calls.map Task.request) = asked msg choice.calls :=
  total_map ..

theorem proceed_called {choice : Choice α} {task : Task α} {result : Usenet α × List (Task α)}
    (taken : usenet.proceed choice task = some result) :
    total (calledOf msg) result.2 + total (passedOf msg) result.1.trace =
      calledOf msg task + total (passedOf msg) usenet.trace + asked msg (observed choice task) := by
  rw [proceed_trace (quiet_passedOf msg) taken]
  have nothing : asked msg [] = 0 := rfl
  cases proceed_executes taken with
  | observes slot =>
    cases task <;> cases slot
    all_goals
      simp only [asked_calls, recorded, calledOf, passedOf, observed]
      omega
  | _ => simp [recorded, calledOf, passedOf, observed, nothing]

/-- No handler calls the pool before it is told how something ended. -/
theorem deliver_called (usenet : Usenet α) (connit : ConnectionHandle) (handler : Handler α) (outcome : Outcome) :
    total (calledOf msg) (usenet.deliver connit handler outcome).2 = 0 ∧
      total (passedOf msg) (usenet.deliver connit handler outcome).1.trace = total (passedOf msg) usenet.trace := by
  cases present : usenet.connections connit with
  | none => simp [deliver, present]
  | some connection =>
    rw [deliver_trace (quiet_passedOf msg) handler outcome (by simp [present])]
    simp only [deliver, present]
    cases handler with
    | stage stage => simp [reported]
    | timer => simp [reported]
    | connectHandler result => cases result <;> simp [reported, onConnected, passedOf, calledOf]
    | statHandler msgid result => cases result <;> simp [reported, onStatFinished, passedOf, calledOf]
    | postHandler other result => cases result <;> simp [reported, onPostFinished, passedOf, calledOf]

theorem step_called (taken : usenet.step event = some after) :
    called msg after + passed msg after = called msg usenet + passed msg usenet + asked msg (calls usenet event) := by
  obtain ⟨popped, pushed, turns, tasks⟩ := step_turns taken
  have moved := tasks (calledOf msg) (fun _ => rfl)
  simp only [called, passed]
  generalize final : after.trace = trace at turns ⊢
  cases turns with
  | stands still =>
    have nothing : calls usenet event = [] := by cases event <;> first | rfl | cases still
    have none : asked msg [] = 0 := rfl
    simp only [nothing, none, total_nil] at moved ⊢
    omega
  | call index request =>
    simp only [calls, asked, total_cons, total_nil, calledOf] at moved ⊢
    omega
  | @take index place connit handler outcome found =>
    have delivered := deliver_called msg { usenet with pending := usenet.pending.eraseIdx place } connit handler outcome
    have none : asked msg (calls usenet (.take index place outcome)) = 0 := rfl
    simp only [total_nil] at moved delivered
    omega
  | @proceed index choice io task rest result found proceeded =>
    have done := proceed_called msg proceeded
    have head : calls usenet (.proceed index choice) = observed choice task := by
      simp only [calls, headTask_found found, Option.toList_some, List.flatMap_cons, List.flatMap_nil, List.append_nil]
    simp only [head, total_cons, total_nil] at moved done ⊢
    omega

theorem step_callbacks (success : Bool) (taken : usenet.step event = some after) :
    callbacks msg success after =
      callbacks msg success usenet + total (concludingOf msg success) (runs usenet event).toList := by
  obtain ⟨popped, pushed, turns, -⟩ := step_turns taken
  simp only [callbacks]
  generalize final : after.trace = trace at turns ⊢
  cases turns with
  | stands still =>
    have nothing : runs usenet event = none := by cases event <;> first | rfl | cases still
    simp [nothing]
  | call index request => simp [runs]
  | @take index place connit handler outcome found =>
    exact (deliver_settled msg success { usenet with pending := usenet.pending.eraseIdx place } connit handler outcome).2
  | proceed found proceeded =>
    have done := (proceed_settled msg success proceeded).2.1
    simp only [runs, headTask_found found, Option.toList_some, total_cons, total_nil]
    dsimp only at done
    omega

/-- What a thread that goes on asks for and concludes. -/
theorem proceed_counts {index : Nat} {choice : Choice α} {task : Task α}
    (taken : usenet.step (.proceed index choice) = some after) (head : headTask usenet index = some task) :
    called msg after + passed msg after = called msg usenet + passed msg usenet + asked msg (observed choice task) ∧
      ∀ success, callbacks msg success after = callbacks msg success usenet + concludingOf msg success task := by
  constructor
  · have moved := step_called msg taken
    simpa only [calls, head, Option.toList_some, List.flatMap_cons, List.flatMap_nil, List.append_nil] using moved
  · intro success
    have moved := step_callbacks msg success taken
    simpa only [runs, head, Option.toList_some, total_cons, total_nil, Nat.add_zero] using moved

theorem concluded_callbacks (usenet : Usenet α) :
    concluded msg usenet = callbacks msg false usenet + callbacks msg true usenet := by
  simp only [concluded, callbacks, total]
  rw [← List.sum_map_add]
  congr 2
  funext entry
  cases entry <;> simp [concludedOf, callbackOf]

theorem concluding_inHand (usenet : Usenet α) :
    concluding msg false usenet + concluding msg true usenet ≤ inHand msg usenet := by
  simp only [concluding, inHand, onTasks, total]
  rw [← List.sum_map_add]
  apply List.sum_le_sum
  intro thread _
  rw [← List.sum_map_add]
  apply List.sum_le_sum
  intro task _
  cases task <;> simp [inHandOf, concludingOf]

end Post2Usenet.Proofs.PoolRequests
