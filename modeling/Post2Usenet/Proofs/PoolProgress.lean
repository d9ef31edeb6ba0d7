import Post2Usenet.Proofs.PoolLists

/-! What can always be done next. A thread with something to do can go on with it, unless the
size of the ready list promises a connection that is not there; and such a size is left by a
connection that was erased from the wrong list. -/

namespace Post2Usenet.Proofs.PoolProgress
open Connection Usenet ConnectionSteps PoolSteps PoolOwnership PoolLists

variable {α : Type} {usenet after : Usenet α} {connit : ConnectionHandle} {hand : List ConnectionHandle}
  {task : Task α} {choice : Choice α} {result : Usenet α × List (Task α)}

/-- The tasks that take a connection from the ready list if its size is not zero. -/
def dispatching : Task α → Bool
  | .request _ | .dispatchOrQueue _ => true
  | _ => false

/-- The next thing that some thread does is to take the first connection of an empty list. -/
structure Derailed (usenet : Usenet α) : Prop where
  next : ∃ index task, headTask usenet index = some task ∧ dispatching task = true
  counted : 0 < usenet.readySize
  empty : usenet.ready = []

theorem run_goes (owned : Owned (connit :: hand) usenet) (command : Command α) :
    ∃ after, usenet.run connit command = some after := by
  obtain ⟨connection, present⟩ := present_in_hand owned
  cases command <;> simp [Usenet.run, startAsyncPost, startAsyncStat, present]

theorem dispatch_goes (owned : Owned hand usenet) (some' : usenet.ready ≠ []) (command : Command α) :
    ∃ after, usenet.dispatch command = some after := by
  obtain ⟨connit, ready, first⟩ := List.exists_cons_of_ne_nil some'
  have head : usenet.takeReady = some (connit, { usenet with
      ready
      busy := connit :: usenet.busy
      readySize := decrement usenet.readySize
      busySize := usenet.busySize + 1 }) := by simp [takeReady, first]
  obtain ⟨after, run⟩ := run_goes (takeReady_owned owned head).1 command
  exact ⟨after, Option.bind_eq_some_iff.mpr ⟨_, head, run⟩⟩

/-- A notification wakes somebody, or there is nobody to wake. -/
theorem notifyOne_goes (usenet : Usenet α) : ∃ wake after, usenet.notifyOne wake = some after := by
  by_cases sleeps : usenet.threads.any Thread.asleep = true
  · obtain ⟨thread, member, asleep⟩ := List.any_eq_true.mp sleeps
    obtain ⟨index, found⟩ := List.mem_iff_getElem?.mp member
    exact ⟨some index, { usenet with threads := usenet.threads.set index thread.wake }, by
      simp only [notifyOne, found, if_pos asleep]⟩
  · exact ⟨none, usenet, if_neg sleeps⟩

theorem gracefulDisconnect_goes (owned : Owned hand usenet) (member : connit ∈ usenet.ready) (named : Side) :
    ∃ after, usenet.gracefulDisconnect named connit = some after := by
  obtain ⟨connection, present⟩ := Option.isSome_iff_exists.mp ((owned.alive connit).mp (List.mem_append_left _ member))
  exact ⟨_, Option.map_eq_some_iff.mpr ⟨connection, present, rfl⟩⟩

theorem disconnectReady_goes {left : List ConnectionHandle} (owned : Owned hand usenet) (all : usenet.ready = left) :
    ∃ after, usenet.disconnectReady left = some after := by
  induction left generalizing usenet with
  | nil => exact ⟨usenet, rfl⟩
  | cons connit rest ih =>
    have member : connit ∈ usenet.ready := by simp [all]
    obtain ⟨next, disconnected⟩ := gracefulDisconnect_goes owned member .ready
    obtain ⟨kept, ready, -⟩ := gracefulDisconnect_owned owned member disconnected
    obtain ⟨after, taken⟩ := ih kept (by simp [ready, all])
    exact ⟨after, Option.bind_eq_some_iff.mpr ⟨next, disconnected, taken⟩⟩

theorem shutdown_goes (owned : Owned hand usenet) (member : connit ∈ usenet.ready) :
    ∃ after, usenet.shutdown connit = some after := by
  obtain ⟨next, disconnected⟩ := gracefulDisconnect_goes owned member .busy
  obtain ⟨after, taken⟩ := disconnectReady_goes (gracefulDisconnect_owned owned member disconnected).1 rfl
  exact ⟨after, Option.bind_eq_some_iff.mpr ⟨next, disconnected, taken⟩⟩

theorem onConnBecomesReady_goes (owned : Owned (connit :: hand) usenet)
    (idle : ∀ connection, usenet.connections connit = some connection → Idle connection) :
    ∃ wake after, usenet.onConnBecomesReady connit wake = some after := by
  cases waiting : usenet.queue with
  | nil =>
    by_cases working : usenet.work = true
    · exact ⟨none, usenet.becomeReady connit, by simp only [onConnBecomesReady, waiting, if_pos working]⟩
    · have member : connit ∈ (usenet.becomeReady connit).ready := by simp [becomeReady]
      obtain ⟨after, down⟩ := shutdown_goes (becomeReady_owned owned idle) member
      exact ⟨none, after, by simp only [onConnBecomesReady, waiting, if_neg working, down]⟩
  | cons command queue =>
    have popped : Owned (connit :: hand) { usenet with queue } := owned.frame rfl rfl rfl rfl rfl rfl
    by_cases limited : usenet.maxsize ≠ 0
    · obtain ⟨wake, notified, notifies⟩ := notifyOne_goes { usenet with queue }
      obtain ⟨after, run⟩ := run_goes (notified_owned popped (notifyOne_cases notifies)) command
      exact ⟨wake, after, by simp only [onConnBecomesReady, waiting, if_pos limited, notifies, Option.bind_some, run]⟩
    · obtain ⟨after, run⟩ := run_goes popped command
      exact ⟨none, after, by simp only [onConnBecomesReady, waiting, if_neg limited, run]⟩

/-- Whatever a thread has to do, it can do. -/
theorem proceed_goes (owned : Owned ((connit? task).toList ++ hand) usenet)
    (fits : ∀ connit, connit? task = some connit →
      ∀ connection, usenet.connections connit = some connection → TaskFits connection task)
    (counted : dispatching task = true → 0 < usenet.readySize → usenet.ready ≠ []) :
    ∃ wake, ∀ outcome calls, ∃ result, usenet.proceed ⟨outcome, wake, calls⟩ task = some result := by
  cases task with
  | request request =>
    refine ⟨none, fun outcome calls => ?_⟩
    rw [proceed_request, executeOrDefer]
    split
    next some' =>
      have recorded : Owned hand (usenet.record (.passed request.command)) := record_owned owned _
      obtain ⟨after, dispatched⟩ := dispatch_goes recorded (counted rfl some') request.command
      exact ⟨_, by rw [dispatched]; rfl⟩
    · split <;> exact ⟨_, rfl⟩
  | onConnBecomesReady connit =>
    obtain ⟨wake, after, became⟩ := onConnBecomesReady_goes owned (fits connit rfl)
    exact ⟨wake, fun outcome calls => ⟨_, Option.map_eq_some_iff.mpr ⟨after, became, rfl⟩⟩⟩
  | dispatchOrQueue command =>
    refine ⟨none, fun outcome calls => ?_⟩
    by_cases some' : 0 < usenet.readySize
    · obtain ⟨after, dispatched⟩ := dispatch_goes owned (counted rfl some') command
      exact ⟨(after, []), by simp only [Usenet.proceed, dispatchOrQueue, if_pos some', dispatched, Option.map_some]⟩
    · exact ⟨(usenet.pushBack command, []), by simp only [Usenet.proceed, dispatchOrQueue, if_neg some', Option.map_some]⟩
  | requeueStat connit msgid =>
    obtain ⟨connection, present⟩ := present_in_hand owned
    have pushed : (usenet.pushBack (.startAsyncStat msgid)).connections connit = some connection := present
    refine ⟨none, fun outcome calls => ?_⟩
    rw [Usenet.proceed, requeueStat, pushed]
    exact ⟨_, rfl⟩
  | _ => exact ⟨none, fun outcome calls => ⟨_, rfl⟩⟩

theorem step_goes (owned : Owned [] usenet) {index : Nat} (head : headTask usenet index = some task) (railed : ¬ Derailed usenet) :
    ∃ wake, ∀ outcome calls, ∃ after, usenet.step (.proceed index ⟨outcome, wake, calls⟩) = some after := by
  obtain ⟨io, tasks, found⟩ := headTask_cases head
  obtain ⟨wake, goes⟩ := proceed_goes (popTask_owned owned found) (popTask_fits owned found)
    (fun dispatches counted empty => railed ⟨⟨index, task, head, dispatches⟩, counted, empty⟩)
  refine ⟨wake, fun outcome calls => ?_⟩
  obtain ⟨result, proceeded⟩ := goes outcome calls
  exact ⟨result.1.pushTasks index result.2, by simp only [step, found, proceeded, Option.map_some]⟩

theorem proceed_misused (misused : usenet.misused = true) (taken : usenet.proceed choice task = some result) :
    result.1.misused = true := by
  cases proceed_executes taken with
  | dispatches idle dispatched =>
    obtain ⟨connit, ready, -, run⟩ := dispatch_cases dispatched
    exact (run_apart run).misused.trans misused
  | @becomesReady connit after became =>
    have ready : (usenet.becomeReady connit).misused = true := by simp [becomeReady, misused]
    rcases onConnBecomesReady_cases became with ⟨_, _, notified, -, woken, run⟩ | ⟨-, -, rfl⟩ | ⟨-, -, down⟩
    · have same : notified.misused = usenet.misused := by rcases woken with rfl | ⟨_, _, _, _, _, rfl⟩ <;> rfl
      exact (run_apart run).misused.trans (same.trans misused)
    · exact ready
    · exact shutdown_keeps (motive := fun next => next.misused = true)
        (fun before named connit after misused _ disconnected => gracefulDisconnect_misused misused disconnected) ready down
  | discards => simp [record, erase, misused]
  | redispatches idle dispatched =>
    obtain ⟨connit, ready, -, run⟩ := dispatch_cases dispatched
    exact (run_apart run).misused.trans misused
  | _ => exact misused

theorem step_misused {event : Event α} (misused : usenet.misused = true) (taken : usenet.step event = some after) :
    after.misused = true := by
  cases event with
  | addConnections conninfo numConnections =>
    cases taken
    exact addConnections_keeps (motive := fun next => next.misused = true) (fun _ misused => misused) misused numConnections
  | call index request =>
    obtain ⟨-, rfl⟩ := step_call taken
    exact misused
  | take index place outcome =>
    obtain ⟨connit, handler, -, -, rfl⟩ := step_take taken
    exact (deliver_apart { usenet with pending := usenet.pending.eraseIdx place } connit handler outcome).misused.trans misused
  | expire connit =>
    obtain ⟨-, -, rfl⟩ := step_expire taken
    exact misused
  | proceed index choice =>
    obtain ⟨io, task, tasks, result, found, proceeded, rfl⟩ := step_proceed taken
    have popped : { usenet with threads := usenet.threads.set index ⟨io, tasks⟩ }.misused = true := misused
    exact (proceed_misused popped proceeded :)
  | _ =>
    cases taken
    exact misused

/-- The sizes are right until an iterator is used with the wrong list. -/
theorem step_reckoned {event : Event α} (owned : Owned [] usenet) (reckoned : usenet.misused = true ∨ Sized usenet)
    (taken : usenet.step event = some after) : after.misused = true ∨ Sized after := by
  rcases reckoned with misused | sized
  · exact .inl (step_misused misused taken)
  · by_cases down : ShutsDown usenet event
    · exact .inl (shutdown_misuses down taken)
    · exact .inr (step_sized owned sized down taken)

theorem derailed_misused (reckoned : usenet.misused = true ∨ Sized usenet) (derailed : Derailed usenet) : usenet.misused = true := by
  refine reckoned.resolve_right (fun sized => ?_)
  have counted := derailed.counted
  rw [sized.readySize, derailed.empty] at counted
  cases counted

end Post2Usenet.Proofs.PoolProgress
