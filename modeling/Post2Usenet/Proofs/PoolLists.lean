import Post2Usenet.Proofs.PoolOwnership

/-! The two lists and the sizes they cache. They agree, and every iterator belongs
to the list it is used with, exactly as long as no connection is disconnected
gracefully. -/

namespace Post2Usenet.Proofs.PoolLists
open Connection Usenet PoolSteps PoolOwnership

variable {α : Type} {usenet after : Usenet α} {connit : ConnectionHandle} {hand : List ConnectionHandle}

structure Sized (usenet : Usenet α) : Prop where
  readySize : usenet.readySize = usenet.ready.length
  busySize : usenet.busySize = usenet.busy.length
  used : usenet.misused = false

structure Consistent (usenet : Usenet α) : Prop where
  sized : Sized usenet
  one : ∀ connit, (usenet.connections connit).isSome = true →
    usenet.ready.count connit + usenet.busy.count connit = 1
  live : ∀ connit ∈ usenet.ready ++ usenet.busy, (usenet.connections connit).isSome = true
  begin : 0 < usenet.readySize → ∃ connit, usenet.ready.head? = some connit ∧ (usenet.connections connit).isSome = true

theorem consistent_of_sized (owned : Owned hand usenet) (sized : Sized usenet) : Consistent usenet := by
  refine ⟨sized, ?_, ?_, ?_⟩
  · intro connit present
    rw [← List.count_append]
    exact List.count_eq_one_of_mem owned.distinct ((owned.alive connit).mpr present)
  · exact fun connit inside => (owned.alive connit).mp inside
  · intro some'
    rw [sized.readySize] at some'
    obtain ⟨connit, ready, first⟩ := List.exists_cons_of_length_pos some'
    exact ⟨connit, by simp [first], (owned.alive connit).mp (by simp [first])⟩

theorem Sized.frame (sized : Sized usenet) (ready : after.ready = usenet.ready) (busy : after.busy = usenet.busy)
    (readySize : after.readySize = usenet.readySize) (busySize : after.busySize = usenet.busySize)
    (misused : after.misused = usenet.misused) : Sized after :=
  ⟨by rw [readySize, ready, sized.readySize], by rw [busySize, busy, sized.busySize], by rw [misused, sized.used]⟩

theorem apart_sized (sized : Sized usenet) (apart : Apart usenet after) : Sized after :=
  sized.frame apart.ready apart.busy apart.readySize apart.busySize apart.misused

theorem dispatch_sized (sized : Sized usenet) {command : Command α} (taken : usenet.dispatch command = some after) :
    Sized after := by
  obtain ⟨connit, ready, first, run⟩ := dispatch_cases taken
  apply apart_sized _ (run_apart run)
  refine ⟨?_, ?_, sized.used⟩
  · simp [decrement, sized.readySize, first]
  · simp [sized.busySize]

theorem becomeReady_sized (owned : Owned (connit :: hand) usenet) (sized : Sized usenet) :
    Sized (usenet.becomeReady connit) := by
  obtain ⟨member, notReady, -, -⟩ := owned_in_hand owned
  refine ⟨?_, ?_, ?_⟩
  · simp [becomeReady, List.erase_of_not_mem notReady, sized.readySize]
  · have filled := List.length_pos_of_mem member
    simp only [becomeReady, decrement, sized.busySize, List.length_erase_of_mem member]
    rw [if_neg (by omega)]
  · simp [becomeReady, sized.used, member]

theorem eraseBusy_sized (owned : Owned (connit :: hand) usenet) (sized : Sized usenet) :
    Sized (usenet.erase .busy connit) := by
  obtain ⟨member, notReady, -, -⟩ := owned_in_hand owned
  have filled := List.length_pos_of_mem member
  refine ⟨?_, ?_, ?_⟩
  · simp [erase, notReady, List.erase_of_not_mem notReady, sized.readySize]
  · simp only [erase, notReady, ite_false, ite_self, ite_true, decrement, sized.busySize, List.length_erase_of_mem member]
    rw [if_neg (by omega)]
  · simp [erase, sized.used, notReady]

theorem proceed_sized {choice : Choice α} {task : Task α} (owned : Owned ((connit? task).toList ++ hand) usenet)
    (sized : Sized usenet) (working : ∀ connit, task = .onConnBecomesReady connit → usenet.queue = [] → usenet.work = true)
    {result : Usenet α × List (Task α)} (taken : usenet.proceed choice task = some result) : Sized result.1 := by
  cases proceed_executes taken with
  | dispatches idle dispatched =>
    have recorded (entry : Entry α) : Sized (usenet.record entry) := sized.frame rfl rfl rfl rfl rfl
    exact dispatch_sized (recorded _) dispatched
  | @becomesReady connit after became =>
    rcases onConnBecomesReady_cases became with ⟨_, _, notified, -, woken, run⟩ | ⟨-, -, rfl⟩ | ⟨empty, stopped, -⟩
    · have same : Sized notified := by
        rcases woken with rfl | ⟨_, _, _, _, _, rfl⟩
        · exact sized
        · exact sized.frame rfl rfl rfl rfl rfl
      apply apart_sized _ (run_apart run)
      exact same.frame rfl rfl rfl rfl rfl
    · exact becomeReady_sized owned sized
    · cases stopped.symm.trans (working connit rfl empty)
  | discards => exact (eraseBusy_sized owned sized).frame rfl rfl rfl rfl rfl
  | redispatches idle dispatched => exact dispatch_sized sized dispatched
  | _ => exact sized.frame rfl rfl rfl rfl rfl

theorem addConnections_sized (sized : Sized usenet) (conninfo : ConnectionInfo) (numConnections : Nat) :
    Sized (usenet.addConnections conninfo numConnections) :=
  addConnections_keeps (motive := Sized) (fun _ sized =>
    ⟨sized.readySize, by simp [addConnection, perform, sized.busySize], sized.used⟩) sized numConnections

theorem step_sized {event : Event α} (owned : Owned [] usenet) (sized : Sized usenet)
    (up : ¬ ShutsDown usenet event) (taken : usenet.step event = some after) : Sized after := by
  cases event with
  | setOperationTimeout seconds =>
    cases taken
    exact sized.frame rfl rfl rfl rfl rfl
  | addConnections conninfo numConnections =>
    cases taken
    exact addConnections_sized sized conninfo numConnections
  | start =>
    cases taken
    exact sized.frame rfl rfl rfl rfl rfl
  | stop =>
    cases taken
    exact sized.frame rfl rfl rfl rfl rfl
  | spawn =>
    cases taken
    exact sized.frame rfl rfl rfl rfl rfl
  | call index request =>
    obtain ⟨-, rfl⟩ := step_call taken
    exact sized.frame rfl rfl rfl rfl rfl
  | take index place outcome =>
    obtain ⟨connit, handler, -, -, rfl⟩ := step_take taken
    have taken : Sized { usenet with pending := usenet.pending.eraseIdx place } := sized.frame rfl rfl rfl rfl rfl
    exact (apart_sized taken (deliver_apart ..)).frame rfl rfl rfl rfl rfl
  | expire connit =>
    obtain ⟨-, -, rfl⟩ := step_expire taken
    exact sized.frame rfl rfl rfl rfl rfl
  | proceed index choice =>
    obtain ⟨io, task, tasks, result, found, proceeded, rfl⟩ := step_proceed taken
    have popped := popTask_owned owned found
    refine (proceed_sized popped (sized.frame rfl rfl rfl rfl rfl) ?_ proceeded).frame rfl rfl rfl rfl rfl
    rintro connit rfl empty
    by_contra stopped
    exact up ⟨⟨connit, headTask_found found⟩, empty, by simpa using stopped⟩
  | rewrite articles =>
    cases taken
    exact sized.frame rfl rfl rfl rfl rfl

theorem gracefulDisconnect_misused {named : Side} (misused : usenet.misused = true)
    (taken : usenet.gracefulDisconnect named connit = some after) : after.misused = true := by
  rw [(gracefulDisconnect_apart taken).misused]
  simp [erase, misused]

/-- The connection that shuts down has just been moved to the ready list, and is
erased from the busy list. -/
theorem shutdown_misuses {event : Event α} (down : ShutsDown usenet event) (taken : usenet.step event = some after) :
    after.misused = true := by
  obtain ⟨index, io, connit, tasks, last, -, down, rfl⟩ := step_shutsDown down taken
  obtain ⟨next, disconnected, rest⟩ := Option.bind_eq_some_iff.mp down
  have first : next.misused = true := by
    rw [(gracefulDisconnect_apart disconnected).misused]
    simp [erase, becomeReady]
  exact (disconnectReady_keeps
    (fun before connit after misused _ disconnected => gracefulDisconnect_misused misused disconnected) rfl first rest).1

/-- The lists are used consistently throughout a run precisely when no step of it
disconnects gracefully. -/
theorem consistent_iff_up (eraseRule : EraseRule) (iothreads maxQueueSize : Nat) (articles : α → Article)
    (events : List (Event α)) :
    Machine.Holds step Consistent (Usenet.make eraseRule iothreads maxQueueSize articles) events ↔
      Machine.Meets step (fun usenet event => ¬ ShutsDown usenet event)
        (Usenet.make eraseRule iothreads maxQueueSize articles) events := by
  apply Machine.holds_iff_meets (Owned [])
  · have owned := owned_make eraseRule iothreads maxQueueSize articles
    exact ⟨owned, consistent_of_sized owned ⟨rfl, rfl, rfl⟩⟩
  · intro before event after owned consistent taken up
    have afterOwned := step_owned owned taken
    exact ⟨afterOwned, consistent_of_sized afterOwned (step_sized owned consistent.sized up taken)⟩
  · intro before event after _ _ taken down consistent
    rw [not_not] at down
    have misused := shutdown_misuses down taken
    rw [consistent.sized.used] at misused
    cases misused

/-- One connection posts when the other one finds nothing to do after `stop`. -/
def shutdownRun : List (Event Nat) :=
  opens ++ connects 1 0 1 ++ [.proceed 1 goOn] ++ posts 7 ++ takes 1 [(1, "")] ++ [.stop] ++ connects 1 0 1 ++
    [.proceed 1 goOn]

theorem shutdown_inconsistent :
    ¬ Machine.Holds step Consistent (Usenet.make .named 1 5 sampleArticles) shutdownRun := by
  intro holds
  have computed : (Machine.run step (Usenet.make .named 1 5 sampleArticles) shutdownRun).map
      (fun usenet => (usenet.readySize, usenet.ready.length)) = some (1, 0) := by decide +kernel
  obtain ⟨usenet, reached, seen⟩ := Option.map_eq_some_iff.mp computed
  have sized := (Machine.holds_last holds reached).sized.readySize
  simp only [Prod.mk.injEq] at seen
  omega

end Post2Usenet.Proofs.PoolLists
