import Post2Usenet.Proofs.PoolOwnership
import Post2Usenet.Proofs.PoolTrace

/-! The connections that the pool gives commands to. A refusal would be ignored, or
be an assertion, so a command must only reach a connection that has nothing to do. -/

namespace Post2Usenet.Proofs.PoolCommands
open Connection ConnectionSteps Usenet PoolSteps PoolOwnership PoolTrace

variable {α : Type} {usenet after : Usenet α} {connit : ConnectionHandle} {hand : List ConnectionHandle}
  {command : Command α}

/-- Authenticated, and nothing of the connection's is pending but a timer that has expired. -/
structure Available (usenet : Usenet α) (connit : ConnectionHandle) : Prop where
  authenticated : ∃ connection, usenet.connections connit = some connection ∧
    connection.state = .connectedAndAuthenticated
  still : ∀ handler, (connit, handler) ∈ usenet.pending → handler = .timer

/-- No thread has anything to do for the connection in one of the pool's functions. One that
posted its report may not have left `post_handler_callback` yet, see `Overlap`. -/
def Unattended (usenet : Usenet α) (connit : ConnectionHandle) : Prop :=
  ∀ thread ∈ usenet.threads, ∀ task ∈ thread.tasks, connit? task ≠ some connit

/-- The connections whose `async_post`, `async_stat` or `async_graceful_disconnect` a task calls. -/
def commandedBy (usenet : Usenet α) : Task α → List ConnectionHandle
  | .request _ | .dispatchOrQueue _ => if 0 < usenet.readySize then usenet.ready.head?.toList else []
  | .onConnBecomesReady connit =>
    if usenet.queue ≠ [] then [connit] else if usenet.work then [] else connit :: usenet.ready
  | _ => []

def commanded (usenet : Usenet α) : Event α → List ConnectionHandle
  | .proceed index _ => (headTask usenet index).elim [] (commandedBy usenet)
  | _ => []

/-- What a connection leaves pending when it accepts a command. -/
def starts : Handler α → Bool
  | .stage .doPost | .stage .doStat | .stage .quitWritten => true
  | _ => false

def started (pending : List (ConnectionHandle × Handler α)) : List ConnectionHandle :=
  (pending.filter (fun entry => starts entry.2)).map Prod.fst

/-- The commands that were accepted between two states are those of these connections. -/
def Starts (usenet after : Usenet α) (connits : List ConnectionHandle) : Prop :=
  ∃ kept new, after.pending = kept ++ new ∧ kept.Sublist usenet.pending ∧ (started new).Perm connits

theorem Starts.none (pending : after.pending = usenet.pending) : Starts usenet after [] :=
  ⟨usenet.pending, [], by simp [pending], .refl _, by rfl⟩

/-- A connection that goes on with what it does has accepted nothing. -/
theorem perform_starts (usenet : Usenet α) (connit : ConnectionHandle) {act : Act α}
    (pends : Pends (fun handler => !starts handler) act) : Starts usenet (usenet.perform connit act) [] := by
  refine ⟨usenet.pending, _, rfl, .refl _, ?_⟩
  have none : ∀ entry ∈ (act.2.filterMap Call.handler?).map (fun handler => (connit, handler)), ¬ starts entry.2 = true := by
    intro entry member
    obtain ⟨handler, inside, rfl⟩ := List.mem_map.mp member
    simpa using pends handler inside
  rw [started, List.filter_eq_nil_iff.mpr none]
  rfl

theorem available_of_unowned (owned : Owned hand usenet) {connection : Connection α}
    (present : usenet.connections connit = some connection) (idle : Idle connection)
    (none : owners usenet connit = 0) : Available usenet connit := by
  refine ⟨⟨connection, present, idle.state⟩, fun handler member => ?_⟩
  cases owning : owns handler with
  | true => exact absurd rfl (handler_elsewhere none member owning)
  | false =>
    cases handler with
    | timer => rfl
    | stage stage =>
      cases stage with
      | quitWritten => cases present.symm.trans (owned.parted connit member).2
      | _ => cases owning
    | _ => cases owning

theorem ready_available (owned : Owned [] usenet) (member : connit ∈ usenet.ready) :
    Available usenet connit ∧ Unattended usenet connit := by
  obtain ⟨-, none, -⟩ := ready_unowned owned member
  obtain ⟨connection, present⟩ := present_of_mem owned (List.mem_append_left _ member)
  refine ⟨available_of_unowned owned present (owned.idle connit member connection present) none, ?_⟩
  exact fun thread inside task within uses => task_elsewhere none inside within uses rfl

/-- The connection that becomes ready is in the hands of the thread that says so. -/
theorem becoming_available (owned : Owned [] usenet) {index : Nat} {io : Bool} {tasks : List (Task α)}
    (found : usenet.threads[index]? = some ⟨io, .onConnBecomesReady connit :: tasks⟩) : Available usenet connit := by
  have popped := popTask_owned owned found
  obtain ⟨connection, present⟩ := present_in_hand popped
  have idle := popTask_fits owned found connit rfl connection present
  obtain ⟨authenticated, still⟩ := available_of_unowned popped present idle (owned_in_hand popped).2.2.2
  exact ⟨authenticated, still⟩

theorem commanded_available (owned : Owned [] usenet) (event : Event α) :
    ∀ connit ∈ commanded usenet event, Available usenet connit := by
  intro connit member
  have idle (inside : connit ∈ usenet.ready) : Available usenet connit := (ready_available owned inside).1
  have first (inside : connit ∈ if 0 < usenet.readySize then usenet.ready.head?.toList else []) :
      Available usenet connit := by
    split at inside
    · exact idle (List.mem_of_mem_head? (Option.mem_toList.mp inside))
    · cases inside
  cases event with
  | proceed index choice =>
    simp only [commanded] at member
    cases head : headTask usenet index with
    | none => simp [head] at member
    | some task =>
      obtain ⟨io, tasks, found⟩ := headTask_cases head
      simp only [head, Option.elim_some] at member
      cases task with
      | request request => exact first member
      | dispatchOrQueue command => exact first member
      | onConnBecomesReady other =>
        have becoming := becoming_available owned found
        simp only [commandedBy] at member
        split at member
        · rw [List.mem_singleton.mp member]
          exact becoming
        · split at member
          · cases member
          · rcases List.mem_cons.mp member with rfl | inside
            · exact becoming
            · exact idle inside
      | _ => cases member
  | _ => cases member

theorem run_starts {connection : Connection α} (present : usenet.connections connit = some connection)
    (idle : Idle connection) (taken : usenet.run connit command = some after) : Starts usenet after [connit] := by
  have accepts (handler : Handler α) (starting : starts handler = true) (next : Connection α)
      (same : after = usenet.perform connit (next, [.post handler])) : Starts usenet after [connit] := by
    refine ⟨usenet.pending, [(connit, handler)], by rw [same]; rfl, .refl _, ?_⟩
    simp [started, starting]
  cases command with
  | startAsyncPost msg =>
    simp only [Usenet.run, startAsyncPost, present, Option.map_some, asyncPost, idle.state, ne_eq, not_true, ite_false,
      performAccepted, ite_true, Option.some.injEq] at taken
    exact accepts (.stage .doPost) rfl _ taken.symm
  | startAsyncStat msgid =>
    simp only [Usenet.run, startAsyncStat, present, Option.map_some, asyncStat, idle.state, ne_eq, not_true, ite_false,
      performAccepted, ite_true, Option.some.injEq] at taken
    exact accepts (.stage .doStat) rfl _ taken.symm

theorem dispatch_starts (owned : Owned hand usenet) (taken : usenet.dispatch command = some after) :
    Starts usenet after usenet.ready.head?.toList := by
  obtain ⟨connit, ready, first, run⟩ := dispatch_cases taken
  have member : connit ∈ usenet.ready := by simp [first]
  obtain ⟨connection, present⟩ := present_of_mem owned (List.mem_append_left _ member)
  have starts := @run_starts α { usenet with
      ready
      busy := connit :: usenet.busy
      readySize := decrement usenet.readySize
      busySize := usenet.busySize + 1 } after connit command connection present
    (owned.idle connit member connection present) run
  rw [first]
  exact starts

/-- Every idle connection is told to quit once. -/
theorem shutdown_starts (owned : Owned hand usenet) (member : connit ∈ usenet.ready)
    (taken : usenet.shutdown connit = some after) : Starts usenet after usenet.ready := by
  have quits : Owned hand after ∧ after.ready = [] ∧ ∃ done,
      after.pending = usenet.pending ++ done.map (fun connit => (connit, .stage .quitWritten)) ∧
        (done ++ after.ready).Perm usenet.ready := by
    refine shutdown_owned_keeps (motive := fun next => ∃ done,
      next.pending = usenet.pending ++ done.map (fun connit => (connit, .stage .quitWritten)) ∧
        (done ++ next.ready).Perm usenet.ready) ?_ owned member ⟨[], by simp, .refl _⟩ taken
    rintro before named connit next beforeOwned inside ⟨done, pending, perm⟩ disconnected
    obtain ⟨-, ready, -, added⟩ := gracefulDisconnect_owned beforeOwned inside disconnected
    refine ⟨done ++ [connit], by simp [added, pending], ?_⟩
    rw [ready, List.append_assoc]
    exact ((List.perm_cons_erase inside).symm.append_left done).trans perm
  obtain ⟨-, empty, done, pending, perm⟩ := quits
  refine ⟨usenet.pending, _, pending, .refl _, ?_⟩
  rw [empty, List.append_nil] at perm
  simpa [started, List.filter_map, Function.comp_def, starts] using perm

theorem onConnBecomesReady_starts (owned : Owned (connit :: hand) usenet)
    (idle : ∀ connection, usenet.connections connit = some connection → Idle connection) {wake : Option Nat}
    (taken : usenet.onConnBecomesReady connit wake = some after) :
    Starts usenet after (commandedBy usenet (.onConnBecomesReady connit)) := by
  obtain ⟨-, notReady, -, -⟩ := owned_in_hand owned
  rcases onConnBecomesReady_cases taken with ⟨_, queue, woken, waiting, wakes, run⟩ | ⟨empty, working, rfl⟩ |
    ⟨empty, stopped, down⟩
  · obtain ⟨connection, present⟩ := present_in_hand owned
    have same : woken.connections = usenet.connections ∧ woken.pending = usenet.pending := by
      rcases wakes with rfl | ⟨_, _, _, _, _, rfl⟩ <;> exact ⟨rfl, rfl⟩
    have starts := @run_starts α { woken with queue } after connit _ connection (by rw [same.1]; exact present)
      (idle connection present) run
    have commands : commandedBy usenet (.onConnBecomesReady connit) = [connit] := by simp [commandedBy, waiting]
    simp only [Starts, same.2] at starts
    rw [commands]
    exact starts
  · have commands : commandedBy usenet (.onConnBecomesReady connit) = [] := by simp [commandedBy, empty, working]
    rw [commands]
    exact .none rfl
  · have starts := shutdown_starts (becomeReady_owned owned idle) (by simp [becomeReady]) down
    obtain ⟨kept, new, pending, sub, perm⟩ := starts
    refine ⟨kept, new, pending, sub, perm.trans ?_⟩
    simp only [commandedBy, empty, stopped, becomeReady, List.erase_of_not_mem notReady]
    simp

theorem proceed_starts {choice : Choice α} {task : Task α} (owned : Owned ((connit? task).toList ++ hand) usenet)
    (fits : ∀ connit, connit? task = some connit →
      ∀ connection, usenet.connections connit = some connection → TaskFits connection task)
    {result : Usenet α × List (Task α)} (taken : usenet.proceed choice task = some result) :
    Starts usenet result.1 (commandedBy usenet task) := by
  cases proceed_executes taken with
  | dispatches idle dispatched =>
    rw [commandedBy, if_pos idle]
    exact (dispatch_starts (record_owned owned _) dispatched :)
  | waits none =>
    rw [commandedBy, if_neg (by omega)]
    exact .none rfl
  | defers none =>
    rw [commandedBy, if_neg (by omega)]
    exact .none rfl
  | resumes => exact .none rfl
  | sleeps => exact .none rfl
  | @becomesReady connit after became => exact onConnBecomesReady_starts owned (fits connit rfl) became
  | discards => exact .none rfl
  | redispatches idle dispatched =>
    rw [commandedBy, if_pos idle]
    exact dispatch_starts owned dispatched
  | requeues none =>
    rw [commandedBy, if_neg (by omega)]
    exact .none rfl
  | @reconnects connit msgid connection present => exact perform_starts (usenet.pushBack _) connit (asyncConnect_pends _ rfl)
  | observes slot => cases task <;> cases slot <;> exact .none rfl

theorem follows_unstarted {stage : Stage} {handler : Handler α} (follow : follows stage handler = true) :
    starts handler = false := by
  cases handler with
  | stage next => cases stage <;> cases next <;> first | rfl | cases follow
  | _ => rfl

theorem deliver_starts (usenet : Usenet α) (connit : ConnectionHandle) (handler : Handler α) (outcome : Outcome) :
    Starts usenet (usenet.deliver connit handler outcome).1 [] := by
  rw [deliver]
  split
  · exact .none rfl
  next connection _ =>
    cases handler with
    | stage stage =>
      apply perform_starts
      intro handler member
      have follow := run_follows usenet.articles stage outcome connection handler member
      simp [follows_unstarted follow]
    | timer => exact .none rfl
    | connectHandler result => exact .none rfl
    | statHandler msgid result => exact .none rfl
    | postHandler msg result =>
      have nothing : Pends (fun handler => !starts handler) (connection.close outcome, []) :=
        fun _ inside => by cases inside
      cases result with
      | postingNotPermitted => exact (perform_starts (usenet.record _) connit nothing :)
      | postFailure => exact .none rfl
      | postFailureConnectionError => exact (perform_starts (usenet.record _) connit (asyncConnect_pends _ rfl) :)
      | postSuccess => exact .none rfl

theorem Starts.frame {middle last : Usenet α} {connits : List ConnectionHandle} (starts : Starts usenet after connits)
    (before : usenet.pending.Sublist middle.pending) (same : last.pending = after.pending) :
    Starts middle last connits := by
  obtain ⟨kept, new, pending, sub, perm⟩ := starts
  exact ⟨kept, new, same.trans pending, sub.trans before, perm⟩

theorem addConnections_starts (usenet : Usenet α) (conninfo : ConnectionInfo) (numConnections : Nat) :
    Starts usenet (usenet.addConnections conninfo numConnections) [] := by
  refine addConnections_keeps (motive := fun next => Starts usenet next []) ?_ (.none rfl) numConnections
  rintro before ⟨kept, new, pending, sub, perm⟩
  refine ⟨kept, new ++ [(before.nextHandle, .stage .doConnect)], ?_, sub, ?_⟩
  · simp [addConnection, perform, pending, asyncConnect, Connection.make, Call.handler?]
  · rw [started, List.filter_append, List.map_append]
    exact (perm.append_right _).trans (by rfl)

theorem step_starts (owned : Owned [] usenet) {event : Event α} (taken : usenet.step event = some after) :
    Starts usenet after (commanded usenet event) := by
  cases event with
  | addConnections conninfo numConnections =>
    cases taken
    exact addConnections_starts usenet conninfo numConnections
  | call index request =>
    obtain ⟨-, rfl⟩ := step_call taken
    exact .none rfl
  | take index place outcome =>
    obtain ⟨connit, handler, -, -, rfl⟩ := step_take taken
    exact (deliver_starts _ connit handler outcome).frame (List.eraseIdx_sublist _ _) rfl
  | proceed index choice =>
    obtain ⟨io, task, tasks, result, found, proceeded, rfl⟩ := step_proceed taken
    have starts := proceed_starts (popTask_owned owned found) (popTask_fits owned found) proceeded
    rw [commanded, headTask_found found]
    exact starts.frame (.refl _) rfl
  | expire connit =>
    obtain ⟨-, -, rfl⟩ := step_expire taken
    exact ⟨usenet.pending, _, rfl, .refl _, by rfl⟩
  | _ =>
    cases taken
    exact .none rfl

theorem perform_obeys (usenet : Usenet α) (connit : ConnectionHandle) (act : Act α) :
    Adds (fun entry => ¬ Refusal entry) usenet (usenet.perform connit act) := by
  apply (perform_adds usenet connit act).weaken
  rintro entry ⟨call, -, wrote⟩ refusal
  cases call with
  | asyncWrite buffers handler =>
    cases wrote
    exact refusal
  | _ => cases wrote

theorem run_obeys {connection : Connection α} (present : usenet.connections connit = some connection)
    (idle : Idle connection) (taken : usenet.run connit command = some after) :
    Adds (fun entry => ¬ Refusal entry) usenet after := by
  obtain ⟨act, performed, -⟩ := run_idle present idle command
  cases performed.symm.trans taken
  exact perform_obeys usenet connit act

theorem dispatch_obeys (owned : Owned hand usenet) (taken : usenet.dispatch command = some after) :
    Adds (fun entry => ¬ Refusal entry) usenet after := by
  obtain ⟨connit, ready, first, run⟩ := dispatch_cases taken
  have member : connit ∈ usenet.ready := by simp [first]
  obtain ⟨connection, present⟩ := present_of_mem owned (List.mem_append_left _ member)
  exact @run_obeys α { usenet with
      ready
      busy := connit :: usenet.busy
      readySize := decrement usenet.readySize
      busySize := usenet.busySize + 1 } after connit command connection present
    (owned.idle connit member connection present) run

theorem gracefulDisconnect_obeys (owned : Owned hand usenet) (member : connit ∈ usenet.ready) {named : Side}
    (taken : usenet.gracefulDisconnect named connit = some after) :
    Adds (fun entry => ¬ Refusal entry) usenet after := by
  obtain ⟨connection, present, rfl⟩ := Option.map_eq_some_iff.mp taken
  have accepted : connection.asyncGracefulDisconnect.1 = true := by
    simp [asyncGracefulDisconnect, (owned.idle connit member connection present).state]
  rw [performAccepted, if_pos accepted]
  have quits := perform_obeys usenet connit connection.asyncGracefulDisconnect.2
  exact quits.trans ((record_adds _ (.disconnected connit)).weaken (by rintro _ rfl; exact id))

theorem shutdown_obeys (owned : Owned hand usenet) (member : connit ∈ usenet.ready)
    (taken : usenet.shutdown connit = some after) : Adds (fun entry => ¬ Refusal entry) usenet after := by
  have keeps := shutdown_owned_keeps (motive := Adds (fun entry => ¬ Refusal entry) usenet)
    (fun before named connit after earlier inside adds disconnected =>
      adds.trans (gracefulDisconnect_obeys earlier inside disconnected)) owned member (.refl usenet) taken
  exact keeps.2.2

theorem onConnBecomesReady_obeys (owned : Owned (connit :: hand) usenet)
    (idle : ∀ connection, usenet.connections connit = some connection → Idle connection) {wake : Option Nat}
    (taken : usenet.onConnBecomesReady connit wake = some after) :
    Adds (fun entry => ¬ Refusal entry) usenet after := by
  rcases onConnBecomesReady_cases taken with ⟨_, queue, woken, -, wakes, run⟩ | ⟨-, -, rfl⟩ | ⟨-, -, down⟩
  · obtain ⟨connection, present⟩ := present_in_hand owned
    have same : woken.connections = usenet.connections ∧ woken.trace = usenet.trace := by
      rcases wakes with rfl | ⟨_, _, _, _, _, rfl⟩ <;> exact ⟨rfl, rfl⟩
    have obeys := @run_obeys α { woken with queue } after connit _ connection (by rw [same.1]; exact present)
      (idle connection present) run
    simp only [Adds, same.2] at obeys
    exact obeys
  · exact .refl _
  · exact (shutdown_obeys (becomeReady_owned owned idle) (by simp [becomeReady]) down :)

theorem proceed_obeys {choice : Choice α} {task : Task α} (owned : Owned ((connit? task).toList ++ hand) usenet)
    (fits : ∀ connit, connit? task = some connit →
      ∀ connection, usenet.connections connit = some connection → TaskFits connection task)
    {result : Usenet α × List (Task α)} (taken : usenet.proceed choice task = some result) :
    Adds (fun entry => ¬ Refusal entry) usenet result.1 := by
  have adds := proceed_adds taken
  cases proceed_executes taken with
  | @dispatches request after idle dispatched =>
    have passes : Adds (fun entry => ¬ Refusal entry) usenet (usenet.record (.passed request.command)) :=
      (record_adds usenet _).weaken (by rintro _ rfl; exact id)
    exact passes.trans (dispatch_obeys (record_owned owned _) dispatched)
  | waits => exact .refl _
  | defers => exact (record_adds usenet _).weaken (by rintro _ rfl; exact id)
  | @becomesReady connit after became => exact onConnBecomesReady_obeys owned (fits connit rfl) became
  | redispatches idle dispatched => exact dispatch_obeys owned dispatched
  | requeues => exact .refl _
  | reconnects => exact adds.weaken (fun _ => False.elim)
  | observes slot => cases task <;> cases slot <;> exact adds.weaken (by rintro _ rfl; exact id)
  | _ => exact adds.weaken (by rintro _ rfl; exact id)

theorem step_obeys (owned : Owned [] usenet) {event : Event α} (taken : usenet.step event = some after) :
    Adds (fun entry => ¬ Refusal entry) usenet after := by
  cases event with
  | addConnections conninfo numConnections =>
    cases taken
    exact addConnections_adds usenet conninfo numConnections
  | call index request =>
    obtain ⟨-, rfl⟩ := step_call taken
    exact .refl _
  | take index place outcome =>
    obtain ⟨connit, handler, -, -, rfl⟩ := step_take taken
    have adds := deliver_adds { usenet with pending := usenet.pending.eraseIdx place } connit handler outcome
    exact adds.weaken (by
      intro entry reports refusal
      cases handler with
      | stage stage =>
        obtain ⟨_, _, rfl⟩ := reports
        exact refusal
      | timer => exact reports
      | _ =>
        cases reports
        exact refusal)
  | proceed index choice =>
    obtain ⟨io, task, tasks, result, found, proceeded, rfl⟩ := step_proceed taken
    exact (proceed_obeys (popTask_owned owned found) (popTask_fits owned found) proceeded :)
  | expire connit =>
    obtain ⟨-, -, rfl⟩ := step_expire taken
    exact .refl _
  | _ =>
    cases taken
    exact .refl _

/-- The size of the ready list is right, where `erase` counts for the list that holds the node. -/
structure Counted (usenet : Usenet α) : Prop where
  rule : usenet.eraseRule = .holder
  size : usenet.readySize = usenet.ready.length

theorem erase_counted (counted : Counted usenet) (named : Side) (connit : ConnectionHandle) :
    Counted (usenet.erase named connit) := by
  refine ⟨counted.rule, ?_⟩
  by_cases member : connit ∈ usenet.ready
  · have filled := List.length_pos_of_mem member
    simp only [erase, counted.rule, member, ite_true, reduceCtorEq, ite_false, decrement, counted.size,
      List.length_erase_of_mem member]
    rw [if_neg (by omega)]
  · simp [erase, counted.rule, member, List.erase_of_not_mem member, counted.size]

theorem apart_counted (counted : Counted usenet) (apart : Apart usenet after) : Counted after :=
  ⟨apart.eraseRule.trans counted.rule, by rw [apart.readySize, apart.ready, counted.size]⟩

theorem dispatch_counted (counted : Counted usenet) (taken : usenet.dispatch command = some after) : Counted after := by
  obtain ⟨connit, ready, first, run⟩ := dispatch_cases taken
  apply apart_counted _ (run_apart run)
  exact ⟨counted.rule, by simp [decrement, counted.size, first]⟩

theorem shutdown_counted (counted : Counted usenet) (taken : usenet.shutdown connit = some after) : Counted after := by
  apply shutdown_keeps _ counted taken
  exact fun before named connit after earlier _ disconnected =>
    apart_counted (erase_counted earlier named connit) (gracefulDisconnect_apart disconnected)

theorem becomeReady_counted (counted : Counted usenet) (absent : connit ∉ usenet.ready) :
    Counted (usenet.becomeReady connit) :=
  ⟨counted.rule, by simp [becomeReady, List.erase_of_not_mem absent, counted.size]⟩

theorem proceed_counted {choice : Choice α} {task : Task α} (owned : Owned ((connit? task).toList ++ hand) usenet)
    (counted : Counted usenet) {result : Usenet α × List (Task α)} (taken : usenet.proceed choice task = some result) :
    Counted result.1 := by
  have same (next : Usenet α) (rule : next.eraseRule = usenet.eraseRule) (size : next.readySize = usenet.readySize)
      (ready : next.ready = usenet.ready) : Counted next := ⟨rule.trans counted.rule, by rw [size, ready, counted.size]⟩
  cases proceed_executes taken with
  | @dispatches request after idle dispatched =>
    exact dispatch_counted (same (usenet.record (.passed request.command)) rfl rfl rfl) dispatched
  | becomesReady became =>
    obtain ⟨-, absent, -, -⟩ := owned_in_hand owned
    rcases onConnBecomesReady_cases became with ⟨_, queue, woken, -, wakes, run⟩ | ⟨-, -, rfl⟩ | ⟨-, -, down⟩
    · apply apart_counted _ (run_apart run)
      rcases wakes with rfl | ⟨_, _, _, _, _, rfl⟩ <;> exact same _ rfl rfl rfl
    · exact becomeReady_counted counted absent
    · exact shutdown_counted (becomeReady_counted counted absent) down
  | @discards connit work stopped =>
    have erased := erase_counted counted .busy connit
    exact ⟨erased.rule, erased.size⟩
  | redispatches idle dispatched => exact dispatch_counted counted dispatched
  | _ => exact same _ rfl rfl rfl

theorem step_counted (owned : Owned [] usenet) (counted : Counted usenet) {event : Event α}
    (taken : usenet.step event = some after) : Counted after := by
  cases event with
  | addConnections conninfo numConnections =>
    cases taken
    exact addConnections_keeps (motive := Counted) (fun _ counted => ⟨counted.rule, counted.size⟩) counted numConnections
  | call index request =>
    obtain ⟨-, rfl⟩ := step_call taken
    exact ⟨counted.rule, counted.size⟩
  | take index place outcome =>
    obtain ⟨connit, handler, -, -, rfl⟩ := step_take taken
    have taken : Counted { usenet with pending := usenet.pending.eraseIdx place } := ⟨counted.rule, counted.size⟩
    have delivered := apart_counted taken (deliver_apart _ connit handler outcome)
    exact ⟨delivered.rule, delivered.size⟩
  | proceed index choice =>
    obtain ⟨io, task, tasks, result, found, proceeded, rfl⟩ := step_proceed taken
    have popped : Counted { usenet with threads := usenet.threads.set index ⟨io, tasks⟩ } := ⟨counted.rule, counted.size⟩
    have kept := proceed_counted (popTask_owned owned found) popped proceeded
    exact ⟨kept.rule, kept.size⟩
  | expire connit =>
    obtain ⟨-, -, rfl⟩ := step_expire taken
    exact ⟨counted.rule, counted.size⟩
  | _ =>
    cases taken
    exact ⟨counted.rule, counted.size⟩

/-- Whenever the mutex is free, the ready connections are authenticated and have nothing to do,
and so does every connection that the next step gives a command to; none has refused one. The
size that says whether there is a ready connection is right where `erase` works as assumed. -/
theorem commands_reach_available {eraseRule : EraseRule} {iothreads maxQueueSize : Nat} {articles : α → Article}
    (reached : Machine.Reachable step (Usenet.make eraseRule iothreads maxQueueSize articles) usenet) :
    (∀ connit ∈ usenet.ready, Available usenet connit ∧ Unattended usenet connit) ∧
      (∀ event after, usenet.step event = some after →
        (∀ connit ∈ commanded usenet event, Available usenet connit) ∧
          Starts usenet after (commanded usenet event)) ∧
      (∀ connit, .refused connit ∉ usenet.trace) ∧
      (eraseRule = .holder → usenet.readySize = usenet.ready.length) := by
  have owned := reachable_owned reached
  refine ⟨fun connit => ready_available owned, ?_, ?_, ?_⟩
  · exact fun event after taken => ⟨commanded_available owned event, step_starts owned taken⟩
  · have obeyed : Owned [] usenet ∧ ∀ entry ∈ usenet.trace, ¬ Refusal entry := by
      refine reached.invariant (fun usenet => Owned [] usenet ∧ ∀ entry ∈ usenet.trace, ¬ Refusal entry)
        ⟨owned_make .., fun entry member => absurd member List.not_mem_nil⟩ ?_
      rintro before event after ⟨owned, obeyed⟩ taken
      refine ⟨step_owned owned taken, fun entry member => ?_⟩
      exact ((step_obeys owned taken).fresh member).elim (obeyed entry) id
    exact fun connit member => obeyed.2 _ member trivial
  · intro holder
    have counted : Owned [] usenet ∧ Counted usenet :=
      reached.invariant (fun usenet => Owned [] usenet ∧ Counted usenet) ⟨owned_make .., holder, rfl⟩
        (fun before event after kept taken => ⟨step_owned kept.1 taken, step_counted kept.1 kept.2 taken⟩)
    exact counted.2.size

/-- A post waits for the only connection, which has just been authenticated. -/
def waitingRun : List (Event Nat) :=
  [.spawn, .addConnections sampleConninfo 1, .start] ++ posts 7 ++ takes 1 [(0, "")] ++ connects 1 0 0

theorem waiting_commands : ∃ usenet after, Machine.Reachable step (Usenet.make .named 1 5 sampleArticles) usenet ∧
    usenet.step (.proceed 1 goOn) = some after ∧ commanded usenet (.proceed 1 goOn) = [0] ∧ Available usenet 0 := by
  have computed : (Machine.run step (Usenet.make .named 1 5 sampleArticles) waitingRun).bind (fun usenet =>
      (usenet.step (.proceed 1 goOn)).map (fun _ => commanded usenet (.proceed 1 goOn))) = some [0] := by decide +kernel
  obtain ⟨usenet, reached, rest⟩ := Option.bind_eq_some_iff.mp computed
  obtain ⟨after, taken, seen⟩ := Option.map_eq_some_iff.mp rest
  refine ⟨usenet, after, ⟨waitingRun, reached⟩, taken, seen, ?_⟩
  exact ((commands_reach_available ⟨waitingRun, reached⟩).2.1 _ after taken).1 0 (by simp [seen])

end Post2Usenet.Proofs.PoolCommands
