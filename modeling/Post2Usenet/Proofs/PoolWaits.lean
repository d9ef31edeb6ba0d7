import Post2Usenet.Proofs.PoolBound
import Post2Usenet.Proofs.PoolEfforts
import Post2Usenet.Proofs.PoolWork

/-! A pool with one client that makes one call at a time, and with callbacks that do not
wait for room in the queue. As long as no connection was discarded, the client never waits
behind a queue that nobody will take from. -/

namespace Post2Usenet.Proofs.PoolWaits
open Connection Usenet PoolSteps PoolOwnership PoolProducers PoolBound PoolTrace PoolEfforts PoolWork Tally

variable {α : Type} {usenet after : Usenet α} {connit : ConnectionHandle} {hand : List ConnectionHandle}
  {task : Task α} {outer inner tasks : List (Task α)} {choice : Choice α} {result : Usenet α × List (Task α)} {index : Nat}

/-- What such a client and its callbacks do to a pool that was started. -/
def Disciplined : Event α → Prop
  | .addConnections _ _ | .start | .spawn => False
  | .proceed _ choice => ∀ request ∈ choice.calls, request.bypassWait = true
  | _ => True

/-- What the client is in, and what the io thread has left to do. -/
structure Staffed (outer inner : List (Task α)) (usenet : Usenet α) : Prop where
  threads : usenet.threads = [⟨false, outer⟩, ⟨true, inner⟩]
  single : outer = [] ∨ ∃ task, outer = [task] ∧ calling task = true
  unwaiting : ∀ task ∈ inner, bounded task = false
  limited : ∀ command notified, outer = [.wait command notified] → usenet.maxsize ≠ 0

theorem bounded_uncalled {task : Task α} (uncalled : calling task = false) : bounded task = false := by
  cases task with
  | request | wait => cases uncalled
  | _ => rfl

theorem Staffed.found (staffed : Staffed outer inner usenet) {index : Nat} {io : Bool}
    (found : usenet.threads[index]? = some ⟨io, tasks⟩) :
    index = 0 ∧ io = false ∧ tasks = outer ∨ index = 1 ∧ io = true ∧ tasks = inner := by
  rw [staffed.threads] at found
  match index with
  | 0 =>
    cases found
    exact .inl ⟨rfl, rfl, rfl⟩
  | 1 =>
    cases found
    exact .inr ⟨rfl, rfl, rfl⟩
  | index + 2 => simp at found

theorem Staffed.frame (staffed : Staffed outer inner usenet) (threads : after.threads = usenet.threads)
    (maxsize : after.maxsize = usenet.maxsize) : Staffed outer inner after :=
  ⟨threads.trans staffed.threads, staffed.single, staffed.unwaiting, by
    rw [maxsize]
    exact staffed.limited⟩

/-- A notification can only reach the client. -/
theorem notified_threads (threads : usenet.threads = [⟨false, outer⟩, ⟨true, inner⟩])
    (unwaiting : ∀ task ∈ inner, bounded task = false) (woken : Notified usenet after) :
    after.threads = usenet.threads ∨ ∃ command rest, outer = .wait command false :: rest ∧
      after.threads = [⟨false, .wait command true :: rest⟩, ⟨true, inner⟩] := by
  rcases woken with rfl | ⟨index, io, command, tasks, found, rfl⟩
  · exact .inl rfl
  · rw [threads] at found
    match index with
    | 0 =>
      cases found
      exact .inr ⟨command, tasks, rfl, by simp [threads]⟩
    | 1 =>
      cases found
      cases unwaiting _ (List.mem_cons_self ..)
    | index + 2 => simp at found

/-- A call returns, or waits in a bounded queue. -/
theorem proceed_calling (taken : usenet.proceed choice task = some result) (calls : calling task = true)
    (limited : ∀ command notified, task = .wait command notified → usenet.maxsize ≠ 0) :
    result.2 = [] ∨ usenet.maxsize ≠ 0 ∧ ∃ command, result.2 = [.wait command false] := by
  cases proceed_executes taken with
  | dispatches | defers | resumes => exact .inl rfl
  | waits none waits bounded full => exact .inr ⟨bounded, _, rfl⟩
  | @sleeps command notified full => exact .inr ⟨limited command notified rfl, _, rfl⟩
  | observes slot => cases task <;> cases slot <;> cases calls
  | _ => cases calls

theorem Staffed.calls (staffed : Staffed [task] inner usenet) : calling task = true := by
  rcases staffed.single with none | ⟨same, one, calls⟩
  · cases none
  · cases one
    exact calls

theorem client_staffed (staffed : Staffed [task] inner usenet)
    (taken : { usenet with threads := usenet.threads.set 0 ⟨false, []⟩ }.proceed choice task = some result) :
    Staffed result.2 inner (result.1.pushTasks 0 result.2) := by
  have popped : usenet.threads.set 0 ⟨false, []⟩ = [⟨false, []⟩, ⟨true, inner⟩] := by simp [staffed.threads]
  have maxsize : result.1.maxsize = usenet.maxsize := (proceed_maxsize taken :)
  obtain ⟨notified, woken, same⟩ := proceed_threads taken
  have still : result.1.threads = [⟨false, []⟩, ⟨true, inner⟩] := by
    rcases notified_threads popped staffed.unwaiting woken with kept | ⟨command, rest, other, -⟩
    · exact same.trans (kept.trans popped)
    · cases other
  have ends := proceed_calling taken staffed.calls (fun command notified same => staffed.limited command notified (by rw [same]))
  refine ⟨by simp [pushTasks, still], ?_, staffed.unwaiting, fun command notified waits => ?_⟩
  · rcases ends with none | ⟨-, command, one⟩
    · exact .inl none
    · exact .inr ⟨_, one, rfl⟩
  · rcases ends with none | ⟨limited, -⟩
    · cases none.symm.trans waits
    · exact maxsize ▸ limited

/-- What the client is in when a callback has gone on: it may have been notified. -/
def Same (outer after : List (Task α)) : Prop :=
  after = outer ∨ ∃ command, outer = [.wait command false] ∧ after = [.wait command true]

theorem worker_staffed (staffed : Staffed outer (task :: tasks) usenet) (bypass : ∀ request ∈ choice.calls, request.bypassWait = true)
    (taken : { usenet with threads := usenet.threads.set 1 ⟨true, tasks⟩ }.proceed choice task = some result) :
    ∃ next, Same outer next ∧ Staffed next (result.2 ++ tasks) (result.1.pushTasks 1 result.2) := by
  have first : bounded task = false := staffed.unwaiting task (List.mem_cons_self ..)
  have rest : ∀ task ∈ tasks, bounded task = false := fun task member => staffed.unwaiting task (List.mem_cons_of_mem _ member)
  have popped : usenet.threads.set 1 ⟨true, tasks⟩ = [⟨false, outer⟩, ⟨true, tasks⟩] := by simp [staffed.threads]
  have maxsize : result.1.maxsize = usenet.maxsize := (proceed_maxsize taken :)
  have unwaiting : ∀ task ∈ result.2 ++ tasks, bounded task = false := by
    intro task member
    rcases List.mem_append.mp member with new | old
    · cases proceed_executes taken with
      | waits none waits => simp [bounded, waits] at first
      | sleeps => cases first
      | observes slot =>
        obtain ⟨request, inside, rfl⟩ := List.mem_map.mp new
        simp [bounded, bypass request inside]
      | _ => cases new
    · exact rest task old
  obtain ⟨notified, woken, same⟩ := proceed_threads taken
  rcases notified_threads popped rest woken with kept | ⟨command, more, sleeps, wakes⟩
  · refine ⟨outer, .inl rfl, ?_, staffed.single, unwaiting, ?_⟩
    · simp [pushTasks, same, kept.trans popped]
    · show ∀ command notified, outer = [.wait command notified] → result.1.maxsize ≠ 0
      rw [maxsize]
      exact staffed.limited
  · have alone : more = [] := by
      rcases staffed.single with none | ⟨_, one, -⟩
      · cases none.symm.trans sleeps
      · cases one.symm.trans sleeps
        rfl
    subst alone
    refine ⟨_, .inr ⟨command, sleeps, rfl⟩, ?_, .inr ⟨_, rfl, rfl⟩, unwaiting, ?_⟩
    · simp [pushTasks, same, wakes]
    · intro other notified _
      show result.1.maxsize ≠ 0
      rw [maxsize]
      exact staffed.limited command false sleeps

theorem call_staffed {request : Request α} (staffed : Staffed outer inner usenet)
    (taken : usenet.step (.call index request) = some after) :
    index = 0 ∧ outer = [] ∧ after = usenet.pushTasks 0 [.request request] ∧ Staffed [.request request] inner after := by
  obtain ⟨found, rfl⟩ := step_call taken
  rcases staffed.found found with ⟨rfl, -, rfl⟩ | ⟨-, other, -⟩
  · refine ⟨rfl, rfl, rfl, ?_, .inr ⟨_, rfl, rfl⟩, staffed.unwaiting, ?_⟩
    · simp [pushTasks, staffed.threads]
    · exact fun command notified same => by cases same
  · cases other

/-- What a handler leaves to the io thread. -/
theorem delivered_staffed (staffed : Staffed outer [] usenet) (apart : Apart usenet after)
    (uncalled : ∀ task ∈ tasks, calling task = false) : Staffed outer tasks (after.pushTasks 1 tasks) := by
  refine ⟨?_, staffed.single, fun task member => bounded_uncalled (uncalled task member), fun command notified waits => ?_⟩
  · simp [pushTasks, apart.threads, staffed.threads]
  · show after.maxsize ≠ 0
    rw [apart.maxsize]
    exact staffed.limited command notified waits

theorem take_staffed {place : Nat} {outcome : Outcome} (staffed : Staffed outer inner usenet)
    (taken : usenet.step (.take index place outcome) = some after) :
    ∃ connit handler result, inner = [] ∧ usenet.pending[place]? = some (connit, handler) ∧
      { usenet with pending := usenet.pending.eraseIdx place }.deliver connit handler outcome = result ∧
      after = result.1.pushTasks 1 result.2 ∧ Staffed outer result.2 after := by
  obtain ⟨connit, handler, idle, found, rfl⟩ := step_take taken
  have rest : Staffed outer inner { usenet with pending := usenet.pending.eraseIdx place } := staffed.frame rfl rfl
  have apart := deliver_apart { usenet with pending := usenet.pending.eraseIdx place } connit handler outcome
  have uncalled := deliver_uncalled { usenet with pending := usenet.pending.eraseIdx place } connit handler outcome
  rcases staffed.found idle with ⟨-, other, -⟩ | ⟨rfl, -, rfl⟩
  · cases other
  · exact ⟨connit, handler, _, rfl, found, rfl, rfl, delivered_staffed rest apart uncalled⟩

/-- No connection was discarded, and nobody has stopped the pool. -/
structure Intact (usenet : Usenet α) : Prop where
  working : usenet.work = true
  connected : 0 < usenet.nextHandle
  kept : ∀ connit, .discarded connit ∉ usenet.trace

/-- Some connection is there, and one of them will take what a waiting client waits behind. -/
structure Served (outer : List (Task α)) (usenet : Usenet α) : Prop where
  connections : usenet.ready ++ usenet.busy ≠ []
  taken : ∀ command notified, outer = [.wait command notified] → usenet.queue ≠ [] → usenet.busy ≠ []

theorem Served.busy (served : Served outer usenet) (covered : Covered usenet) (none : usenet.readySize = 0) : usenet.busy ≠ [] := by
  have empty : usenet.ready = [] := List.length_eq_zero_iff.mp (Nat.le_zero.mp (none ▸ covered))
  simpa [empty] using served.connections

/-- A connection that takes a command is busy with it. -/
theorem dispatch_served {command : Command α} (taken : usenet.dispatch command = some after) : Served outer after := by
  obtain ⟨connit, ready, -, run⟩ := dispatch_cases taken
  have busy : after.busy ≠ [] := by simp [(run_apart run).busy]
  exact ⟨List.append_ne_nil_of_right_ne_nil _ busy, fun _ _ _ _ => busy⟩

theorem client_served (covered : Covered usenet) (served : Served [task] usenet) (calls : calling task = true)
    (taken : usenet.proceed choice task = some result) : Served result.2 result.1 := by
  cases proceed_executes taken with
  | dispatches idle dispatched => exact dispatch_served dispatched
  | waits none => exact ⟨served.connections, fun _ _ _ _ => served.busy covered none⟩
  | defers | resumes => exact ⟨served.connections, nofun⟩
  | @sleeps command notified full => exact ⟨served.connections, fun _ _ _ => served.taken command notified rfl⟩
  | observes slot => cases task <;> cases slot <;> cases calls
  | _ => cases calls

/-- A callback adds to the queue only while a connection is busy. -/
theorem worker_served (owned : Owned ((connit? task).toList ++ hand) usenet) (covered : Covered usenet) (served : Served outer usenet)
    (unwaiting : bounded task = false) (taken : usenet.proceed choice task = some result) (intact : Intact result.1) :
    Served outer result.1 := by
  cases proceed_executes taken with
  | dispatches idle dispatched => exact dispatch_served dispatched
  | waits | sleeps => exact served
  | defers none => exact ⟨served.connections, fun _ _ _ _ => served.busy covered none⟩
  | resumes => cases unwaiting
  | @becomesReady connit after became =>
    rcases onConnBecomesReady_cases became with ⟨_, _, notified, -, woken, run⟩ | ⟨empty, -, rfl⟩ | ⟨-, stopped, down⟩
    · have member : connit ∈ notified.busy := by
        have inside := (owned_in_hand owned).1
        rcases woken with rfl | ⟨_, _, _, _, _, rfl⟩ <;> exact inside
      have busy : after.busy ≠ [] := by
        rw [(run_apart run).busy]
        exact List.ne_nil_of_mem member
      exact ⟨List.append_ne_nil_of_right_ne_nil _ busy, fun _ _ _ _ => busy⟩
    · exact ⟨by simp [becomeReady], fun _ _ _ waiting => absurd empty waiting⟩
    · have working := (shutdown_remains down).work.symm.trans intact.working
      cases stopped.symm.trans working
  | discards => exact absurd (List.mem_cons_self ..) (intact.kept _)
  | redispatches idle dispatched => exact dispatch_served dispatched
  | requeues none => exact ⟨served.connections, fun _ _ _ _ => served.busy covered none⟩
  | @reconnects connit => exact ⟨served.connections, fun _ _ _ _ => List.ne_nil_of_mem (owned_in_hand owned).1⟩
  | observes slot => exact ⟨served.connections, served.taken⟩

theorem Served.same {next : List (Task α)} (served : Served outer usenet) (same : Same outer next) : Served next usenet := by
  rcases same with rfl | ⟨command, waits, rfl⟩
  · exact served
  · exact ⟨served.connections, fun _ _ _ => served.taken command false waits⟩

theorem Served.frame (served : Served outer usenet) (ready : after.ready = usenet.ready) (busy : after.busy = usenet.busy)
    (queue : after.queue = usenet.queue) : Served outer after :=
  ⟨by rw [ready, busy]; exact served.connections, by rw [queue, busy]; exact served.taken⟩

/-- Where a pool stops by itself: it has discarded its last connection. -/
def Discarded (usenet : Usenet α) : Prop := ∃ connit, .discarded connit ∈ usenet.trace

theorem proceed_work (taken : usenet.proceed choice task = some result) :
    result.1.work = usenet.work ∨ result.1.work = false ∧ Discarded result.1 := by
  cases proceed_executes taken with
  | dispatches idle dispatched | redispatches idle dispatched =>
    obtain ⟨connit, ready, -, run⟩ := dispatch_cases dispatched
    exact .inl (run_apart run).work
  | @becomesReady connit after became =>
    rcases onConnBecomesReady_cases became with ⟨_, _, notified, -, woken, run⟩ | ⟨-, -, rfl⟩ | ⟨-, -, down⟩
    · have same : notified.work = usenet.work := by rcases woken with rfl | ⟨_, _, _, _, _, rfl⟩ <;> rfl
      exact .inl ((run_apart run).work.trans same)
    · exact .inl rfl
    · exact .inl (shutdown_remains down).work
  | @discards connit work stopped =>
    cases work with
    | true => exact .inl (stopped rfl).symm
    | false => exact .inr ⟨rfl, connit, List.mem_cons_self ..⟩
  | _ => exact .inl rfl

/-- A pool that was started is not started again. -/
theorem step_work {event : Event α} (disciplined : Disciplined event) (taken : usenet.step event = some after) :
    after.work = usenet.work ∨ after.work = false ∧ (event = .stop ∨ Discarded after) := by
  cases event with
  | addConnections | start | spawn => exact disciplined.elim
  | stop =>
    cases taken
    exact .inr ⟨rfl, .inl rfl⟩
  | call index request =>
    obtain ⟨-, rfl⟩ := step_call taken
    exact .inl rfl
  | take index place outcome =>
    obtain ⟨connit, handler, -, -, rfl⟩ := step_take taken
    exact .inl (deliver_apart { usenet with pending := usenet.pending.eraseIdx place } connit handler outcome).work
  | expire connit =>
    obtain ⟨-, -, rfl⟩ := step_expire taken
    exact .inl rfl
  | proceed index choice =>
    obtain ⟨io, task, tasks, result, found, proceeded, rfl⟩ := step_proceed taken
    exact (proceed_work proceeded).imp id (fun stopped => ⟨stopped.1, .inr stopped.2⟩)
  | setOperationTimeout | rewrite =>
    cases taken
    exact .inl rfl

theorem step_intact {event : Event α} (owned : Owned [] usenet) (disciplined : Disciplined event)
    (taken : usenet.step event = some after) (intact : Intact after) : Intact usenet := by
  obtain ⟨new, trace, -⟩ := step_written taken
  refine ⟨?_, ?_, fun connit member => intact.kept connit ?_⟩
  · rcases step_work disciplined taken with same | ⟨stopped, -⟩
    · exact same.symm.trans intact.working
    · cases stopped.symm.trans intact.working
  · rw [← step_nextHandle owned (by rintro _ _ rfl; exact disciplined) taken]
    exact intact.connected
  · rw [trace]
    exact List.mem_append_right _ member

theorem dispatch_covered {command : Command α} (covered : Covered usenet) (taken : usenet.dispatch command = some after) :
    Covered after := by
  obtain ⟨connit, ready, first, run⟩ := dispatch_cases taken
  have apart := run_apart run
  rw [Covered, first, List.length_cons] at covered
  rw [Covered, apart.ready, apart.readySize]
  exact decrement_covers covered

theorem proceed_covered (covered : Covered usenet) (taken : usenet.proceed choice task = some result) : Covered result.1 := by
  cases proceed_executes taken with
  | @dispatches request _ idle dispatched =>
    have recorded : Covered (usenet.record (.passed request.command)) := covered.frame rfl rfl
    exact dispatch_covered recorded dispatched
  | @becomesReady connit after became =>
    rcases onConnBecomesReady_cases became with ⟨_, _, notified, -, woken, run⟩ | ⟨-, -, rfl⟩ | ⟨-, -, down⟩
    · have apart := run_apart run
      have same : notified.ready = usenet.ready ∧ notified.readySize = usenet.readySize := by
        rcases woken with rfl | ⟨_, _, _, _, _, rfl⟩ <;> exact ⟨rfl, rfl⟩
      exact covered.frame (apart.ready.trans same.1) (apart.readySize.trans same.2)
    · exact becomeReady_covered covered
    · exact shutdown_covered (becomeReady_covered covered) down
  | @discards connit =>
    have erased : Covered (usenet.erase .busy connit) := erase_covered covered nofun
    exact erased.frame rfl rfl
  | redispatches idle dispatched => exact dispatch_covered covered dispatched
  | _ => exact covered.frame rfl rfl

theorem step_maxsize {event : Event α} (taken : usenet.step event = some after) : after.maxsize = usenet.maxsize := by
  cases event with
  | addConnections conninfo numConnections =>
    cases taken
    exact addConnections_keeps (motive := fun next => next.maxsize = usenet.maxsize) (fun _ same => same) rfl numConnections
  | call index request =>
    obtain ⟨-, rfl⟩ := step_call taken
    rfl
  | take index place outcome =>
    obtain ⟨connit, handler, -, -, rfl⟩ := step_take taken
    exact (deliver_apart { usenet with pending := usenet.pending.eraseIdx place } connit handler outcome).maxsize
  | expire connit =>
    obtain ⟨-, -, rfl⟩ := step_expire taken
    rfl
  | proceed index choice =>
    obtain ⟨io, task, tasks, result, found, proceeded, rfl⟩ := step_proceed taken
    exact (proceed_maxsize proceeded :)
  | _ =>
    cases taken
    rfl

/-- The invariant of such a pool. -/
structure Attending (outer inner : List (Task α)) (usenet : Usenet α) : Prop where
  staffed : Staffed outer inner usenet
  covered : Covered usenet
  served : Intact usenet → Served outer usenet

/-- The client is in a call only if it was in one, or if it makes one. -/
theorem step_attending {event : Event α} (owned : Owned [] usenet) (attending : Attending outer inner usenet)
    (disciplined : Disciplined event) (taken : usenet.step event = some after) :
    ∃ next rest, Attending next rest after ∧ (outer = [] → (∀ index request, event ≠ .call index request) → next = []) := by
  obtain ⟨staffed, covered, served⟩ := attending
  have before := step_intact owned disciplined taken
  cases event with
  | addConnections | start | spawn => exact disciplined.elim
  | call index request =>
    obtain ⟨-, rfl, rfl, kept⟩ := call_staffed staffed taken
    exact ⟨[.request request], inner, ⟨kept, covered.frame rfl rfl,
      fun intact => ⟨(served (before intact)).connections, fun command notified same => by cases same⟩⟩,
      fun _ uncalled => absurd rfl (uncalled index request)⟩
  | take index place outcome =>
    obtain ⟨connit, handler, result, -, -, same, rfl, kept⟩ := take_staffed staffed taken
    have apart : Apart { usenet with pending := usenet.pending.eraseIdx place } result.1 := same ▸ deliver_apart ..
    exact ⟨outer, _, ⟨kept, covered.frame apart.ready apart.readySize,
      fun intact => (served (before intact)).frame apart.ready apart.busy apart.queue⟩, fun idle _ => idle⟩
  | expire connit =>
    obtain ⟨-, -, rfl⟩ := step_expire taken
    exact ⟨outer, inner, ⟨staffed.frame rfl rfl, covered.frame rfl rfl,
      fun intact => (served (before intact)).frame rfl rfl rfl⟩, fun idle _ => idle⟩
  | proceed index choice =>
    obtain ⟨io, task, tasks, result, found, proceeded, rfl⟩ := step_proceed taken
    have rest : Covered { usenet with threads := usenet.threads.set index ⟨io, tasks⟩ } := covered.frame rfl rfl
    have kept := proceed_covered rest proceeded
    rcases staffed.found found with ⟨rfl, rfl, same⟩ | ⟨rfl, rfl, same⟩
    · have alone : tasks = [] := by
        rcases staffed.single with none | ⟨_, one, -⟩
        · cases same.trans none
        · cases same.trans one
          rfl
      subst alone same
      refine ⟨_, _, ⟨client_staffed staffed proceeded, kept.frame rfl rfl, fun intact => ?_⟩, fun idle => by cases idle⟩
      have popped : Served [task] { usenet with threads := usenet.threads.set 0 ⟨false, []⟩ } :=
        (served (before intact)).frame rfl rfl rfl
      exact (client_served rest popped staffed.calls proceeded).frame rfl rfl rfl
    · subst same
      obtain ⟨next, follows, worker⟩ := worker_staffed staffed disciplined proceeded
      refine ⟨next, _, ⟨worker, kept.frame rfl rfl, fun intact => ?_⟩, fun idle _ => ?_⟩
      · have popped : Served outer { usenet with threads := usenet.threads.set 1 ⟨true, tasks⟩ } :=
          (served (before intact)).frame rfl rfl rfl
        have served := worker_served (popTask_owned owned found) rest popped
          (staffed.unwaiting task (List.mem_cons_self ..)) proceeded ⟨intact.working, intact.connected, intact.kept⟩
        exact (served.same follows).frame rfl rfl rfl
      · rcases follows with rfl | ⟨command, waits, -⟩
        · exact idle
        · cases idle.symm.trans waits
  | setOperationTimeout | stop | rewrite =>
    cases taken
    exact ⟨outer, inner, ⟨staffed.frame rfl rfl, covered.frame rfl rfl,
      fun intact => (served (before intact)).frame rfl rfl rfl⟩, fun idle _ => idle⟩

end Post2Usenet.Proofs.PoolWaits
