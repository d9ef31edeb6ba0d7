import Post2Usenet.Proofs.PoolWaits

/-! How much a pool with one client holds at once. A callback that enqueues does not wait for
room, so the queue can outgrow its bound, but only by what its connections were busy with. -/

namespace Post2Usenet.Proofs.PoolLoads
open Connection ConnectionSteps Usenet PoolSteps PoolOwnership PoolProducers PoolBound PoolEfforts PoolWaits Tally

variable {α : Type} {usenet after : Usenet α} {connit : ConnectionHandle} {hand : List ConnectionHandle}
  {task : Task α} {outer inner tasks : List (Task α)} {choice : Choice α} {result : Usenet α × List (Task α)}
  {command : Command α} {count : Nat}

/-- The connection is busy with a command. -/
def occupying : Handler α → Nat
  | .stage .doPost | .stage .postWritten | .stage .postAnswered | .stage .articleWritten | .stage .articleAnswered => 1
  | .stage .doStat | .stage .statWritten | .stage .statAnswered => 1
  | .postHandler _ _ | .statHandler _ _ => 1
  | _ => 0

def occupied (usenet : Usenet α) : Nat := total (fun entry => occupying entry.2) usenet.pending

/-- A command that goes back to the queue whatever room is there. -/
def retrying : Task α → Nat
  | .request request => if request.bypassWait then 1 else 0
  | .dispatchOrQueue _ | .requeueStat _ _ | .slotPostFailed _ => 1
  | _ => 0

/-- The connections that are busy with a command or wait for one, and the commands on their way back. -/
def engaged (usenet : Usenet α) : Nat := occupied usenet + usenet.ready.length + onTasks retrying usenet

theorem occupying_le (handler : Handler α) : occupying handler ≤ 1 := by
  cases handler with
  | stage stage => cases stage <;> simp [occupying]
  | _ => simp [occupying]

theorem occupying_owns {handler : Handler α} (occupies : occupying handler ≠ 0) : owns handler = true := by
  cases handler with
  | stage stage => cases stage <;> first | rfl | exact absurd rfl occupies
  | timer => exact absurd rfl occupies
  | _ => rfl

theorem follows_occupying {stage : Stage} {handler : Handler α} (follow : follows stage handler = true) :
    occupying handler = occupying (.stage stage : Handler α) := by
  cases stage <;> cases handler with
  | stage next => cases next <;> first | rfl | cases follow
  | timer => cases follow
  | connectHandler | postHandler | statHandler => first | rfl | cases follow

/-- A pool has no more connections than it made. -/
theorem engaged_owned (owned : Owned [] usenet) : occupied usenet + usenet.ready.length ≤ usenet.nextHandle := by
  have parts := List.nodup_append'.mp owned.distinct
  have keyed : ∀ entry ∈ usenet.pending, occupying entry.2 ≠ 0 → entry.1 ∈ usenet.busy :=
    fun entry member occupies => owner_of_handler owned member (occupying_owns occupies)
  have each (connit : ConnectionHandle) :
      total (fun entry => if entry.1 = connit then occupying entry.2 else 0) usenet.pending ≤ 1 := by
    have single := owned.single connit
    have once := List.nodup_iff_count_le_one.mp parts.2.1 connit
    rw [owners, List.count_nil] at single
    have fewer : total (fun entry => if entry.1 = connit then occupying entry.2 else 0) usenet.pending ≤
        total (handlerOf connit) usenet.pending := by
      apply List.sum_le_sum
      rintro ⟨other, handler⟩ _
      by_cases idle : occupying handler = 0
      · simp [idle]
      · simp only [handlerOf, occupying_owns idle, and_true]
        split
        · exact occupying_le handler
        · exact Nat.le_refl 0
    omega
  have busy : occupied usenet ≤ usenet.busy.length := by
    rw [occupied, ← total_fibers parts.2.1 keyed]
    calc total (fun connit => total (fun entry => if entry.1 = connit then occupying entry.2 else 0) usenet.pending) usenet.busy
        ≤ total (fun _ => 1) usenet.busy := List.sum_le_sum (fun connit _ => each connit)
      _ = usenet.busy.length := by simp [total]
  have all : (usenet.ready ++ usenet.busy).length ≤ (List.range usenet.nextHandle).length :=
    (owned.distinct.subperm (fun connit member => List.mem_range.mpr (owned.known connit member))).length_le
  rw [List.length_append, List.length_range] at all
  omega

theorem perform_occupied (usenet : Usenet α) (connit : ConnectionHandle) (act : Act α) :
    occupied (usenet.perform connit act) = occupied usenet + total occupying (act.2.filterMap Call.handler?) := by
  simp only [occupied, perform, total_append, total_map]

theorem perform_engaged (usenet : Usenet α) (connit : ConnectionHandle) (act : Act α) :
    engaged (usenet.perform connit act) = engaged usenet + total occupying (act.2.filterMap Call.handler?) := by
  show occupied (usenet.perform connit act) + usenet.ready.length + onTasks retrying usenet = _
  rw [perform_occupied, engaged]
  omega

theorem total_pends {act : Act α} {weight : Handler α → Nat} (pends : Pends (fun handler => weight handler == 0) act) :
    total weight (act.2.filterMap Call.handler?) = 0 := by
  rw [total, List.sum_eq_zero]
  intro value member
  obtain ⟨handler, inside, rfl⟩ := List.mem_map.mp member
  simpa using pends handler inside

theorem asyncConnect_occupied (usenet : Usenet α) (connit : ConnectionHandle) (connection : Connection α) :
    occupied (usenet.perform connit connection.asyncConnect) = occupied usenet := by
  rw [perform_occupied, total_pends (asyncConnect_pends connection rfl), Nat.add_zero]

theorem asyncConnect_engaged (usenet : Usenet α) (connit : ConnectionHandle) (connection : Connection α) :
    engaged (usenet.perform connit connection.asyncConnect) = engaged usenet := by
  rw [perform_engaged, total_pends (asyncConnect_pends connection rfl), Nat.add_zero]

theorem run_occupied (taken : usenet.run connit command = some after) : occupied after ≤ occupied usenet + 1 := by
  have accepted {result : Bool × Act α} (one : total occupying (result.2.2.filterMap Call.handler?) ≤ 1) :
      occupied (usenet.performAccepted connit result) ≤ occupied usenet + 1 := by
    rw [performAccepted]
    split
    · rw [perform_occupied]
      omega
    · exact Nat.le_succ _
  cases command with
  | startAsyncPost msg =>
    obtain ⟨connection, -, rfl⟩ := Option.map_eq_some_iff.mp taken
    apply accepted
    simp only [asyncPost]
    split <;> simp [occupying, Call.handler?]
  | startAsyncStat msgid =>
    obtain ⟨connection, -, rfl⟩ := Option.map_eq_some_iff.mp taken
    apply accepted
    simp only [asyncStat]
    split <;> simp [occupying, Call.handler?]

/-- A connection that has answered is held by its thread, and what it could not do is on its way back. -/
theorem deliver_engaged (owned : Owned (connit :: hand) usenet) {handler : Handler α} (owning : owns handler = true)
    (fits : ∀ connection, usenet.connections connit = some connection → Fits connection handler) (outcome : Outcome) :
    engaged (usenet.deliver connit handler outcome).1 + total retrying (usenet.deliver connit handler outcome).2 ≤
      engaged usenet + occupying handler := by
  obtain ⟨connection, present⟩ := present_in_hand owned
  rw [deliver, present]
  cases handler with
  | timer => cases owning
  | stage stage =>
    obtain ⟨handler, one, -, -, -⟩ := run_continues usenet.articles outcome (fits connection present) owning
    have follow := run_follows usenet.articles stage outcome connection handler (by rw [one]; exact List.mem_singleton.mpr rfl)
    show engaged (usenet.perform connit (connection.run usenet.articles stage outcome)) + 0 ≤ _
    rw [perform_engaged, one, total_cons, total_nil, follows_occupying follow]
    exact Nat.le_refl _
  | connectHandler result => cases result <;> exact Nat.le_refl _
  | statHandler msgid result =>
    cases result with
    | connectionError => exact Nat.le_refl _
    | articleExists | invalidArticle => exact Nat.le_succ _
  | postHandler msg result =>
    cases result with
    | postSuccess => exact Nat.le_succ _
    | postFailure => exact Nat.le_refl _
    | postingNotPermitted =>
      have closed := perform_engaged (usenet.record (.posted connit msg .postingNotPermitted)) connit
        (connection.close outcome, [])
      exact Nat.le_of_eq (congrArg (· + 1) closed)
    | postFailureConnectionError =>
      have closed := asyncConnect_engaged (usenet.record (.posted connit msg .postFailureConnectionError)) connit
        (connection.close outcome)
      exact Nat.le_of_eq (congrArg (· + 1) closed)

/-- What a critical section does to the queue and to what the pool is engaged with. -/
inductive Loads (usenet : Usenet α) (task : Task α) (result : Usenet α × List (Task α)) : Prop
  | settles (held : engaged result.1 + total retrying result.2 ≤ engaged usenet + retrying task)
      (loads : result.1.queue.length + engaged result.1 + total retrying result.2 ≤
        usenet.queue.length + engaged usenet + retrying task)
  | readies {connit : ConnectionHandle} (ready : task = .onConnBecomesReady connit) (returns : result.2 = [])
      (loads : result.1.queue = [] ∨ result.1.queue.length + engaged result.1 ≤ usenet.queue.length + engaged usenet)
  | admits (room : usenet.queue.length < usenet.maxsize) (returns : result.2 = [])
      (grows : result.1.queue.length = usenet.queue.length + 1) (held : engaged result.1 = engaged usenet)

/-- A command that is not queued takes the place of a connection that waited for one. -/
theorem dispatch_loads (taken : usenet.dispatch command = some after) : Loads usenet task (after, []) := by
  obtain ⟨connit, ready, first, run⟩ := dispatch_cases taken
  have apart := run_apart run
  have occupies : occupied after ≤ occupied usenet + 1 := (run_occupied run :)
  have same : onTasks retrying after = onTasks retrying usenet := by rw [onTasks, apart.threads, onTasks]
  have shorter : usenet.ready.length = after.ready.length + 1 := by rw [first, apart.ready, List.length_cons]
  have held : engaged after ≤ engaged usenet := by
    rw [engaged, engaged]
    omega
  have queue : after.queue.length = usenet.queue.length := congrArg List.length apart.queue
  refine .settles ?_ ?_
  · show engaged after + 0 ≤ _
    omega
  · show after.queue.length + engaged after + 0 ≤ _
    omega

theorem retrying_calls (choice : Choice α) : total retrying (choice.calls.map .request) ≤ choice.calls.length := by
  rw [total_map]
  calc total (fun request => retrying (.request request)) choice.calls
      ≤ total (fun _ => 1) choice.calls := by
        apply List.sum_le_sum
        intro request _
        simp only [retrying]
        split <;> decide
    _ = choice.calls.length := by simp [total]

theorem proceed_loads (limited : usenet.maxsize ≠ 0) (few : choice.calls.length ≤ retrying task)
    (taken : usenet.proceed choice task = some result) : Loads usenet task result := by
  cases proceed_executes taken with
  | @dispatches request after idle dispatched =>
    have recorded : Loads (usenet.record (.passed request.command)) (.request request) (after, []) := dispatch_loads dispatched
    cases recorded with
    | settles held loads => exact .settles held loads
    | readies ready => cases ready
    | admits room returns grows held => exact .admits room returns grows held
  | waits | sleeps => exact .settles (Nat.le_add_right ..) (Nat.le_add_right ..)
  | @defers request none room =>
    have longer : (usenet.queue ++ [request.command]).length = usenet.queue.length + 1 := by simp
    cases bypass : request.bypassWait with
    | false => exact .admits (room bypass limited) rfl longer rfl
    | true =>
      refine .settles (Nat.le_add_right ..) ?_
      show (usenet.queue ++ [request.command]).length + engaged usenet + 0 ≤ _
      simp only [retrying, bypass, if_true]
      omega
  | resumes room => exact .admits room rfl (by simp [pushBack, record]) rfl
  | @becomesReady connit after became =>
    refine .readies rfl rfl ?_
    rcases onConnBecomesReady_cases became with ⟨nextCommand, queue, notified, waiting, woken, run⟩ | ⟨empty, -, rfl⟩ |
      ⟨empty, -, down⟩
    · right
      have apart := run_apart run
      have occupies : occupied after ≤ occupied { notified with queue } + 1 := run_occupied run
      have pending : occupied { notified with queue } = occupied notified := rfl
      have same : occupied notified = occupied usenet ∧ notified.ready = usenet.ready := by
        rcases woken with rfl | ⟨_, _, _, _, _, rfl⟩ <;> exact ⟨rfl, rfl⟩
      have tasks : onTasks retrying after = onTasks retrying usenet := by
        rw [← onTasks_notified (fun _ => rfl) woken, onTasks, apart.threads, onTasks]
      have shorter : usenet.queue.length = after.queue.length + 1 := by rw [waiting, apart.queue, List.length_cons]
      have ready : after.ready.length = usenet.ready.length := by rw [apart.ready]; exact congrArg _ same.2
      simp only [engaged]
      omega
    · exact .inl empty
    · exact .inl ((shutdown_remains down).queue.trans empty)
  | @discards connit =>
    have shorter : (usenet.ready.erase connit).length ≤ usenet.ready.length := List.erase_sublist.length_le
    refine .settles ?_ ?_
    · show occupied usenet + (usenet.ready.erase connit).length + onTasks retrying usenet + 0 ≤ _
      rw [engaged]
      omega
    · show usenet.queue.length + (occupied usenet + (usenet.ready.erase connit).length + onTasks retrying usenet) + 0 ≤ _
      rw [engaged]
      omega
  | redispatches idle dispatched => exact dispatch_loads dispatched
  | requeues =>
    refine .settles (Nat.le_add_right ..) ?_
    show (usenet.queue ++ [_]).length + engaged usenet + 0 ≤ _ + _ + 1
    rw [List.length_append, List.length_singleton]
    omega
  | @reconnects connit msgid connection present =>
    have held : engaged ((usenet.pushBack (.startAsyncStat msgid)).perform connit (connection.close choice.outcome).asyncConnect) =
        engaged usenet := asyncConnect_engaged ..
    refine .settles (by rw [held]; exact Nat.le_add_right ..) ?_
    show (usenet.queue ++ [_]).length + engaged _ + 0 ≤ _ + _ + 1
    rw [held, List.length_append, List.length_singleton]
    omega
  | observes slot =>
    have calls := Nat.le_trans (retrying_calls choice) few
    exact .settles (Nat.add_le_add_left calls _) (Nat.add_le_add_left calls _)

/-- What follows a connection that becomes ready is no retry. -/
def readies : Task α → Bool
  | .onConnBecomesReady _ => true
  | _ => false

def Ordered (tasks : List (Task α)) : Prop := tasks.Pairwise (fun first later => readies first = true → retrying later = 0)

theorem deliver_ordered (usenet : Usenet α) (connit : ConnectionHandle) (handler : Handler α) (outcome : Outcome) :
    Ordered (usenet.deliver connit handler outcome).2 := by
  rw [deliver]
  split
  · exact .nil
  · cases handler with
    | stage | timer => exact .nil
    | connectHandler result => cases result <;> exact List.pairwise_singleton ..
    | statHandler msgid result => cases result <;> simp [Ordered, onStatFinished, retrying]
    | postHandler msg result => cases result <;> simp [Ordered, onPostFinished, retrying, readies]

theorem proceed_ordered (taken : usenet.proceed choice task = some result) (ordered : Ordered tasks) :
    Ordered (result.2 ++ tasks) := by
  have unready : ∀ task ∈ result.2, readies task = false := by
    cases proceed_executes taken with
    | waits | sleeps => exact List.forall_mem_singleton.mpr rfl
    | observes slot => exact List.forall_mem_map.mpr (fun _ _ => rfl)
    | _ => exact nofun
  refine List.pairwise_append.mpr ⟨?_, ordered, fun first member later _ ready => ?_⟩
  · exact List.Pairwise.imp_of_mem (fun member _ _ ready => absurd ready (by simp [unready _ member]))
      (List.pairwise_of_forall (R := fun _ _ => True) (fun _ _ => trivial))
  · cases ready.symm.trans (unready first member)

/-- A pool with one client, which does not bypass the wait, and whose callbacks enqueue once
for every post that failed. -/
def Restrained (usenet : Usenet α) : Event α → Prop
  | .call _ request => request.bypassWait = false
  | .proceed index choice => ∀ task, headTask usenet index = some task → choice.calls.length ≤ retrying task
  | _ => True

structure Loaded (count : Nat) (outer inner : List (Task α)) (usenet : Usenet α) : Prop where
  staffed : Staffed outer inner usenet
  patient : total retrying outer = 0
  ordered : Ordered inner
  held : engaged usenet ≤ count
  bounded : usenet.queue.length + engaged usenet ≤ usenet.maxsize + count

theorem pushTasks_engaged {index : Nat} (inside : index < usenet.threads.length) (tasks : List (Task α)) :
    engaged (usenet.pushTasks index tasks) = engaged usenet + total retrying tasks := by
  have pushed := onTasks_pushTasks retrying inside tasks
  show occupied usenet + usenet.ready.length + onTasks retrying (usenet.pushTasks index tasks) = _
  rw [pushed, engaged]
  omega

theorem popTask_engaged {index : Nat} {io : Bool} (found : usenet.threads[index]? = some ⟨io, task :: tasks⟩) :
    engaged { usenet with threads := usenet.threads.set index ⟨io, tasks⟩ } + retrying task = engaged usenet := by
  have popped := onTasks_pop retrying found
  show occupied usenet + usenet.ready.length + onTasks retrying _ + _ = _
  rw [engaged]
  omega

theorem takePending_engaged {place : Nat} {handler : Handler α} (found : usenet.pending[place]? = some (connit, handler)) :
    engaged { usenet with pending := usenet.pending.eraseIdx place } + occupying handler = engaged usenet := by
  have removed := total_eraseIdx (fun entry : ConnectionHandle × Handler α => occupying entry.2) found
  show total (fun entry => occupying entry.2) (usenet.pending.eraseIdx place) + usenet.ready.length + onTasks retrying usenet + _ = _
  rw [engaged, occupied]
  dsimp only at removed
  omega

/-- Without a retry under way the pool is engaged with its connections only. -/
theorem engaged_settled (owned : Owned [] usenet) (staffed : Staffed outer inner usenet) (patient : total retrying outer = 0)
    (settled : total retrying inner = 0) : engaged usenet ≤ usenet.nextHandle := by
  have connections := engaged_owned owned
  have none : onTasks retrying usenet = 0 := by simp [onTasks, staffed.threads, patient, settled]
  rw [engaged]
  omega

theorem Loaded.frame (loaded : Loaded count outer inner usenet) (threads : after.threads = usenet.threads)
    (maxsize : after.maxsize = usenet.maxsize) (ready : after.ready = usenet.ready) (pending : occupied after = occupied usenet)
    (queue : after.queue = usenet.queue) : Loaded count outer inner after := by
  have same : engaged after = engaged usenet := by
    rw [engaged, pending, ready, onTasks, threads, engaged, onTasks]
  exact ⟨loaded.staffed.frame threads maxsize, loaded.patient, loaded.ordered, same ▸ loaded.held,
    by rw [queue, maxsize, same]; exact loaded.bounded⟩

/-- A retry takes the place of the post that failed, and the client enqueues only while there is room. -/
theorem loads_bounded (loads : Loads usenet task result) (held : engaged usenet + retrying task ≤ count)
    (bounded : usenet.queue.length + (engaged usenet + retrying task) ≤ usenet.maxsize + count)
    (settled : ∀ connit, task = .onConnBecomesReady connit → result.2 = [] → engaged result.1 ≤ count) :
    engaged result.1 + total retrying result.2 ≤ count ∧
      result.1.queue.length + (engaged result.1 + total retrying result.2) ≤ usenet.maxsize + count := by
  cases loads with
  | settles held loads => omega
  | readies ready returns loads =>
    have bound := settled _ ready returns
    rw [returns, total_nil]
    rcases loads with empty | fewer
    · rw [empty, List.length_nil]
      omega
    · omega
  | admits room returns grows held =>
    rw [returns, total_nil]
    omega

theorem step_loaded {event : Event α} (owned : Owned [] usenet) (loaded : Loaded count outer inner usenet)
    (known : usenet.nextHandle ≤ count) (limited : usenet.maxsize ≠ 0) (disciplined : Disciplined event)
    (restrained : Restrained usenet event) (taken : usenet.step event = some after) :
    ∃ next rest, Loaded count next rest after := by
  obtain ⟨staffed, patient, ordered, held, bounded⟩ := loaded
  have still (threads : after.threads = usenet.threads) (maxsize : after.maxsize = usenet.maxsize)
      (ready : after.ready = usenet.ready) (pending : occupied after = occupied usenet) (queue : after.queue = usenet.queue) :
      ∃ next rest, Loaded count next rest after :=
    ⟨outer, inner, Loaded.frame ⟨staffed, patient, ordered, held, bounded⟩ threads maxsize ready pending queue⟩
  cases event with
  | addConnections | start | spawn => exact disciplined.elim
  | call index request =>
    obtain ⟨rfl, rfl, rfl, kept⟩ := call_staffed staffed taken
    have waits : total retrying [(.request request : Task α)] = 0 := by simp [retrying, show request.bypassWait = false from restrained]
    have inside : 0 < usenet.threads.length := by simp [staffed.threads]
    have pushed := pushTasks_engaged inside [.request request]
    rw [waits, Nat.add_zero] at pushed
    exact ⟨_, inner, kept, waits, ordered, pushed ▸ held, by rw [pushed]; exact bounded⟩
  | take index place outcome =>
    obtain ⟨connit, handler, result, rfl, found, same, rfl, kept⟩ := take_staffed staffed taken
    have apart : Apart { usenet with pending := usenet.pending.eraseIdx place } result.1 := same ▸ deliver_apart ..
    have removed := takePending_engaged found
    have inside : 1 < result.1.threads.length := by simp [apart.threads, staffed.threads]
    have answered : engaged (result.1.pushTasks 1 result.2) ≤ engaged usenet := by
      rw [pushTasks_engaged inside]
      rcases takePending_cases owned found outcome with ⟨owning, alone, fits⟩ | ⟨stale, nothing⟩
      · have delivered := deliver_engaged alone owning fits outcome
        rw [same] at delivered
        omega
      · rw [← same, nothing]
        exact Nat.le.intro removed
    refine ⟨outer, result.2, kept, patient, same ▸ deliver_ordered .., Nat.le_trans answered held, ?_⟩
    show result.1.queue.length + engaged (result.1.pushTasks 1 result.2) ≤ result.1.maxsize + count
    rw [apart.queue, apart.maxsize]
    exact Nat.le_trans (Nat.add_le_add_left answered _) bounded
  | expire connit =>
    obtain ⟨-, -, rfl⟩ := step_expire taken
    exact still rfl rfl rfl (by simp [occupied, occupying]) rfl
  | proceed index choice =>
    have nextHandle := step_nextHandle owned (by rintro _ _ same; cases same) taken
    have owned := step_owned owned taken
    obtain ⟨io, task, tasks, result, found, proceeded, rfl⟩ := step_proceed taken
    have few := restrained task (headTask_found found)
    have loads : Loads { usenet with threads := usenet.threads.set index ⟨io, tasks⟩ } task result :=
      proceed_loads limited few proceeded
    have popped := popTask_engaged found
    have pushed := pushTasks_engaged (proceed_inside found proceeded) result.2
    have maxsize : result.1.maxsize = usenet.maxsize := (proceed_maxsize proceeded :)
    -- The numbers are as they should be if the threads are.
    have finish {next rest : List (Task α)} (kept : Staffed next rest (result.1.pushTasks index result.2))
        (patient : total retrying next = 0) (ordered : Ordered rest)
        (settled : ∀ connit, task = .onConnBecomesReady connit → result.2 = [] → total retrying rest = 0) :
        ∃ next rest, Loaded count next rest (result.1.pushTasks index result.2) := by
      have numbers := loads_bounded loads (Nat.le_trans (Nat.le_of_eq popped) held)
        (show usenet.queue.length + _ ≤ usenet.maxsize + count by rw [popped]; exact bounded) (fun connit ready returns => by
          have bound := engaged_settled owned kept patient (settled connit ready returns)
          rw [nextHandle, pushed, returns, total_nil] at bound
          exact Nat.le_trans bound known)
      refine ⟨next, rest, kept, patient, ordered, pushed ▸ numbers.1, ?_⟩
      rw [pushed]
      show _ ≤ result.1.maxsize + count
      rw [maxsize]
      exact numbers.2
    rcases staffed.found found with ⟨rfl, rfl, same⟩ | ⟨rfl, rfl, same⟩
    · have alone : tasks = [] := by
        rcases staffed.single with none | ⟨_, one, -⟩
        · cases same.trans none
        · cases same.trans one
          rfl
      subst alone same
      have calls := staffed.calls
      have ends := proceed_calling proceeded calls (fun command notified same => staffed.limited command notified (by rw [same]))
      refine finish (client_staffed staffed proceeded) ?_ ordered (fun connit ready => by rw [ready] at calls; cases calls)
      rcases ends with none | ⟨-, command, one⟩
      · rw [none, total_nil]
      · rw [one]
        rfl
    · subst same
      obtain ⟨next, follows, kept⟩ := worker_staffed staffed disciplined proceeded
      obtain ⟨first, rest⟩ := List.pairwise_cons.mp ordered
      refine finish kept ?_ (proceed_ordered proceeded rest) (fun connit ready returns => ?_)
      · rcases follows with rfl | ⟨command, -, rfl⟩
        · exact patient
        · rfl
      · rw [returns, List.nil_append, total, List.sum_eq_zero]
        intro weight member
        obtain ⟨later, inside, rfl⟩ := List.mem_map.mp member
        exact first later inside (by rw [ready]; rfl)
  | setOperationTimeout | stop | rewrite =>
    cases taken
    exact still rfl rfl rfl rfl rfl

end Post2Usenet.Proofs.PoolLoads
