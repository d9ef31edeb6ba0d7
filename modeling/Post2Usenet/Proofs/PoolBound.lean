import Post2Usenet.Proofs.PoolProducers

/-! The bound of the queue. Room in the queue is promised to somebody who was
woken for it, however bypassing calls and late producers use it up. -/

namespace Post2Usenet.Proofs.PoolBound
open Connection Usenet PoolSteps PoolProducers Tally

variable {α : Type} {usenet after : Usenet α} {command : Command α}

def awoken : Task α → Nat
  | .wait _ true => 1
  | _ => 0

theorem awoken_uncalled (task : Task α) (uncalled : calling task = false) : awoken task = 0 := by
  cases task with
  | wait command notified => cases uncalled
  | _ => rfl

/-- The producers that were notified and have not looked at the queue since. -/
def notified (usenet : Usenet α) : Nat := onTasks awoken usenet

/-- No producer sleeps while there is room that nobody was woken for. -/
def Supplied (usenet : Usenet α) : Prop :=
  0 < sleepers usenet → usenet.maxsize ≤ usenet.queue.length + notified usenet

/-- The tasks that append to the queue only below its bound. -/
def bounded : Task α → Bool
  | .request request => !request.bypassWait
  | .wait _ _ => true
  | _ => false

/-- A thread that waits does nothing else first. -/
def Fronted (usenet : Usenet α) : Prop := ∀ thread ∈ usenet.threads, total sleeping thread.tasks.tail = 0

theorem asleep_of_sleeping {thread : Thread α} (fronted : total sleeping thread.tasks.tail = 0)
    (sleeps : 0 < total sleeping thread.tasks) : thread.asleep = true := by
  obtain ⟨io, tasks⟩ := thread
  cases tasks with
  | nil => cases sleeps
  | cons task tasks =>
    simp only [List.tail_cons] at fronted
    simp only [total_cons, fronted, Nat.add_zero] at sleeps
    cases task with
    | wait command woken =>
      cases woken with
      | false => rfl
      | true => cases sleeps
    | _ => cases sleeps

theorem asleep_of_sleepers (fronted : Fronted usenet) (sleeps : 0 < sleepers usenet) :
    usenet.threads.any Thread.asleep = true := by
  obtain ⟨thread, member, weight⟩ : ∃ thread ∈ usenet.threads, 0 < total sleeping thread.tasks := by
    by_contra! none
    have zero : sleepers usenet = total (fun _ => 0) usenet.threads :=
      total_congr (fun thread member => Nat.le_zero.mp (none thread member))
    simp [zero, total] at sleeps
  exact List.any_eq_true.mpr ⟨thread, member, asleep_of_sleeping (fronted thread member) weight⟩

/-- A notification moves one producer from the sleepers to the notified, if there is one. -/
theorem notifyOne_moves (fronted : Fronted usenet) {wake : Option Nat} (taken : usenet.notifyOne wake = some after) :
    (sleepers after = 0 ∨ sleepers after + 1 = sleepers usenet ∧ notified after = notified usenet + 1) := by
  cases wake with
  | none =>
    simp only [notifyOne] at taken
    split at taken
    · cases taken
    next quiet =>
      cases taken
      left
      by_contra sleeps
      exact quiet (asleep_of_sleepers fronted (Nat.pos_of_ne_zero sleeps))
  | some index =>
    simp only [notifyOne] at taken
    split at taken
    next thread found =>
      split at taken
      next asleep =>
        cases taken
        obtain ⟨io, tasks⟩ := thread
        simp only [Thread.asleep] at asleep
        split at asleep
        next _ command rest =>
          right
          have slept := total_set (fun thread : Thread α => total sleeping thread.tasks) found
            ⟨io, .wait command true :: rest⟩
          have woke := total_set (fun thread : Thread α => total awoken thread.tasks) found
            ⟨io, .wait command true :: rest⟩
          simp only [total_cons, sleeping, awoken] at slept woke
          simp only [sleepers, notified, onTasks, Thread.wake]
          omega
        · cases asleep
      · cases taken
    · cases taken

private theorem sleepless_tail {tasks : List (Task α)} (none : total sleeping tasks = 0) :
    total sleeping tasks.tail = 0 := by
  cases tasks with
  | nil => rfl
  | cons task tasks =>
    rw [total_cons] at none
    exact (Nat.add_eq_zero_iff.mp none).2

theorem proceed_tail {choice : Choice α} {task : Task α} {result : Usenet α × List (Task α)}
    (taken : usenet.proceed choice task = some result) : total sleeping result.2.tail = 0 := by
  cases proceed_executes taken with
  | observes slot => exact sleepless_tail (calls_awake choice.calls)
  | _ => rfl

theorem step_fronted {event : Event α} (fronted : Fronted usenet) (taken : usenet.step event = some after) :
    Fronted after := by
  apply step_every (motive := fun thread => total sleeping thread.tasks = 0) fronted ?_ ?_ ?_ ?_ ?_ ?_ ?_ taken
  · exact fun io => rfl
  · exact fun request => rfl
  · exact fun usenet connit handler outcome => sleepless_tail (deliver_weightless sleeping_uncalled ..)
  · exact fun io command tasks kept => kept
  · exact fun io task tasks kept => kept
  · intro io command tasks kept
    simp [sleeping] at kept
  · intro usenet choice io task tasks rest result _ proceeded kept
    have tail := proceed_tail proceeded
    cases made : result.2 with
    | nil => exact sleepless_tail kept
    | cons first more =>
      rw [made] at tail
      simp only [List.cons_append, List.tail_cons, total_append] at tail kept ⊢
      omega

theorem notified_pushTasks {index : Nat} (inside : index < usenet.threads.length) (tasks : List (Task α)) :
    notified (usenet.pushTasks index tasks) = notified usenet + total awoken tasks :=
  onTasks_pushTasks awoken inside tasks

theorem onConnBecomesReady_pops {connit : ConnectionHandle} {queue : List (Command α)} {wake : Option Nat}
    (limited : usenet.maxsize ≠ 0) (waiting : usenet.queue = command :: queue)
    (taken : usenet.onConnBecomesReady connit wake = some after) :
    ∃ woken, usenet.notifyOne wake = some woken ∧ { woken with queue }.run connit command = some after := by
  simp only [onConnBecomesReady, waiting, if_pos limited] at taken
  obtain ⟨_, wakes, run⟩ := Option.bind_eq_some_iff.mp taken
  obtain ⟨woken, same, rfl⟩ := notifyOne_queue wakes
  exact ⟨woken, same, run⟩

/-- What a critical section does to the promise, when it wakes nobody and no producer. -/
private theorem supplied_same {tasks : List (Task α)} (quiet : total sleeping tasks = 0)
    (supplied : 0 < sleepers usenet → usenet.maxsize ≤ usenet.queue.length + notified usenet)
    (maxsize : after.maxsize = usenet.maxsize) (queue : usenet.queue.length ≤ after.queue.length)
    (threads : after.threads = usenet.threads) (sleeps : 0 < total sleeping tasks + sleepers after) :
    after.maxsize ≤ after.queue.length + (total awoken tasks + notified after) := by
  have same : sleepers after = sleepers usenet ∧ notified after = notified usenet := by
    simp only [sleepers, notified, onTasks, threads, and_self]
  have before := supplied (by omega)
  omega

/-- A critical section that takes from the queue wakes a producer for the room; any other
one leaves the queue at least as long, or fills the room that it was promised. -/
theorem proceed_supplied (limited : usenet.maxsize ≠ 0) (fronted : Fronted usenet) {choice : Choice α} {task : Task α}
    (supplied : 0 < sleeping task + sleepers usenet →
      usenet.maxsize ≤ usenet.queue.length + (awoken task + notified usenet))
    {result : Usenet α × List (Task α)} (taken : usenet.proceed choice task = some result)
    (sleeps : 0 < total sleeping result.2 + sleepers result.1) :
    result.1.maxsize ≤ result.1.queue.length + (total awoken result.2 + notified result.1) := by
  cases proceed_executes taken with
  | dispatches idle dispatched =>
    simp only [sleeping, awoken, Nat.zero_add] at supplied
    obtain ⟨connit, ready, -, run⟩ := dispatch_cases dispatched
    have apart := run_apart run
    exact supplied_same rfl supplied apart.maxsize (Nat.le_of_eq (congrArg _ apart.queue.symm))
      apart.threads sleeps
  | waits none waits bounded full => exact Nat.le_trans full (Nat.le_add_right ..)
  | defers =>
    simp only [sleeping, awoken, Nat.zero_add] at supplied
    exact supplied_same rfl supplied rfl (by simp [pushBack, record]) rfl sleeps
  | @resumes command woken room =>
    have weight : awoken (.wait command woken) ≤ 1 := by cases woken <;> simp [awoken]
    have asleep : 0 < 0 + sleepers usenet := sleeps
    have counted := supplied (by omega)
    have longer : (usenet.queue ++ [command]).length = usenet.queue.length + 1 := by simp
    show usenet.maxsize ≤ (usenet.queue ++ [command]).length + (total awoken [] + notified usenet)
    rw [total_nil]
    omega
  | sleeps full => exact Nat.le_trans full (Nat.le_add_right ..)
  | @becomesReady connit after became =>
    simp only [sleeping, awoken, Nat.zero_add] at supplied
    cases waiting : usenet.queue with
    | cons nextCommand queue =>
      obtain ⟨woken, wakes, run⟩ := onConnBecomesReady_pops limited waiting became
      have apart := run_apart run
      have maxsize : woken.maxsize = usenet.maxsize := by
        rcases notifyOne_cases wakes with rfl | ⟨_, _, _, _, _, rfl⟩ <;> rfl
      have length : usenet.queue.length = after.queue.length + 1 := by rw [waiting, apart.queue]; rfl
      have same : sleepers after = sleepers woken ∧ notified after = notified woken := by
        simp only [sleepers, notified, onTasks, apart.threads, and_self]
      rw [apart.maxsize]
      simp only [total_nil] at sleeps ⊢
      rcases notifyOne_moves fronted wakes with none | ⟨slept, woke⟩
      · omega
      · have before := supplied (by omega)
        show woken.maxsize ≤ _
        omega
    | nil =>
      rcases onConnBecomesReady_cases became with ⟨_, _, _, some', -, -⟩ | ⟨-, -, rfl⟩ | ⟨-, -, down⟩
      · cases waiting.symm.trans some'
      · exact supplied_same rfl supplied rfl (Nat.le_refl _) rfl sleeps
      · have remains := shutdown_remains down
        exact supplied_same rfl supplied remains.maxsize (Nat.le_of_eq (congrArg _ remains.queue.symm))
          remains.threads sleeps
  | discards =>
    simp only [sleeping, awoken, Nat.zero_add] at supplied
    exact supplied_same rfl supplied rfl (Nat.le_refl _) rfl sleeps
  | redispatches idle dispatched =>
    simp only [sleeping, awoken, Nat.zero_add] at supplied
    obtain ⟨connit, ready, -, run⟩ := dispatch_cases dispatched
    have apart := run_apart run
    exact supplied_same rfl supplied apart.maxsize (Nat.le_of_eq (congrArg _ apart.queue.symm))
      apart.threads sleeps
  | requeues =>
    simp only [sleeping, awoken, Nat.zero_add] at supplied
    exact supplied_same rfl supplied rfl (by simp [pushBack]) rfl sleeps
  | reconnects present =>
    simp only [sleeping, awoken, Nat.zero_add] at supplied
    exact supplied_same rfl supplied rfl (by simp [perform, pushBack]) rfl sleeps
  | observes slot =>
    have awake : sleeping task = 0 ∧ awoken task = 0 := by cases task <;> cases slot <;> exact ⟨rfl, rfl⟩
    simp only [awake, Nat.zero_add] at supplied
    exact supplied_same (calls_awake choice.calls) supplied rfl (Nat.le_refl _) rfl sleeps

theorem proceed_maxsize {choice : Choice α} {task : Task α} {result : Usenet α × List (Task α)}
    (taken : usenet.proceed choice task = some result) : result.1.maxsize = usenet.maxsize := by
  cases proceed_executes taken with
  | dispatches idle dispatched =>
    obtain ⟨connit, ready, -, run⟩ := dispatch_cases dispatched
    exact (run_apart run).maxsize
  | becomesReady became =>
    rcases onConnBecomesReady_cases became with ⟨_, _, woken, -, wakes, run⟩ | ⟨-, -, rfl⟩ | ⟨-, -, down⟩
    · have same : woken.maxsize = usenet.maxsize := by
        rcases wakes with rfl | ⟨_, _, _, _, _, rfl⟩ <;> rfl
      exact (run_apart run).maxsize.trans same
    · rfl
    · exact (shutdown_remains down).maxsize
  | redispatches idle dispatched =>
    obtain ⟨connit, ready, -, run⟩ := dispatch_cases dispatched
    exact (run_apart run).maxsize
  | _ => rfl

/-- What an event does to the bound, to the queue's length and to who waits for room. -/
theorem step_supplied {event : Event α} (limited : usenet.maxsize ≠ 0) (fronted : Fronted usenet)
    (supplied : Supplied usenet) (taken : usenet.step event = some after) :
    after.maxsize = usenet.maxsize ∧ Supplied after := by
  -- Nothing but a critical section changes the queue or who waits for it.
  have same (maxsize : after.maxsize = usenet.maxsize) (queue : after.queue = usenet.queue)
      (slept : sleepers after = sleepers usenet) (woke : notified after = notified usenet) :
      after.maxsize = usenet.maxsize ∧ Supplied after := by
    refine ⟨maxsize, ?_⟩
    rw [Supplied, maxsize, queue, slept, woke]
    exact supplied
  cases event with
  | setOperationTimeout seconds =>
    cases taken
    exact ⟨rfl, supplied⟩
  | addConnections conninfo numConnections =>
    cases taken
    have threads := addConnections_threads usenet conninfo numConnections
    have kept : (usenet.addConnections conninfo numConnections).maxsize = usenet.maxsize ∧
        (usenet.addConnections conninfo numConnections).queue = usenet.queue :=
      addConnections_keeps (motive := fun next => next.maxsize = usenet.maxsize ∧ next.queue = usenet.queue)
        (fun _ earlier => earlier) ⟨rfl, rfl⟩ numConnections
    exact same kept.1 kept.2 (by simp only [sleepers, onTasks, threads]) (by simp only [notified, onTasks, threads])
  | start =>
    cases taken
    exact same rfl rfl (onTasks_idle sleeping usenet true usenet.numthreads)
      (onTasks_idle awoken usenet true usenet.numthreads)
  | stop =>
    cases taken
    exact ⟨rfl, supplied⟩
  | spawn =>
    cases taken
    exact same rfl rfl (onTasks_idle sleeping usenet false 1) (onTasks_idle awoken usenet false 1)
  | call index request =>
    obtain ⟨found, rfl⟩ := step_call taken
    have inside := (List.getElem?_eq_some_iff.mp found).1
    exact same rfl rfl (onTasks_pushTasks sleeping inside _) (onTasks_pushTasks awoken inside _)
  | take index place outcome =>
    obtain ⟨connit, handler, idle, -, rfl⟩ := step_take taken
    have apart := deliver_apart { usenet with pending := usenet.pending.eraseIdx place } connit handler outcome
    have inside := (List.getElem?_eq_some_iff.mp idle).1
    refine same apart.maxsize apart.queue ?_ ?_
    · rw [sleepers, onTasks_pushTasks sleeping (by rw [apart.threads]; exact inside), deliver_weightless sleeping_uncalled]
      simp only [sleepers, onTasks, apart.threads, Nat.add_zero]
    · rw [notified_pushTasks (by rw [apart.threads]; exact inside), deliver_weightless awoken_uncalled]
      simp only [notified, onTasks, apart.threads, Nat.add_zero]
  | expire connit =>
    obtain ⟨-, -, rfl⟩ := step_expire taken
    exact ⟨rfl, supplied⟩
  | proceed index choice =>
    obtain ⟨io, task, tasks, result, found, proceeded, rfl⟩ := step_proceed taken
    have slept := onTasks_pop sleeping found
    have woke := onTasks_pop awoken found
    have inside := proceed_inside found proceeded
    refine ⟨(proceed_maxsize proceeded :), fun sleeps => ?_⟩
    rw [sleepers, onTasks_pushTasks sleeping inside] at sleeps
    rw [notified_pushTasks inside]
    have popped : Fronted { usenet with threads := usenet.threads.set index ⟨io, tasks⟩ } := by
      intro thread member
      rcases List.mem_or_eq_of_mem_set member with earlier | rfl
      · exact fronted thread earlier
      · exact sleepless_tail (fronted _ (List.mem_of_getElem? found))
    simp only [Supplied, sleepers, notified, slept, woke] at supplied
    have kept := @proceed_supplied α { usenet with threads := usenet.threads.set index ⟨io, tasks⟩ } limited popped choice
      task supplied result proceeded (by rw [Nat.add_comm]; exact sleeps)
    simp only [pushTasks]
    omega
  | rewrite articles =>
    cases taken
    exact ⟨rfl, supplied⟩

/-- Only room makes a waiting call append, and a call that may wait appends only below the bound. -/
theorem bounded_appends {choice : Choice α} {task : Task α} (limited : usenet.maxsize ≠ 0) (waits : bounded task = true)
    {result : Usenet α × List (Task α)} (taken : usenet.proceed choice task = some result)
    (longer : usenet.queue.length < result.1.queue.length) : result.1.queue.length ≤ usenet.maxsize := by
  have appended (command : Command α) : (usenet.queue ++ [command]).length = usenet.queue.length + 1 := by simp
  cases proceed_executes taken with
  | dispatches idle dispatched =>
    obtain ⟨connit, ready, -, run⟩ := dispatch_cases dispatched
    exact absurd longer (Nat.not_lt.mpr (Nat.le_of_eq (congrArg _ (run_apart run).queue)))
  | waits => exact absurd longer (Nat.lt_irrefl _)
  | @defers request none room =>
    have room := room (by simpa [bounded] using waits) limited
    show (usenet.queue ++ [request.command]).length ≤ usenet.maxsize
    rw [appended]
    exact room
  | @resumes command notified room =>
    show (usenet.queue ++ [command]).length ≤ usenet.maxsize
    rw [appended]
    exact room
  | sleeps => exact absurd longer (Nat.lt_irrefl _)
  | observes slot => exact absurd longer (Nat.lt_irrefl _)
  | _ => cases waits

/-- However producers, bypassing calls and completions interleave: a call that may wait leaves
the queue within its bound, and as long as one of them sleeps unnotified, the queue and the
notifications that nobody has answered yet amount to the bound. -/
theorem queue_bounded_and_supplied {eraseRule : EraseRule} {iothreads maxQueueSize : Nat} {articles : α → Article}
    (limited : 0 < maxQueueSize)
    (reached : Machine.Reachable step (Usenet.make eraseRule iothreads maxQueueSize articles) usenet) :
    (0 < sleepers usenet → maxQueueSize ≤ usenet.queue.length + notified usenet) ∧
      ∀ index choice task after, headTask usenet index = some task → bounded task = true →
        usenet.step (.proceed index choice) = some after → usenet.queue.length < after.queue.length →
        after.queue.length ≤ maxQueueSize := by
  have always : usenet.maxsize = maxQueueSize ∧ Fronted usenet ∧ Supplied usenet := by
    refine reached.invariant (fun usenet => usenet.maxsize = maxQueueSize ∧ Fronted usenet ∧ Supplied usenet) ?_ ?_
    · exact ⟨rfl, fun thread inside => absurd inside List.not_mem_nil, fun sleeps => absurd sleeps (Nat.lt_irrefl 0)⟩
    · intro before event after ⟨maxsize, fronted, supplied⟩ taken
      obtain ⟨same, kept⟩ := step_supplied (by omega) fronted supplied taken
      exact ⟨same.trans maxsize, step_fronted fronted taken, kept⟩
  obtain ⟨maxsize, fronted, supplied⟩ := always
  refine ⟨by rw [← maxsize]; exact supplied, fun index choice task after head waits taken longer => ?_⟩
  obtain ⟨io, first, tasks, result, found, proceeded, rfl⟩ := step_proceed taken
  rw [headTask_found found] at head
  cases head
  have bound : usenet.maxsize ≠ 0 := by omega
  rw [← maxsize]
  exact @bounded_appends α { usenet with threads := usenet.threads.set index ⟨io, tasks⟩ } choice task bound waits result
    proceeded longer

/-- The second post waits behind the first. -/
def fullRun : List (Event Nat) := [.spawn, .addConnections sampleConninfo 1, .start] ++ posts 1 ++ posts 2

theorem full_supplied : ∃ usenet, Machine.Reachable step (Usenet.make .named 1 1 sampleArticles) usenet ∧
    0 < sleepers usenet ∧ 1 ≤ usenet.queue.length + notified usenet := by
  have computed : (Machine.run step (Usenet.make .named 1 1 sampleArticles) fullRun).map sleepers = some 1 := by
    decide +kernel
  obtain ⟨usenet, reached, seen⟩ := Option.map_eq_some_iff.mp computed
  have sleeps : 0 < sleepers usenet := by omega
  exact ⟨usenet, ⟨fullRun, reached⟩, sleeps, (queue_bounded_and_supplied (by decide) ⟨fullRun, reached⟩).1 sleeps⟩

end Post2Usenet.Proofs.PoolBound
