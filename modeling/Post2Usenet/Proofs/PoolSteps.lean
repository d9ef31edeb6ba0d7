import Post2Usenet.Lib.Tally
import Post2Usenet.Usenet

/-! What each operation of the pool can do, once and for all: which branch was
taken, and which parts of the pool it left alone. -/

namespace Post2Usenet.Proofs.PoolSteps
open Connection Usenet Tally

variable {α : Type} {usenet after : Usenet α} {connit : ConnectionHandle} {command : Command α}

/-- The pools differ in their connections and in what these have asked for. -/
structure Apart (before after : Usenet α) : Prop where
  eraseRule : after.eraseRule = before.eraseRule
  maxsize : after.maxsize = before.maxsize
  work : after.work = before.work
  ready : after.ready = before.ready
  busy : after.busy = before.busy
  readySize : after.readySize = before.readySize
  busySize : after.busySize = before.busySize
  queue : after.queue = before.queue
  nextHandle : after.nextHandle = before.nextHandle
  threads : after.threads = before.threads
  articles : after.articles = before.articles
  misused : after.misused = before.misused

theorem Apart.refl (usenet : Usenet α) : Apart usenet usenet := by constructor <;> rfl

theorem performAccepted_apart (usenet : Usenet α) (connit : ConnectionHandle) (result : Bool × Act α) :
    Apart usenet (usenet.performAccepted connit result) := by
  rw [performAccepted]
  split <;> constructor <;> rfl

theorem run_apart (taken : usenet.run connit command = some after) : Apart usenet after := by
  cases command with
  | startAsyncPost msg =>
    obtain ⟨connection, -, rfl⟩ := Option.map_eq_some_iff.mp taken
    exact performAccepted_apart ..
  | startAsyncStat msgid =>
    obtain ⟨connection, -, rfl⟩ := Option.map_eq_some_iff.mp taken
    exact performAccepted_apart ..

theorem takeReady_cases (taken : usenet.takeReady = some (connit, after)) :
    ∃ ready, usenet.ready = connit :: ready ∧ after = { usenet with
      ready
      busy := connit :: usenet.busy
      readySize := decrement usenet.readySize
      busySize := usenet.busySize + 1 } := by
  rw [takeReady] at taken
  split at taken
  · cases taken
  next head ready first =>
    cases taken
    exact ⟨ready, first, rfl⟩

theorem dispatch_cases (taken : usenet.dispatch command = some after) :
    ∃ connit ready, usenet.ready = connit :: ready ∧ { usenet with
      ready
      busy := connit :: usenet.busy
      readySize := decrement usenet.readySize
      busySize := usenet.busySize + 1 }.run connit command = some after := by
  obtain ⟨⟨connit, moved⟩, head, run⟩ := Option.bind_eq_some_iff.mp taken
  obtain ⟨ready, first, rfl⟩ := takeReady_cases head
  exact ⟨connit, ready, first, run⟩

theorem gracefulDisconnect_apart {named : Side} (taken : usenet.gracefulDisconnect named connit = some after) :
    Apart (usenet.erase named connit) after := by
  obtain ⟨connection, -, rfl⟩ := Option.map_eq_some_iff.mp taken
  have apart := performAccepted_apart usenet connit connection.asyncGracefulDisconnect
  constructor <;>
    simp only [record, erase, apart.ready, apart.busy, apart.readySize, apart.busySize, apart.eraseRule, apart.maxsize,
      apart.work, apart.queue, apart.nextHandle, apart.threads, apart.articles, apart.misused]

/-- A notification changes at most one flag, of one thread that sleeps. -/
def Notified (before after : Usenet α) : Prop :=
  after = before ∨ ∃ index io command tasks, before.threads[index]? = some ⟨io, .wait command false :: tasks⟩ ∧
    after = { before with threads := before.threads.set index ⟨io, .wait command true :: tasks⟩ }

theorem notifyOne_cases {wake : Option Nat} (taken : usenet.notifyOne wake = some after) : Notified usenet after := by
  cases wake with
  | none =>
    simp only [notifyOne] at taken
    split at taken
    · cases taken
    · exact .inl (Option.some.inj taken).symm
  | some index =>
    simp only [notifyOne] at taken
    split at taken
    next thread found =>
      split at taken
      next asleep =>
        cases taken
        right
        obtain ⟨io, tasks⟩ := thread
        simp only [Thread.asleep] at asleep
        split at asleep
        next _ command rest =>
          exact ⟨index, io, command, rest, found, rfl⟩
        · cases asleep
      · cases taken
    · cases taken

theorem notifyOne_queue {queue : List (Command α)} {wake : Option Nat}
    (taken : { usenet with queue }.notifyOne wake = some after) :
    ∃ notified, usenet.notifyOne wake = some notified ∧ after = { notified with queue } := by
  cases wake with
  | none =>
    simp only [notifyOne] at taken ⊢
    split at taken
    · cases taken
    next quiet =>
      cases taken
      exact ⟨usenet, if_neg quiet, rfl⟩
  | some index =>
    simp only [notifyOne] at taken ⊢
    split at taken
    next thread found =>
      split at taken
      next asleep =>
        cases taken
        exact ⟨{ usenet with threads := usenet.threads.set index thread.wake }, if_pos asleep, rfl⟩
      · cases taken
    · cases taken

theorem executeOrDefer_cases {bypassWait : Bool} {result : Usenet α × List (Task α)}
    (taken : usenet.executeOrDefer command bypassWait = some result) :
    (∃ after, 0 < usenet.readySize ∧ (usenet.record (.passed command)).dispatch command = some after ∧
      result = (after, [])) ∨
    (usenet.readySize = 0 ∧ bypassWait = false ∧ usenet.maxsize ≠ 0 ∧ usenet.maxsize ≤ usenet.queue.length ∧
      result = (usenet, [.wait command false])) ∨
    (usenet.readySize = 0 ∧ (bypassWait = false → usenet.maxsize ≠ 0 → usenet.queue.length < usenet.maxsize) ∧
      result = ((usenet.record (.passed command)).pushBack command, [])) := by
  rw [executeOrDefer] at taken
  split at taken
  next some' =>
    obtain ⟨after, dispatched, rfl⟩ := Option.map_eq_some_iff.mp taken
    exact .inl ⟨after, some', dispatched, rfl⟩
  next none' =>
    have empty : usenet.readySize = 0 := by omega
    split at taken
    next full =>
      cases taken
      exact .inr (.inl ⟨empty, full.1, full.2.1, full.2.2, rfl⟩)
    next room =>
      cases taken
      refine .inr (.inr ⟨empty, fun waits bounded => ?_, rfl⟩)
      by_contra longer
      exact room ⟨waits, bounded, by omega⟩

theorem resume_cases (usenet : Usenet α) (command : Command α) :
    (usenet.queue.length < usenet.maxsize ∧
      usenet.resume command = ((usenet.record (.passed command)).pushBack command, [])) ∨
    (usenet.maxsize ≤ usenet.queue.length ∧ usenet.resume command = (usenet, [.wait command false])) := by
  rw [resume]
  split
  next room => exact .inl ⟨room, rfl⟩
  next full => exact .inr ⟨Nat.le_of_not_lt full, rfl⟩

theorem onConnBecomesReady_cases {wake : Option Nat}
    (taken : usenet.onConnBecomesReady connit wake = some after) :
    (∃ nextCommand queue notified, usenet.queue = nextCommand :: queue ∧ Notified usenet notified ∧
      { notified with queue }.run connit nextCommand = some after) ∨
    (usenet.queue = [] ∧ usenet.work = true ∧ after = usenet.becomeReady connit) ∨
    (usenet.queue = [] ∧ usenet.work = false ∧ (usenet.becomeReady connit).shutdown connit = some after) := by
  rw [onConnBecomesReady] at taken
  split at taken
  next nextCommand queue waiting =>
    left
    split at taken
    · obtain ⟨_, woken, run⟩ := Option.bind_eq_some_iff.mp taken
      obtain ⟨notified, same, rfl⟩ := notifyOne_queue woken
      exact ⟨nextCommand, queue, notified, waiting, notifyOne_cases same, run⟩
    · exact ⟨nextCommand, queue, usenet, waiting, .inl rfl, taken⟩
  next empty =>
    right
    split at taken
    next working =>
      cases taken
      exact .inl ⟨empty, working, rfl⟩
    next stopped => exact .inr ⟨empty, by simpa using stopped, taken⟩

theorem dispatchOrQueue_cases (taken : usenet.dispatchOrQueue command = some after) :
    (0 < usenet.readySize ∧ usenet.dispatch command = some after) ∨
    (usenet.readySize = 0 ∧ after = usenet.pushBack command) := by
  rw [dispatchOrQueue] at taken
  split at taken
  next some' => exact .inl ⟨some', taken⟩
  next none' =>
    cases taken
    exact .inr ⟨by omega, rfl⟩

theorem discardConnection_cases (usenet : Usenet α) (connit : ConnectionHandle) :
    ∃ work, usenet.discardConnection connit = { (usenet.erase .busy connit).record (.discarded connit) with work } ∧
      (work = true → usenet.work = true) := by
  simp only [discardConnection]
  split
  · exact ⟨false, rfl, nofun⟩
  · exact ⟨usenet.work, rfl, id⟩

theorem requeueStat_cases {msgid : Bytes} {outcome : Outcome}
    (taken : usenet.requeueStat connit msgid outcome = some after) :
    ∃ connection, usenet.connections connit = some connection ∧
      after = (usenet.pushBack (.startAsyncStat msgid)).perform connit (connection.close outcome).asyncConnect := by
  obtain ⟨connection, present, rfl⟩ := Option.map_eq_some_iff.mp taken
  exact ⟨connection, present, rfl⟩

/-- A request is one of two calls with one body. -/
theorem proceed_request (usenet : Usenet α) (choice : Choice α) (request : Request α) :
    usenet.proceed choice (.request request) = usenet.executeOrDefer request.command request.bypassWait := by
  cases request <;> rfl

/-- The call of an observer, as it is recorded. -/
def slotEntry? : Task α → Option (Entry α)
  | .slotPostFailed msg => some (.postFailed msg)
  | .slotFinishPost msg => some (.postFinished msg)
  | .slotFinishStat msgid result => some (.statFinished msgid result)
  | _ => none

/-- What a thread can do with the first of its tasks, and what it has to do then. -/
inductive Executes (choice : Choice α) (usenet : Usenet α) : Task α → Usenet α × List (Task α) → Prop
  | dispatches {request : Request α} {after : Usenet α} (idle : 0 < usenet.readySize)
      (dispatched : (usenet.record (.passed request.command)).dispatch request.command = some after) :
      Executes choice usenet (.request request) (after, [])
  | waits {request : Request α} (none : usenet.readySize = 0) (waits : request.bypassWait = false)
      (bounded : usenet.maxsize ≠ 0) (full : usenet.maxsize ≤ usenet.queue.length) :
      Executes choice usenet (.request request) (usenet, [.wait request.command false])
  | defers {request : Request α} (none : usenet.readySize = 0)
      (room : request.bypassWait = false → usenet.maxsize ≠ 0 → usenet.queue.length < usenet.maxsize) :
      Executes choice usenet (.request request)
        ((usenet.record (.passed request.command)).pushBack request.command, [])
  | resumes {command : Command α} {notified : Bool} (room : usenet.queue.length < usenet.maxsize) :
      Executes choice usenet (.wait command notified) ((usenet.record (.passed command)).pushBack command, [])
  | sleeps {command : Command α} {notified : Bool} (full : usenet.maxsize ≤ usenet.queue.length) :
      Executes choice usenet (.wait command notified) (usenet, [.wait command false])
  | becomesReady {connit : ConnectionHandle} {after : Usenet α}
      (became : usenet.onConnBecomesReady connit choice.wake = some after) :
      Executes choice usenet (.onConnBecomesReady connit) (after, [])
  | discards {connit : ConnectionHandle} {work : Bool} (stopped : work = true → usenet.work = true) :
      Executes choice usenet (.discardConnection connit)
        ({ (usenet.erase .busy connit).record (.discarded connit) with work }, [])
  | redispatches {command : Command α} {after : Usenet α} (idle : 0 < usenet.readySize)
      (dispatched : usenet.dispatch command = some after) : Executes choice usenet (.dispatchOrQueue command) (after, [])
  | requeues {command : Command α} (none : usenet.readySize = 0) :
      Executes choice usenet (.dispatchOrQueue command) (usenet.pushBack command, [])
  | reconnects {connit : ConnectionHandle} {msgid : Bytes} {connection : Connection α}
      (present : usenet.connections connit = some connection) :
      Executes choice usenet (.requeueStat connit msgid)
        ((usenet.pushBack (.startAsyncStat msgid)).perform connit (connection.close choice.outcome).asyncConnect, [])
  | observes {task : Task α} {entry : Entry α} (slot : slotEntry? task = some entry) :
      Executes choice usenet task (usenet.record entry, choice.calls.map .request)

theorem proceed_executes {choice : Choice α} {task : Task α} {result : Usenet α × List (Task α)}
    (taken : usenet.proceed choice task = some result) : Executes choice usenet task result := by
  cases task with
  | request request =>
    rw [proceed_request] at taken
    rcases executeOrDefer_cases taken with ⟨after, idle, dispatched, rfl⟩ | ⟨none, waits, bounded, full, rfl⟩ |
      ⟨none, room, rfl⟩
    · exact .dispatches idle dispatched
    · exact .waits none waits bounded full
    · exact .defers none room
  | wait command notified =>
    cases taken
    rcases resume_cases usenet command with ⟨room, same⟩ | ⟨full, same⟩
    · rw [same]
      exact .resumes room
    · rw [same]
      exact .sleeps full
  | onConnBecomesReady connit =>
    obtain ⟨after, became, rfl⟩ := Option.map_eq_some_iff.mp taken
    exact .becomesReady became
  | discardConnection connit =>
    cases taken
    obtain ⟨work, same, stopped⟩ := discardConnection_cases usenet connit
    rw [same]
    exact .discards stopped
  | dispatchOrQueue command =>
    obtain ⟨after, dispatched, rfl⟩ := Option.map_eq_some_iff.mp taken
    rcases dispatchOrQueue_cases dispatched with ⟨idle, dispatched⟩ | ⟨none, rfl⟩
    · exact .redispatches idle dispatched
    · exact .requeues none
  | requeueStat connit msgid =>
    obtain ⟨after, requeued, rfl⟩ := Option.map_eq_some_iff.mp taken
    obtain ⟨connection, present, rfl⟩ := requeueStat_cases requeued
    exact .reconnects present
  | slotPostFailed msg =>
    cases taken
    exact .observes rfl
  | slotFinishPost msg =>
    cases taken
    exact .observes rfl
  | slotFinishStat msgid statResult =>
    cases taken
    exact .observes rfl

theorem deliver_apart (usenet : Usenet α) (connit : ConnectionHandle) (handler : Handler α) (outcome : Outcome) :
    Apart usenet (usenet.deliver connit handler outcome).1 := by
  rw [deliver]
  split
  · exact .refl usenet
  · cases handler with
    | stage stage => constructor <;> rfl
    | timer => exact .refl usenet
    | connectHandler result => constructor <;> rfl
    | postHandler msg result => cases result <;> constructor <;> rfl
    | statHandler msgid result => constructor <;> rfl

theorem step_take {index place : Nat} {outcome : Outcome} (taken : usenet.step (.take index place outcome) = some after) :
    ∃ connit handler, usenet.threads[index]? = some ⟨true, []⟩ ∧ usenet.pending[place]? = some (connit, handler) ∧
      after = ({ usenet with pending := usenet.pending.eraseIdx place }.deliver connit handler outcome).1.pushTasks index
        ({ usenet with pending := usenet.pending.eraseIdx place }.deliver connit handler outcome).2 := by
  simp only [step] at taken
  split at taken
  · cases taken
  · split at taken
    next connit handler idle found =>
      cases taken
      exact ⟨connit, handler, idle, found, rfl⟩
    · cases taken

/-- What throws is the handler of a timer, and its socket is closed. -/
theorem throws_timer {index place : Nat} (thrown : usenet.throws index place = true) :
    ∃ connit connection, usenet.threads[index]? = some ⟨true, []⟩ ∧ usenet.pending[place]? = some (connit, .timer) ∧
      usenet.connections connit = some connection ∧ connection.sockOpen = false := by
  simp only [throws] at thrown
  split at thrown
  next connit idle found =>
    obtain ⟨connection, present, closed⟩ := (Option.any_eq_true ..).mp thrown
    exact ⟨connit, connection, idle, found, present, by simpa using closed⟩
  · cases thrown

theorem step_proceed {index : Nat} {choice : Choice α} (taken : usenet.step (.proceed index choice) = some after) :
    ∃ io task tasks result, usenet.threads[index]? = some ⟨io, task :: tasks⟩ ∧
      { usenet with threads := usenet.threads.set index ⟨io, tasks⟩ }.proceed choice task = some result ∧
      after = result.1.pushTasks index result.2 := by
  simp only [step] at taken
  split at taken
  next io task tasks found =>
    obtain ⟨result, proceeded, rfl⟩ := Option.map_eq_some_iff.mp taken
    exact ⟨io, task, tasks, result, found, proceeded, rfl⟩
  · cases taken

theorem step_call {index : Nat} {request : Request α} (taken : usenet.step (.call index request) = some after) :
    usenet.threads[index]? = some ⟨false, []⟩ ∧ after = usenet.pushTasks index [.request request] := by
  simp only [step] at taken
  split at taken
  next found =>
    cases taken
    exact ⟨found, rfl⟩
  · cases taken

theorem step_expire (taken : usenet.step (.expire connit) = some after) :
    (usenet.connections connit).isSome = true ∧ usenet.armed connit = true ∧ after = { usenet with
      armed := Function.update usenet.armed connit false
      pending := usenet.pending ++ [(connit, .timer)] } := by
  simp only [step] at taken
  split at taken
  next armed =>
    cases taken
    exact ⟨armed.1, armed.2, rfl⟩
  · cases taken

/-- What no disconnection touches. -/
structure Remains (before after : Usenet α) : Prop where
  maxsize : after.maxsize = before.maxsize
  work : after.work = before.work
  queue : after.queue = before.queue
  nextHandle : after.nextHandle = before.nextHandle
  threads : after.threads = before.threads
  articles : after.articles = before.articles

theorem gracefulDisconnect_remains {named : Side} (taken : usenet.gracefulDisconnect named connit = some after) :
    Remains usenet after := by
  obtain ⟨_, maxsize, work, _, _, _, _, queue, nextHandle, threads, articles, _⟩ := gracefulDisconnect_apart taken
  exact ⟨maxsize, work, queue, nextHandle, threads, articles⟩

theorem Remains.trans {middle : Usenet α} (first : Remains usenet middle) (rest : Remains middle after) :
    Remains usenet after :=
  ⟨rest.maxsize.trans first.maxsize, rest.work.trans first.work, rest.queue.trans first.queue,
    rest.nextHandle.trans first.nextHandle, rest.threads.trans first.threads, rest.articles.trans first.articles⟩

/-- Disconnecting all idle connections leaves none, and what each disconnection keeps is kept. -/
theorem disconnectReady_keeps {motive : Usenet α → Prop}
    (keeps : ∀ before connit after, motive before → connit ∈ before.ready →
      before.gracefulDisconnect .ready connit = some after → motive after)
    {left : List ConnectionHandle} (all : usenet.ready = left) (start : motive usenet)
    (taken : usenet.disconnectReady left = some after) : motive after ∧ after.ready = [] := by
  induction left generalizing usenet with
  | nil =>
    cases taken
    exact ⟨start, all⟩
  | cons connit rest ih =>
    obtain ⟨next, disconnected, taken⟩ := Option.bind_eq_some_iff.mp taken
    have ready : next.ready = rest := by
      rw [(gracefulDisconnect_apart disconnected).ready]
      simp [erase, all]
    exact ih ready (keeps usenet connit next start (by simp [all]) disconnected) taken

theorem shutdown_keeps {motive : Usenet α → Prop}
    (keeps : ∀ before named connit after, motive before → (named = .ready → connit ∈ before.ready) →
      before.gracefulDisconnect named connit = some after → motive after)
    (start : motive usenet) (taken : usenet.shutdown connit = some after) : motive after := by
  obtain ⟨next, disconnected, taken⟩ := Option.bind_eq_some_iff.mp taken
  have first := keeps usenet .busy connit next start nofun disconnected
  exact (disconnectReady_keeps
    (fun before connit after start member => keeps before .ready connit after start (fun _ => member)) rfl first taken).1

theorem shutdown_remains (taken : usenet.shutdown connit = some after) : Remains usenet after := by
  apply shutdown_keeps _ (by constructor <;> rfl : Remains usenet usenet) taken
  exact fun before named connit after earlier _ disconnected => earlier.trans (gracefulDisconnect_remains disconnected)

/-- A critical section changes no thread but one it wakes. -/
theorem proceed_threads {choice : Choice α} {task : Task α} {result : Usenet α × List (Task α)}
    (taken : usenet.proceed choice task = some result) :
    ∃ notified, Notified usenet notified ∧ result.1.threads = notified.threads := by
  cases proceed_executes taken with
  | dispatches idle dispatched =>
    obtain ⟨connit, ready, -, run⟩ := dispatch_cases dispatched
    exact ⟨usenet, .inl rfl, (run_apart run).threads⟩
  | becomesReady became =>
    rcases onConnBecomesReady_cases became with ⟨_, _, notified, _, woken, run⟩ | ⟨-, -, rfl⟩ | ⟨-, -, down⟩
    · exact ⟨notified, woken, (run_apart run).threads⟩
    · exact ⟨usenet, .inl rfl, rfl⟩
    · exact ⟨usenet, .inl rfl, ((shutdown_remains down).threads :)⟩
  | redispatches idle dispatched =>
    obtain ⟨connit, ready, -, run⟩ := dispatch_cases dispatched
    exact ⟨usenet, .inl rfl, (run_apart run).threads⟩
  | _ => exact ⟨usenet, .inl rfl, rfl⟩

theorem notified_length (woken : Notified usenet after) : after.threads.length = usenet.threads.length := by
  rcases woken with rfl | ⟨_, _, _, _, _, rfl⟩ <;> simp

theorem proceed_length {choice : Choice α} {task : Task α} {result : Usenet α × List (Task α)}
    (taken : usenet.proceed choice task = some result) : result.1.threads.length = usenet.threads.length := by
  obtain ⟨notified, woken, same⟩ := proceed_threads taken
  rw [same, notified_length woken]

theorem proceed_inside {index : Nat} {choice : Choice α} {io : Bool} {task : Task α} {tasks : List (Task α)}
    {result : Usenet α × List (Task α)} (found : usenet.threads[index]? = some ⟨io, task :: tasks⟩)
    (taken : { usenet with threads := usenet.threads.set index ⟨io, tasks⟩ }.proceed choice task = some result) :
    index < result.1.threads.length := by
  rw [proceed_length taken, List.length_set]
  exact (List.getElem?_eq_some_iff.mp found).1

/-- The weight of all tasks of all threads. -/
def onTasks (weight : Task α → Nat) (usenet : Usenet α) : Nat :=
  total (fun thread : Thread α => total weight thread.tasks) usenet.threads

theorem onTasks_pushTasks (weight : Task α → Nat) {index : Nat} (inside : index < usenet.threads.length)
    (tasks : List (Task α)) : onTasks weight (usenet.pushTasks index tasks) = onTasks weight usenet + total weight tasks := by
  have change := total_modify (fun thread : Thread α => total weight thread.tasks) usenet.threads index
    (fun thread => { thread with tasks := tasks ++ thread.tasks })
  simp only [List.getElem?_eq_getElem inside, Option.map_some, Option.getD_some, total_append] at change
  simp only [onTasks, pushTasks]
  omega

theorem onTasks_pop (weight : Task α → Nat) {index : Nat} {io : Bool} {task : Task α} {tasks : List (Task α)}
    (found : usenet.threads[index]? = some ⟨io, task :: tasks⟩) :
    onTasks weight usenet =
      weight task + onTasks weight { usenet with threads := usenet.threads.set index ⟨io, tasks⟩ } := by
  have change := total_set (fun thread : Thread α => total weight thread.tasks) found ⟨io, tasks⟩
  simp only [total_cons] at change
  simp only [onTasks]
  omega

theorem onTasks_notified {weight : Task α → Nat}
    (blind : ∀ command, weight (.wait command true) = weight (.wait command false)) (woken : Notified usenet after) :
    onTasks weight after = onTasks weight usenet := by
  rcases woken with rfl | ⟨index, io, command, tasks, found, rfl⟩
  · rfl
  · have change := total_set (fun thread : Thread α => total weight thread.tasks) found
      ⟨io, .wait command true :: tasks⟩
    simp only [total_cons, blind] at change
    simp only [onTasks]
    omega

theorem onTasks_idle (weight : Task α → Nat) (usenet : Usenet α) (io : Bool) (count : Nat) :
    onTasks weight { usenet with threads := usenet.threads ++ List.replicate count ⟨io, []⟩ } = onTasks weight usenet := by
  have none : total (fun thread : Thread α => total weight thread.tasks) (List.replicate count ⟨io, []⟩) = 0 := by
    simp [total]
  simp only [onTasks, total_append, none, Nat.add_zero]

theorem proceed_onTasks {weight : Task α → Nat}
    (blind : ∀ command, weight (.wait command true) = weight (.wait command false)) {choice : Choice α} {task : Task α}
    {result : Usenet α × List (Task α)} (taken : usenet.proceed choice task = some result) :
    onTasks weight result.1 = onTasks weight usenet := by
  obtain ⟨notified, woken, same⟩ := proceed_threads taken
  rw [← onTasks_notified blind woken]
  simp only [onTasks, same]

/-- What a thread that calls the pool may still have to do. -/
def calling : Task α → Bool
  | .request _ | .wait _ _ => true
  | _ => false

/-- Nothing but calls comes after a task, and no call but after an observer. -/
theorem proceed_calls {choice : Choice α} {task : Task α} {result : Usenet α × List (Task α)}
    (taken : usenet.proceed choice task = some result) : ∀ more ∈ result.2, calling more = true := by
  cases proceed_executes taken with
  | observes slot =>
    intro more member
    obtain ⟨request, -, rfl⟩ := List.mem_map.mp member
    rfl
  | _ => simp [calling]

/-- A handler leaves no calls to be made. -/
theorem deliver_uncalled (usenet : Usenet α) (connit : ConnectionHandle) (handler : Handler α) (outcome : Outcome) :
    ∀ task ∈ (usenet.deliver connit handler outcome).2, calling task = false := by
  rw [deliver]
  split
  · exact nofun
  · cases handler with
    | stage stage => exact nofun
    | timer => exact nofun
    | connectHandler result => cases result <;> simp [onConnected, calling]
    | postHandler msg result => cases result <;> simp [onPostFinished, calling]
    | statHandler msgid result => cases result <;> simp [onStatFinished, calling]

theorem deliver_weightless {weight : Task α → Nat} (nothing : ∀ task, calling task = false → weight task = 0)
    (usenet : Usenet α) (connit : ConnectionHandle) (handler : Handler α) (outcome : Outcome) :
    total weight (usenet.deliver connit handler outcome).2 = 0 := by
  have none := total_congr (fun task member => nothing task (deliver_uncalled usenet connit handler outcome task member))
  rw [none]
  simp [total]

/-- What one new connection keeps, many keep. -/
theorem addConnections_keeps {motive : Usenet α → Prop} {conninfo : ConnectionInfo}
    (keeps : ∀ before, motive before → motive (before.addConnection conninfo)) (start : motive usenet)
    (numConnections : Nat) : motive (usenet.addConnections conninfo numConnections) := by
  induction numConnections generalizing usenet with
  | zero => exact start
  | succ numConnections ih => exact ih (keeps usenet start)

theorem addConnections_threads (usenet : Usenet α) (conninfo : ConnectionInfo) (numConnections : Nat) :
    (usenet.addConnections conninfo numConnections).threads = usenet.threads :=
  addConnections_keeps (motive := fun next => next.threads = usenet.threads) (fun _ same => same) rfl numConnections

/-- What holds of all tasks of all threads. -/
def EveryTask (property : Task α → Prop) (usenet : Usenet α) : Prop :=
  ∀ thread ∈ usenet.threads, ∀ task ∈ thread.tasks, property task

section EveryTask

variable {property : Task α → Prop}

theorem EveryTask.frame (every : EveryTask property usenet) (threads : after.threads = usenet.threads) :
    EveryTask property after := by
  rw [EveryTask, threads]
  exact every

theorem EveryTask.push (every : EveryTask property usenet) {tasks : List (Task α)}
    (new : ∀ task ∈ tasks, property task) (index : Nat) : EveryTask property (usenet.pushTasks index tasks) := by
  intro thread member
  obtain ⟨place, found⟩ := List.mem_iff_getElem?.mp member
  simp only [pushTasks, List.getElem?_modify] at found
  obtain ⟨before, earlier, rfl⟩ := Option.map_eq_some_iff.mp found
  have kept := every before (List.mem_of_getElem? earlier)
  split
  · intro task inside
    exact (List.mem_append.mp inside).elim (new task) (kept task)
  · exact kept

theorem EveryTask.pop (every : EveryTask property usenet) {index : Nat} {io : Bool} {task : Task α}
    {tasks : List (Task α)} (found : usenet.threads[index]? = some ⟨io, task :: tasks⟩) :
    property task ∧ EveryTask property { usenet with threads := usenet.threads.set index ⟨io, tasks⟩ } := by
  have all := every _ (List.mem_of_getElem? found)
  refine ⟨all task (List.mem_cons_self ..), fun thread member entry inside => ?_⟩
  rcases List.mem_or_eq_of_mem_set member with earlier | rfl
  · exact every thread earlier entry inside
  · exact all entry (List.mem_cons_of_mem _ inside)

theorem EveryTask.proceed (every : EveryTask property usenet)
    (woken : ∀ command, property (.wait command false) → property (.wait command true)) {choice : Choice α}
    {task : Task α} {result : Usenet α × List (Task α)} (taken : usenet.proceed choice task = some result) :
    EveryTask property result.1 := by
  obtain ⟨notified, wakes, same⟩ := proceed_threads taken
  have kept : EveryTask property notified := by
    rcases wakes with rfl | ⟨index, io, command, rest, found, rfl⟩
    · exact every
    · have all := every _ (List.mem_of_getElem? found)
      intro thread member entry inside
      rcases List.mem_or_eq_of_mem_set member with earlier | rfl
      · exact every thread earlier entry inside
      · rcases List.mem_cons.mp inside with rfl | later
        · exact woken command (all _ (List.mem_cons_self ..))
        · exact all entry (List.mem_cons_of_mem _ later)
  exact kept.frame same

theorem EveryTask.idle (every : EveryTask property usenet) (io : Bool) (count : Nat) :
    EveryTask property { usenet with threads := usenet.threads ++ List.replicate count ⟨io, []⟩ } := by
  intro thread member
  rcases List.mem_append.mp member with earlier | new
  · exact every thread earlier
  · rw [List.eq_of_mem_replicate new]
    exact nofun

end EveryTask

section EveryThread

variable {property motive : Thread α → Prop}

theorem pushTasks_every {index : Nat} {tasks : List (Task α)} (every : ∀ thread ∈ usenet.threads, property thread)
    (pushed : ∀ io rest, usenet.threads[index]? = some ⟨io, rest⟩ → property ⟨io, tasks ++ rest⟩) :
    ∀ thread ∈ (usenet.pushTasks index tasks).threads, property thread := by
  intro thread member
  obtain ⟨place, found⟩ := List.mem_iff_getElem?.mp member
  simp only [pushTasks, List.getElem?_modify] at found
  obtain ⟨before, earlier, rfl⟩ := Option.map_eq_some_iff.mp found
  split
  next same =>
    subst same
    exact pushed before.io before.tasks earlier
  · exact every before (List.mem_of_getElem? earlier)

/-- What holds of every thread, and of a thread whose first task was taken from it. -/
theorem step_every {event : Event α} (every : ∀ thread ∈ usenet.threads, property thread)
    (idle : ∀ io, property ⟨io, []⟩) (calls : ∀ request, property ⟨false, [.request request]⟩)
    (delivered : ∀ (usenet : Usenet α) connit handler outcome, property ⟨true, (usenet.deliver connit handler outcome).2⟩)
    (woken : ∀ io command tasks, property ⟨io, .wait command false :: tasks⟩ → property ⟨io, .wait command true :: tasks⟩)
    (pops : ∀ io task tasks, property ⟨io, task :: tasks⟩ → motive ⟨io, tasks⟩)
    (poppedWoken : ∀ io command tasks, motive ⟨io, .wait command false :: tasks⟩ → motive ⟨io, .wait command true :: tasks⟩)
    (proceeds : ∀ (usenet : Usenet α) choice io task tasks rest result, property ⟨io, task :: tasks⟩ →
      usenet.proceed choice task = some result → motive ⟨io, rest⟩ → property ⟨io, result.2 ++ rest⟩)
    (taken : usenet.step event = some after) : ∀ thread ∈ after.threads, property thread := by
  have more (io : Bool) (count : Nat) : ∀ thread ∈ usenet.threads ++ List.replicate count ⟨io, []⟩, property thread := by
    intro thread member
    rcases List.mem_append.mp member with earlier | new
    · exact every thread earlier
    · rw [List.eq_of_mem_replicate new]
      exact idle io
  cases event with
  | addConnections conninfo numConnections =>
    cases taken
    rw [addConnections_threads]
    exact every
  | start =>
    cases taken
    exact more true usenet.numthreads
  | spawn =>
    cases taken
    exact more false 1
  | call index request =>
    obtain ⟨found, rfl⟩ := step_call taken
    apply pushTasks_every every
    intro io rest at'
    cases found.symm.trans at'
    exact calls request
  | take index place outcome =>
    obtain ⟨connit, handler, found, -, rfl⟩ := step_take taken
    have threads := (deliver_apart { usenet with pending := usenet.pending.eraseIdx place } connit handler outcome).threads
    apply pushTasks_every
    · rw [threads]
      exact every
    · intro io rest at'
      rw [threads] at at'
      cases found.symm.trans at'
      rw [List.append_nil]
      exact delivered ..
  | proceed index choice =>
    obtain ⟨io, task, tasks, result, found, proceeded, rfl⟩ := step_proceed taken
    obtain ⟨notified, wakes, same⟩ := proceed_threads proceeded
    have head := every _ (List.mem_of_getElem? found)
    have apart : ∀ place thread, place ≠ index → notified.threads[place]? = some thread → property thread := by
      rcases wakes with rfl | ⟨place, wakes, command, rest, at', rfl⟩
      · intro place thread different at'
        rw [List.getElem?_set_ne (Ne.symm different)] at at'
        exact every thread (List.mem_of_getElem? at')
      · intro other thread different inside
        by_cases here : place = other
        · subst here
          rw [List.getElem?_set_self (List.getElem?_eq_some_iff.mp at').1] at inside
          cases inside
          rw [List.getElem?_set_ne (Ne.symm different)] at at'
          exact woken wakes command rest (every _ (List.mem_of_getElem? at'))
        · rw [List.getElem?_set_ne here, List.getElem?_set_ne (Ne.symm different)] at inside
          exact every thread (List.mem_of_getElem? inside)
    have first : ∀ rest io', notified.threads[index]? = some ⟨io', rest⟩ → io' = io ∧ motive ⟨io, rest⟩ := by
      have inside := (List.getElem?_eq_some_iff.mp found).1
      have start : (usenet.threads.set index ⟨io, tasks⟩)[index]? = some ⟨io, tasks⟩ := List.getElem?_set_self inside
      rcases wakes with rfl | ⟨place, wakes, command, later, at', rfl⟩
      · intro rest io' at'
        cases start.symm.trans at'
        exact ⟨rfl, pops io task tasks head⟩
      · intro rest io' here
        by_cases self : place = index
        · subst self
          cases start.symm.trans at'
          rw [List.getElem?_set_self (by rw [List.length_set]; exact inside)] at here
          cases here
          exact ⟨rfl, poppedWoken io command later (pops io task _ head)⟩
        · rw [List.getElem?_set_ne self, start] at here
          cases here
          exact ⟨rfl, pops io task tasks head⟩
    intro thread member
    obtain ⟨place, at'⟩ := List.mem_iff_getElem?.mp member
    simp only [pushTasks, List.getElem?_modify, same] at at'
    obtain ⟨before, earlier, rfl⟩ := Option.map_eq_some_iff.mp at'
    split
    next here =>
      subst here
      obtain ⟨io', rest⟩ := before
      obtain ⟨rfl, fits⟩ := first rest io' earlier
      exact proceeds _ choice io' task tasks rest result head proceeded fits
    next elsewhere => exact apart place before (Ne.symm elsewhere) earlier
  | expire connit =>
    obtain ⟨-, -, rfl⟩ := step_expire taken
    exact every
  | _ =>
    cases taken
    exact every

end EveryThread

/-- A client is never inside a handler. -/
def Outside (thread : Thread α) : Prop := thread.io = false → ∀ task ∈ thread.tasks, calling task = true

theorem step_outside {event : Event α} (outside : ∀ thread ∈ usenet.threads, Outside thread)
    (taken : usenet.step event = some after) : ∀ thread ∈ after.threads, Outside thread := by
  have woken (io : Bool) (command : Command α) (tasks : List (Task α)) (kept : Outside ⟨io, .wait command false :: tasks⟩) :
      Outside ⟨io, .wait command true :: tasks⟩ := by
    intro client task inside
    rcases List.mem_cons.mp inside with rfl | later
    · rfl
    · exact kept client task (List.mem_cons_of_mem _ later)
  apply step_every outside (motive := Outside) ?_ ?_ ?_ woken ?_ woken ?_ taken
  · exact fun io client task inside => absurd inside List.not_mem_nil
  · intro request client task inside
    rw [List.mem_singleton.mp inside]
    rfl
  · intro usenet connit handler outcome client
    cases client
  · exact fun io task tasks kept client other inside => kept client other (List.mem_cons_of_mem _ inside)
  · intro usenet choice io task tasks rest result _ proceeded kept client more inside
    rcases List.mem_append.mp inside with new | old
    · exact proceed_calls proceeded more new
    · exact kept client more old

/-- While no io thread is inside a handler, no thread has anything but calls to do. -/
theorem onTasks_calls {weight : Task α → Nat} (outside : ∀ thread ∈ usenet.threads, Outside thread)
    (idle : ∀ thread ∈ usenet.threads, thread.io = true → thread.tasks = [])
    (calls : ∀ task, calling task = true → weight task = 0) : onTasks weight usenet = 0 := by
  rw [onTasks, total, List.sum_eq_zero]
  intro sum summed
  obtain ⟨thread, member, rfl⟩ := List.mem_map.mp summed
  rw [total, List.sum_eq_zero]
  intro value weighed
  obtain ⟨task, inside, rfl⟩ := List.mem_map.mp weighed
  cases worker : thread.io with
  | true =>
    rw [idle thread member worker] at inside
    cases inside
  | false => exact calls task (outside thread member worker task inside)

/-- What a thread would do next. -/
def headTask (usenet : Usenet α) (index : Nat) : Option (Task α) :=
  usenet.threads[index]?.bind (fun thread => thread.tasks.head?)

theorem headTask_found {index : Nat} {io : Bool} {task : Task α} {tasks : List (Task α)}
    (found : usenet.threads[index]? = some ⟨io, task :: tasks⟩) : headTask usenet index = some task := by
  simp [headTask, found]

theorem headTask_cases {index : Nat} {task : Task α} (head : headTask usenet index = some task) :
    ∃ io tasks, usenet.threads[index]? = some ⟨io, task :: tasks⟩ := by
  obtain ⟨⟨io, tasks⟩, found, first⟩ := Option.bind_eq_some_iff.mp head
  obtain ⟨tasks, rfl⟩ := List.head?_eq_some_iff.mp first
  exact ⟨io, tasks, found⟩

/-- The steps that disconnect gracefully: a connection becomes ready, nothing is
queued, and the pool was stopped. -/
def ShutsDown (usenet : Usenet α) : Event α → Prop
  | .proceed index _ =>
    (∃ connit, headTask usenet index = some (.onConnBecomesReady connit)) ∧ usenet.queue = [] ∧ usenet.work = false
  | _ => False

theorem step_shutsDown {event : Event α} (down : ShutsDown usenet event) (taken : usenet.step event = some after) :
    ∃ index io connit tasks last, usenet.threads[index]? = some ⟨io, .onConnBecomesReady connit :: tasks⟩ ∧
      ({ usenet with threads := usenet.threads.set index ⟨io, tasks⟩ }.becomeReady connit).shutdown connit = some last ∧
      after = last.pushTasks index [] := by
  cases event with
  | proceed index choice =>
    obtain ⟨⟨connit, head⟩, empty, stopped⟩ := down
    obtain ⟨io, task, tasks, result, found, proceeded, rfl⟩ := step_proceed taken
    rw [headTask_found found] at head
    cases head
    obtain ⟨last, became, rfl⟩ := Option.map_eq_some_iff.mp proceeded
    rcases onConnBecomesReady_cases became with ⟨_, _, _, waiting, -, -⟩ | ⟨-, working, -⟩ | ⟨-, -, down⟩
    · cases empty.symm.trans waiting
    · cases stopped.symm.trans working
    · exact ⟨index, io, connit, tasks, last, found, down, rfl⟩
  | _ => exact down.elim

-- Fixed inputs, for the runs that other modules end with. Thread 0 is the client's, the others are io threads.

def sampleConninfo : ConnectionInfo := ⟨ascii "user", ascii "pass", ascii "news.example", 119, false⟩

def sampleArticles (_ : Nat) : Article := ⟨⟨[], [], [], [], []⟩, []⟩

def answer (line : String) : Outcome := ⟨false, ascii line, false⟩

def goOn : Choice α := ⟨answer "", none, []⟩

def posts (article : α) : List (Event α) := [.call 0 (.enqueuePost article false), .proceed 0 goOn]

/-- Handlers run one after the other, at these places and with these answers. -/
def takes (thread : Nat) (answers : List (Nat × String)) : List (Event α) :=
  answers.map (fun (place, line) => .take thread place (answer line))

/-- From the resolved address to the connect handler. -/
def connects (thread first rest : Nat) : List (Event α) :=
  takes thread [(first, ""), (rest, ""), (rest, "200 ready\r\n"), (rest, ""), (rest, "281 welcome\r\n"), (rest, "")]

/-- Two connections have resolved their addresses. -/
def opens : List (Event Nat) := [.spawn, .addConnections sampleConninfo 2, .start] ++ takes 1 [(0, ""), (0, "")]

end Post2Usenet.Proofs.PoolSteps
