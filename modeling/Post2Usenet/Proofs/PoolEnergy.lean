import Post2Usenet.Lib.Potential
import Post2Usenet.Proofs.PoolEfforts

/-! How much a pool can still do on its own. Everything that is pending, queued or left to a
thread has a cost that pays for what follows from it. A post is paid for when its command
is sent, and only a stat that finds its connection broken is paid by nobody. -/

namespace Post2Usenet.Proofs.PoolEnergy
open Connection ConnectionSteps PoolSteps PoolOwnership PoolTrace PoolAccounting PoolEfforts Usenet Tally

variable {α : Type} {usenet after : Usenet α} {connit : ConnectionHandle} {hand : List ConnectionHandle}
  {command : Command α}

/-- A function costs three more than what it leaves to be run, since it may set a timer. -/
def stageCost : Stage → Nat
  | .doConnect => 33
  | .resolved => 30
  | .connected => 27
  | .handshaken => 24
  | .greeted => 21
  | .usernameWritten => 18
  | .usernameAnswered => 15
  | .passwordWritten => 12
  | .passwordAnswered => 9
  | .doPost => 3
  | .postWritten => 56
  | .postAnswered => 53
  | .articleWritten => 50
  | .articleAnswered => 47
  | .doStat => 16
  | .statWritten => 13
  | .statAnswered => 10
  | .quitWritten => 3

def handlerCost : Handler α → Nat
  | .stage stage => stageCost stage
  | .timer => 1
  | .connectHandler _ => 6
  | .postHandler _ _ => 44
  | .statHandler _ _ => 7

def commandCost : Command α → Nat
  | .startAsyncPost _ => 5
  | .startAsyncStat _ => 18

def requestCost (request : Request α) : Nat := commandCost request.command + 2

/-- A thread that was notified may have to sleep again. -/
def taskCost : Task α → Nat
  | .request request => requestCost request
  | .wait command notified => commandCost command + if notified then 1 else 0
  | .onConnBecomesReady _ => 5
  | .discardConnection _ => 1
  | .dispatchOrQueue command => commandCost command + 1
  | .requeueStat _ _ => 1
  | .slotPostFailed _ => 8
  | .slotFinishPost _ => 1
  | .slotFinishStat _ _ => 1

def armedCost (armed : Bool) : Nat := if armed then 2 else 0

def pendingCost (usenet : Usenet α) : Nat := total (fun entry => handlerCost entry.2) usenet.pending

def timersCost (usenet : Usenet α) : Nat :=
  total (fun connit => armedCost (usenet.armed connit)) (List.range usenet.nextHandle)

def energy (usenet : Usenet α) : Nat :=
  pendingCost usenet + onTasks taskCost usenet + total commandCost usenet.queue + 4 * usenet.ready.length + timersCost usenet

/-- What a command costs that is sent to post. -/
def startCost : Nat := 56

/-- A step costs one, and what it does is paid for. -/
def Pays (usenet after : Usenet α) (given : Nat) : Prop :=
  energy after + startCost * started usenet + 1 ≤ energy usenet + startCost * started after + given

theorem armed_update_known (armed : ConnectionHandle → Bool) (value : Bool) {count : Nat} (known : connit < count) :
    total (fun other => armedCost (Function.update armed connit value other)) (List.range count) + armedCost (armed connit) =
      total (fun other => armedCost (armed other)) (List.range count) + armedCost value := by
  rw [← total_update (fun other => armedCost (armed other)) List.nodup_range (List.mem_range.mpr known) (armedCost value)]
  congr 2
  funext other
  by_cases here : other = connit
  · subst here
    simp
  · simp [Function.update_of_ne here]

theorem armed_update (armed : ConnectionHandle → Bool) (connit : ConnectionHandle) (value : Bool) (count : Nat) :
    total (fun other => armedCost (Function.update armed connit value other)) (List.range count) ≤
      total (fun other => armedCost (armed other)) (List.range count) + armedCost value := by
  by_cases known : connit < count
  · have change := armed_update_known armed value known
    omega
  · refine Nat.le_add_right_of_le (Nat.le_of_eq (total_congr (fun other member => ?_)))
    rw [Function.update_of_ne]
    rintro rfl
    exact known (List.mem_range.mp member)

theorem armedCost_le (armed : Bool) : armedCost armed ≤ 2 := by cases armed <;> decide

theorem perform_energy (usenet : Usenet α) (connit : ConnectionHandle) (act : Act α) :
    energy (usenet.perform connit act) ≤ energy usenet + total handlerCost (act.2.filterMap Call.handler?) + 2 := by
  have timers : timersCost (usenet.perform connit act) ≤
      timersCost usenet + armedCost (act.2.foldl Call.arm (usenet.armed connit)) := armed_update ..
  have pending : pendingCost (usenet.perform connit act) =
      pendingCost usenet + total handlerCost (act.2.filterMap Call.handler?) := by
    simp only [pendingCost, perform, total_append, total_map]
  have small := armedCost_le (act.2.foldl Call.arm (usenet.armed connit))
  show _ + onTasks taskCost usenet + total commandCost usenet.queue + 4 * usenet.ready.length + _ ≤ _
  rw [energy]
  omega

theorem erase_energy (usenet : Usenet α) (named : Side) (connit : ConnectionHandle) :
    energy (usenet.erase named connit) + 4 * (usenet.ready.length - (usenet.ready.erase connit).length) ≤ energy usenet := by
  have timers : timersCost (usenet.erase named connit) ≤ timersCost usenet + armedCost false := armed_update ..
  have shorter : (usenet.ready.erase connit).length ≤ usenet.ready.length := List.erase_sublist.length_le
  show pendingCost usenet + onTasks taskCost usenet + total commandCost usenet.queue + 4 * (usenet.ready.erase connit).length +
    timersCost (usenet.erase named connit) + _ ≤ energy usenet
  simp only [armedCost, Bool.false_eq_true, if_false] at timers
  rw [energy]
  omega

/-- A connection that takes a command pays with the command. -/
theorem run_energy (owned : Owned (connit :: hand) usenet)
    (idle : ∀ connection, usenet.connections connit = some connection → Idle connection)
    (taken : usenet.run connit command = some after) : energy after ≤ energy usenet + commandCost command := by
  obtain ⟨connection, present⟩ := present_in_hand owned
  cases command with
  | startAsyncPost msg =>
    have performed : usenet.run connit (.startAsyncPost msg) =
        some (usenet.perform connit ({ connection with article := some msg }, [.post (.stage .doPost)])) := by
      simp [Usenet.run, startAsyncPost, present, performAccepted, asyncPost, (idle connection present).state]
    cases performed.symm.trans taken
    exact perform_energy ..
  | startAsyncStat msgid =>
    have performed : usenet.run connit (.startAsyncStat msgid) =
        some (usenet.perform connit ({ connection with msgid }, [.post (.stage .doStat)])) := by
      simp [Usenet.run, startAsyncStat, present, performAccepted, asyncStat, (idle connection present).state]
    cases performed.symm.trans taken
    exact perform_energy ..

theorem dispatch_energy (owned : Owned hand usenet) (taken : usenet.dispatch command = some after) :
    energy after + 4 ≤ energy usenet + commandCost command := by
  obtain ⟨⟨connit, moved⟩, head, run⟩ := Option.bind_eq_some_iff.mp taken
  obtain ⟨movedOwned, idle⟩ := takeReady_owned owned head
  obtain ⟨ready, first, rfl⟩ := takeReady_cases head
  have ran := run_energy movedOwned idle run
  have moved : energy { usenet with
      ready
      busy := connit :: usenet.busy
      readySize := decrement usenet.readySize
      busySize := usenet.busySize + 1 } + 4 = energy usenet := by
    show pendingCost usenet + onTasks taskCost usenet + total commandCost usenet.queue + 4 * ready.length + timersCost usenet + 4 = _
    rw [energy, first, List.length_cons]
    omega
  omega

theorem pushBack_energy (usenet : Usenet α) (command : Command α) :
    energy (usenet.pushBack command) = energy usenet + commandCost command := by
  show pendingCost usenet + onTasks taskCost usenet + total commandCost (usenet.queue ++ [command]) +
    4 * usenet.ready.length + timersCost usenet = _
  rw [energy, total_append, total_cons, total_nil]
  omega

theorem record_energy (usenet : Usenet α) (entry : Entry α) : energy (usenet.record entry) = energy usenet := rfl

theorem asyncGracefulDisconnect_cost (connection : Connection α) :
    total handlerCost (connection.asyncGracefulDisconnect.2.2.filterMap Call.handler?) ≤ 3 := by
  rw [asyncGracefulDisconnect]
  split
  · exact Nat.zero_le _
  · rw [write, handlers_timeout]
    exact Nat.le_refl _

/-- A connection that leaves pays for its last handler as a ready one. -/
theorem gracefulDisconnect_energy (member : connit ∈ usenet.ready) {named : Side}
    (taken : usenet.gracefulDisconnect named connit = some after) : energy after + 1 ≤ energy usenet := by
  obtain ⟨connection, -, rfl⟩ := Option.map_eq_some_iff.mp taken
  have shorter := List.length_erase_of_mem member
  have some' := List.length_pos_of_mem member
  rw [record_energy, performAccepted]
  split
  · have quits := asyncGracefulDisconnect_cost connection
    have timers : timersCost ((usenet.perform connit connection.asyncGracefulDisconnect.2).erase named connit) ≤
        timersCost usenet := by
      show total (fun other => armedCost (Function.update (Function.update usenet.armed connit _) connit false other)) _ ≤ _
      rw [Function.update_idem]
      exact armed_update usenet.armed connit false usenet.nextHandle
    have pending : pendingCost ((usenet.perform connit connection.asyncGracefulDisconnect.2).erase named connit) =
        pendingCost usenet + total handlerCost (connection.asyncGracefulDisconnect.2.2.filterMap Call.handler?) := by
      simp only [pendingCost, Usenet.erase, perform, total_append, total_map]
    show _ + onTasks taskCost usenet + total commandCost usenet.queue + 4 * (usenet.ready.erase connit).length + _ + 1 ≤ _
    rw [energy]
    omega
  · have erased : energy ((usenet.record (.refused connit)).erase named connit) +
        4 * (usenet.ready.length - (usenet.ready.erase connit).length) ≤ energy usenet := erase_energy ..
    omega

theorem becomeReady_energy (usenet : Usenet α) (connit : ConnectionHandle) :
    energy (usenet.becomeReady connit) ≤ energy usenet + 4 := by
  have longer : (usenet.ready.erase connit ++ [connit]).length ≤ usenet.ready.length + 1 := by
    rw [List.length_append]
    exact Nat.add_le_add_right List.erase_sublist.length_le 1
  show pendingCost usenet + onTasks taskCost usenet + total commandCost usenet.queue +
    4 * (usenet.ready.erase connit ++ [connit]).length + timersCost usenet ≤ _
  rw [energy]
  omega

theorem shutdown_energy (owned : Owned hand usenet) (member : connit ∈ usenet.ready)
    (taken : usenet.shutdown connit = some after) : energy after ≤ energy usenet := by
  refine (shutdown_owned_keeps (motive := fun next => energy next ≤ energy usenet) ?_ owned member (Nat.le_refl _) taken).2.2
  intro before named connit after earlier inside less disconnected
  have leaves := gracefulDisconnect_energy inside disconnected
  omega

/-- A notification makes one wait cost more. -/
theorem notified_energy (woken : Notified usenet after) : energy after ≤ energy usenet + 1 := by
  rcases woken with rfl | ⟨index, io, command, tasks, found, rfl⟩
  · exact Nat.le_succ _
  · have change := total_set (fun thread : Thread α => total taskCost thread.tasks) found ⟨io, .wait command true :: tasks⟩
    have tasks : onTasks taskCost { usenet with threads := usenet.threads.set index ⟨io, .wait command true :: tasks⟩ } =
        onTasks taskCost usenet + 1 := by
      simp only [total_cons, taskCost, Bool.false_eq_true, if_false, if_true] at change
      simp only [onTasks]
      omega
    show pendingCost usenet + _ + total commandCost usenet.queue + 4 * usenet.ready.length + timersCost usenet ≤ _
    rw [tasks, energy]
    omega

theorem onConnBecomesReady_energy (owned : Owned (connit :: hand) usenet)
    (idle : ∀ connection, usenet.connections connit = some connection → Idle connection) {wake : Option Nat}
    (taken : usenet.onConnBecomesReady connit wake = some after) : energy after ≤ energy usenet + 4 := by
  rcases onConnBecomesReady_cases taken with ⟨command, queue, notified, waiting, woken, run⟩ | ⟨-, -, rfl⟩ | ⟨-, -, down⟩
  · have popped : Owned (connit :: hand) { notified with queue } :=
      (notified_owned owned woken).frame rfl rfl rfl rfl rfl rfl
    have same : notified.connections = usenet.connections ∧ notified.queue = usenet.queue := by
      rcases woken with rfl | ⟨_, _, _, _, _, rfl⟩ <;> exact ⟨rfl, rfl⟩
    have ran := run_energy popped (by rw [show ({ notified with queue } : Usenet α).connections = _ from same.1]; exact idle) run
    have woke := notified_energy woken
    have shorter : energy { notified with queue } + commandCost command = energy notified := by
      show pendingCost notified + onTasks taskCost notified + total commandCost queue + 4 * notified.ready.length +
        timersCost notified + _ = _
      rw [energy, same.2, waiting, total_cons]
      omega
    omega
  · exact becomeReady_energy usenet connit
  · have ready := becomeReady_energy usenet connit
    have rest := shutdown_energy (becomeReady_owned owned idle) (by simp [becomeReady]) down
    omega

/-- What a task is given that its own cost does not pay for: a wait that nobody has ended, a stat that is
asked again, and calls that an observer makes beyond one for a failed post. -/
def given (choice : Choice α) : Task α → Nat
  | .wait _ false => 1
  | .requeueStat _ _ => 53
  | .slotPostFailed _ => total requestCost choice.calls - 7
  | .slotFinishPost _ | .slotFinishStat _ _ => total requestCost choice.calls
  | _ => 0

theorem asyncConnect_cost (connection : Connection α) :
    total handlerCost (connection.asyncConnect.2.filterMap Call.handler?) ≤ 33 := by
  rw [asyncConnect]
  dsimp only
  split
  · exact Nat.le_refl _
  · exact Nat.zero_le _

theorem proceed_energy {choice : Choice α} {task : Task α} (owned : Owned ((connit? task).toList ++ hand) usenet)
    (fits : ∀ connit, connit? task = some connit →
      ∀ connection, usenet.connections connit = some connection → TaskFits connection task)
    {result : Usenet α × List (Task α)} (taken : usenet.proceed choice task = some result) :
    energy result.1 + total taskCost result.2 + 1 ≤ energy usenet + taskCost task + given choice task := by
  cases proceed_executes taken with
  | @dispatches request after idle dispatched =>
    have dispatches := dispatch_energy (record_owned owned (.passed request.command)) dispatched
    simp only [record_energy, taskCost, requestCost, total_nil] at dispatches ⊢
    omega
  | waits =>
    simp only [taskCost, requestCost, total_cons, total_nil, Bool.false_eq_true, if_false]
    omega
  | defers =>
    simp only [pushBack_energy, record_energy, taskCost, requestCost, total_nil]
    omega
  | @resumes command notified room =>
    simp only [pushBack_energy, record_energy, taskCost, total_nil]
    cases notified <;> simp [given]
  | @sleeps command notified full =>
    simp only [taskCost, total_cons, total_nil]
    cases notified <;> simp [given]
  | @becomesReady connit after became =>
    have ready := onConnBecomesReady_energy owned (fits connit rfl) became
    simp only [taskCost, total_nil]
    omega
  | @discards connit work stopped =>
    have erased := erase_energy usenet .busy connit
    have same : energy { (usenet.erase .busy connit).record (.discarded connit) with work } =
        energy (usenet.erase .busy connit) := rfl
    simp only [taskCost, total_nil, same]
    omega
  | redispatches idle dispatched =>
    have dispatches := dispatch_energy owned dispatched
    simp only [taskCost, total_nil]
    omega
  | requeues =>
    simp only [pushBack_energy, taskCost, total_nil]
    omega
  | @reconnects connit msgid connection present =>
    have performed := perform_energy (usenet.pushBack (.startAsyncStat msgid)) connit (connection.close choice.outcome).asyncConnect
    have connects := asyncConnect_cost (connection.close choice.outcome)
    simp only [pushBack_energy, commandCost, taskCost, total_nil, given] at performed ⊢
    omega
  | observes slot =>
    have calls : total taskCost (choice.calls.map Task.request) = total requestCost choice.calls := total_map ..
    cases task <;> cases slot
    all_goals
      simp only [record_energy, calls, taskCost, given]
      omega

theorem follows_cost {stage : Stage} {handler : Handler α} (follow : follows stage handler = true) (other : stage ≠ .doPost) :
    handlerCost handler + 3 ≤ stageCost stage := by
  unfold follows at follow
  split at follow
  all_goals first | exact absurd rfl other | exact Nat.le_of_ble_eq_true rfl | cases follow

theorem started_grows (grows : ∃ new, after.trace = new ++ usenet.trace) : started usenet ≤ started after := by
  obtain ⟨new, trace⟩ := grows
  rw [started, started, trace, total_append]
  exact Nat.le_add_left ..

theorem started_record {entry : Entry α} (silent : startOf entry = 0) : started (usenet.record entry) = started usenet := by
  rw [started, record, total_cons, silent, Nat.zero_add, started]

theorem perform_grows (usenet : Usenet α) (connit : ConnectionHandle) (act : Act α) :
    started usenet ≤ started (usenet.perform connit act) := started_grows ⟨_, rfl⟩

/-- A function that runs pays for the one that follows; a post is paid for when its command goes out. -/
theorem stage_energy {connection : Connection α} {stage : Stage} (fits : Fits connection (.stage stage))
    (staying : owns (.stage stage : Handler α) = true) (outcome : Outcome) :
    Pays usenet (usenet.perform connit (connection.run usenet.articles stage outcome)) (stageCost stage) := by
  have performed := perform_energy usenet connit (connection.run usenet.articles stage outcome)
  have grows := perform_grows usenet connit (connection.run usenet.articles stage outcome)
  obtain ⟨handler, one, -, -, -⟩ := run_continues usenet.articles outcome fits staying
  rw [one, total_cons, total_nil] at performed
  by_cases sends : stage = .doPost
  · subst sends
    have left : handlerCost handler = 56 := by
      have same : (connection.run usenet.articles .doPost outcome).2.filterMap Call.handler? = [.stage .postWritten] :=
        handlers_timeout ..
      cases one.symm.trans same
      rfl
    have starts : started (usenet.perform connit (connection.run usenet.articles .doPost outcome)) = started usenet + 1 := by
      have wrote : (connection.run usenet.articles .doPost outcome).2.filterMap (wrote? connit) =
          [.wrote connit Protocol.post .postWritten] := by
        simp only [Connection.run, doPost, write, timeoutNextAsyncOperation, List.filterMap_append]
        split <;> rfl
      simp only [started, perform, wrote, List.reverse_singleton, total_append, total_cons, total_nil, startOf]
      omega
    simp only [Pays, starts, left, stageCost, startCost] at performed ⊢
    omega
  · have follow := run_follows usenet.articles stage outcome connection handler (by rw [one]; exact List.mem_singleton.mpr rfl)
    have cheaper := follows_cost follow sends
    simp only [Pays, startCost]
    omega

theorem deliver_energy (owned : Owned (connit :: hand) usenet) {handler : Handler α} (owning : owns handler = true)
    (fits : ∀ connection, usenet.connections connit = some connection → Fits connection handler) (outcome : Outcome) :
    energy (usenet.deliver connit handler outcome).1 + total taskCost (usenet.deliver connit handler outcome).2 +
        startCost * started usenet + 1 ≤
      energy usenet + handlerCost handler + startCost * started (usenet.deliver connit handler outcome).1 := by
  obtain ⟨connection, present⟩ := present_in_hand owned
  have closes (entry : Entry α) (act : Act α) := perform_energy (usenet.record entry) connit act
  simp only [deliver, present]
  cases handler with
  | timer => cases owning
  | stage stage =>
    have pays : Pays usenet (usenet.perform connit (connection.run usenet.articles stage outcome)) (stageCost stage) :=
      stage_energy (fits connection present) owning outcome
    simp only [Pays, total_nil, handlerCost] at pays ⊢
    omega
  | connectHandler result =>
    have same : started (usenet.record (.connected connit result)) = started usenet := started_record rfl
    cases result <;> simp only [onConnected, record_energy, total_cons, total_nil, taskCost, handlerCost, same] <;> omega
  | statHandler msgid result =>
    have same : started (usenet.record (.stated connit msgid result)) = started usenet := started_record rfl
    cases result <;> simp only [onStatFinished, record_energy, total_cons, total_nil, taskCost, handlerCost, same] <;> omega
  | postHandler msg result =>
    have same : started (usenet.record (.posted connit msg result)) = started usenet := started_record rfl
    cases result with
    | postSuccess | postFailure =>
      simp only [onPostFinished, record_energy, total_cons, total_nil, taskCost, handlerCost, same]
      omega
    | postingNotPermitted =>
      have closed := closes (.posted connit msg .postingNotPermitted) (connection.close outcome, [])
      have grows := perform_grows (usenet.record (.posted connit msg .postingNotPermitted)) connit (connection.close outcome, [])
      simp only [onPostFinished, record_energy, total_cons, total_nil, taskCost, commandCost, handlerCost, same,
        List.filterMap_nil, startCost] at closed grows ⊢
      omega
    | postFailureConnectionError =>
      have closed := closes (.posted connit msg .postFailureConnectionError) (connection.close outcome).asyncConnect
      have connects := asyncConnect_cost (connection.close outcome)
      have grows := perform_grows (usenet.record (.posted connit msg .postFailureConnectionError)) connit
        (connection.close outcome).asyncConnect
      simp only [onPostFinished, record_energy, total_cons, total_nil, taskCost, handlerCost, same, startCost] at closed grows ⊢
      omega

theorem pushTasks_energy (usenet : Usenet α) {index : Nat} (inside : index < usenet.threads.length) (tasks : List (Task α)) :
    energy (usenet.pushTasks index tasks) = energy usenet + total taskCost tasks := by
  have pushed := onTasks_pushTasks taskCost inside tasks
  show pendingCost usenet + onTasks taskCost (usenet.pushTasks index tasks) + total commandCost usenet.queue +
    4 * usenet.ready.length + timersCost usenet = _
  rw [pushed, energy]
  omega

theorem popTask_energy {index : Nat} {io : Bool} {task : Task α} {tasks : List (Task α)}
    (found : usenet.threads[index]? = some ⟨io, task :: tasks⟩) :
    energy { usenet with threads := usenet.threads.set index ⟨io, tasks⟩ } + taskCost task = energy usenet := by
  have popped := onTasks_pop taskCost found
  show pendingCost usenet + onTasks taskCost { usenet with threads := usenet.threads.set index ⟨io, tasks⟩ } +
    total commandCost usenet.queue + 4 * usenet.ready.length + timersCost usenet + _ = _
  rw [energy]
  omega

theorem takePending_energy {place : Nat} {handler : Handler α} (found : usenet.pending[place]? = some (connit, handler)) :
    energy { usenet with pending := usenet.pending.eraseIdx place } + handlerCost handler = energy usenet := by
  have removed := total_eraseIdx (fun entry : ConnectionHandle × Handler α => handlerCost entry.2) found
  show total (fun entry => handlerCost entry.2) (usenet.pending.eraseIdx place) + onTasks taskCost usenet +
    total commandCost usenet.queue + 4 * usenet.ready.length + timersCost usenet + _ = _
  rw [energy, pendingCost]
  dsimp only at removed
  omega

theorem idle_energy (usenet : Usenet α) (io : Bool) (count : Nat) :
    energy { usenet with threads := usenet.threads ++ List.replicate count ⟨io, []⟩ } = energy usenet := by
  have idle := onTasks_idle taskCost usenet io count
  show pendingCost usenet + onTasks taskCost { usenet with threads := usenet.threads ++ List.replicate count ⟨io, []⟩ } +
    total commandCost usenet.queue + 4 * usenet.ready.length + timersCost usenet = _
  rw [idle, energy]

theorem addConnection_energy (usenet : Usenet α) (conninfo : ConnectionInfo) :
    energy (usenet.addConnection conninfo) ≤ energy usenet + 37 := by
  have performed := perform_energy { usenet with
    busy := usenet.busy ++ [usenet.nextHandle]
    busySize := usenet.busySize + 1
    nextHandle := usenet.nextHandle + 1 } usenet.nextHandle (Connection.make conninfo usenet.optimeout : Connection α).asyncConnect
  have connects := asyncConnect_cost (Connection.make conninfo usenet.optimeout : Connection α)
  have timers : energy { usenet with
      busy := usenet.busy ++ [usenet.nextHandle]
      busySize := usenet.busySize + 1
      nextHandle := usenet.nextHandle + 1 } ≤ energy usenet + 2 := by
    have small := armedCost_le (usenet.armed usenet.nextHandle)
    show pendingCost usenet + onTasks taskCost usenet + total commandCost usenet.queue + 4 * usenet.ready.length +
      total (fun connit => armedCost (usenet.armed connit)) (List.range (usenet.nextHandle + 1)) ≤ _
    rw [energy, timersCost, List.range_succ, total_append, total_cons, total_nil]
    omega
  rw [addConnection]
  omega

theorem addConnections_energy (usenet : Usenet α) (conninfo : ConnectionInfo) (numConnections : Nat) :
    energy (usenet.addConnections conninfo numConnections) ≤ energy usenet + 37 * numConnections := by
  induction numConnections generalizing usenet with
  | zero => exact Nat.le_refl _
  | succ numConnections ih =>
    have first := addConnection_energy usenet conninfo
    have rest := ih (usenet.addConnection conninfo)
    rw [addConnections]
    omega

theorem handlerCost_pos (handler : Handler α) : 0 < handlerCost handler := by
  cases handler with
  | stage stage => cases stage <;> exact Nat.le_of_ble_eq_true rfl
  | _ => exact Nat.le_of_ble_eq_true rfl

/-- What a step brings into the pool. -/
def supplied (usenet : Usenet α) : Event α → Nat
  | .addConnections _ numConnections => 37 * numConnections + 1
  | .call _ request => requestCost request + 1
  | .proceed index choice => ((headTask usenet index).map (given choice)).getD 0
  | .take _ _ _ | .expire _ => 0
  | _ => 1

/-- Every step of a pool pays for what it does. -/
theorem step_pays {event : Event α} (owned : Owned [] usenet) (taken : usenet.step event = some after) :
    Pays usenet after (supplied usenet event) := by
  obtain ⟨new, trace, -⟩ := step_written taken
  have grows := started_grows ⟨new, trace⟩
  have pays (falls : energy after + 1 ≤ energy usenet + supplied usenet event) : Pays usenet after (supplied usenet event) := by
    simp only [Pays, startCost]
    omega
  cases event with
  | addConnections conninfo numConnections =>
    cases taken
    have adds := addConnections_energy usenet conninfo numConnections
    exact pays (by simp only [supplied]; omega)
  | start =>
    cases taken
    have same : energy usenet.start = energy usenet := idle_energy usenet true usenet.numthreads
    exact pays (by simp only [supplied]; omega)
  | spawn =>
    cases taken
    have same : energy { usenet with threads := usenet.threads ++ [⟨false, []⟩] } = energy usenet := idle_energy usenet false 1
    exact pays (by simp only [supplied]; omega)
  | call index request =>
    obtain ⟨found, rfl⟩ := step_call taken
    have pushed := pushTasks_energy usenet (List.getElem?_eq_some_iff.mp found).1 [.request request]
    simp only [total_cons, total_nil, taskCost] at pushed
    exact pays (by simp only [supplied]; omega)
  | take index place outcome =>
    obtain ⟨connit, handler, idle, found, rfl⟩ := step_take taken
    have inside := (List.getElem?_eq_some_iff.mp idle).1
    have removed := takePending_energy found
    rcases takePending_cases owned found outcome with ⟨owning, taken, fits⟩ | ⟨stale, nothing⟩
    · have delivered := deliver_energy taken owning fits outcome
      rw [show started { usenet with pending := usenet.pending.eraseIdx place } = started usenet from rfl] at delivered
      rw [← (deliver_apart { usenet with pending := usenet.pending.eraseIdx place } connit handler outcome).threads] at inside
      generalize { usenet with pending := usenet.pending.eraseIdx place }.deliver connit handler outcome = result at delivered inside
      have pushed := pushTasks_energy result.1 inside result.2
      show _ + startCost * _ + 1 ≤ _ + startCost * started result.1 + 0
      omega
    · have positive := handlerCost_pos handler
      rw [nothing] at pays ⊢
      have pushed := pushTasks_energy { usenet with pending := usenet.pending.eraseIdx place } inside []
      rw [total_nil] at pushed
      exact pays (by simp only [supplied]; omega)
  | expire connit =>
    obtain ⟨present, armed, rfl⟩ := step_expire taken
    have known := owned.known connit ((owned.alive connit).mpr present)
    have timers := armed_update_known usenet.armed false known
    have waits : energy { usenet with
        armed := Function.update usenet.armed connit false
        pending := usenet.pending ++ [(connit, .timer)] } + 1 = energy usenet := by
      rw [armed] at timers
      show total (fun entry => handlerCost entry.2) (usenet.pending ++ [(connit, .timer)]) + onTasks taskCost usenet +
        total commandCost usenet.queue + 4 * usenet.ready.length +
        total (fun other => armedCost (Function.update usenet.armed connit false other)) (List.range usenet.nextHandle) + 1 = _
      simp only [energy, pendingCost, timersCost, total_append, total_cons, total_nil, handlerCost, armedCost, if_true,
        Bool.false_eq_true, if_false] at timers ⊢
      omega
    exact pays (by simp only [supplied]; omega)
  | proceed index choice =>
    obtain ⟨io, task, tasks, result, found, proceeded, rfl⟩ := step_proceed taken
    have popped := popTask_energy found
    have moved := proceed_energy (popTask_owned owned found) (popTask_fits owned found) proceeded
    have pushed := pushTasks_energy result.1 (proceed_inside found proceeded) result.2
    have head : headTask usenet index = some task := headTask_found found
    exact pays (by simp only [supplied, head, Option.map_some, Option.getD_some]; omega)
  | setOperationTimeout | stop | rewrite =>
    cases taken
    exact pays (Nat.le_refl _)

end Post2Usenet.Proofs.PoolEnergy
