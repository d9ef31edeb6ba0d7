import Post2Usenet.Proofs.PoolOwnership
import Post2Usenet.Proofs.PoolTrace

/-! Where the articles are. A post that has passed its wait is a command in the
queue, the article of a busy connection, in the hands of the thread that was told
how it ended, or concluded by one callback. -/

namespace Post2Usenet.Proofs.PoolAccounting
open Connection Usenet ConnectionSteps PoolSteps PoolOwnership PoolTrace Tally

variable {α : Type} [DecidableEq α] {usenet after : Usenet α} {connit : ConnectionHandle} {command : Command α}
  {hand : List ConnectionHandle} (msg : α)

def queuedOf : Command α → Nat
  | .startAsyncPost other => if other = msg then 1 else 0
  | .startAsyncStat _ => 0

def heldOf (connection : Option (Connection α)) : Nat := (connection.bind Connection.article).toList.count msg

def boundOf (entry : ConnectionHandle × Handler α) : Nat := (articles entry.2).count msg

/-- The two callbacks that conclude a post, and the way back to the queue. -/
def inHandOf : Task α → Nat
  | .dispatchOrQueue command => queuedOf msg command
  | .slotPostFailed other | .slotFinishPost other => if other = msg then 1 else 0
  | _ => 0

def passedOf : Entry α → Nat
  | .passed command => queuedOf msg command
  | _ => 0

def concludedOf : Entry α → Nat
  | .postFailed other | .postFinished other => if other = msg then 1 else 0
  | _ => 0

/-- The calls of `enqueue_post` that are past their wait. -/
def passed (usenet : Usenet α) : Nat := total (passedOf msg) usenet.trace

def queued (usenet : Usenet α) : Nat := total (queuedOf msg) usenet.queue

/-- What a connection was given and has not reported yet, nor has its last handler. -/
def holds (usenet : Usenet α) (connit : ConnectionHandle) : List α :=
  ((usenet.connections connit).bind Connection.article).toList ++
    usenet.pending.flatMap (fun entry => if entry.1 = connit then articles entry.2 else [])

def held (usenet : Usenet α) : Nat := total (fun connit => (holds usenet connit).count msg) usenet.busy

def inHand (usenet : Usenet α) : Nat := onTasks (inHandOf msg) usenet

def concluded (usenet : Usenet α) : Nat := total (concludedOf msg) usenet.trace

/-- All that is not concluded, with the connections counted by their handles and
apart from what they have posted. -/
def placed (usenet : Usenet α) : Nat :=
  queued msg usenet + total (fun connit => heldOf msg (usenet.connections connit)) (List.range usenet.nextHandle) +
    total (boundOf msg) usenet.pending + inHand msg usenet

theorem heldOf_some (connection : Connection α) : heldOf msg (some connection) = connection.article.toList.count msg :=
  rfl

theorem heldOf_none : heldOf msg (none : Option (Connection α)) = 0 := rfl

theorem quiet_passedOf : Quiet (passedOf msg) := by constructor <;> intros <;> rfl

theorem quiet_concludedOf : Quiet (concludedOf msg) := by constructor <;> intros <;> rfl

theorem held_update (connections : ConnectionHandle → Option (Connection α)) {count : Nat} (known : connit < count)
    (value : Option (Connection α)) :
    total (fun other => heldOf msg (Function.update connections connit value other)) (List.range count) +
        heldOf msg (connections connit) =
      total (fun other => heldOf msg (connections other)) (List.range count) + heldOf msg value := by
  have change := total_update (fun other => heldOf msg (connections other)) List.nodup_range
    (List.mem_range.mpr known) (heldOf msg value)
  rw [← change]
  congr 2
  funext other
  by_cases same : other = connit
  · subst same
    simp
  · simp [Function.update_of_ne same]

theorem placed_frame (queue : after.queue = usenet.queue) (connections : after.connections = usenet.connections)
    (nextHandle : after.nextHandle = usenet.nextHandle) (pending : after.pending = usenet.pending)
    (threads : after.threads = usenet.threads) : placed msg after = placed msg usenet := by
  simp only [placed, queued, inHand, onTasks, queue, connections, nextHandle, pending, threads]

theorem perform_placed {connection : Connection α} (known : connit < usenet.nextHandle)
    (present : usenet.connections connit = some connection) {act : Act α} {given : List α}
    (handsOver : HandsOver given act) :
    placed msg (usenet.perform connit act) + connection.article.toList.count msg =
      placed msg usenet + given.count msg := by
  obtain ⟨handler, one, -, -, rfl⟩ := handsOver
  have change := held_update msg usenet.connections known (some act.1)
  rw [present, heldOf_some, heldOf_some] at change
  simp only [placed, queued, inHand, onTasks, perform, one, List.map_cons, List.map_nil, total_append, total_cons,
    total_nil, boundOf, List.count_append]
  omega

theorem pushBack_placed (usenet : Usenet α) (command : Command α) :
    placed msg (usenet.pushBack command) = placed msg usenet + queuedOf msg command := by
  simp only [placed, queued, pushBack, inHand, onTasks, total_append, total_cons, total_nil]
  omega

omit [DecidableEq α] in
theorem known_in_hand (owned : Owned (connit :: hand) usenet) : connit < usenet.nextHandle :=
  owned.known connit (List.mem_append_right _ (owned_in_hand owned).1)

theorem run_placed (owned : Owned (connit :: hand) usenet)
    (idle : ∀ connection, usenet.connections connit = some connection → Idle connection)
    (taken : usenet.run connit command = some after) : placed msg after = placed msg usenet + queuedOf msg command := by
  obtain ⟨connection, present⟩ := present_in_hand owned
  obtain ⟨act, performed, handsOver⟩ := run_idle present (idle connection present) command
  rw [performed] at taken
  cases taken
  have change := perform_placed msg (known_in_hand owned) present handsOver
  rw [(idle connection present).article] at change
  cases command with
  | startAsyncPost other => simpa [queuedOf, List.count_singleton] using change
  | startAsyncStat msgid => simpa [queuedOf] using change

theorem dispatch_placed (owned : Owned hand usenet) (taken : usenet.dispatch command = some after) :
    placed msg after = placed msg usenet + queuedOf msg command := by
  obtain ⟨⟨connit, moved⟩, head, run⟩ := Option.bind_eq_some_iff.mp taken
  obtain ⟨movedOwned, idle⟩ := takeReady_owned owned head
  obtain ⟨ready, -, same⟩ := takeReady_cases head
  have unmoved : placed msg moved = placed msg usenet := by rw [same]; rfl
  rw [run_placed msg movedOwned idle run, unmoved]

theorem erase_placed (named : Side) (known : connit < usenet.nextHandle)
    (empty : ∀ connection, usenet.connections connit = some connection → connection.article = none) :
    placed msg (usenet.erase named connit) = placed msg usenet := by
  have change := held_update msg usenet.connections known none
  have nothing : heldOf msg (usenet.connections connit) = 0 := by
    cases present : usenet.connections connit with
    | none => rfl
    | some connection => simp [heldOf, empty connection present]
  rw [nothing, heldOf_none] at change
  simp only [placed, queued, inHand, onTasks, erase]
  omega

theorem gracefulDisconnect_placed (owned : Owned hand usenet) (member : connit ∈ usenet.ready) {named : Side}
    (taken : usenet.gracefulDisconnect named connit = some after) : placed msg after = placed msg usenet := by
  obtain ⟨connection, present, rfl⟩ := Option.map_eq_some_iff.mp taken
  have idle := owned.idle connit member connection present
  have known := owned.known connit (List.mem_append_left _ member)
  have empty : heldOf msg (usenet.connections connit) = 0 := by simp [present, heldOf, idle.article]
  have change := held_update msg usenet.connections known none
  rw [empty, heldOf_none] at change
  rw [performAccepted]
  split
  · simp only [asyncGracefulDisconnect, idle.state, ne_eq, not_true, ite_false, write, placed, queued, inHand, onTasks,
      record, erase, perform, handlers_timeout, Function.update_idem]
    simp only [List.filterMap_cons, List.filterMap_nil, Call.handler?, List.map_cons, List.map_nil, total_append,
      total_cons, total_nil, boundOf, ConnectionSteps.articles, List.count_nil]
    omega
  · simp only [placed, queued, inHand, onTasks, record, erase]
    omega

theorem shutdown_placed (owned : Owned hand usenet) (member : connit ∈ usenet.ready)
    (taken : usenet.shutdown connit = some after) : placed msg after = placed msg usenet := by
  refine (shutdown_owned_keeps (motive := fun next => placed msg next = placed msg usenet) ?_ owned member rfl taken).2.2
  exact fun before named connit after earlier inside same disconnected =>
    (gracefulDisconnect_placed msg earlier inside disconnected).trans same

theorem onConnBecomesReady_placed (owned : Owned (connit :: hand) usenet)
    (idle : ∀ connection, usenet.connections connit = some connection → Idle connection) {wake : Option Nat}
    (taken : usenet.onConnBecomesReady connit wake = some after) : placed msg after = placed msg usenet := by
  rcases onConnBecomesReady_cases taken with ⟨command, queue, notified, waiting, woken, run⟩ | ⟨-, -, rfl⟩ | ⟨-, -, down⟩
  · have same : notified.connections = usenet.connections ∧ notified.nextHandle = usenet.nextHandle ∧
        notified.pending = usenet.pending := by
      rcases woken with rfl | ⟨_, _, _, _, _, rfl⟩ <;> exact ⟨rfl, rfl, rfl⟩
    have popped : Owned (connit :: hand) { notified with queue } :=
      (notified_owned owned woken).frame rfl rfl rfl rfl rfl rfl
    have counted := @onTasks_notified _ _ _ (inHandOf msg) (fun _ => rfl) woken
    rw [run_placed msg popped (by rw [same.1]; exact idle) run]
    simp only [placed, queued, inHand, waiting, total_cons, same.1, same.2.1, same.2.2] at counted ⊢
    simp only [onTasks] at counted ⊢
    omega
  · rfl
  · have becomes := becomeReady_owned owned idle
    rw [shutdown_placed msg becomes (by simp [becomeReady]) down]
    rfl

private theorem calls_empty (calls : List (Request α)) : total (inHandOf msg) (calls.map Task.request) = 0 := by
  rw [total_map]
  simp [total, inHandOf]

/-- What a task does with an article: it passes, moves or is concluded. -/
theorem proceed_placed {choice : Choice α} {task : Task α} (owned : Owned ((connit? task).toList ++ hand) usenet)
    (fits : ∀ connit, connit? task = some connit →
      ∀ connection, usenet.connections connit = some connection → TaskFits connection task)
    {result : Usenet α × List (Task α)} (taken : usenet.proceed choice task = some result) :
    placed msg result.1 + total (inHandOf msg) result.2 + recorded (concludedOf msg) result.2 task =
      placed msg usenet + inHandOf msg task + recorded (passedOf msg) result.2 task := by
  cases proceed_executes taken with
  | @dispatches request after idle dispatched =>
    have recordedOwned := record_owned owned (.passed request.command)
    rw [dispatch_placed msg recordedOwned dispatched]
    rfl
  | waits => simp [recorded, inHandOf]
  | defers =>
    rw [pushBack_placed]
    rfl
  | resumes =>
    rw [pushBack_placed]
    rfl
  | sleeps => simp [recorded, inHandOf]
  | @becomesReady connit after became =>
    rw [onConnBecomesReady_placed msg owned (fits connit rfl) became]
    rfl
  | @discards connit work stopped =>
    have erased := erase_placed msg .busy (known_in_hand owned) (fits connit rfl)
    exact (placed_frame msg rfl rfl rfl rfl rfl).trans erased
  | redispatches idle dispatched =>
    rw [dispatch_placed msg owned dispatched]
    rfl
  | requeues =>
    rw [pushBack_placed]
    rfl
  | @reconnects connit msgid connection present =>
    have empty : connection.article = none := fits connit rfl connection present
    have pushed := pushBack_owned owned (.startAsyncStat msgid)
    have change := perform_placed msg (known_in_hand pushed) present (asyncConnect_close_continues choice.outcome empty)
    have same := pushBack_placed msg usenet (.startAsyncStat msgid)
    simp only [recorded, inHandOf, queuedOf, total_nil] at same ⊢
    omega
  | observes slot =>
    cases task <;> cases slot
    all_goals
      simp only [calls_empty, recorded, passedOf, concludedOf, inHandOf]
      rfl

theorem close_placed {connection : Connection α} (known : connit < usenet.nextHandle)
    (present : usenet.connections connit = some connection) (empty : connection.article = none) (outcome : Outcome) :
    placed msg (usenet.perform connit (connection.close outcome, [])) = placed msg usenet := by
  have change := held_update msg usenet.connections known (some (connection.close outcome))
  rw [present, heldOf_some, heldOf_some, close_article, empty] at change
  simp only [placed, queued, inHand, onTasks, perform, List.filterMap_nil, List.map_nil, List.append_nil]
  omega

theorem onPostFinished_placed (known : connit < usenet.nextHandle) {connection : Connection α}
    (present : usenet.connections connit = some connection) (empty : connection.article = none) (other : α)
    (result : PostResult) (outcome : Outcome) :
    placed msg (usenet.onPostFinished connit connection other result outcome).1 +
        total (inHandOf msg) (usenet.onPostFinished connit connection other result outcome).2 =
      placed msg usenet + [other].count msg := by
  have unrecorded : placed msg (usenet.record (.posted connit other result)) = placed msg usenet := rfl
  cases result with
  | postingNotPermitted =>
    have closed : placed msg ((usenet.record (.posted connit other .postingNotPermitted)).perform connit
        (connection.close outcome, [])) = placed msg usenet := close_placed msg known present empty outcome
    simp only [onPostFinished, closed, total_cons, total_nil, inHandOf, queuedOf, List.count_singleton,
      beq_iff_eq]
    omega
  | postFailure =>
    simp only [onPostFinished, unrecorded, total_cons, total_nil, inHandOf, List.count_singleton, beq_iff_eq]
    omega
  | postFailureConnectionError =>
    have reopened : placed msg ((usenet.record (.posted connit other .postFailureConnectionError)).perform connit
        (connection.close outcome).asyncConnect) + _ = placed msg usenet + _ :=
      perform_placed msg known present (asyncConnect_close_continues outcome empty)
    simp only [onPostFinished, total_cons, total_nil, inHandOf, List.count_singleton, beq_iff_eq]
    omega
  | postSuccess =>
    simp only [onPostFinished, unrecorded, total_cons, total_nil, inHandOf, List.count_singleton, beq_iff_eq]
    omega

/-- A handler keeps what its connection holds, and hands over what is bound to it. -/
theorem deliver_placed (owned : Owned (connit :: hand) usenet) {handler : Handler α} (owning : owns handler = true)
    (fits : ∀ connection, usenet.connections connit = some connection → Fits connection handler) (outcome : Outcome) :
    placed msg (usenet.deliver connit handler outcome).1 +
        total (inHandOf msg) (usenet.deliver connit handler outcome).2 =
      placed msg usenet + boundOf msg (connit, handler) := by
  obtain ⟨connection, present⟩ := present_in_hand owned
  have fits := fits connection present
  have known := known_in_hand owned
  simp only [deliver, present]
  cases handler with
  | stage stage =>
    have change := perform_placed msg known present (run_continues usenet.articles outcome fits owning)
    simp only [total_nil, boundOf, ConnectionSteps.articles, List.count_nil]
    omega
  | timer => cases owning
  | connectHandler result => cases result <;> rfl
  | postHandler other result => exact onPostFinished_placed msg known present fits.article other result outcome
  | statHandler msgid result => cases result <;> rfl

theorem addConnection_placed (usenet : Usenet α) (conninfo : ConnectionInfo) :
    placed msg (usenet.addConnection conninfo) = placed msg usenet := by
  have others : total (fun connit => heldOf msg (Function.update usenet.connections usenet.nextHandle
      (some (.make conninfo usenet.optimeout)) connit)) (List.range usenet.nextHandle) =
      total (fun connit => heldOf msg (usenet.connections connit)) (List.range usenet.nextHandle) := by
    apply total_congr
    intro connit inside
    rw [Function.update_of_ne (Nat.ne_of_lt (List.mem_range.mp inside))]
  simp only [placed, queued, inHand, onTasks, addConnection, perform, asyncConnect, List.range_succ, total_append,
    total_cons, total_nil, Function.update_self, others]
  rfl

theorem addConnections_placed (usenet : Usenet α) (conninfo : ConnectionInfo) (numConnections : Nat) :
    placed msg (usenet.addConnections conninfo numConnections) = placed msg usenet :=
  addConnections_keeps (motive := fun next => placed msg next = placed msg usenet)
    (fun before same => (addConnection_placed msg before conninfo).trans same) rfl numConnections

/-- Every post that has passed is in one of the places. -/
def Balanced (usenet : Usenet α) : Prop := passed msg usenet = placed msg usenet + concluded msg usenet

theorem pushTasks_placed {index : Nat} (inside : index < usenet.threads.length) (tasks : List (Task α)) :
    placed msg (usenet.pushTasks index tasks) = placed msg usenet + total (inHandOf msg) tasks := by
  have change := onTasks_pushTasks (inHandOf msg) inside tasks
  simp only [placed, inHand, change]
  simp only [queued, pushTasks]
  omega

theorem popTask_placed {index : Nat} {io : Bool} {task : Task α} {tasks : List (Task α)}
    (found : usenet.threads[index]? = some ⟨io, task :: tasks⟩) :
    placed msg usenet =
      placed msg { usenet with threads := usenet.threads.set index ⟨io, tasks⟩ } + inHandOf msg task := by
  have change := onTasks_pop (inHandOf msg) found
  simp only [placed, inHand, change, queued]
  omega

theorem takePending_placed {place : Nat} {handler : Handler α} (found : usenet.pending[place]? = some (connit, handler)) :
    placed msg usenet =
      placed msg { usenet with pending := usenet.pending.eraseIdx place } + boundOf msg (connit, handler) := by
  have change := total_eraseIdx (boundOf msg) found
  simp only [placed, change, inHand, onTasks, queued]
  omega

theorem idle_placed (usenet : Usenet α) (io : Bool) (count : Nat) :
    placed msg { usenet with threads := usenet.threads ++ List.replicate count ⟨io, []⟩ } = placed msg usenet := by
  have same := onTasks_idle (inHandOf msg) usenet io count
  simp only [placed, inHand, same, queued]

theorem step_balanced {event : Event α} (owned : Owned [] usenet) (balanced : Balanced msg usenet)
    (taken : usenet.step event = some after) : Balanced msg after := by
  cases event with
  | setOperationTimeout seconds =>
    cases taken
    exact balanced
  | addConnections conninfo numConnections =>
    cases taken
    simp only [Balanced, passed, concluded, addConnections_placed, addConnections_trace]
    exact balanced
  | start =>
    cases taken
    have same : placed msg usenet.start = placed msg usenet := idle_placed msg usenet true usenet.numthreads
    rw [Balanced, same]
    exact balanced
  | stop =>
    cases taken
    exact balanced
  | spawn =>
    cases taken
    have same : placed msg { usenet with threads := usenet.threads ++ [⟨false, []⟩] } = placed msg usenet :=
      idle_placed msg usenet false 1
    rw [Balanced, same]
    exact balanced
  | call index request =>
    obtain ⟨found, rfl⟩ := step_call taken
    rw [Balanced, pushTasks_placed msg (List.getElem?_eq_some_iff.mp found).1]
    exact balanced
  | take index place outcome =>
    obtain ⟨connit, handler, idle, found, rfl⟩ := step_take taken
    have inside := (List.getElem?_eq_some_iff.mp idle).1
    have removed := takePending_placed msg found
    have before := balanced
    simp only [Balanced, passed, concluded] at before
    rw [Balanced, pushTasks_placed msg (by rw [(deliver_apart ..).threads]; exact inside)]
    simp only [passed, concluded, pushTasks]
    rcases takePending_cases owned found outcome with ⟨owning, taken, fits⟩ | ⟨stale, nothing⟩
    · have moved := deliver_placed msg taken owning fits outcome
      have present := Option.isSome_iff_exists.mpr (present_in_hand taken)
      have passes := deliver_trace (quiet_passedOf msg) handler outcome present
      have concludes := deliver_trace (quiet_concludedOf msg) handler outcome present
      have silent : reported (passedOf msg) connit handler = 0 ∧ reported (concludedOf msg) connit handler = 0 := by
        cases handler <;> exact ⟨rfl, rfl⟩
      simp only [silent.1, silent.2] at passes concludes
      omega
    · have unbound : boundOf msg (connit, handler) = 0 := by
        cases handler with
        | stage stage => rfl
        | timer => rfl
        | _ => cases stale
      simp only [nothing, total_nil]
      omega
  | expire connit =>
    obtain ⟨-, -, rfl⟩ := step_expire taken
    have same : placed msg { usenet with
        armed := Function.update usenet.armed connit false
        pending := usenet.pending ++ [(connit, .timer)] } = placed msg usenet := by
      simp only [placed, queued, inHand, onTasks, total_append, total_cons, total_nil]
      rfl
    rw [Balanced, same]
    exact balanced
  | proceed index choice =>
    obtain ⟨io, task, tasks, result, found, proceeded, rfl⟩ := step_proceed taken
    have inside := proceed_inside found proceeded
    have popped := popTask_placed msg found
    have moved := proceed_placed msg (popTask_owned owned found) (popTask_fits owned found) proceeded
    have passes := proceed_trace (quiet_passedOf msg) proceeded
    have concludes := proceed_trace (quiet_concludedOf msg) proceeded
    dsimp only at passes concludes
    have before := balanced
    simp only [Balanced, passed, concluded] at before
    rw [Balanced, pushTasks_placed msg inside]
    simp only [passed, concluded, pushTasks]
    omega
  | rewrite articles =>
    cases taken
    exact balanced

theorem reachable_balanced {eraseRule : EraseRule} {iothreads maxQueueSize : Nat} {heap : α → Article}
    (reached : Machine.Reachable step (Usenet.make eraseRule iothreads maxQueueSize heap) usenet) :
    Balanced msg usenet := by
  apply (reached.invariant (fun usenet => Owned [] usenet ∧ Balanced msg usenet) ?_ ?_).2
  · exact ⟨owned_make .., rfl⟩
  · exact fun _ _ _ both taken => ⟨step_owned both.1 taken, step_balanced msg both.1 both.2 taken⟩

omit [DecidableEq α] in
/-- No connection holds two articles, and only a busy one holds any. -/
theorem holds_length (owned : Owned [] usenet) (connit : ConnectionHandle) :
    (holds usenet connit).length ≤ usenet.busy.count connit := by
  have single := owned.single connit
  have shorter : (usenet.pending.flatMap (fun entry => if entry.1 = connit then articles entry.2 else [])).length ≤
      total (handlerOf connit) usenet.pending := by
    rw [List.length_flatMap]
    apply List.sum_le_sum
    intro entry _
    obtain ⟨other, handler⟩ := entry
    by_cases same : other = connit
    · cases handler <;> simp [same, handlerOf, owns, ConnectionSteps.articles]
    · simp [same]
  have counted : owners usenet connit = total (handlerOf connit) usenet.pending + onTasks (taskOf connit) usenet := rfl
  simp only [List.count_nil] at single
  rw [holds, List.length_append]
  cases held : (usenet.connections connit).bind Connection.article with
  | none =>
    simp only [Option.toList_none, List.length_nil]
    omega
  | some article =>
    obtain ⟨connection, present, given⟩ := Option.bind_eq_some_iff.mp held
    have none : usenet.pending.flatMap (fun entry => if entry.1 = connit then articles entry.2 else []) = [] := by
      rw [List.flatMap_eq_nil_iff]
      rintro ⟨other, handler⟩ member
      by_cases same : other = connit
      · subst same
        cases handler with
        | postHandler bound result =>
          have idle : Idle connection := owned.handlers other _ member rfl connection present
          cases idle.article.symm.trans given
        | _ => rw [if_pos rfl]; rfl
      · exact if_neg same
    have busy : connit ∈ usenet.busy := by
      rcases List.mem_append.mp ((owned.alive connit).mpr (by simp [present])) with ready | busy
      · cases (owned.idle connit ready connection present).article.symm.trans given
      · exact busy
    have once := List.count_pos_iff.mpr busy
    simp only [none, Option.toList_some, List.length_singleton, List.length_nil]
    omega

theorem held_placed (owned : Owned [] usenet) :
    held msg usenet = total (fun connit => heldOf msg (usenet.connections connit)) (List.range usenet.nextHandle) +
      total (boundOf msg) usenet.pending := by
  have distinct := (List.nodup_append'.mp owned.distinct).2.1
  have given : total (fun connit => heldOf msg (usenet.connections connit)) (List.range usenet.nextHandle) =
      total (fun connit => heldOf msg (usenet.connections connit)) usenet.busy := by
    apply total_support distinct List.nodup_range
    · exact fun connit member => List.mem_range.mpr (owned.known connit (List.mem_append_right _ member))
    · intro connit _ absent
      have nothing := holds_length owned connit
      rw [List.count_eq_zero_of_not_mem absent, Nat.le_zero, List.length_eq_zero_iff] at nothing
      rw [heldOf, (List.append_eq_nil_iff.mp nothing).1, List.count_nil]
  have bound : total (fun connit => total (fun entry => if entry.1 = connit then boundOf msg entry else 0) usenet.pending)
      usenet.busy = total (boundOf msg) usenet.pending := by
    apply total_fibers distinct
    rintro ⟨connit, handler⟩ member weighs
    apply owner_of_handler owned member
    cases handler with
    | postHandler bound result => rfl
    | _ => exact absurd rfl weighs
  rw [given, ← bound, held, total, total, total, ← List.sum_map_add]
  congr 2
  funext connit
  rw [holds, List.count_append, List.count_flatMap, total]
  congr 3
  funext entry
  by_cases same : entry.1 = connit
  · simp [same, boundOf]
  · simp [same]

/-- Which callback a report leads to, if any. -/
def concludes : PostResult → Option Bool
  | .postSuccess => some true
  | .postFailure | .postFailureConnectionError => some false
  | .postingNotPermitted => none

variable (success : Bool)

def reportOf : Entry α → Nat
  | .posted _ other result => if other = msg ∧ concludes result = some success then 1 else 0
  | _ => 0

def concludingOf : Task α → Nat
  | .slotFinishPost other => if other = msg ∧ success = true then 1 else 0
  | .slotPostFailed other => if other = msg ∧ success = false then 1 else 0
  | _ => 0

def callbackOf : Entry α → Nat
  | .postFinished other => if other = msg ∧ success = true then 1 else 0
  | .postFailed other => if other = msg ∧ success = false then 1 else 0
  | _ => 0

def reports (usenet : Usenet α) : Nat := total (reportOf msg success) usenet.trace

def concluding (usenet : Usenet α) : Nat := onTasks (concludingOf msg success) usenet

def callbacks (usenet : Usenet α) : Nat := total (callbackOf msg success) usenet.trace

/-- Every report that concludes a post runs one callback, or is about to. -/
def Settled (usenet : Usenet α) : Prop :=
  reports msg success usenet = concluding msg success usenet + callbacks msg success usenet

theorem deliver_settled (usenet : Usenet α) (connit : ConnectionHandle) (handler : Handler α) (outcome : Outcome) :
    total (reportOf msg success) (usenet.deliver connit handler outcome).1.trace =
        total (concludingOf msg success) (usenet.deliver connit handler outcome).2 +
          total (reportOf msg success) usenet.trace ∧
      total (callbackOf msg success) (usenet.deliver connit handler outcome).1.trace =
        total (callbackOf msg success) usenet.trace := by
  have quietReport : Quiet (reportOf msg success) := by constructor <;> intros <;> rfl
  have quietCallback : Quiet (callbackOf msg success) := by constructor <;> intros <;> rfl
  cases present : usenet.connections connit with
  | none => simp [deliver, present]
  | some connection =>
    rw [deliver_trace quietReport handler outcome (by simp [present]),
      deliver_trace quietCallback handler outcome (by simp [present])]
    simp only [deliver, present]
    cases handler with
    | stage stage => simp [reported]
    | timer => simp [reported]
    | connectHandler result => cases result <;> simp [reported, onConnected, reportOf, callbackOf, concludingOf]
    | statHandler msgid result => cases result <;> simp [reported, onStatFinished, reportOf, callbackOf, concludingOf]
    | postHandler other result =>
      cases result <;>
        simp [reported, onPostFinished, reportOf, callbackOf, concludingOf, concludes, eq_comm]

theorem proceed_settled {choice : Choice α} {task : Task α} {result : Usenet α × List (Task α)}
    (taken : usenet.proceed choice task = some result) :
    total (reportOf msg success) result.1.trace = total (reportOf msg success) usenet.trace ∧
      total (callbackOf msg success) result.1.trace =
        concludingOf msg success task + total (callbackOf msg success) usenet.trace ∧
      total (concludingOf msg success) result.2 = 0 := by
  have quietReport : Quiet (reportOf msg success) := by constructor <;> intros <;> rfl
  have quietCallback : Quiet (callbackOf msg success) := by constructor <;> intros <;> rfl
  refine ⟨?_, ?_, ?_⟩
  · rw [proceed_trace quietReport taken]
    cases task <;> simp [recorded, reportOf]
  · rw [proceed_trace quietCallback taken]
    cases task <;> simp [recorded, callbackOf, concludingOf]
  · have calls := proceed_calls taken
    rw [total, List.sum_eq_zero]
    intro weight member
    obtain ⟨more, inside, rfl⟩ := List.mem_map.mp member
    have called := calls more inside
    cases more with
    | request request => rfl
    | wait command notified => rfl
    | _ => cases called

theorem step_settled {event : Event α} (settled : Settled msg success usenet)
    (taken : usenet.step event = some after) : Settled msg success after := by
  obtain ⟨popped, pushed, turns, tasks⟩ := step_turns taken
  have moved := tasks (concludingOf msg success) (fun _ => rfl)
  simp only [Settled, reports, concluding, callbacks] at settled ⊢
  generalize final : after.trace = trace at turns ⊢
  cases turns with
  | stands =>
    simp only [total_nil] at moved
    omega
  | call index request =>
    simp only [total_cons, total_nil, concludingOf] at moved
    omega
  | @take index place connit handler outcome found =>
    have delivered := deliver_settled msg success { usenet with pending := usenet.pending.eraseIdx place } connit handler
      outcome
    simp only [total_nil] at moved delivered
    omega
  | proceed found proceeded =>
    have done := proceed_settled msg success proceeded
    simp only [total_cons, total_nil] at moved done
    omega

theorem reachable_settled {eraseRule : EraseRule} {iothreads maxQueueSize : Nat} {heap : α → Article}
    (reached : Machine.Reachable step (Usenet.make eraseRule iothreads maxQueueSize heap) usenet) :
    Settled msg success usenet :=
  reached.invariant (Settled msg success) rfl (fun _ _ _ settled taken => step_settled msg success settled taken)

/-- Where a post that has passed its wait can be. A thread has it in hand from the
report of how it ended until the callback runs or it is back in the pool. -/
structure Accounted (usenet : Usenet α) : Prop where
  balance : passed msg usenet = queued msg usenet + held msg usenet + inHand msg usenet + concluded msg usenet
  holds : ∀ connit, (holds usenet connit).length ≤ usenet.busy.count connit
  once : ∀ connit, usenet.busy.count connit ≤ 1
  callbacks : ∀ success, reports msg success usenet = concluding msg success usenet + callbacks msg success usenet
  idle : (∀ thread ∈ usenet.threads, thread.io = true → thread.tasks = []) → inHand msg usenet = 0

theorem accounted (owned : Owned [] usenet) (balanced : Balanced msg usenet) (settled : ∀ success, Settled msg success usenet)
    (outside : ∀ thread ∈ usenet.threads, Outside thread) : Accounted msg usenet := by
  refine ⟨?_, holds_length owned, ?_, settled, ?_⟩
  · rw [Balanced, placed] at balanced
    rw [held_placed msg owned, balanced]
    omega
  · exact fun connit => List.nodup_iff_count_le_one.mp (List.nodup_append'.mp owned.distinct).2.1 connit
  · intro idle
    apply onTasks_calls outside idle
    intro task called
    cases task with
    | request request => rfl
    | wait command notified => rfl
    | _ => cases called

theorem Accounted.balanced (accounted : Accounted msg usenet) (owned : Owned [] usenet) : Balanced msg usenet := by
  rw [Balanced, placed, accounted.balance, held_placed msg owned]
  omega

end Post2Usenet.Proofs.PoolAccounting
