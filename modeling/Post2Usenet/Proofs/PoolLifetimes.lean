import Post2Usenet.Proofs.PoolOwnership

/-! Handlers and the connections they use. A handler outlives its connection when
the connection is told to quit and destroyed at once, and when a connection is
discarded whose timer has expired already; never otherwise. -/

namespace Post2Usenet.Proofs.PoolLifetimes
open Connection Usenet ConnectionSteps PoolSteps PoolOwnership Tally

variable {α : Type} {usenet after : Usenet α} {connit : ConnectionHandle} {hand : List ConnectionHandle}

/-- Whatever will run for a connection finds it in one of the lists. -/
structure HandlersOwned (usenet : Usenet α) : Prop where
  pending : ∀ connit handler, (connit, handler) ∈ usenet.pending → connit ∈ usenet.ready ++ usenet.busy
  tasks : ∀ thread ∈ usenet.threads, ∀ task ∈ thread.tasks, ∀ connit, connit? task = some connit →
    connit ∈ usenet.ready ++ usenet.busy

/-- The steps that discard a connection while the handler of its expired timer is
still to run. -/
def DiscardsExpired (usenet : Usenet α) : Event α → Prop
  | .proceed index _ =>
    ∃ connit, headTask usenet index = some (.discardConnection connit) ∧ (connit, .timer) ∈ usenet.pending
  | _ => False

/-- Handlers that own no connection need one all the same. -/
def Live (usenet : Usenet α) : Prop :=
  ∀ connit handler, (connit, handler) ∈ usenet.pending → owns handler = false →
    (usenet.connections connit).isSome = true

theorem handlersOwned_iff (owned : Owned hand usenet) : HandlersOwned usenet ↔ Live usenet := by
  constructor
  · intro holds connit handler member _
    exact (owned.alive connit).mp (holds.pending connit handler member)
  · intro live
    refine ⟨fun connit handler member => ?_, fun thread member task inside connit uses => ?_⟩
    · by_cases owning : owns handler = true
      · exact List.mem_append_right _ (owner_of_handler owned member owning)
      · exact (owned.alive connit).mpr (live connit handler member (by simpa using owning))
    · exact List.mem_append_right _ (owner_of_task owned member inside uses)

theorem perform_live (live : Live usenet) {act : Act α} {held : List α} (handsOver : HandsOver held act) :
    Live (usenet.perform connit act) := by
  obtain ⟨handler, one, owning, -⟩ := handsOver
  intro other found member stale
  by_cases same : other = connit
  · subst same
    simp [perform]
  · simp only [perform, one, List.map_cons, List.map_nil, List.mem_append, List.mem_singleton, Prod.mk.injEq, same,
      false_and, or_false] at member
    simpa [perform, Function.update_of_ne same] using live other found member stale

theorem Live.frame (live : Live usenet) (pending : ∀ entry ∈ after.pending, entry ∈ usenet.pending)
    (connections : after.connections = usenet.connections) : Live after := by
  intro connit handler member stale
  rw [connections]
  exact live connit handler (pending _ member) stale

theorem run_live (owned : Owned (connit :: hand) usenet)
    (idle : ∀ connection, usenet.connections connit = some connection → Idle connection) (live : Live usenet)
    {command : Command α} (taken : usenet.run connit command = some after) : Live after := by
  obtain ⟨connection, present⟩ := present_in_hand owned
  obtain ⟨act, performed, handsOver⟩ := run_idle present (idle connection present) command
  rw [performed] at taken
  cases taken
  exact perform_live live handsOver

theorem dispatch_live (owned : Owned hand usenet) (live : Live usenet) {command : Command α}
    (taken : usenet.dispatch command = some after) : Live after := by
  obtain ⟨⟨connit, moved⟩, head, run⟩ := Option.bind_eq_some_iff.mp taken
  obtain ⟨movedOwned, idle⟩ := takeReady_owned owned head
  obtain ⟨ready, first, rfl⟩ := takeReady_cases head
  exact run_live movedOwned idle (live.frame (fun _ => id) rfl) run

theorem deliver_live (owned : Owned (connit :: hand) usenet) (live : Live usenet) {handler : Handler α}
    (owning : owns handler = true)
    (fits : ∀ connection, usenet.connections connit = some connection → Fits connection handler) (outcome : Outcome) :
    Live (usenet.deliver connit handler outcome).1 := by
  obtain ⟨connection, present⟩ := present_in_hand owned
  have fits := fits connection present
  simp only [deliver, present]
  cases handler with
  | stage stage => exact perform_live live (run_continues usenet.articles outcome fits owning)
  | timer => cases owning
  | connectHandler result => exact live.frame (fun _ => id) rfl
  | statHandler msgid result => exact live.frame (fun _ => id) rfl
  | postHandler msg result =>
    have recorded : Live (usenet.record (.posted connit msg result)) := live.frame (fun _ => id) rfl
    cases result with
    | postingNotPermitted =>
      intro other found member stale
      simp only [onPostFinished, perform, List.filterMap_nil, List.map_nil, List.append_nil] at member ⊢
      by_cases same : other = connit
      · simp [same]
      · simpa [Function.update_of_ne same] using recorded other found member stale
    | postFailure => exact recorded
    | postFailureConnectionError =>
      exact perform_live recorded (asyncConnect_close_continues outcome fits.article)
    | postSuccess => exact recorded

theorem proceed_live {choice : Choice α} {task : Task α} (owned : Owned ((connit? task).toList ++ hand) usenet)
    (fits : ∀ connit, connit? task = some connit →
      ∀ connection, usenet.connections connit = some connection → TaskFits connection task)
    (live : Live usenet)
    (working : ∀ connit, task = .onConnBecomesReady connit → usenet.queue = [] → usenet.work = true)
    (unexpired : ∀ connit, task = .discardConnection connit → (connit, .timer) ∉ usenet.pending)
    {result : Usenet α × List (Task α)} (taken : usenet.proceed choice task = some result) : Live result.1 := by
  cases proceed_executes taken with
  | dispatches idle dispatched => exact dispatch_live (record_owned owned _) (live.frame (fun _ => id) rfl) dispatched
  | @becomesReady connit after became =>
    rcases onConnBecomesReady_cases became with ⟨_, queue, notified, -, woken, run⟩ | ⟨-, -, rfl⟩ | ⟨empty, stopped, -⟩
    · have same : notified.connections = usenet.connections ∧ notified.pending = usenet.pending := by
        rcases woken with rfl | ⟨_, _, _, _, _, rfl⟩
        · exact ⟨rfl, rfl⟩
        · exact ⟨rfl, rfl⟩
      have popped : Owned (connit :: hand) { notified with queue } :=
        (notified_owned owned woken).frame rfl rfl rfl rfl rfl rfl
      refine run_live popped ?_ ?_ run
      · rw [same.1]
        exact fits connit rfl
      · exact live.frame (by simp [same.2]) same.1
    · exact live.frame (fun _ => id) rfl
    · cases stopped.symm.trans (working connit rfl empty)
  | @discards connit work stopped =>
    intro other handler member stale
    have different : other ≠ connit := by
      rintro rfl
      obtain ⟨-, -, -, none⟩ := owned_in_hand owned
      cases handler with
      | timer => exact unexpired other rfl member
      | stage stage =>
        cases stage with
        | quitWritten =>
          have present := live other _ member rfl
          simp [(owned.parted other member).2] at present
        | _ => cases stale
      | _ => cases stale
    simpa [record, erase, Function.update_of_ne different] using live other handler member stale
  | redispatches idle dispatched => exact dispatch_live owned live dispatched
  | @reconnects connit msgid connection present =>
    have pushed : Live (usenet.pushBack (.startAsyncStat msgid)) := live.frame (fun _ => id) rfl
    exact perform_live pushed (asyncConnect_close_continues choice.outcome (fits connit rfl connection present))
  | _ => exact live.frame (fun _ => id) rfl

theorem addConnections_live (live : Live usenet) (conninfo : ConnectionInfo) (numConnections : Nat) :
    Live (usenet.addConnections conninfo numConnections) := by
  refine addConnections_keeps (fun before live => ?_) live numConnections
  have handsOver : HandsOver [] (asyncConnect (.make conninfo before.optimeout : Connection α)) :=
    ⟨.stage .doConnect, rfl, rfl, ⟨rfl, rfl⟩, rfl⟩
  apply perform_live _ handsOver
  exact live.frame (fun _ => id) rfl

/-- The two steps that leave a handler without its connection. -/
def Orphans (usenet : Usenet α) (event : Event α) : Prop := ShutsDown usenet event ∨ DiscardsExpired usenet event

theorem step_live {event : Event α} (owned : Owned [] usenet) (live : Live usenet)
    (kept : ¬ Orphans usenet event) (taken : usenet.step event = some after) : Live after := by
  obtain ⟨up, unexpired⟩ := not_or.mp kept
  cases event with
  | setOperationTimeout seconds =>
    cases taken
    exact live.frame (fun _ => id) rfl
  | addConnections conninfo numConnections =>
    cases taken
    exact addConnections_live live conninfo numConnections
  | start =>
    cases taken
    exact live.frame (fun _ => id) rfl
  | stop =>
    cases taken
    exact live.frame (fun _ => id) rfl
  | spawn =>
    cases taken
    exact live.frame (fun _ => id) rfl
  | call index request =>
    obtain ⟨-, rfl⟩ := step_call taken
    exact live.frame (fun _ => id) rfl
  | take index place outcome =>
    obtain ⟨connit, handler, -, found, rfl⟩ := step_take taken
    have rest : Live { usenet with pending := usenet.pending.eraseIdx place } :=
      live.frame (fun _ => List.mem_of_mem_eraseIdx) rfl
    rcases takePending_cases owned found outcome with ⟨owning, taken, fits⟩ | ⟨-, nothing⟩
    · have delivered := deliver_live taken rest owning fits outcome
      exact delivered.frame (fun _ => id) rfl
    · rw [nothing]
      exact rest.frame (fun _ => id) rfl
  | expire connit =>
    obtain ⟨present, -, rfl⟩ := step_expire taken
    intro other handler member stale
    rcases List.mem_append.mp member with earlier | last
    · exact live other handler earlier stale
    · cases List.mem_singleton.mp last
      exact present
  | proceed index choice =>
    obtain ⟨io, task, tasks, result, found, proceeded, rfl⟩ := step_proceed taken
    have rest : Live { usenet with threads := usenet.threads.set index ⟨io, tasks⟩ } := live.frame (fun _ => id) rfl
    have proceeds := proceed_live (popTask_owned owned found) (popTask_fits owned found) rest
      (by
        rintro connit rfl empty
        by_contra stopped
        exact up ⟨⟨connit, headTask_found found⟩, empty, by simpa using stopped⟩)
      (by
        rintro connit rfl member
        exact unexpired ⟨connit, headTask_found found, member⟩)
      proceeded
    exact proceeds.frame (fun _ => id) rfl
  | rewrite articles =>
    cases taken
    exact live.frame (fun _ => id) rfl

theorem gracefulDisconnect_pending {named : Side} (taken : usenet.gracefulDisconnect named connit = some after) :
    ∀ entry ∈ usenet.pending, entry ∈ after.pending := by
  obtain ⟨connection, -, rfl⟩ := Option.map_eq_some_iff.mp taken
  intro entry member
  simp only [record, erase, performAccepted]
  split
  · simp [perform, member]
  · exact member

/-- The connection that quits is destroyed before the handler of its write has run. -/
theorem shutdown_orphans {event : Event α} (owned : Owned [] usenet) (down : ShutsDown usenet event)
    (taken : usenet.step event = some after) : ∃ connit, (connit, .stage .quitWritten) ∈ after.pending := by
  obtain ⟨index, io, connit, tasks, last, found, down, rfl⟩ := step_shutsDown down taken
  have becomes := becomeReady_owned (popTask_owned owned found) (popTask_fits owned found connit rfl)
  obtain ⟨next, disconnected, rest⟩ := Option.bind_eq_some_iff.mp down
  obtain ⟨-, -, -, pending⟩ := gracefulDisconnect_owned becomes (by simp [becomeReady]) disconnected
  have first : (connit, .stage .quitWritten) ∈ next.pending := by simp [pending]
  exact ⟨connit, (disconnectReady_keeps
    (fun before other after member _ disconnected => gracefulDisconnect_pending disconnected _ member) rfl first rest).1⟩

theorem discards_gone {index : Nat} {choice : Choice α} (head : headTask usenet index = some (.discardConnection connit))
    (taken : usenet.step (.proceed index choice) = some after) :
    after.connections connit = none ∧ after.pending = usenet.pending := by
  obtain ⟨io, task, tasks, result, found, proceeded, rfl⟩ := step_proceed taken
  rw [headTask_found found] at head
  cases head
  cases proceeded
  obtain ⟨work, same, -⟩ :=
    discardConnection_cases { usenet with threads := usenet.threads.set index ⟨io, tasks⟩ } connit
  rw [same]
  exact ⟨by simp [pushTasks, record, erase], rfl⟩

theorem step_orphans {event : Event α} (owned : Owned [] usenet) (orphans : Orphans usenet event)
    (taken : usenet.step event = some after) : ¬ Live after := by
  intro live
  rcases orphans with down | expired
  · obtain ⟨connit, member⟩ := shutdown_orphans owned down taken
    have present := live connit _ member rfl
    simp [((step_owned owned taken).parted connit member).2] at present
  · cases event with
    | proceed index choice =>
      obtain ⟨connit, head, member⟩ := expired
      obtain ⟨gone, pending⟩ := discards_gone head taken
      have present := live connit _ (pending ▸ member) rfl
      simp [gone] at present
    | _ => exact expired.elim

section Alive

variable {other : ConnectionHandle}

/-- The connection was made and is not destroyed. -/
def Alive (connit : ConnectionHandle) (usenet : Usenet α) : Prop := (usenet.connections connit).isSome = true

theorem Alive.frame (alive : Alive connit usenet) (connections : after.connections = usenet.connections) :
    Alive connit after := by
  rw [Alive, connections]
  exact alive

theorem perform_alive (alive : Alive other usenet) (connit : ConnectionHandle) (act : Act α) :
    Alive other (usenet.perform connit act) := by
  by_cases same : other = connit
  · subst same
    simp [Alive, perform]
  · simpa [Alive, perform, Function.update_of_ne same] using alive

theorem run_alive (alive : Alive other usenet) {command : Command α} (taken : usenet.run connit command = some after) :
    Alive other after := by
  have accepted (result : Bool × Act α) : Alive other (usenet.performAccepted connit result) := by
    rw [performAccepted]
    split
    · exact perform_alive alive ..
    · exact alive.frame rfl
  cases command with
  | startAsyncPost msg =>
    obtain ⟨connection, -, rfl⟩ := Option.map_eq_some_iff.mp taken
    exact accepted _
  | startAsyncStat msgid =>
    obtain ⟨connection, -, rfl⟩ := Option.map_eq_some_iff.mp taken
    exact accepted _

theorem dispatch_alive (alive : Alive other usenet) {command : Command α} (taken : usenet.dispatch command = some after) :
    Alive other after := by
  obtain ⟨connit, ready, -, run⟩ := dispatch_cases taken
  refine run_alive ?_ run
  exact alive.frame rfl

theorem deliver_alive (alive : Alive other usenet) (connit : ConnectionHandle) (handler : Handler α) (outcome : Outcome) :
    Alive other (usenet.deliver connit handler outcome).1 := by
  simp only [deliver]
  split
  · exact alive
  next connection present =>
    cases handler with
    | stage stage => exact perform_alive alive ..
    | timer => exact alive
    | connectHandler result => exact alive.frame rfl
    | statHandler msgid result => exact alive.frame rfl
    | postHandler msg result =>
      have recorded : Alive other (usenet.record (.posted connit msg result)) := alive.frame rfl
      cases result with
      | postingNotPermitted => exact perform_alive recorded ..
      | postFailureConnectionError => exact perform_alive recorded ..
      | _ => exact recorded

theorem proceed_alive (alive : Alive other usenet) {choice : Choice α} {task : Task α}
    (working : ∀ connit, task = .onConnBecomesReady connit → usenet.queue = [] → usenet.work = true)
    (undiscarded : task ≠ .discardConnection other) {result : Usenet α × List (Task α)}
    (taken : usenet.proceed choice task = some result) : Alive other result.1 := by
  cases proceed_executes taken with
  | @dispatches request after idle dispatched =>
    have passes : Alive other (usenet.record (.passed request.command)) := alive.frame rfl
    exact dispatch_alive passes dispatched
  | @becomesReady connit after became =>
    rcases onConnBecomesReady_cases became with ⟨_, queue, notified, -, woken, run⟩ | ⟨-, -, rfl⟩ | ⟨empty, stopped, -⟩
    · refine run_alive ?_ run
      rcases woken with rfl | ⟨_, _, _, _, _, rfl⟩
      · exact alive.frame rfl
      · exact alive.frame rfl
    · exact alive.frame rfl
    · cases stopped.symm.trans (working connit rfl empty)
  | @discards connit work stopped =>
    have different : other ≠ connit := by
      rintro rfl
      exact undiscarded rfl
    simpa [Alive, record, erase, Function.update_of_ne different] using alive
  | redispatches idle dispatched => exact dispatch_alive alive dispatched
  | @reconnects connit msgid connection present =>
    have pushed : Alive other (usenet.pushBack (.startAsyncStat msgid)) := alive.frame rfl
    exact perform_alive pushed ..
  | _ => exact alive.frame rfl

/-- Only a shutdown or being discarded destroys a connection. -/
theorem step_alive {event : Event α} (alive : Alive other usenet) (up : ¬ ShutsDown usenet event)
    (undiscarded : ∀ index choice, event = .proceed index choice → headTask usenet index ≠ some (.discardConnection other))
    (taken : usenet.step event = some after) : Alive other after := by
  cases event with
  | addConnections conninfo numConnections =>
    cases taken
    exact addConnections_keeps (fun before alive => perform_alive (alive.frame rfl) ..) alive numConnections
  | call index request =>
    obtain ⟨-, rfl⟩ := step_call taken
    exact alive.frame rfl
  | take index place outcome =>
    obtain ⟨connit, handler, -, found, rfl⟩ := step_take taken
    have rest : Alive other { usenet with pending := usenet.pending.eraseIdx place } := alive.frame rfl
    exact (deliver_alive rest connit handler outcome).frame rfl
  | expire connit =>
    obtain ⟨-, -, rfl⟩ := step_expire taken
    exact alive.frame rfl
  | proceed index choice =>
    obtain ⟨io, task, tasks, result, found, proceeded, rfl⟩ := step_proceed taken
    have rest : Alive other { usenet with threads := usenet.threads.set index ⟨io, tasks⟩ } := alive.frame rfl
    have proceeds := proceed_alive rest
      (by
        rintro connit rfl empty
        by_contra stopped
        exact up ⟨⟨connit, headTask_found found⟩, empty, by simpa using stopped⟩)
      (by
        rintro rfl
        exact undiscarded index choice rfl (headTask_found found))
      proceeded
    exact proceeds.frame rfl
  | _ =>
    cases taken
    exact alive.frame rfl

end Alive

end Post2Usenet.Proofs.PoolLifetimes
