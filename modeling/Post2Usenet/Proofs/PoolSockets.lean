import Post2Usenet.Recovery
import Post2Usenet.Proofs.PoolOwnership

/-! The sockets of the pool's connections. A connection that waits to be connected has none
open, as long as every one that was closed for an error really let go of its socket. -/

namespace Post2Usenet.Proofs.PoolSockets
open Connection Usenet ConnectionSteps PoolSteps PoolOwnership

variable {α : Type} {usenet after : Usenet α} {connit : ConnectionHandle} {hand : List ConnectionHandle}

/-- The functions that run before a connection has its socket. -/
def opens : Stage → Bool
  | .doConnect | .resolved => true
  | _ => false

/-- A connection that waits for its socket has none, and one whose stat is about to be
queued again is still connected. -/
structure Opening (usenet : Usenet α) : Prop where
  closed : ∀ connit stage, (connit, .stage stage) ∈ usenet.pending → opens stage = true →
    ∀ connection, usenet.connections connit = some connection → connection.sockOpen = false
  requeued : ∀ connit msgid, EveryTask (fun task => task = .requeueStat connit msgid →
    ∀ connection, usenet.connections connit = some connection → connection.state = .connectedAndAuthenticated) usenet

/-- No socket was opened or closed but by destroying its connection, and none is about to be. -/
structure Kept (before after : Usenet α) : Prop where
  connections : ∀ connit connection, after.connections connit = some connection →
    ∃ earlier, before.connections connit = some earlier ∧ connection.state = earlier.state ∧
      connection.sockOpen = earlier.sockOpen
  pending : ∀ connit stage, (connit, .stage stage) ∈ after.pending → opens stage = true →
    (connit, .stage stage) ∈ before.pending

theorem Kept.frame (connections : after.connections = usenet.connections) (pending : after.pending = usenet.pending) :
    Kept usenet after := by
  refine ⟨fun connit connection present => ⟨connection, ?_, rfl, rfl⟩, fun connit stage member _ => ?_⟩
  · rw [← connections]
    exact present
  · rw [← pending]
    exact member

theorem Kept.trans {middle : Usenet α} (first : Kept usenet middle) (rest : Kept middle after) : Kept usenet after := by
  refine ⟨fun connit connection present => ?_, fun connit stage member opening => ?_⟩
  · obtain ⟨second, found, state, sockOpen⟩ := rest.connections connit connection present
    obtain ⟨earlier, known, same, equal⟩ := first.connections connit second found
    exact ⟨earlier, known, state.trans same, sockOpen.trans equal⟩
  · exact first.pending connit stage (rest.pending connit stage member opening) opening

/-- Such a change does not matter, whatever becomes of the threads. -/
theorem Opening.kept (opening : Opening usenet) (kept : Kept usenet after)
    (tasks : ∀ connit msgid, EveryTask (fun task => task = .requeueStat connit msgid →
      ∀ connection, usenet.connections connit = some connection → connection.state = .connectedAndAuthenticated) after) :
    Opening after := by
  refine ⟨fun connit stage member opens connection present => ?_, fun connit msgid thread member task inside same
    connection present => ?_⟩
  · obtain ⟨earlier, found, -, sockOpen⟩ := kept.connections connit connection present
    rw [sockOpen]
    exact opening.closed connit stage (kept.pending connit stage member opens) opens earlier found
  · obtain ⟨earlier, found, state, -⟩ := kept.connections connit connection present
    rw [state]
    exact tasks connit msgid thread member task inside same earlier found

/-- No socket is about to be opened. -/
def quiet : Handler α → Bool
  | .stage stage => !opens stage
  | _ => true

theorem perform_pending {act : Act α} (quiets : Pends quiet act) {other : ConnectionHandle} {stage : Stage}
    (member : (other, .stage stage) ∈ (usenet.perform connit act).pending) (opening : opens stage = true) :
    (other, .stage stage) ∈ usenet.pending := by
  rcases List.mem_append.mp member with earlier | new
  · exact earlier
  · obtain ⟨handler, left, same⟩ := List.mem_map.mp new
    cases same
    have still := quiets _ left
    simp [quiet, opening] at still

theorem perform_kept {connection : Connection α} {act : Act α} (present : usenet.connections connit = some connection)
    (state : act.1.state = connection.state) (sockOpen : act.1.sockOpen = connection.sockOpen)
    (quiets : Pends quiet act) : Kept usenet (usenet.perform connit act) := by
  refine ⟨fun other found isPresent => ?_, fun _ _ => perform_pending quiets⟩
  by_cases same : other = connit
  · subst same
    have equal : act.1 = found := by simpa [perform] using isPresent
    subst equal
    exact ⟨connection, present, state, sockOpen⟩
  · exact ⟨found, by simpa [perform, Function.update_of_ne same] using isPresent, rfl, rfl⟩

theorem run_kept {command : Command α} (taken : usenet.run connit command = some after) : Kept usenet after := by
  have accepted {connection : Connection α} (present : usenet.connections connit = some connection)
      {result : Bool × Act α} (state : result.2.1.state = connection.state)
      (sockOpen : result.2.1.sockOpen = connection.sockOpen) (quiets : Pends quiet result.2) :
      Kept usenet (usenet.performAccepted connit result) := by
    rw [performAccepted]
    split
    · exact perform_kept present state sockOpen quiets
    · exact .frame rfl rfl
  cases command with
  | startAsyncPost msg =>
    obtain ⟨connection, present, rfl⟩ := Option.map_eq_some_iff.mp taken
    apply accepted present <;> simp only [asyncPost] <;> split
    · rfl
    · rfl
    · rfl
    · rfl
    · exact fun _ member => by cases member
    · exact pends_one rfl rfl
  | startAsyncStat msgid =>
    obtain ⟨connection, present, rfl⟩ := Option.map_eq_some_iff.mp taken
    apply accepted present <;> simp only [asyncStat] <;> split
    · rfl
    · rfl
    · rfl
    · rfl
    · exact fun _ member => by cases member
    · exact pends_one rfl rfl

theorem dispatch_kept {command : Command α} (taken : usenet.dispatch command = some after) : Kept usenet after := by
  obtain ⟨connit, ready, -, run⟩ := dispatch_cases taken
  have moved : Kept usenet { usenet with
      ready
      busy := connit :: usenet.busy
      readySize := decrement usenet.readySize
      busySize := usenet.busySize + 1 } := .frame rfl rfl
  exact moved.trans (run_kept run)

/-- What became of a connection does not matter once it is destroyed. -/
theorem erase_kept (others : ∀ other, other ≠ connit → after.connections other = usenet.connections other)
    (pending : ∀ other stage, (other, .stage stage) ∈ after.pending → opens stage = true →
      (other, .stage stage) ∈ usenet.pending)
    (named : Side) : Kept usenet (after.erase named connit) := by
  refine ⟨fun other found isPresent => ?_, pending⟩
  by_cases same : other = connit
  · subst same
    simp [erase] at isPresent
  · exact ⟨found, by simpa [erase, Function.update_of_ne same, others other same] using isPresent, rfl, rfl⟩

theorem gracefulDisconnect_kept {named : Side} (taken : usenet.gracefulDisconnect named connit = some after) :
    Kept usenet after := by
  obtain ⟨connection, -, rfl⟩ := Option.map_eq_some_iff.mp taken
  have quits : Pends quiet connection.asyncGracefulDisconnect.2 := by
    simp only [asyncGracefulDisconnect]
    split
    · exact fun _ member => by cases member
    · exact write_pends _ _ rfl
  have erased : Kept usenet ((usenet.performAccepted connit connection.asyncGracefulDisconnect).erase named connit) := by
    rw [performAccepted]
    split
    next => exact erase_kept (fun other same => Function.update_of_ne same ..) (fun _ _ => perform_pending quits) named
    next =>
      have refused : Kept usenet (usenet.record (.refused connit)) := .frame rfl rfl
      exact refused.trans (erase_kept (fun _ _ => rfl) (fun _ _ member _ => member) named)
  exact erased.trans (.frame rfl rfl)

theorem shutdown_kept (taken : usenet.shutdown connit = some after) : Kept usenet after := by
  apply shutdown_keeps _ (Kept.frame rfl rfl : Kept usenet usenet) taken
  exact fun before named connit after earlier _ disconnected => earlier.trans (gracefulDisconnect_kept disconnected)

theorem proceed_kept {choice : Choice α} {task : Task α} (other : ∀ connit msgid, task ≠ .requeueStat connit msgid)
    {result : Usenet α × List (Task α)} (taken : usenet.proceed choice task = some result) : Kept usenet result.1 := by
  cases proceed_executes taken with
  | @dispatches request after idle dispatched =>
    have passes : Kept usenet (usenet.record (.passed request.command)) := .frame rfl rfl
    exact passes.trans (dispatch_kept dispatched)
  | @becomesReady connit after became =>
    have becomes : Kept usenet (usenet.becomeReady connit) := .frame rfl rfl
    rcases onConnBecomesReady_cases became with ⟨_, queue, notified, -, woken, run⟩ | ⟨-, -, rfl⟩ | ⟨-, -, down⟩
    · have popped : Kept usenet { notified with queue } := by
        rcases woken with rfl | ⟨_, _, _, _, _, rfl⟩
        · exact .frame rfl rfl
        · exact .frame rfl rfl
      exact popped.trans (run_kept run)
    · exact becomes
    · exact becomes.trans (shutdown_kept down)
  | discards => exact (erase_kept (fun _ _ => rfl) (fun _ _ member _ => member) .busy).trans (.frame rfl rfl)
  | redispatches idle dispatched => exact dispatch_kept dispatched
  | @reconnects connit msgid => exact absurd rfl (other connit msgid)
  | _ => exact .frame rfl rfl

theorem Opening.push (opening : Opening usenet) {tasks : List (Task α)}
    (new : ∀ connit msgid, .requeueStat connit msgid ∈ tasks →
      ∀ connection, usenet.connections connit = some connection → connection.state = .connectedAndAuthenticated)
    (index : Nat) : Opening (usenet.pushTasks index tasks) := by
  refine ⟨opening.closed, fun connit msgid => (opening.requeued connit msgid).push ?_ index⟩
  rintro task inside rfl
  exact new connit msgid inside

/-- What becomes of a connection nobody else is about to use. -/
theorem perform_opening (opening : Opening usenet) {act : Act α}
    (shut : act.1.sockOpen = false ∨
      Pends quiet act ∧ ∀ stage, (connit, .stage stage) ∈ usenet.pending → opens stage = false)
    (unasked : ∀ thread ∈ usenet.threads, ∀ task ∈ thread.tasks, connit? task ≠ some connit) :
    Opening (usenet.perform connit act) := by
  refine ⟨fun other stage member opens found isPresent => ?_, fun other msgid thread inside task within same found
    isPresent => ?_⟩
  · by_cases same : other = connit
    · subst same
      have equal : act.1 = found := by simpa [perform] using isPresent
      subst equal
      rcases shut with shut | ⟨quiets, none⟩
      · exact shut
      · have open' := none stage (perform_pending quiets member opens)
        cases opens.symm.trans open'
    · have earlier : (other, .stage stage) ∈ usenet.pending := by simpa [perform, same, Ne.symm same] using member
      exact opening.closed other stage earlier opens found
        (by simpa [perform, Function.update_of_ne same] using isPresent)
  · subst same
    have different : other ≠ connit := by
      rintro rfl
      exact unasked thread inside _ within rfl
    exact opening.requeued other msgid thread inside _ within rfl found
      (by simpa [perform, Function.update_of_ne different] using isPresent)

theorem perform_owned_opening (owned : Owned (connit :: hand) usenet) (opening : Opening usenet) {act : Act α}
    (shut : act.1.sockOpen = false ∨ Pends quiet act) : Opening (usenet.perform connit act) := by
  obtain ⟨-, -, -, none⟩ := owned_in_hand owned
  refine perform_opening opening ?_ (fun thread inside task within uses => task_elsewhere none inside within uses rfl)
  refine shut.imp_right (fun quiets => ⟨quiets, fun stage member => ?_⟩)
  by_contra opens
  have owning : owns (.stage stage : Handler α) = true := by
    cases stage <;> first | rfl | simp [PoolSockets.opens] at opens
  exact handler_elsewhere none member owning rfl

theorem follows_quiet {stage : Stage} {handler : Handler α} (next : follows stage handler = true)
    (later : stage ≠ .doConnect) : quiet handler = true := by
  cases handler with
  | stage following =>
    cases following with
    | doConnect => cases stage <;> cases next
    | resolved => cases stage <;> first | exact absurd rfl later | cases next
    | _ => rfl
  | _ => rfl

theorem close_sockOpen {connection : Connection α} {outcome : Outcome}
    (connected : connection.state = .connectedAndAuthenticated)
    (ended : connection.sockOpen = true → outcome.shutdownThrows = false) :
    (connection.close outcome).sockOpen = false := by
  rw [close, if_neg (by simp [connected])]
  cases shut : connection.sockOpen with
  | false => simp
  | true => simp [ended shut]

/-- A handler that is run for a connection leaves its socket closed when it is to be connected. -/
theorem deliver_opening (owned : Owned (connit :: hand) usenet) (opening : Opening usenet) {handler : Handler α}
    (fits : ∀ connection, usenet.connections connit = some connection → Fits connection handler) (outcome : Outcome)
    (closed : ∀ connection, usenet.connections connit = some connection → handler = .stage .doConnect →
      connection.sockOpen = false)
    (ended : ∀ connection, usenet.connections connit = some connection →
      (∃ msg, handler = .postHandler msg .postFailureConnectionError) →
      connection.sockOpen = true → outcome.shutdownThrows = false) (index : Nat) :
    Opening ((usenet.deliver connit handler outcome).1.pushTasks index (usenet.deliver connit handler outcome).2) := by
  obtain ⟨connection, present⟩ := present_in_hand owned
  have fits := fits connection present
  have quietly {usenet : Usenet α} {tasks : List (Task α)} (opening : Opening usenet)
      (others : ∀ connit msgid, .requeueStat connit msgid ∉ tasks) : Opening (usenet.pushTasks index tasks) :=
    opening.push (fun connit msgid member => absurd member (others connit msgid)) index
  have recorded (entry : Entry α) : Opening (usenet.record entry) := opening.kept (.frame rfl rfl) opening.requeued
  simp only [deliver, present]
  cases handler with
  | stage stage =>
    refine quietly (perform_owned_opening owned opening ?_) (by simp)
    by_cases first : stage = .doConnect
    · subst first
      exact .inl (closed connection present rfl)
    · exact .inr (fun handler member => follows_quiet (run_follows usenet.articles stage outcome connection _ member) first)
  | timer => exact quietly opening (by simp)
  | connectHandler result => cases result <;> exact quietly (recorded _) (by simp [onConnected])
  | postHandler msg result =>
    have recordedOwned := record_owned owned (.posted connit msg result)
    cases result with
    | postingNotPermitted =>
      refine quietly (perform_owned_opening recordedOwned (recorded _) (.inr ?_)) (by simp [onPostFinished])
      exact fun _ member => by cases member
    | postFailure => exact quietly (recorded _) (by simp [onPostFinished])
    | postFailureConnectionError =>
      refine quietly (perform_owned_opening recordedOwned (recorded _) (.inl ?_)) (by simp [onPostFinished])
      exact close_sockOpen fits.state (ended connection present ⟨msg, rfl⟩)
    | postSuccess => exact quietly (recorded _) (by simp [onPostFinished])
  | statHandler msgid result =>
    cases result with
    | articleExists => exact quietly (recorded _) (by simp [onStatFinished])
    | invalidArticle => exact quietly (recorded _) (by simp [onStatFinished])
    | connectionError =>
      refine (recorded _).push (fun other requeued member found isPresent => ?_) index
      cases List.mem_singleton.mp member
      cases present.symm.trans isPresent
      exact fits.state

/-- Every socket that a step finds open when it closes a connection for an error is shut down without throwing. -/
def Severs (usenet : Usenet α) (event : Event α) : Prop :=
  ∀ connit connection outcome, Recovery.recovered usenet event = some (connit, connection, outcome) →
    connection.sockOpen = true → outcome.shutdownThrows = false

theorem addConnections_opening (owned : Owned hand usenet) (opening : Opening usenet) (conninfo : ConnectionInfo)
    (numConnections : Nat) : Opening (usenet.addConnections conninfo numConnections) := by
  refine (addConnections_keeps (motive := fun before => Owned hand before ∧ Opening before) ?_ ⟨owned, opening⟩
    numConnections).2
  intro before ⟨owned, opening⟩
  refine ⟨addConnection_owned owned conninfo, perform_opening ?_ (.inl rfl) (fun thread inside task within uses => ?_)⟩
  · exact opening.kept (.frame rfl rfl) opening.requeued
  · have busy := owner_of_task owned inside within uses
    exact Nat.lt_irrefl _ (owned.known _ (List.mem_append_right _ busy))

theorem step_opening {event : Event α} (owned : Owned [] usenet) (opening : Opening usenet)
    (ended : Severs usenet event) (taken : usenet.step event = some after) : Opening after := by
  have unchanged {after : Usenet α} (connections : after.connections = usenet.connections)
      (pending : after.pending = usenet.pending) (threads : after.threads = usenet.threads) : Opening after :=
    opening.kept (.frame connections pending) (fun connit msgid => (opening.requeued connit msgid).frame threads)
  cases event with
  | setOperationTimeout seconds =>
    cases taken
    exact unchanged rfl rfl rfl
  | addConnections conninfo numConnections =>
    cases taken
    exact addConnections_opening owned opening conninfo numConnections
  | start =>
    cases taken
    exact opening.kept (.frame rfl rfl) (fun connit msgid => ((opening.requeued connit msgid).idle true _).frame rfl)
  | stop =>
    cases taken
    exact unchanged rfl rfl rfl
  | spawn =>
    cases taken
    exact opening.kept (.frame rfl rfl) (fun connit msgid => (opening.requeued connit msgid).idle false 1)
  | call index request =>
    obtain ⟨-, rfl⟩ := step_call taken
    exact opening.push (fun connit msgid member => by simp at member) index
  | take index place outcome =>
    obtain ⟨connit, handler, -, found, rfl⟩ := step_take taken
    have rest : Opening { usenet with pending := usenet.pending.eraseIdx place } := by
      refine opening.kept ⟨fun _ connection present => ⟨connection, present, rfl, rfl⟩, fun _ _ member _ => ?_⟩
        opening.requeued
      exact List.mem_of_mem_eraseIdx member
    rcases takePending_cases owned found outcome with ⟨owning, taken, fits⟩ | ⟨-, nothing⟩
    · apply deliver_opening taken rest fits
      · rintro connection present rfl
        exact opening.closed connit .doConnect (List.mem_of_getElem? found) rfl connection present
      · rintro connection present ⟨msg, rfl⟩
        have alive : usenet.connections connit = some connection := present
        exact ended connit connection outcome (by simp [Recovery.recovered, found, alive])
    · rw [nothing]
      exact rest.push (fun connit msgid member => by cases member) index
  | expire connit =>
    obtain ⟨-, -, rfl⟩ := step_expire taken
    refine opening.kept ⟨fun _ connection present => ⟨connection, present, rfl, rfl⟩, fun _ _ member _ => ?_⟩
      opening.requeued
    simpa using member
  | proceed index choice =>
    obtain ⟨io, task, tasks, result, found, proceeded, rfl⟩ := step_proceed taken
    have popped := popTask_owned owned found
    have rest : Opening { usenet with threads := usenet.threads.set index ⟨io, tasks⟩ } :=
      opening.kept (.frame rfl rfl) (fun connit msgid => ((opening.requeued connit msgid).pop found).2)
    by_cases requeues : ∃ connit msgid, task = .requeueStat connit msgid
    · obtain ⟨connit, msgid, rfl⟩ := requeues
      obtain ⟨after, requeued, rfl⟩ := Option.map_eq_some_iff.mp proceeded
      obtain ⟨connection, present, rfl⟩ := requeueStat_cases requeued
      have alive : usenet.connections connit = some connection := present
      have connected := ((opening.requeued connit msgid).pop found).1 rfl connection alive
      have pushed : Opening
          ({ usenet with threads := usenet.threads.set index ⟨io, tasks⟩ }.pushBack (.startAsyncStat msgid)) :=
        rest.kept (.frame rfl rfl) rest.requeued
      refine (perform_owned_opening (pushBack_owned popped _) pushed (.inl ?_)).push
        (fun connit msgid member => by cases member) index
      exact close_sockOpen connected (ended connit connection choice.outcome (by simp [Recovery.recovered, found, alive]))
    · have kept := proceed_kept (fun connit msgid same => requeues ⟨connit, msgid, same⟩) proceeded
      have still := rest.kept kept (fun connit msgid => (rest.requeued connit msgid).proceed (by simp) proceeded)
      refine still.push (fun connit msgid member => ?_) index
      cases proceed_calls proceeded _ member
  | rewrite articles =>
    cases taken
    exact unchanged rfl rfl rfl

end Post2Usenet.Proofs.PoolSockets
