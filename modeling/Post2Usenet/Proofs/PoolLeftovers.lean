import Post2Usenet.Proofs.PoolOwnership
import Post2Usenet.Proofs.PoolTrace
import Post2Usenet.Proofs.PoolWork

/-! What is left when the pool has been joined. Work is left over only because every
connection was discarded, as long as none is told to quit while something may still
come back to the queue. -/

namespace Post2Usenet.Proofs.PoolLeftovers
open Connection Usenet ConnectionSteps PoolSteps PoolOwnership PoolTrace PoolWork

variable {α : Type} {usenet after : Usenet α} {connit : ConnectionHandle} {hand : List ConnectionHandle}

/-- The reports for which a connection is discarded. -/
def Dismisses (connit : ConnectionHandle) : Entry α → Prop
  | .connected other .fatalConnectError | .connected other .invalidCredentials => other = connit
  | .posted other _ .postingNotPermitted => other = connit
  | _ => False

def Dismissed (usenet : Usenet α) (connit : ConnectionHandle) : Prop := ∃ entry ∈ usenet.trace, Dismisses connit entry

def Discards (dismissed : ConnectionHandle → Prop) (task : Task α) : Prop :=
  ∀ connit, task = .discardConnection connit → dismissed connit

/-- If anything is queued when the pool has been joined, all its connections are
gone, and none of them because it was told to quit. -/
def Dispensed (usenet : Usenet α) : Prop :=
  Joined usenet → usenet.queue ≠ [] → usenet.ready ++ usenet.busy = [] ∧
    ∀ connit < usenet.nextHandle, .discarded connit ∈ usenet.trace ∧ Dismissed usenet connit ∧
      .disconnected connit ∉ usenet.trace

/-- The handlers of a post or a stat that is not concluded. -/
def working : Handler α → Bool
  | .stage .doPost | .stage .postWritten | .stage .postAnswered => true
  | .stage .articleWritten | .stage .articleAnswered => true
  | .stage .doStat | .stage .statWritten | .stage .statAnswered => true
  | .postHandler _ _ | .statHandler _ _ => true
  | _ => false

/-- The tasks that may still put a command into the queue. -/
def returning : Task α → Bool
  | .request _ | .wait _ _ | .dispatchOrQueue _ | .requeueStat _ _ => true
  | _ => false

/-- Nothing can come back to the queue by itself. -/
structure Still (usenet : Usenet α) : Prop where
  handlers : ∀ connit handler, (connit, handler) ∈ usenet.pending → working handler = false
  tasks : EveryTask (fun task => returning task = false) usenet

def Parted (usenet : Usenet α) : Prop := ∃ connit, .disconnected connit ∈ usenet.trace

/-- The steps in which a client or an observer calls the pool. -/
def Calls (usenet : Usenet α) : Event α → Prop
  | .call _ _ => True
  | .proceed index choice => choice.calls ≠ [] ∧ ∃ task, headTask usenet index = some task ∧
      match task with
      | .slotPostFailed _ | .slotFinishPost _ | .slotFinishStat _ _ => True
      | _ => False
  | _ => False

/-- No command is appended unseen beside an idle connection, the pool shuts down only
when nothing can come back, and nobody calls it after that. -/
structure Orderly (usenet : Usenet α) (event : Event α) : Prop where
  unseen : AppendsUnseen usenet event → usenet.ready = []
  still : ShutsDown usenet event → Still usenet
  called : Calls usenet event → ¬ Parted usenet

/-- Every connection there ever was is in a list, or was discarded for a reason, or
was told to quit. -/
structure Explained (usenet : Usenet α) : Prop where
  left : ∀ connit < usenet.nextHandle, connit ∈ usenet.ready ++ usenet.busy ∨
    .discarded connit ∈ usenet.trace ∨ .disconnected connit ∈ usenet.trace
  discarded : ∀ connit, .discarded connit ∈ usenet.trace → Dismissed usenet connit
  discarding : EveryTask (Discards (Dismissed usenet)) usenet

theorem Dismissed.adds {kind : Entry α → Prop} (dismissed : Dismissed usenet connit) (adds : Adds kind usenet after) :
    Dismissed after connit := by
  obtain ⟨entry, member, dismisses⟩ := dismissed
  exact ⟨entry, adds.kept member, dismisses⟩

/-- A connection that leaves both lists is recorded. -/
def Leaving (before after : Usenet α) : Prop :=
  ∀ connit ∈ before.ready ++ before.busy, connit ∈ after.ready ++ after.busy ∨
    .discarded connit ∈ after.trace ∨ .disconnected connit ∈ after.trace

theorem leaving_mem (same : ∀ connit, connit ∈ usenet.ready ++ usenet.busy → connit ∈ after.ready ++ after.busy) :
    Leaving usenet after :=
  fun connit member => .inl (same connit member)

theorem Leaving.trans {middle : Usenet α} {kind : Entry α → Prop} (first : Leaving usenet middle)
    (rest : Leaving middle after) (adds : Adds kind middle after) : Leaving usenet after := by
  intro connit member
  rcases first connit member with inside | recorded
  · exact rest connit inside
  · exact .inr (recorded.imp adds.kept adds.kept)

theorem erase_members (named : Side) (usenet : Usenet α) {other : ConnectionHandle} (different : other ≠ connit) :
    other ∈ (usenet.erase named connit).ready ++ (usenet.erase named connit).busy ↔
      other ∈ usenet.ready ++ usenet.busy := by
  simp [erase, List.mem_erase_of_ne different]

theorem gracefulDisconnect_leaving {named : Side} (taken : usenet.gracefulDisconnect named connit = some after) :
    Leaving usenet after := by
  have apart := gracefulDisconnect_apart taken
  obtain ⟨connection, -, rfl⟩ := Option.map_eq_some_iff.mp taken
  intro other member
  by_cases same : other = connit
  · subst same
    exact .inr (.inr (List.mem_cons_self ..))
  · left
    rw [apart.ready, apart.busy]
    exact (erase_members named usenet same).mpr member

theorem shutdown_leaving (taken : usenet.shutdown connit = some after) : Leaving usenet after := by
  apply shutdown_keeps _ (leaving_mem (fun _ => id)) taken
  exact fun before named connit after earlier _ disconnected =>
    earlier.trans (gracefulDisconnect_leaving disconnected) (gracefulDisconnect_adds disconnected)

theorem dispatch_leaving {command : Command α} (taken : usenet.dispatch command = some after) :
    Leaving usenet after ∧ after.nextHandle = usenet.nextHandle := by
  obtain ⟨head, ready, first, run⟩ := dispatch_cases taken
  have apart := run_apart run
  refine ⟨leaving_mem (fun connit member => ?_), apart.nextHandle⟩
  rw [apart.ready, apart.busy]
  simp only [first, List.mem_append, List.mem_cons] at member ⊢
  tauto

theorem becomeReady_leaving (usenet : Usenet α) (connit : ConnectionHandle) :
    Leaving usenet (usenet.becomeReady connit) := by
  apply leaving_mem
  intro other member
  by_cases same : other = connit
  · simp [becomeReady, same]
  · simpa [becomeReady, List.mem_erase_of_ne same, same] using member

theorem proceed_leaving {choice : Choice α} {task : Task α} {result : Usenet α × List (Task α)}
    (taken : usenet.proceed choice task = some result) :
    Leaving usenet result.1 ∧ result.1.nextHandle = usenet.nextHandle := by
  have stays (after : Usenet α) (lists : after.ready ++ after.busy = usenet.ready ++ usenet.busy) : Leaving usenet after :=
    leaving_mem (fun _ member => lists ▸ member)
  cases proceed_executes taken with
  | dispatches idle dispatched => exact (dispatch_leaving dispatched :)
  | becomesReady became =>
    rcases onConnBecomesReady_cases became with ⟨_, _, notified, -, woken, run⟩ | ⟨-, -, rfl⟩ | ⟨-, -, down⟩
    · have same : notified.ready = usenet.ready ∧ notified.busy = usenet.busy ∧
          notified.nextHandle = usenet.nextHandle := by
        rcases woken with rfl | ⟨_, _, _, _, _, rfl⟩ <;> exact ⟨rfl, rfl, rfl⟩
      have apart := run_apart run
      refine ⟨leaving_mem (fun connit member => ?_), apart.nextHandle.trans same.2.2⟩
      rw [apart.ready, apart.busy]
      exact same.1 ▸ same.2.1 ▸ member
    · exact ⟨becomeReady_leaving usenet _, rfl⟩
    · exact ⟨(becomeReady_leaving usenet _).trans (shutdown_leaving down) (shutdown_adds down),
        (shutdown_remains down).nextHandle⟩
  | @discards connit work stopped =>
    refine ⟨fun other member => ?_, rfl⟩
    by_cases equal : other = connit
    · subst equal
      exact .inr (.inl (List.mem_cons_self ..))
    · exact .inl ((erase_members .busy usenet equal).mpr member)
  | redispatches idle dispatched => exact dispatch_leaving dispatched
  | _ => exact ⟨stays _ rfl, rfl⟩

theorem Explained.frame (explained : Explained usenet) (ready : after.ready = usenet.ready)
    (busy : after.busy = usenet.busy) (nextHandle : after.nextHandle = usenet.nextHandle)
    (trace : after.trace = usenet.trace)
    (discarding : EveryTask (Discards (Dismissed usenet)) after) :
    Explained after := by
  have same : Dismissed after = Dismissed usenet := by
    funext connit
    simp only [Dismissed, trace]
  refine ⟨?_, ?_, ?_⟩
  · rw [ready, busy, nextHandle, trace]
    exact explained.left
  · rw [same, trace]
    exact explained.discarded
  · rw [same]
    exact discarding

theorem Leaving.left (leaving : Leaving usenet after) {kind : Entry α → Prop} (adds : Adds kind usenet after)
    (nextHandle : after.nextHandle = usenet.nextHandle) (explained : Explained usenet) :
    ∀ connit < after.nextHandle, connit ∈ after.ready ++ after.busy ∨
      .discarded connit ∈ after.trace ∨ .disconnected connit ∈ after.trace := by
  intro connit known
  rcases explained.left connit (nextHandle ▸ known) with inside | gone
  · exact leaving connit inside
  · exact .inr (gone.imp adds.kept adds.kept)

theorem proceed_explained {choice : Choice α} {task : Task α} (explained : Explained usenet)
    (dismissed : Discards (Dismissed usenet) task) {result : Usenet α × List (Task α)}
    (taken : usenet.proceed choice task = some result) : Explained result.1 := by
  have adds := proceed_adds taken
  obtain ⟨leaving, nextHandle⟩ := proceed_leaving taken
  refine ⟨leaving.left adds nextHandle explained, ?_, ?_⟩
  · intro connit member
    rcases adds.fresh member with earlier | new
    · exact (explained.discarded connit earlier).adds adds
    · cases task with
      | discardConnection other =>
        cases new
        exact (dismissed connit rfl).adds adds
      | request request => exact new.elim False.elim nofun
      | onConnBecomesReady other => exact new.elim False.elim (fun parting => parting.2.2.elim)
      | dispatchOrQueue command => exact new.elim
      | requeueStat other msgid => exact new.elim
      | _ => cases new
  · have before : EveryTask (Discards (Dismissed result.1)) usenet := fun thread member task inside connit same =>
      (explained.discarding thread member task inside connit same).adds adds
    exact before.proceed (fun _ _ => nofun) taken

theorem deliver_explained (explained : Explained usenet) (connit : ConnectionHandle) (handler : Handler α)
    (outcome : Outcome) : Explained (usenet.deliver connit handler outcome).1 ∧
      ∀ task ∈ (usenet.deliver connit handler outcome).2,
        Discards (Dismissed (usenet.deliver connit handler outcome).1) task := by
  have adds := deliver_adds usenet connit handler outcome
  have apart := deliver_apart usenet connit handler outcome
  refine ⟨⟨?_, ?_, ?_⟩, ?_⟩
  · apply (leaving_mem (fun other member => ?_)).left adds apart.nextHandle explained
    rw [apart.ready, apart.busy]
    exact member
  · intro other member
    rcases adds.fresh member with earlier | new
    · exact (explained.discarded other earlier).adds adds
    · cases handler with
      | stage stage =>
        obtain ⟨_, _, same⟩ := new
        cases same
      | timer => exact new.elim
      | _ => cases new
  · have before : EveryTask (Discards (Dismissed (usenet.deliver connit handler outcome).1)) usenet :=
      fun thread member task inside other same => (explained.discarding thread member task inside other same).adds adds
    exact before.frame apart.threads
  · intro task inside other same
    subst same
    cases present : usenet.connections connit with
    | none => simp [deliver, present] at inside
    | some connection =>
      simp only [deliver, present] at inside ⊢
      cases handler with
      | stage stage => cases inside
      | timer => cases inside
      | connectHandler result =>
        cases result with
        | connectSuccess => simp [onConnected] at inside
        | _ =>
          simp only [onConnected, List.mem_singleton, Task.discardConnection.injEq] at inside
          subst inside
          exact ⟨_, List.mem_cons_self .., rfl⟩
      | statHandler msgid result => cases result <;> simp [onStatFinished] at inside
      | postHandler msg result =>
        cases result with
        | postingNotPermitted =>
          simp only [onPostFinished, List.mem_cons, Task.discardConnection.injEq, reduceCtorEq, List.not_mem_nil,
            or_false] at inside
          subst inside
          exact ⟨.posted other msg .postingNotPermitted, by simp [onPostFinished, perform, record], rfl⟩
        | _ => simp [onPostFinished] at inside

theorem addConnection_explained (explained : Explained usenet) (conninfo : ConnectionInfo) :
    Explained (usenet.addConnection conninfo) := by
  have adds : Adds (fun _ => False) usenet (usenet.addConnection conninfo) := addConnections_adds usenet conninfo 1
  refine ⟨fun connit known => ?_, fun connit member => ?_, fun thread member task inside connit same => ?_⟩
  · rcases Nat.lt_succ_iff_lt_or_eq.mp known with earlier | rfl
    · refine (explained.left connit earlier).imp (fun inside => ?_) (Or.imp adds.kept adds.kept)
      simp only [addConnection, perform, List.mem_append] at inside ⊢
      tauto
    · simp [addConnection, perform]
  · exact (explained.discarded connit ((adds.fresh member).resolve_right id)).adds adds
  · exact (explained.discarding thread member task inside connit same).adds adds

theorem step_explained {event : Event α} (explained : Explained usenet) (taken : usenet.step event = some after) :
    Explained after := by
  cases event with
  | setOperationTimeout seconds =>
    cases taken
    exact explained.frame rfl rfl rfl rfl explained.discarding
  | addConnections conninfo numConnections =>
    cases taken
    exact addConnections_keeps (motive := Explained)
      (fun _ earlier => addConnection_explained earlier conninfo) explained numConnections
  | start =>
    cases taken
    exact explained.frame rfl rfl rfl rfl (explained.discarding.idle true usenet.numthreads)
  | stop =>
    cases taken
    exact explained.frame rfl rfl rfl rfl explained.discarding
  | spawn =>
    cases taken
    exact explained.frame rfl rfl rfl rfl (explained.discarding.idle false 1)
  | call index request =>
    obtain ⟨-, rfl⟩ := step_call taken
    exact explained.frame rfl rfl rfl rfl (explained.discarding.push (by simp [Discards]) index)
  | take index place outcome =>
    obtain ⟨connit, handler, -, -, rfl⟩ := step_take taken
    have before : Explained { usenet with pending := usenet.pending.eraseIdx place } :=
      explained.frame rfl rfl rfl rfl explained.discarding
    obtain ⟨delivered, dismissed⟩ := deliver_explained before connit handler outcome
    exact delivered.frame rfl rfl rfl rfl (delivered.discarding.push dismissed index)
  | expire connit =>
    obtain ⟨-, -, rfl⟩ := step_expire taken
    exact explained.frame rfl rfl rfl rfl explained.discarding
  | proceed index choice =>
    obtain ⟨io, task, tasks, result, found, proceeded, rfl⟩ := step_proceed taken
    obtain ⟨dismissed, popped⟩ := explained.discarding.pop found
    have before : Explained { usenet with threads := usenet.threads.set index ⟨io, tasks⟩ } :=
      explained.frame rfl rfl rfl rfl popped
    have afterwards := proceed_explained before dismissed proceeded
    have calls : ∀ more ∈ result.2, Discards (Dismissed result.1) more := by
      rintro more member connit rfl
      cases proceed_calls proceeded _ member
    exact afterwards.frame rfl rfl rfl rfl (afterwards.discarding.push calls index)
  | rewrite articles =>
    cases taken
    exact explained.frame rfl rfl rfl rfl explained.discarding

/-- A function leaves nothing pending that posts or stats. -/
def Rests (act : Act α) : Prop := ∀ handler ∈ act.2.filterMap Call.handler?, working handler = false

theorem rests_one {act : Act α} {handler : Handler α} (one : act.2.filterMap Call.handler? = [handler])
    (resting : working handler = false) : Rests act := by
  intro other member
  rw [one, List.mem_singleton] at member
  rw [member]
  exact resting

/-- Connecting leads to the connect handler and to nothing else. -/
theorem follows_rests {stage : Stage} {handler : Handler α} (resting : working (.stage stage : Handler α) = false)
    (follows : follows stage handler = true) : working handler = false := by
  cases handler with
  | stage next => cases stage <;> first | contradiction | (cases next <;> first | rfl | contradiction)
  | timer => rfl
  | connectHandler result => rfl
  | postHandler msg result => cases stage <;> contradiction
  | statHandler msgid result => cases stage <;> contradiction

theorem run_rests (heap : α → Article) {stage : Stage} (outcome : Outcome) (connection : Connection α)
    (resting : working (.stage stage : Handler α) = false) : Rests (connection.run heap stage outcome) :=
  fun handler member => follows_rests resting (run_follows heap stage outcome connection handler member)

theorem Still.frame (still : Still usenet) (pending : after.pending = usenet.pending)
    (threads : after.threads = usenet.threads) : Still after :=
  ⟨by rw [pending]; exact still.handlers, still.tasks.frame threads⟩

theorem perform_still (still : Still usenet) {act : Act α} (rests : Rests act) : Still (usenet.perform connit act) := by
  refine ⟨fun other handler member => ?_, still.tasks.frame rfl⟩
  simp only [perform, List.mem_append, List.mem_map, Prod.mk.injEq] at member
  rcases member with earlier | ⟨_, new, -, rfl⟩
  · exact still.handlers other handler earlier
  · exact rests _ new

theorem gracefulDisconnect_still (still : Still usenet) {named : Side}
    (taken : usenet.gracefulDisconnect named connit = some after) : Still after := by
  obtain ⟨connection, -, rfl⟩ := Option.map_eq_some_iff.mp taken
  have quits : Still (usenet.performAccepted connit connection.asyncGracefulDisconnect) := by
    rw [performAccepted]
    split
    next accepted =>
      apply perform_still still
      simp only [asyncGracefulDisconnect] at accepted ⊢
      split
      · exact fun _ member => by cases member
      · exact rests_one (handlers_timeout ..) rfl
    · exact still.frame rfl rfl
  exact quits.frame rfl rfl

theorem shutdown_still (still : Still usenet) (taken : usenet.shutdown connit = some after) : Still after :=
  shutdown_keeps (fun _ _ _ _ earlier _ disconnected => gracefulDisconnect_still earlier disconnected) still taken

theorem deliver_still (still : Still usenet) {handler : Handler α} (resting : working handler = false)
    (outcome : Outcome) : Still (usenet.deliver connit handler outcome).1 ∧
      ∀ task ∈ (usenet.deliver connit handler outcome).2, returning task = false := by
  cases present : usenet.connections connit with
  | none =>
    simp only [deliver, present]
    exact ⟨still, fun _ same => by cases same⟩
  | some connection =>
    simp only [deliver, present]
    cases handler with
    | stage stage => exact ⟨perform_still still (run_rests usenet.articles outcome connection resting), fun _ same => by cases same⟩
    | timer => exact ⟨still, fun _ same => by cases same⟩
    | connectHandler result =>
      refine ⟨still.frame rfl rfl, ?_⟩
      cases result <;> simp [onConnected, returning]
    | _ => cases resting

/-- Without anything to return, a critical section leaves the queue empty. -/
theorem proceed_still {choice : Choice α} {task : Task α} (still : Still usenet) (empty : usenet.queue = [])
    (stays : returning task = false)
    (quiet : (∀ connit, task ≠ .onConnBecomesReady connit ∧ task ≠ .discardConnection connit) → choice.calls = [])
    {result : Usenet α × List (Task α)} (taken : usenet.proceed choice task = some result) :
    Still result.1 ∧ result.1.queue = [] ∧ result.2 = [] := by
  cases proceed_executes taken with
  | becomesReady became =>
    rcases onConnBecomesReady_cases became with ⟨_, _, _, waiting, -, -⟩ | ⟨-, -, rfl⟩ | ⟨-, -, down⟩
    · cases empty.symm.trans waiting
    · exact ⟨still.frame rfl rfl, empty, rfl⟩
    · have ready (connit : ConnectionHandle) : Still (usenet.becomeReady connit) := still.frame rfl rfl
      exact ⟨shutdown_still (ready _) down, (shutdown_remains down).queue.trans empty, rfl⟩
  | discards => exact ⟨still.frame rfl rfl, empty, rfl⟩
  | observes slot =>
    have nothing : choice.calls = [] := quiet (by cases task <;> cases slot <;> simp)
    exact ⟨still.frame rfl rfl, empty, by simp [nothing]⟩
  | _ => cases stays

/-- The invariant of the runs whose steps are all orderly. -/
structure Dispensing (usenet : Usenet α) : Prop where
  owned : Owned [] usenet
  kept : Kept usenet
  outside : ∀ thread ∈ usenet.threads, Outside thread
  explained : Explained usenet
  still : Parted usenet → usenet.queue = [] ∧ Still usenet

theorem Dispensing.dispensed (dispensing : Dispensing usenet) : Dispensed usenet := by
  intro joined filled
  obtain ⟨owned, kept, outside, explained, still⟩ := dispensing
  have ready : usenet.ready = [] := kept.conserving.resolve_right filled
  have busy : usenet.busy = [] := by
    rw [List.eq_nil_iff_forall_not_mem]
    intro connit member
    have single := owned.single connit
    have once := List.count_pos_iff.mpr member
    have idle : onTasks (taskOf connit) usenet = 0 := by
      apply onTasks_calls outside joined.idle
      intro task called
      cases task with
      | request request => rfl
      | wait command notified => rfl
      | _ => cases called
    simp only [owners, joined.delivered, Tally.total_nil, idle, List.count_nil] at single
    omega
  have unparted : ¬ Parted usenet := fun parted => filled (still parted).1
  refine ⟨by rw [ready, busy]; rfl, fun connit known => ?_⟩
  have discarded : .discarded connit ∈ usenet.trace := by
    rcases explained.left connit known with inside | discarded | disconnected
    · rw [ready, busy] at inside
      cases inside
    · exact discarded
    · exact absurd ⟨connit, disconnected⟩ unparted
  exact ⟨discarded, explained.discarded connit discarded, fun disconnected => unparted ⟨connit, disconnected⟩⟩

/-- Only a step that shuts the pool down tells a connection to quit. -/
theorem step_parts {event : Event α} (taken : usenet.step event = some after) (parted : Parted after) :
    Parted usenet ∨ ShutsDown usenet event := by
  obtain ⟨connit, member⟩ := parted
  cases event with
  | addConnections conninfo numConnections =>
    cases taken
    have adds := @addConnections_adds α (fun _ => False) usenet conninfo numConnections
    exact .inl ⟨connit, (adds.fresh member).resolve_right id⟩
  | call index request =>
    obtain ⟨-, rfl⟩ := step_call taken
    exact .inl ⟨connit, member⟩
  | take index place outcome =>
    obtain ⟨other, handler, -, -, rfl⟩ := step_take taken
    have adds := deliver_adds { usenet with pending := usenet.pending.eraseIdx place } other handler outcome
    rcases adds.fresh member with earlier | new
    · exact .inl ⟨connit, earlier⟩
    · cases handler with
      | stage stage =>
        obtain ⟨_, _, same⟩ := new
        cases same
      | timer => exact new.elim
      | _ => cases new
  | expire other =>
    obtain ⟨-, -, rfl⟩ := step_expire taken
    exact .inl ⟨connit, member⟩
  | proceed index choice =>
    obtain ⟨io, task, tasks, result, found, proceeded, rfl⟩ := step_proceed taken
    rcases (proceed_adds proceeded).fresh member with earlier | new
    · exact .inl ⟨connit, earlier⟩
    · cases task with
      | onConnBecomesReady other =>
        have stopped := new.resolve_left id
        exact .inr ⟨⟨other, headTask_found found⟩, stopped.1, stopped.2.1⟩
      | request request => exact new.elim False.elim nofun
      | dispatchOrQueue command => exact new.elim
      | requeueStat other msgid => exact new.elim
      | _ => cases new
  | _ =>
    cases taken
    exact .inl ⟨connit, member⟩

theorem addConnection_still (still : Still usenet) (conninfo : ConnectionInfo) : Still (usenet.addConnection conninfo) := by
  have rests : Rests (asyncConnect (.make conninfo usenet.optimeout : Connection α)) := rests_one rfl rfl
  have added : Still { usenet with
      busy := usenet.busy ++ [usenet.nextHandle]
      busySize := usenet.busySize + 1
      nextHandle := usenet.nextHandle + 1 } := still.frame rfl rfl
  exact perform_still added rests

theorem step_still {event : Event α} (still : Parted usenet → usenet.queue = [] ∧ Still usenet)
    (orderly : Orderly usenet event) (taken : usenet.step event = some after) (parted : Parted after) :
    after.queue = [] ∧ Still after := by
  have before : usenet.queue = [] ∧ Still usenet := by
    rcases step_parts taken parted with earlier | down
    · exact still earlier
    · refine ⟨?_, orderly.still down⟩
      cases event with
      | proceed index choice => exact down.2.1
      | _ => exact down.elim
  obtain ⟨empty, still'⟩ := before
  cases event with
  | setOperationTimeout seconds =>
    cases taken
    exact ⟨empty, still'.frame rfl rfl⟩
  | addConnections conninfo numConnections =>
    cases taken
    refine ⟨(addConnections_same usenet conninfo numConnections).2.2.trans empty, ?_⟩
    exact addConnections_keeps (motive := Still)
      (fun _ earlier => addConnection_still earlier conninfo) still' numConnections
  | start =>
    cases taken
    exact ⟨empty, still'.handlers, still'.tasks.idle true usenet.numthreads⟩
  | stop =>
    cases taken
    exact ⟨empty, still'.frame rfl rfl⟩
  | spawn =>
    cases taken
    exact ⟨empty, still'.handlers, still'.tasks.idle false 1⟩
  | call index request =>
    obtain ⟨-, rfl⟩ := step_call taken
    exact absurd parted (orderly.called trivial)
  | take index place outcome =>
    obtain ⟨connit, handler, -, found, rfl⟩ := step_take taken
    have left : Still { usenet with pending := usenet.pending.eraseIdx place } :=
      ⟨fun connit handler member => still'.handlers connit handler (List.mem_of_mem_eraseIdx member), still'.tasks⟩
    have resting := still'.handlers connit handler (List.mem_of_getElem? found)
    obtain ⟨delivered, stays⟩ := @deliver_still _ _ connit left _ resting outcome
    refine ⟨(deliver_apart ..).queue.trans empty, delivered.handlers, delivered.tasks.push stays index⟩
  | expire connit =>
    obtain ⟨-, -, rfl⟩ := step_expire taken
    refine ⟨empty, fun other handler member => ?_, still'.tasks⟩
    rcases List.mem_append.mp member with earlier | new
    · exact still'.handlers other handler earlier
    · cases List.mem_singleton.mp new
      rfl
  | proceed index choice =>
    have uncalled := orderly.called
    obtain ⟨io, task, tasks, result, found, proceeded, rfl⟩ := step_proceed taken
    obtain ⟨stays, popped⟩ := still'.tasks.pop found
    have left : Still { usenet with threads := usenet.threads.set index ⟨io, tasks⟩ } := ⟨still'.handlers, popped⟩
    have quiet : (∀ connit, task ≠ .onConnBecomesReady connit ∧ task ≠ .discardConnection connit) →
        choice.calls = [] := by
      intro other
      by_contra calls
      have earlier : Parted usenet := by
        rcases step_parts taken parted with earlier | ⟨⟨connit, head⟩, -⟩
        · exact earlier
        · rw [headTask_found found] at head
          cases head
          exact absurd rfl (other connit).1
      apply uncalled ⟨calls, task, headTask_found found, ?_⟩ earlier
      cases task with
      | onConnBecomesReady connit => exact absurd rfl (other connit).1
      | discardConnection connit => exact absurd rfl (other connit).2
      | slotPostFailed msg => trivial
      | slotFinishPost msg => trivial
      | slotFinishStat msgid result => trivial
      | _ => cases stays
    obtain ⟨rests, none, more⟩ := proceed_still left empty stays quiet proceeded
    exact ⟨none, rests.handlers, rests.tasks.push (by simp [more]) index⟩
  | rewrite articles =>
    cases taken
    exact ⟨empty, still'.frame rfl rfl⟩

theorem step_dispensing {event : Event α} (dispensing : Dispensing usenet) (orderly : Orderly usenet event)
    (taken : usenet.step event = some after) : Dispensing after :=
  ⟨step_owned dispensing.owned taken, step_kept dispensing.kept orderly.unseen taken,
    step_outside dispensing.outside taken, step_explained dispensing.explained taken,
    step_still dispensing.still orderly taken⟩

theorem dispensing_make (eraseRule : EraseRule) (iothreads maxQueueSize : Nat) (articles : α → Article) :
    Dispensing (Usenet.make eraseRule iothreads maxQueueSize articles) :=
  ⟨owned_make .., ⟨Nat.le_refl 0, .inl rfl⟩, nofun, ⟨nofun, nofun, nofun⟩, fun ⟨_, member⟩ => nomatch member⟩

/-- In an orderly run, leftover work means that all connections were discarded. -/
theorem orderly_dispensed (eraseRule : EraseRule) (iothreads maxQueueSize : Nat) (articles : α → Article)
    {events : List (Event α)}
    (orderly : Machine.Meets step Orderly (Usenet.make eraseRule iothreads maxQueueSize articles) events) :
    Machine.Holds step Dispensed (Usenet.make eraseRule iothreads maxQueueSize articles) events :=
  Machine.holds_of_meets Dispensing Dispensed (dispensing_make ..) (fun _ dispensing => dispensing.dispensed)
    (fun _ _ _ dispensing orderly taken => step_dispensing dispensing orderly taken) orderly

/-- Enough for a step to be orderly: no connection is idle, none was told to quit,
and none is about to be. -/
def undisturbed (usenet : Usenet α) (event : Event α) : Bool :=
  usenet.ready.isEmpty && usenet.trace.all (fun entry => match entry with | .disconnected _ => false | _ => true) &&
    (usenet.work || match event with | .proceed _ _ => false | _ => true)

theorem orderly_of_undisturbed (usenet : Usenet α) (event : Event α) (test : undisturbed usenet event = true) :
    Orderly usenet event := by
  simp only [undisturbed, Bool.and_eq_true, List.isEmpty_iff, List.all_eq_true] at test
  obtain ⟨⟨ready, unparted⟩, working⟩ := test
  refine ⟨fun _ => ready, fun down => ?_, fun _ ⟨connit, member⟩ => ?_⟩
  · cases event with
    | proceed index choice => simp [down.2.2] at working
    | _ => exact down.elim
  · cases unparted _ member

/-- The only connection cannot connect, and is discarded. -/
def refusedRun : List (Event Nat) :=
  [.spawn, .addConnections sampleConninfo 1, .start] ++ posts 1 ++ takes 1 [(0, "")] ++ [.take 1 0 ⟨true, [], false⟩] ++
    takes 1 [(0, "")] ++ [.proceed 1 goOn]

theorem refused_dispensed : ∃ usenet, Machine.run step (Usenet.make .named 1 5 sampleArticles) refusedRun = some usenet ∧
    usenet.queue = [.startAsyncPost 1] ∧ Dispensed usenet := by
  have computed : (Machine.run step (Usenet.make .named 1 5 sampleArticles) refusedRun).map
      (fun usenet => usenet.queue) = some [.startAsyncPost 1] := by decide +kernel
  obtain ⟨usenet, reached, queue⟩ := Option.map_eq_some_iff.mp computed
  have orderly : Machine.Meets step Orderly (Usenet.make .named 1 5 sampleArticles) refusedRun :=
    Machine.meets_of_passes orderly_of_undisturbed (by decide +kernel)
  exact ⟨usenet, reached, queue, Machine.holds_last (orderly_dispensed .named 1 5 sampleArticles orderly) reached⟩

/-- One connection is told to quit while the stat of the other one is in flight, which then
loses its server. -/
def forsakenRun : List (Event Nat) :=
  opens ++ connects 1 0 1 ++ [.proceed 1 goOn, .call 0 (.enqueueStat (ascii "<1@example>")), .proceed 0 goOn] ++
    takes 1 [(1, ""), (1, "")] ++ [.stop] ++ connects 1 0 1 ++ [.proceed 1 goOn] ++ takes 1 [(1, "")] ++
    [.take 1 0 ⟨true, [], false⟩] ++ takes 1 [(0, "")] ++ [.proceed 1 goOn] ++ takes 1 [(0, "")] ++
    [.take 1 0 ⟨true, [], false⟩] ++ takes 1 [(0, "")] ++ [.proceed 1 goOn]

theorem forsaken_left_over :
    ¬ Machine.Holds step Dispensed (Usenet.make .named 1 5 sampleArticles) forsakenRun := by
  intro holds
  have computed : (Machine.run step (Usenet.make .named 1 5 sampleArticles) forsakenRun).map
      (fun usenet => decide (usenet.work = false ∧ usenet.pending = [] ∧ usenet.ready ++ usenet.busy = [] ∧
        (∀ thread ∈ usenet.threads, thread.tasks = []) ∧ usenet.queue = [.startAsyncStat (ascii "<1@example>")] ∧
        1 < usenet.nextHandle ∧ .disconnected 1 ∈ usenet.trace)) = some true := by decide +kernel
  obtain ⟨usenet, reached, seen⟩ := Option.map_eq_some_iff.mp computed
  obtain ⟨stopped, delivered, gone, idle, queue, known, disconnected⟩ := of_decide_eq_true seen
  have joined : Joined usenet := ⟨stopped, delivered, by simp [gone], fun thread member _ => idle thread member⟩
  have dispensed := Machine.holds_last holds reached joined (by simp [queue])
  exact (dispensed.2 1 known).2.2 disconnected

end Post2Usenet.Proofs.PoolLeftovers
