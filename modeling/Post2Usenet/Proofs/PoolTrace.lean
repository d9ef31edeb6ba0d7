import Post2Usenet.Proofs.PoolSteps

/-! What each operation leaves in the record of a run: which entries are new, and how
the sums of weights over all of them change. -/

namespace Post2Usenet.Proofs.PoolTrace
open Connection Usenet PoolSteps Tally

variable {α : Type} {usenet after : Usenet α} {connit : ConnectionHandle} {command : Command α}
  {weight : Entry α → Nat}

/-- The run goes on, and all that is new is of one kind. -/
def Adds (kind : Entry α → Prop) (before after : Usenet α) : Prop :=
  ∃ new, after.trace = new ++ before.trace ∧ ∀ entry ∈ new, kind entry

section Adds

variable {kind : Entry α → Prop} {before middle : Usenet α}

theorem Adds.still (same : after.trace = before.trace) : Adds kind before after :=
  ⟨[], same, fun _ member => absurd member List.not_mem_nil⟩

theorem Adds.refl (usenet : Usenet α) : Adds kind usenet usenet := .still rfl

theorem Adds.trans (first : Adds kind before middle) (rest : Adds kind middle after) : Adds kind before after := by
  obtain ⟨earlier, middleTrace, kinds⟩ := first
  obtain ⟨later, afterTrace, laterKinds⟩ := rest
  refine ⟨later ++ earlier, by rw [afterTrace, middleTrace, List.append_assoc], fun entry member => ?_⟩
  exact (List.mem_append.mp member).elim (laterKinds entry) (kinds entry)

theorem Adds.weaken {wider : Entry α → Prop} (adds : Adds kind before after) (wide : ∀ entry, kind entry → wider entry) :
    Adds wider before after := by
  obtain ⟨new, trace, kinds⟩ := adds
  exact ⟨new, trace, fun entry member => wide entry (kinds entry member)⟩

theorem Adds.kept (adds : Adds kind before after) {entry : Entry α} (member : entry ∈ before.trace) :
    entry ∈ after.trace := by
  obtain ⟨new, trace, -⟩ := adds
  exact trace ▸ List.mem_append_right new member

theorem Adds.fresh (adds : Adds kind before after) {entry : Entry α} (member : entry ∈ after.trace) :
    entry ∈ before.trace ∨ kind entry := by
  obtain ⟨new, trace, kinds⟩ := adds
  rw [trace] at member
  exact (List.mem_append.mp member).elim (fun inside => .inr (kinds entry inside)) .inl

theorem Adds.total (adds : Adds kind before after) (nothing : ∀ entry, kind entry → weight entry = 0) :
    total weight after.trace = total weight before.trace := by
  obtain ⟨new, trace, kinds⟩ := adds
  have none : Tally.total weight new = Tally.total (fun _ => 0) new :=
    total_congr (fun entry member => nothing entry (kinds entry member))
  rw [trace, total_append, none]
  simp [Tally.total]

end Adds

/-- What a connection that is told to quit leaves. -/
def Parting : Entry α → Prop
  | .refused _ | .disconnected _ | .wrote _ _ .quitWritten => True
  | _ => False

def Refusal : Entry α → Prop
  | .refused _ => True
  | _ => False

theorem record_adds (usenet : Usenet α) (entry : Entry α) : Adds (fun other => other = entry) usenet (usenet.record entry) :=
  ⟨[entry], rfl, fun _ member => List.mem_singleton.mp member⟩

theorem perform_adds (usenet : Usenet α) (connit : ConnectionHandle) (act : Act α) :
    Adds (fun entry => ∃ call ∈ act.2, wrote? connit call = some entry) usenet (usenet.perform connit act) := by
  refine ⟨_, rfl, fun entry member => ?_⟩
  exact List.mem_filterMap.mp (List.mem_reverse.mp member)

/-- A connection that only posts a handler writes nothing. -/
theorem perform_posts {kind : Entry α → Prop} (usenet : Usenet α) (connit : ConnectionHandle) {act : Act α}
    (posts : ∀ call ∈ act.2, ∃ handler, call = .post handler) : Adds kind usenet (usenet.perform connit act) := by
  apply (perform_adds usenet connit act).weaken
  rintro entry ⟨call, member, wrote⟩
  obtain ⟨handler, rfl⟩ := posts call member
  cases wrote

theorem asyncConnect_posts (connection : Connection α) :
    ∀ call ∈ connection.asyncConnect.2, ∃ handler, call = .post handler := by
  simp only [asyncConnect]
  split <;> simp

theorem run_adds (taken : usenet.run connit command = some after) : Adds Refusal usenet after := by
  have accepted (result : Bool × Act α) (posts : result.1 = true → ∀ call ∈ result.2.2, ∃ handler, call = .post handler) :
      Adds Refusal usenet (usenet.performAccepted connit result) := by
    rw [performAccepted]
    split
    next yes => exact perform_posts usenet connit (posts yes)
    · exact (record_adds usenet _).weaken (by rintro _ rfl; trivial)
  cases command with
  | startAsyncPost msg =>
    obtain ⟨connection, -, rfl⟩ := Option.map_eq_some_iff.mp taken
    apply accepted
    simp only [asyncPost]
    split <;> simp
  | startAsyncStat msgid =>
    obtain ⟨connection, -, rfl⟩ := Option.map_eq_some_iff.mp taken
    apply accepted
    simp only [asyncStat]
    split <;> simp

theorem dispatch_adds (taken : usenet.dispatch command = some after) : Adds Refusal usenet after := by
  obtain ⟨connit, ready, -, run⟩ := dispatch_cases taken
  exact (run_adds run :)

theorem gracefulDisconnect_adds {named : Side} (taken : usenet.gracefulDisconnect named connit = some after) :
    Adds Parting usenet after := by
  obtain ⟨connection, -, rfl⟩ := Option.map_eq_some_iff.mp taken
  have quits : Adds Parting usenet (usenet.performAccepted connit connection.asyncGracefulDisconnect) := by
    rw [performAccepted]
    split
    · apply (perform_adds usenet connit _).weaken
      rintro entry ⟨call, member, wrote⟩
      simp only [asyncGracefulDisconnect] at member
      split at member
      · cases member
      · simp only [write, timeoutNextAsyncOperation, List.mem_append, List.mem_singleton] at member
        rcases member with timed | rfl
        · split at timed
          · cases timed
          · cases List.mem_singleton.mp timed
            cases wrote
        · cases wrote
          trivial
    · exact (record_adds usenet _).weaken (by rintro _ rfl; trivial)
  have erased : Adds Parting (usenet.performAccepted connit connection.asyncGracefulDisconnect)
      ((usenet.performAccepted connit connection.asyncGracefulDisconnect).erase named connit) := Adds.refl _
  exact (quits.trans erased).trans ((record_adds _ _).weaken (by rintro _ rfl; trivial))

theorem shutdown_adds (taken : usenet.shutdown connit = some after) : Adds Parting usenet after := by
  apply shutdown_keeps _ (Adds.refl usenet) taken
  exact fun before named connit after earlier _ disconnected => earlier.trans (gracefulDisconnect_adds disconnected)

theorem onConnBecomesReady_adds {wake : Option Nat} (taken : usenet.onConnBecomesReady connit wake = some after) :
    Adds (fun entry => Refusal entry ∨ usenet.queue = [] ∧ usenet.work = false ∧ Parting entry) usenet after := by
  rcases onConnBecomesReady_cases taken with ⟨_, _, notified, -, woken, run⟩ | ⟨-, -, rfl⟩ | ⟨empty, stopped, down⟩
  · have same : notified.trace = usenet.trace := by
      rcases woken with rfl | ⟨_, _, _, _, _, rfl⟩ <;> rfl
    obtain ⟨new, trace, kinds⟩ := run_adds run
    exact ⟨new, by rw [trace]; exact congrArg (new ++ ·) same, fun entry member => .inl (kinds entry member)⟩
  · exact .refl _
  · exact (shutdown_adds down).weaken (fun entry parting => .inr ⟨empty, stopped, parting⟩)

/-- What a task can add to the record. -/
def Leaves (usenet : Usenet α) : Task α → Entry α → Prop
  | .request request, entry => Refusal entry ∨ entry = .passed request.command
  | .wait command _, entry => entry = .passed command
  | .onConnBecomesReady _, entry => Refusal entry ∨ usenet.queue = [] ∧ usenet.work = false ∧ Parting entry
  | .discardConnection connit, entry => entry = .discarded connit
  | .dispatchOrQueue _, entry => Refusal entry
  | .requeueStat _ _, _ => False
  | .slotPostFailed msg, entry => entry = .postFailed msg
  | .slotFinishPost msg, entry => entry = .postFinished msg
  | .slotFinishStat msgid result, entry => entry = .statFinished msgid result

theorem proceed_adds {choice : Choice α} {task : Task α} {result : Usenet α × List (Task α)}
    (taken : usenet.proceed choice task = some result) : Adds (Leaves usenet task) usenet result.1 := by
  cases proceed_executes taken with
  | @dispatches request after idle dispatched =>
    have passes : Adds (Leaves usenet (.request request)) usenet (usenet.record (.passed request.command)) :=
      (record_adds usenet _).weaken (fun _ same => .inr same)
    exact passes.trans ((dispatch_adds dispatched).weaken (fun _ => .inl))
  | waits => exact .refl _
  | @defers request none room =>
    have passes : Adds (Leaves usenet (.request request)) usenet (usenet.record (.passed request.command)) :=
      (record_adds usenet _).weaken (fun _ same => .inr same)
    exact passes
  | resumes => exact record_adds usenet _
  | sleeps => exact .refl _
  | becomesReady became => exact onConnBecomesReady_adds became
  | @discards connit work stopped => exact (record_adds (usenet.erase .busy connit) (.discarded connit) :)
  | redispatches idle dispatched => exact dispatch_adds dispatched
  | requeues => exact .refl _
  | @reconnects connit msgid connection present =>
    exact (perform_posts (usenet.pushBack (.startAsyncStat msgid)) connit (asyncConnect_posts _) :)
  | observes slot => cases task <;> cases slot <;> exact record_adds usenet _

/-- A weight that ignores what connections write and how they end sees only the
calls of clients and observers. -/
structure Quiet (weight : Entry α → Nat) : Prop where
  wrote : ∀ connit buffers handler, weight (.wrote connit buffers handler) = 0
  refused : ∀ connit, weight (.refused connit) = 0
  discarded : ∀ connit, weight (.discarded connit) = 0
  disconnected : ∀ connit, weight (.disconnected connit) = 0

theorem Quiet.refusal (quiet : Quiet weight) (entry : Entry α) (refusal : Refusal entry) : weight entry = 0 := by
  cases entry with
  | refused connit => exact quiet.refused connit
  | _ => exact refusal.elim

theorem Quiet.parting (quiet : Quiet weight) (entry : Entry α) (parting : Parting entry) : weight entry = 0 := by
  cases entry with
  | refused connit => exact quiet.refused connit
  | disconnected connit => exact quiet.disconnected connit
  | wrote connit buffers handler => exact quiet.wrote connit buffers handler
  | _ => exact parting.elim

theorem record_trace (weight : Entry α → Nat) (usenet : Usenet α) (entry : Entry α) :
    total weight (usenet.record entry).trace = weight entry + total weight usenet.trace :=
  total_cons ..

theorem perform_trace (quiet : Quiet weight) (usenet : Usenet α) (connit : ConnectionHandle) (act : Act α) :
    total weight (usenet.perform connit act).trace = total weight usenet.trace := by
  apply (perform_adds usenet connit act).total
  rintro entry ⟨call, -, wrote⟩
  cases call with
  | asyncWrite buffers handler =>
    cases wrote
    exact quiet.wrote ..
  | _ => cases wrote

/-- What a task adds to the record, when it is done with it. -/
def recorded (weight : Entry α → Nat) (more : List (Task α)) : Task α → Nat
  | .request request => if more = [] then weight (.passed request.command) else 0
  | .wait command _ => if more = [] then weight (.passed command) else 0
  | .slotPostFailed msg => weight (.postFailed msg)
  | .slotFinishPost msg => weight (.postFinished msg)
  | .slotFinishStat msgid result => weight (.statFinished msgid result)
  | _ => 0

theorem proceed_trace (quiet : Quiet weight) {choice : Choice α} {task : Task α} {result : Usenet α × List (Task α)}
    (taken : usenet.proceed choice task = some result) :
    total weight result.1.trace = recorded weight result.2 task + total weight usenet.trace := by
  cases proceed_executes taken with
  | dispatches idle dispatched =>
    rw [(dispatch_adds dispatched).total quiet.refusal, record_trace]
    rfl
  | waits => simp [recorded]
  | defers => exact record_trace ..
  | resumes => exact record_trace ..
  | sleeps => simp [recorded]
  | becomesReady became =>
    rw [(onConnBecomesReady_adds became).total]
    · simp [recorded]
    · exact fun entry new => new.elim (quiet.refusal entry) (fun parts => quiet.parting entry parts.2.2)
  | @discards connit work stopped =>
    exact (record_trace weight (usenet.erase .busy connit) (.discarded connit)).trans (by rw [quiet.discarded]; rfl)
  | redispatches idle dispatched =>
    rw [(dispatch_adds dispatched).total quiet.refusal]
    simp [recorded]
  | requeues => simp [recorded, pushBack]
  | reconnects present =>
    rw [perform_trace quiet]
    simp [recorded, pushBack]
  | observes slot => cases task <;> cases slot <;> exact record_trace ..

/-- What a handler can add to the record. -/
def Reports (connit : ConnectionHandle) : Handler α → Entry α → Prop
  | .stage _, entry => ∃ buffers handler, entry = .wrote connit buffers handler
  | .timer, _ => False
  | .connectHandler result, entry => entry = .connected connit result
  | .postHandler msg result, entry => entry = .posted connit msg result
  | .statHandler msgid result, entry => entry = .stated connit msgid result

theorem deliver_adds (usenet : Usenet α) (connit : ConnectionHandle) (handler : Handler α) (outcome : Outcome) :
    Adds (Reports connit handler) usenet (usenet.deliver connit handler outcome).1 := by
  rw [deliver]
  split
  · exact .refl usenet
  next connection present =>
    cases handler with
    | stage stage =>
      apply (perform_adds usenet connit _).weaken
      rintro entry ⟨call, -, wrote⟩
      cases call with
      | asyncWrite buffers handler =>
        cases wrote
        exact ⟨buffers, handler, rfl⟩
      | _ => cases wrote
    | timer => exact .refl usenet
    | connectHandler result => exact record_adds usenet _
    | statHandler msgid result => exact record_adds usenet _
    | postHandler msg result =>
      have reports := record_adds usenet (.posted connit msg result)
      cases result with
      | postingNotPermitted => exact reports.trans (perform_posts _ connit (fun _ same => by cases same))
      | postFailure => exact reports
      | postFailureConnectionError => exact reports.trans (perform_posts _ connit (asyncConnect_posts _))
      | postSuccess => exact reports

theorem addConnections_adds {kind : Entry α → Prop} (usenet : Usenet α) (conninfo : ConnectionInfo)
    (numConnections : Nat) : Adds kind usenet (usenet.addConnections conninfo numConnections) := by
  refine addConnections_keeps (fun before earlier => ?_) (.refl usenet) numConnections
  have added : Adds kind before (before.addConnection conninfo) :=
    (perform_posts _ before.nextHandle (asyncConnect_posts (.make conninfo before.optimeout)) :)
  exact earlier.trans added

/-- The report that reaches an observer of the pool first. -/
def reported (weight : Entry α → Nat) (connit : ConnectionHandle) : Handler α → Nat
  | .connectHandler result => weight (.connected connit result)
  | .postHandler msg result => weight (.posted connit msg result)
  | .statHandler msgid result => weight (.stated connit msgid result)
  | _ => 0

theorem deliver_trace (quiet : Quiet weight) (handler : Handler α) (outcome : Outcome)
    (present : (usenet.connections connit).isSome = true) :
    total weight (usenet.deliver connit handler outcome).1.trace =
      reported weight connit handler + total weight usenet.trace := by
  obtain ⟨connection, present⟩ := Option.isSome_iff_exists.mp present
  simp only [deliver, present]
  cases handler with
  | stage stage =>
    rw [perform_trace quiet]
    simp [reported]
  | timer => simp [reported]
  | connectHandler result => exact record_trace ..
  | statHandler msgid result => exact record_trace ..
  | postHandler msg result =>
    cases result with
    | postingNotPermitted => exact (perform_trace quiet ..).trans (record_trace ..)
    | postFailure => exact record_trace ..
    | postFailureConnectionError => exact (perform_trace quiet ..).trans (record_trace ..)
    | postSuccess => exact record_trace ..

theorem addConnections_trace (usenet : Usenet α) (conninfo : ConnectionInfo) (numConnections : Nat) :
    (usenet.addConnections conninfo numConnections).trace = usenet.trace := by
  obtain ⟨new, trace, none⟩ := @addConnections_adds _ (fun _ => False) usenet conninfo numConnections
  rw [trace, List.eq_nil_iff_forall_not_mem.mpr none, List.nil_append]

/-- The steps that no thread takes, and that leave no task behind. -/
def standing : Event α → Bool
  | .call _ _ | .take _ _ _ | .proceed _ _ => false
  | _ => true

/-- What a step does with the tasks of the threads and the record: which tasks it
takes from a thread, which it puts there, and what the record is then. -/
inductive Turns (usenet : Usenet α) : Event α → List (Task α) → List (Task α) → List (Entry α) → Prop
  | stands {event : Event α} (still : standing event = true) : Turns usenet event [] [] usenet.trace
  | call (index : Nat) (request : Request α) : Turns usenet (.call index request) [] [.request request] usenet.trace
  | take {index place : Nat} {connit : ConnectionHandle} {handler : Handler α} {outcome : Outcome}
      (found : usenet.pending[place]? = some (connit, handler)) :
      Turns usenet (.take index place outcome) []
        ({ usenet with pending := usenet.pending.eraseIdx place }.deliver connit handler outcome).2
        ({ usenet with pending := usenet.pending.eraseIdx place }.deliver connit handler outcome).1.trace
  | proceed {index : Nat} {choice : Choice α} {io : Bool} {task : Task α} {tasks : List (Task α)}
      {result : Usenet α × List (Task α)} (found : usenet.threads[index]? = some ⟨io, task :: tasks⟩)
      (proceeded : { usenet with threads := usenet.threads.set index ⟨io, tasks⟩ }.proceed choice task = some result) :
      Turns usenet (.proceed index choice) [task] result.2 result.1.trace

/-- Tasks are weighed alike whether their thread was notified or not. -/
def Blind (weight : Task α → Nat) : Prop := ∀ command, weight (.wait command true) = weight (.wait command false)

theorem step_turns {event : Event α} (taken : usenet.step event = some after) :
    ∃ popped pushed, Turns usenet event popped pushed after.trace ∧
      ∀ weight, Blind weight → onTasks weight after + total weight popped = onTasks weight usenet + total weight pushed := by
  cases event with
  | addConnections conninfo numConnections =>
    cases taken
    refine ⟨[], [], ?_, fun weight _ => by simp only [onTasks, addConnections_threads]⟩
    rw [addConnections_trace]
    exact .stands rfl
  | start =>
    cases taken
    exact ⟨[], [], .stands rfl, fun weight _ => by rw [← onTasks_idle weight usenet true usenet.numthreads]; rfl⟩
  | spawn =>
    cases taken
    exact ⟨[], [], .stands rfl, fun weight _ => by rw [← onTasks_idle weight usenet false 1]; rfl⟩
  | call index request =>
    obtain ⟨found, rfl⟩ := step_call taken
    exact ⟨[], [.request request], .call index request,
      fun weight _ => onTasks_pushTasks weight (List.getElem?_eq_some_iff.mp found).1 _⟩
  | take index place outcome =>
    obtain ⟨connit, handler, idle, found, rfl⟩ := step_take taken
    refine ⟨[], _, .take found, fun weight _ => ?_⟩
    have threads := (deliver_apart { usenet with pending := usenet.pending.eraseIdx place } connit handler outcome).threads
    rw [onTasks_pushTasks weight (by rw [threads]; exact (List.getElem?_eq_some_iff.mp idle).1)]
    simp only [onTasks, threads, total_nil, Nat.add_zero]
  | proceed index choice =>
    obtain ⟨io, task, tasks, result, found, proceeded, rfl⟩ := step_proceed taken
    refine ⟨[task], _, .proceed found proceeded, fun weight blind => ?_⟩
    have inside := proceed_inside found proceeded
    have popped := onTasks_pop weight found
    have kept := proceed_onTasks blind proceeded
    rw [onTasks_pushTasks weight inside, kept, popped, total_cons, total_nil]
    omega
  | expire connit =>
    obtain ⟨-, -, rfl⟩ := step_expire taken
    exact ⟨[], [], .stands rfl, fun _ _ => rfl⟩
  | _ =>
    cases taken
    exact ⟨[], [], .stands rfl, fun _ _ => rfl⟩

/-- What is written, other than the last command, is written by a function of a
connection that a step has run. -/
def WrittenBy (usenet : Usenet α) (event : Event α) : Entry α → Prop
  | .wrote connit buffers handler => handler = .quitWritten ∨ ∃ index place outcome stage connection,
      event = .take index place outcome ∧ usenet.pending[place]? = some (connit, .stage stage) ∧
        usenet.connections connit = some connection ∧
        .asyncWrite buffers handler ∈ (connection.run usenet.articles stage outcome).2
  | _ => True

theorem parting_quits {buffers : Bytes} {handler : Stage} (parting : Parting (.wrote connit buffers handler : Entry α)) :
    handler = .quitWritten := by
  cases handler with
  | quitWritten => rfl
  | _ => exact parting.elim

theorem step_written {event : Event α} (taken : usenet.step event = some after) :
    Adds (WrittenBy usenet event) usenet after := by
  obtain ⟨popped, pushed, turns, -⟩ := step_turns taken
  have adds (middle : Usenet α) (adds : Adds (WrittenBy usenet event) usenet middle) (same : after.trace = middle.trace) :
      Adds (WrittenBy usenet event) usenet after := by
    obtain ⟨new, trace, kinds⟩ := adds
    exact ⟨new, same.trans trace, kinds⟩
  generalize final : after.trace = trace at turns
  cases turns with
  | stands still => exact adds usenet (.refl usenet) final
  | call index request => exact adds usenet (.refl usenet) final
  | @take index place connit handler outcome found =>
    refine adds _ ?_ final
    cases handler with
    | stage stage =>
      cases present : usenet.connections connit with
      | none =>
        simp only [deliver, present]
        exact .refl usenet
      | some connection =>
        simp only [deliver, present]
        apply (perform_adds { usenet with pending := usenet.pending.eraseIdx place } connit _).weaken
        rintro entry ⟨call, member, wrote⟩
        cases call with
        | asyncWrite buffers next =>
          cases wrote
          exact .inr ⟨index, place, outcome, stage, connection, rfl, found, present, member⟩
        | _ => cases wrote
    | _ =>
      apply (deliver_adds { usenet with pending := usenet.pending.eraseIdx place } connit _ outcome).weaken
      rintro entry reports
      cases entry with
      | wrote other buffers next => cases reports
      | _ => trivial
  | @proceed index choice io task tasks result found proceeded =>
    refine adds result.1 ((proceed_adds proceeded).weaken ?_) final
    intro entry leaves
    cases entry with
    | wrote other buffers next =>
      refine .inl ?_
      cases task with
      | request request =>
        rcases leaves with refusal | passed
        · cases refusal
        · cases passed
      | onConnBecomesReady connit => exact leaves.elim False.elim (fun down => parting_quits down.2.2)
      | dispatchOrQueue command => exact leaves.elim
      | requeueStat connit msgid => exact leaves.elim
      | _ => cases leaves
    | _ => trivial

end Post2Usenet.Proofs.PoolTrace
