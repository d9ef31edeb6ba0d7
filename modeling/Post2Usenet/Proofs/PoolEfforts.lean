import Post2Usenet.Proofs.PoolAccounting

/-! How often the pool starts to post. Every command it has sent was answered with a
report or is on its way, and no connection reports twice that posting is not permitted. -/

namespace Post2Usenet.Proofs.PoolEfforts
open Connection Usenet ConnectionSteps PoolSteps PoolOwnership PoolTrace PoolAccounting Tally

variable {α : Type} {usenet middle after : Usenet α} {connit : ConnectionHandle} {command : Command α}
  {hand : List ConnectionHandle}

/-- The entries that only note a call or its end. -/
def noting : Entry α → Bool
  | .wrote _ _ _ | .posted _ _ _ | .discarded _ => false
  | _ => true

/-- What a critical section does with the connections, part by part. -/
inductive Goes : Usenet α → Usenet α → Prop
  | rest {before after : Usenet α} (trace : after.trace = before.trace) (pending : after.pending = before.pending)
      (connections : after.connections = before.connections) (nextHandle : after.nextHandle = before.nextHandle) :
      Goes before after
  | note {usenet : Usenet α} {entry : Entry α} (notes : noting entry = true) : Goes usenet (usenet.record entry)
  | perform {usenet : Usenet α} {connit : ConnectionHandle} (act : Act α)
      (present : (usenet.connections connit).isSome = true) : Goes usenet (usenet.perform connit act)
  | erase (usenet : Usenet α) (named : Side) (connit : ConnectionHandle) : Goes usenet (usenet.erase named connit)
  | discard {usenet : Usenet α} {connit : ConnectionHandle} (present : (usenet.connections connit).isSome = true) :
      Goes usenet ((usenet.erase .busy connit).record (.discarded connit))
  | trans {before middle after : Usenet α} (first : Goes before middle) (rest : Goes middle after) : Goes before after

theorem Goes.refl (usenet : Usenet α) : Goes usenet usenet := .rest rfl rfl rfl rfl

theorem run_goes (taken : usenet.run connit command = some after) : Goes usenet after := by
  have accepted {connection : Connection α} (present : usenet.connections connit = some connection)
      (result : Bool × Act α) : Goes usenet (usenet.performAccepted connit result) := by
    rw [performAccepted]
    split
    · exact .perform result.2 (by simp [present])
    · exact .note rfl
  cases command with
  | startAsyncPost msg =>
    obtain ⟨connection, present, rfl⟩ := Option.map_eq_some_iff.mp taken
    exact accepted present _
  | startAsyncStat msgid =>
    obtain ⟨connection, present, rfl⟩ := Option.map_eq_some_iff.mp taken
    exact accepted present _

theorem dispatch_goes (taken : usenet.dispatch command = some after) : Goes usenet after := by
  obtain ⟨connit, ready, -, run⟩ := dispatch_cases taken
  have moved : Goes usenet { usenet with
      ready
      busy := connit :: usenet.busy
      readySize := decrement usenet.readySize
      busySize := usenet.busySize + 1 } := .rest rfl rfl rfl rfl
  exact moved.trans (run_goes run)

theorem gracefulDisconnect_goes {named : Side} (taken : usenet.gracefulDisconnect named connit = some after) :
    Goes usenet after := by
  obtain ⟨connection, present, rfl⟩ := Option.map_eq_some_iff.mp taken
  have quits : Goes usenet (usenet.performAccepted connit connection.asyncGracefulDisconnect) := by
    rw [performAccepted]
    split
    · exact .perform _ (by simp [present])
    · exact .note rfl
  exact (quits.trans (.erase _ named connit)).trans (.note rfl)

theorem shutdown_goes (taken : usenet.shutdown connit = some after) : Goes usenet after := by
  apply shutdown_keeps _ (Goes.refl usenet) taken
  exact fun before named connit after earlier _ disconnected => earlier.trans (gracefulDisconnect_goes disconnected)

theorem proceed_goes {choice : Choice α} {task : Task α} (owned : Owned ((connit? task).toList ++ hand) usenet)
    {result : Usenet α × List (Task α)} (taken : usenet.proceed choice task = some result) : Goes usenet result.1 := by
  have pushes (usenet : Usenet α) (command : Command α) : Goes usenet (usenet.pushBack command) := .rest rfl rfl rfl rfl
  have passes (command : Command α) : Goes usenet (usenet.record (.passed command)) := .note rfl
  cases proceed_executes taken with
  | dispatches idle dispatched => exact (passes _).trans (dispatch_goes dispatched)
  | waits => exact .refl usenet
  | defers => exact (passes _).trans (pushes _ _)
  | resumes => exact (passes _).trans (pushes _ _)
  | sleeps => exact .refl usenet
  | @becomesReady connit after became =>
    have becomes : Goes usenet (usenet.becomeReady connit) := .rest rfl rfl rfl rfl
    rcases onConnBecomesReady_cases became with ⟨_, queue, notified, -, woken, run⟩ | ⟨-, -, rfl⟩ | ⟨-, -, down⟩
    · have popped : Goes usenet { notified with queue } := by
        rcases woken with rfl | ⟨_, _, _, _, _, rfl⟩
        · exact .rest rfl rfl rfl rfl
        · exact .rest rfl rfl rfl rfl
      exact popped.trans (run_goes run)
    · exact becomes
    · exact becomes.trans (shutdown_goes down)
  | @discards connit work stopped =>
    exact (Goes.discard (Option.isSome_iff_exists.mpr (present_in_hand owned))).trans (.rest rfl rfl rfl rfl)
  | redispatches idle dispatched => exact dispatch_goes dispatched
  | requeues => exact pushes usenet _
  | @reconnects connit msgid connection present =>
    exact (pushes usenet _).trans (.perform _ (Option.isSome_iff_exists.mpr ⟨connection, present⟩))
  | observes slot => cases task <;> cases slot <;> exact .note rfl

/-- The command of `do_post` on the wire. -/
def startOf : Entry α → Nat
  | .wrote _ _ .postWritten => 1
  | _ => 0

def started (usenet : Usenet α) : Nat := total startOf usenet.trace

def postedOf : Entry α → Nat
  | .posted _ _ _ => 1
  | _ => 0

/-- A post whose command was sent and which was not reported yet. -/
def flying : Handler α → Nat
  | .stage .postWritten | .stage .postAnswered | .stage .articleWritten | .stage .articleAnswered => 1
  | .postHandler _ _ => 1
  | _ => 0

def flightOf (entry : ConnectionHandle × Handler α) : Nat := flying entry.2

def flight (usenet : Usenet α) : Nat := total flightOf usenet.pending

/-- The handler that is left behind when the command is sent. -/
def commanded : Handler α → Nat
  | .stage .postWritten => 1
  | _ => 0

theorem perform_started (usenet : Usenet α) (connit : ConnectionHandle) (act : Act α) :
    started (usenet.perform connit act) ≤ started usenet + total commanded (act.2.filterMap Call.handler?) := by
  have leaves (calls : List (Call α)) :
      total startOf (calls.filterMap (wrote? connit)) ≤ total commanded (calls.filterMap Call.handler?) := by
    induction calls with
    | nil => exact Nat.le_refl 0
    | cons call calls ih =>
      cases call with
      | asyncWrite buffers handler =>
        have same : startOf (.wrote connit buffers handler : Entry α) = commanded (.stage handler : Handler α) := by
          cases handler <;> rfl
        simp only [List.filterMap_cons, wrote?, Call.handler?, total_cons, same]
        omega
      | startTimer seconds => exact ih
      | cancelTimer => exact ih
      | _ => exact Nat.le_trans ih (Nat.le_add_left ..)
  have wrote := leaves act.2
  have turned : total startOf (act.2.filterMap (wrote? connit)).reverse =
      total startOf (act.2.filterMap (wrote? connit)) := by
    simp [total, List.map_reverse, List.sum_reverse]
  simp only [started, perform, total_append, turned]
  omega

theorem perform_flight (usenet : Usenet α) (connit : ConnectionHandle) (act : Act α) :
    flight (usenet.perform connit act) = flight usenet + total flying (act.2.filterMap Call.handler?) := by
  simp only [flight, perform, total_append, total_map]
  rfl

theorem commanded_flying (handlers : List (Handler α)) : total commanded handlers ≤ total flying handlers := by
  apply List.sum_le_sum
  intro handler _
  cases handler with
  | stage stage => cases stage <;> simp [commanded, flying]
  | _ => exact Nat.zero_le _

/-- Every command that is sent flies. -/
theorem goes_started (goes : Goes usenet after) : started after + flight usenet ≤ started usenet + flight after := by
  induction goes with
  | rest trace pending connections nextHandle => simp only [started, flight, trace, pending, Nat.le_refl]
  | @note usenet entry notes =>
    have silent : startOf entry = 0 := by
      cases entry with
      | wrote connit buffers handler => cases notes
      | _ => rfl
    simp [started, flight, record, silent]
  | @perform usenet connit act present =>
    have wrote := perform_started usenet connit act
    have flies := perform_flight usenet connit act
    have fewer := commanded_flying (act.2.filterMap Call.handler?)
    omega
  | erase usenet named connit => exact Nat.le_refl _
  | discard present => simp [started, flight, record, Usenet.erase, startOf]
  | trans first rest earlier later => omega

theorem goes_grows (goes : Goes usenet after) : ∃ new, after.trace = new ++ usenet.trace := by
  induction goes with
  | rest trace pending connections nextHandle => exact ⟨[], trace⟩
  | note notes => exact ⟨[_], rfl⟩
  | perform act present => exact ⟨_, rfl⟩
  | erase usenet named connit => exact ⟨[], rfl⟩
  | discard present => exact ⟨[_], rfl⟩
  | trans first rest earlier later =>
    obtain ⟨before, middleTrace⟩ := earlier
    obtain ⟨new, afterTrace⟩ := later
    exact ⟨new ++ before, by rw [afterTrace, middleTrace, List.append_assoc]⟩

theorem goes_total (goes : Goes usenet after) (weight : Entry α → Nat) :
    total weight usenet.trace ≤ total weight after.trace := by
  obtain ⟨new, trace⟩ := goes_grows goes
  rw [trace, total_append]
  exact Nat.le_add_left ..

/-- A function of a connection that flies goes on flying. -/
theorem follows_flying {stage : Stage} {handler : Handler α} (follow : follows stage handler = true) :
    commanded handler + flying (.stage stage : Handler α) ≤ flying handler := by
  cases handler with
  | stage next => cases stage <;> cases next <;> first | (simp [commanded, flying]; done) | cases follow
  | timer => cases stage <;> cases follow
  | connectHandler result => cases stage <;> first | (simp [commanded, flying]; done) | cases follow
  | postHandler msg result => cases stage <;> simp [commanded, flying]
  | statHandler msgid result => cases stage <;> first | (simp [commanded, flying]; done) | cases follow

/-- Every command was answered with a report, or flies. -/
def Answered (usenet : Usenet α) : Prop := started usenet ≤ total postedOf usenet.trace + flight usenet

theorem goes_answered (goes : Goes usenet after) (answered : Answered usenet) : Answered after := by
  have flies := goes_started goes
  have more := goes_total goes postedOf
  simp only [Answered] at answered ⊢
  omega

theorem quiet_postedOf : Quiet (postedOf : Entry α → Nat) := by constructor <;> intros <;> rfl

theorem deliver_answered (owned : Owned (connit :: hand) usenet) {handler : Handler α} (owning : owns handler = true)
    (fits : ∀ connection, usenet.connections connit = some connection → Fits connection handler) (outcome : Outcome)
    (answered : started usenet ≤ total postedOf usenet.trace + flight usenet + flying handler) :
    Answered (usenet.deliver connit handler outcome).1 := by
  obtain ⟨connection, present⟩ := present_in_hand owned
  have fits := fits connection present
  have isSome : (usenet.connections connit).isSome = true := by simp [present]
  simp only [deliver, present]
  cases handler with
  | stage stage =>
    obtain ⟨handler, one, -⟩ := run_continues usenet.articles outcome fits owning
    have follow := run_follows usenet.articles stage outcome connection handler (by simp [one])
    have flies := follows_flying follow
    have wrote := perform_started usenet connit (connection.run usenet.articles stage outcome)
    have left := perform_flight usenet connit (connection.run usenet.articles stage outcome)
    have posted := perform_trace quiet_postedOf usenet connit (connection.run usenet.articles stage outcome)
    simp only [one, total_cons, total_nil] at wrote left
    simp only [Answered, left, posted]
    omega
  | timer => cases owning
  | connectHandler result => exact goes_answered (Goes.note rfl) answered
  | statHandler msgid result => exact goes_answered (Goes.note rfl) answered
  | postHandler msg result =>
    have reported : Answered (usenet.record (.posted connit msg result)) := by
      simp only [Answered, started, flight, record, total_cons, startOf, postedOf, flying] at answered ⊢
      omega
    cases result with
    | postingNotPermitted => exact goes_answered (Goes.perform _ isSome) reported
    | postFailure => exact reported
    | postFailureConnectionError => exact goes_answered (Goes.perform _ isSome) reported
    | postSuccess => exact reported

theorem addConnections_answered (answered : Answered usenet) (conninfo : ConnectionInfo) (numConnections : Nat) :
    Answered (usenet.addConnections conninfo numConnections) := by
  apply addConnections_keeps _ answered
  intro before earlier
  have connects : started (before.addConnection conninfo) = started before ∧
      total postedOf (before.addConnection conninfo).trace = total postedOf before.trace ∧
      flight (before.addConnection conninfo) = flight before := by
    refine ⟨rfl, rfl, ?_⟩
    simp [addConnection, perform, asyncConnect, Connection.make, flight, flightOf, flying, Call.handler?]
  simp only [Answered, connects.1, connects.2.1, connects.2.2]
  exact earlier

theorem step_answered {event : Event α} (owned : Owned [] usenet) (answered : Answered usenet)
    (taken : usenet.step event = some after) : Answered after := by
  cases event with
  | addConnections conninfo numConnections =>
    cases taken
    exact addConnections_answered answered conninfo numConnections
  | call index request =>
    obtain ⟨-, rfl⟩ := step_call taken
    exact answered
  | take index place outcome =>
    obtain ⟨connit, handler, -, found, rfl⟩ := step_take taken
    have landed := total_eraseIdx flightOf found
    rcases takePending_cases owned found outcome with ⟨owning, taken, fits⟩ | ⟨stale, nothing⟩
    · have counted : started usenet ≤ total postedOf usenet.trace +
          flight { usenet with pending := usenet.pending.eraseIdx place } + flying handler := by
        simp only [Answered, flight, flightOf] at answered landed ⊢
        omega
      exact deliver_answered taken owning fits outcome counted
    · have grounded : flying handler = 0 := by
        cases handler with
        | stage stage => cases stage <;> first | rfl | cases stale
        | timer => rfl
        | _ => cases stale
      have kept : Answered { usenet with pending := usenet.pending.eraseIdx place } := by
        simp only [Answered, started, flight, flightOf, grounded] at answered landed ⊢
        omega
      rw [nothing]
      exact kept
  | expire connit =>
    obtain ⟨-, -, rfl⟩ := step_expire taken
    simp only [Answered, started, flight, total_append, total_cons, total_nil, flightOf, flying] at answered ⊢
    exact answered
  | proceed index choice =>
    obtain ⟨io, task, tasks, result, found, proceeded, rfl⟩ := step_proceed taken
    have popped : Answered { usenet with threads := usenet.threads.set index ⟨io, tasks⟩ } := answered
    exact (goes_answered (proceed_goes (popTask_owned owned found) proceeded) popped :)
  | _ =>
    cases taken
    exact answered

/-- The connection that an entry is about, where it matters. -/
def reporter : Entry α → ConnectionHandle
  | .posted connit _ _ | .discarded connit => connit
  | _ => 0

def refusalOf : Entry α → Nat
  | .posted _ _ .postingNotPermitted => 1
  | _ => 0

/-- The times a connection has reported that posting is not permitted. -/
def refusals (connit : ConnectionHandle) (usenet : Usenet α) : Nat :=
  total (fun entry => if reporter entry = connit then refusalOf entry else 0) usenet.trace

def discardedOf (connit : ConnectionHandle) : Entry α → Nat
  | .discarded other => if other = connit then 1 else 0
  | _ => 0

def discarded (connit : ConnectionHandle) (usenet : Usenet α) : Nat := total (discardedOf connit) usenet.trace

def discardingOf (connit : ConnectionHandle) : Task α → Nat
  | .discardConnection other => if other = connit then 1 else 0
  | _ => 0

def discarding (connit : ConnectionHandle) (usenet : Usenet α) : Nat := onTasks (discardingOf connit) usenet

def alive (connit : ConnectionHandle) (usenet : Usenet α) : Nat :=
  if (usenet.connections connit).isSome = true then 1 else 0

/-- A connection is discarded once, and no longer there. -/
theorem goes_discarded (connit : ConnectionHandle) (goes : Goes usenet after) :
    discarded connit after + alive connit after ≤ discarded connit usenet + alive connit usenet ∧
      after.nextHandle = usenet.nextHandle := by
  induction goes with
  | rest trace pending connections nextHandle =>
    simp only [discarded, alive, trace, connections, nextHandle, Nat.le_refl, and_self]
  | @note usenet entry notes =>
    have silent : discardedOf connit entry = 0 := by
      cases entry with
      | discarded other => cases notes
      | _ => rfl
    refine ⟨?_, rfl⟩
    simp only [discarded, alive, record, total_cons, silent, Nat.zero_add]
    exact Nat.le_refl _
  | @perform usenet other act present =>
    have silent : discarded connit (usenet.perform other act) = discarded connit usenet := by
      apply (perform_adds usenet other act).total
      rintro entry ⟨call, -, wrote⟩
      cases call with
      | asyncWrite buffers handler =>
        cases wrote
        rfl
      | _ => cases wrote
    refine ⟨?_, rfl⟩
    rw [silent]
    simp only [alive, Usenet.perform]
    by_cases same : connit = other
    · subst same
      simp [present]
    · simp [Function.update_of_ne same]
  | erase usenet named other =>
    refine ⟨?_, rfl⟩
    simp only [discarded, alive, Usenet.erase]
    by_cases same : connit = other
    · simp [same]
    · simp [Function.update_of_ne same]
  | @discard usenet other present =>
    refine ⟨?_, rfl⟩
    simp only [discarded, alive, record, Usenet.erase, total_cons, discardedOf]
    by_cases same : connit = other
    · subst same
      simp [present]
      omega
    · simp [Function.update_of_ne same, Ne.symm same]
  | trans first rest earlier later => exact ⟨Nat.le_trans later.1 earlier.1, later.2.trans earlier.2⟩

/-- A connection that reported a refusal is discarded or about to be, and only known ones are. -/
structure Refused (connit : ConnectionHandle) (usenet : Usenet α) : Prop where
  leads : refusals connit usenet ≤ discarding connit usenet + discarded connit usenet
  once : discarded connit usenet + alive connit usenet ≤ if connit < usenet.nextHandle then 1 else 0

theorem refused_once (owned : Owned [] usenet) (refused : Refused connit usenet) :
    refusals connit usenet ≤ if connit < usenet.nextHandle then 1 else 0 := by
  obtain ⟨leads, once⟩ := refused
  have single := owned.single connit
  have fewer : discarding connit usenet ≤ onTasks (taskOf connit) usenet := by
    apply List.sum_le_sum
    intro thread _
    apply List.sum_le_sum
    intro task _
    cases task <;> simp [discardingOf, taskOf, connit?]
  rw [owners, List.count_nil] at single
  have distinct := List.nodup_iff_count_le_one.mp (List.nodup_append'.mp owned.distinct).2.1 connit
  by_cases none : discarding connit usenet = 0
  · omega
  · have busy : connit ∈ usenet.busy := List.count_pos_iff.mp (by omega)
    have lives : alive connit usenet = 1 := if_pos ((owned.alive connit).mp (List.mem_append_right _ busy))
    omega

theorem deliver_alive (connit : ConnectionHandle) (usenet : Usenet α) (other : ConnectionHandle) (handler : Handler α)
    (outcome : Outcome) : alive connit (usenet.deliver other handler outcome).1 = alive connit usenet ∧
      discarded connit (usenet.deliver other handler outcome).1 = discarded connit usenet := by
  have performs {usenet : Usenet α} {connection : Connection α} (present : usenet.connections other = some connection)
      (act : Act α) : alive connit (usenet.perform other act) = alive connit usenet := by
    simp only [alive, perform]
    by_cases same : connit = other
    · simp [same, present]
    · simp [Function.update_of_ne same]
  constructor
  · cases present : usenet.connections other with
    | none => simp only [deliver, present]
    | some connection =>
      simp only [deliver, present]
      cases handler with
      | stage stage => exact performs present _
      | timer => rfl
      | connectHandler result => rfl
      | statHandler msgid result => rfl
      | postHandler msg result =>
        have recorded : (usenet.record (.posted other msg result)).connections other = some connection := present
        cases result with
        | postingNotPermitted => exact performs recorded _
        | postFailure => rfl
        | postFailureConnectionError => exact performs recorded _
        | postSuccess => rfl
  · apply (deliver_adds usenet other handler outcome).total
    intro entry reports
    cases handler with
    | stage stage =>
      obtain ⟨buffers, next, rfl⟩ := reports
      rfl
    | timer => exact reports.elim
    | _ =>
      cases reports
      rfl

theorem refusal_quiet (connit : ConnectionHandle) :
    Quiet (fun entry : Entry α => if reporter entry = connit then refusalOf entry else 0) := by
  constructor <;> intros <;> simp [refusalOf]

/-- A refusal is followed by the task that discards its connection. -/
theorem deliver_leads (connit : ConnectionHandle) (usenet : Usenet α) (other : ConnectionHandle) (handler : Handler α)
    (outcome : Outcome) : refusals connit (usenet.deliver other handler outcome).1 ≤
      total (discardingOf connit) (usenet.deliver other handler outcome).2 + refusals connit usenet := by
  cases present : usenet.connections other with
  | none => simp [deliver, present]
  | some connection =>
    rw [refusals, deliver_trace (refusal_quiet connit) handler outcome (by simp [present])]
    simp only [deliver, present, refusals]
    cases handler with
    | stage stage => simp [reported]
    | timer => simp [reported]
    | connectHandler result => cases result <;> simp [reported, refusalOf]
    | statHandler msgid result => cases result <;> simp [reported, refusalOf]
    | postHandler msg result =>
      by_cases same : other = connit
      · cases result <;> simp [reported, refusalOf, onPostFinished, discardingOf, reporter, same]
      · cases result <;> simp [reported, refusalOf, onPostFinished, discardingOf, reporter, same]

theorem proceed_leads (connit : ConnectionHandle) {choice : Choice α} {task : Task α}
    (owned : Owned ((connit? task).toList ++ hand) usenet) {result : Usenet α × List (Task α)}
    (taken : usenet.proceed choice task = some result) : refusals connit result.1 = refusals connit usenet ∧
      discardingOf connit task + discarded connit usenet ≤ discarded connit result.1 := by
  constructor
  · rw [refusals, proceed_trace (refusal_quiet connit) taken]
    cases task <;> simp [recorded, refusalOf, refusals]
  · cases task with
    | discardConnection other =>
      cases taken
      obtain ⟨work, same, -⟩ := discardConnection_cases usenet other
      rw [same]
      exact Nat.le_refl _
    | _ => exact (Nat.zero_add _).le.trans (goes_total (proceed_goes owned taken) (discardedOf connit))

theorem step_leads {event : Event α} (owned : Owned [] usenet)
    (leads : refusals connit usenet ≤ discarding connit usenet + discarded connit usenet)
    (taken : usenet.step event = some after) :
    refusals connit after ≤ discarding connit after + discarded connit after := by
  obtain ⟨popped, pushed, turns, tasks⟩ := step_turns taken
  have moved := tasks (discardingOf connit) (fun _ => rfl)
  simp only [refusals, discarding, discarded] at leads ⊢
  generalize final : after.trace = trace at turns ⊢
  cases turns with
  | stands =>
    simp only [total_nil] at moved
    omega
  | call index request =>
    simp only [total_cons, total_nil, discardingOf] at moved
    omega
  | @take index place other handler outcome found =>
    have delivered := deliver_leads connit { usenet with pending := usenet.pending.eraseIdx place } other handler outcome
    have same := (deliver_alive connit { usenet with pending := usenet.pending.eraseIdx place } other handler outcome).2
    simp only [total_nil] at moved
    simp only [refusals, discarded] at delivered same
    omega
  | proceed found proceeded =>
    have done := proceed_leads connit (popTask_owned owned found) proceeded
    simp only [refusals, discarded, total_cons, total_nil] at moved done
    omega

theorem addConnection_once (connit : ConnectionHandle) (usenet : Usenet α) (conninfo : ConnectionInfo)
    (once : discarded connit usenet + alive connit usenet ≤ if connit < usenet.nextHandle then 1 else 0) :
    discarded connit (usenet.addConnection conninfo) + alive connit (usenet.addConnection conninfo) ≤
      if connit < (usenet.addConnection conninfo).nextHandle then 1 else 0 := by
  have trace : (usenet.addConnection conninfo).trace = usenet.trace := addConnections_trace usenet conninfo 1
  simp only [discarded, trace] at once ⊢
  simp only [alive, addConnection, perform]
  by_cases new : connit = usenet.nextHandle
  · subst new
    simp only [Nat.lt_irrefl, ite_false] at once
    simp only [Function.update_self, Option.isSome_some, ite_true, Nat.lt_succ_self]
    omega
  · simp only [Function.update_of_ne new]
    simp only [alive] at once
    by_cases known : connit < usenet.nextHandle
    · rw [if_pos known] at once
      exact Nat.le_trans once (Nat.le_of_eq (if_pos (Nat.lt_succ_of_lt known)).symm)
    · rw [if_neg known] at once
      exact Nat.le_trans once (Nat.zero_le _)

theorem step_once {event : Event α} (owned : Owned [] usenet)
    (once : discarded connit usenet + alive connit usenet ≤ if connit < usenet.nextHandle then 1 else 0)
    (taken : usenet.step event = some after) :
    discarded connit after + alive connit after ≤ if connit < after.nextHandle then 1 else 0 := by
  cases event with
  | addConnections conninfo numConnections =>
    cases taken
    exact addConnections_keeps (motive := fun next => discarded connit next + alive connit next ≤
      if connit < next.nextHandle then 1 else 0) (fun before => addConnection_once connit before conninfo) once numConnections
  | call index request =>
    obtain ⟨-, rfl⟩ := step_call taken
    exact once
  | take index place outcome =>
    obtain ⟨other, handler, -, found, rfl⟩ := step_take taken
    have same := deliver_alive connit { usenet with pending := usenet.pending.eraseIdx place } other handler outcome
    have apart := deliver_apart { usenet with pending := usenet.pending.eraseIdx place } other handler outcome
    show discarded connit (deliver _ other handler outcome).1 + alive connit (deliver _ other handler outcome).1 ≤
      if connit < (deliver _ other handler outcome).1.nextHandle then 1 else 0
    rw [same.1, same.2, apart.nextHandle]
    exact once
  | expire other =>
    obtain ⟨-, -, rfl⟩ := step_expire taken
    exact once
  | proceed index choice =>
    obtain ⟨io, task, tasks, result, found, proceeded, rfl⟩ := step_proceed taken
    obtain ⟨fewer, known⟩ := goes_discarded connit (proceed_goes (popTask_owned owned found) proceeded)
    show discarded connit result.1 + alive connit result.1 ≤ if connit < result.1.nextHandle then 1 else 0
    rw [known]
    exact fewer.trans once
  | _ =>
    cases taken
    exact once

theorem step_refused {event : Event α} (owned : Owned [] usenet) (refused : Refused connit usenet)
    (taken : usenet.step event = some after) : Refused connit after :=
  ⟨step_leads owned refused.leads taken, step_once owned refused.once taken⟩

theorem make_refused (eraseRule : EraseRule) (iothreads maxQueueSize : Nat) (heap : α → Article) :
    Refused connit (Usenet.make eraseRule iothreads maxQueueSize heap) :=
  ⟨Nat.zero_le _, Nat.zero_le _⟩

/-- What every run keeps, to be summed up. -/
structure Efforts (usenet : Usenet α) : Prop where
  owned : Owned [] usenet
  answered : Answered usenet
  refused : ∀ connit, Refused connit usenet

theorem reachable_efforts {eraseRule : EraseRule} {iothreads maxQueueSize : Nat} {heap : α → Article}
    (reached : Machine.Reachable step (Usenet.make eraseRule iothreads maxQueueSize heap) usenet) : Efforts usenet := by
  apply reached.invariant Efforts
  · exact ⟨owned_make .., Nat.le_refl _, fun _ => make_refused ..⟩
  · intro before event after efforts taken
    exact ⟨step_owned efforts.owned taken, step_answered efforts.owned efforts.answered taken,
      fun connit => step_refused efforts.owned (efforts.refused connit) taken⟩

/-- What a connection has in flight is an article that it holds. -/
theorem flying_holds (owned : Owned [] usenet) {handler : Handler α} (member : (connit, handler) ∈ usenet.pending)
    (flies : flying handler ≠ 0) : holds usenet connit ≠ [] := by
  intro nothing
  obtain ⟨given, bound⟩ := List.append_eq_nil_iff.mp nothing
  have unbound : articles handler = [] := by simpa using List.flatMap_eq_nil_iff.mp bound _ member
  have idle (stage : Stage) (same : handler = .stage stage) (owning : owns handler = true) :
      posting stage = false := by
    have present := (owned.alive connit).mp (List.mem_append_right _ (owner_of_handler owned member owning))
    obtain ⟨connection, present⟩ := Option.isSome_iff_exists.mp present
    have fits := owned.handlers connit _ member owning connection present
    subst same
    rw [present, Option.bind_some, Option.toList_eq_nil_iff] at given
    exact fits.2.symm.trans (by rw [given]; rfl)
  cases handler with
  | postHandler msg result => cases unbound
  | stage stage =>
    cases stage with
    | postWritten | postAnswered | articleWritten | articleAnswered => cases idle _ rfl rfl
    | _ => exact flies rfl
  | _ => exact flies rfl

theorem flying_owns {handler : Handler α} (flies : flying handler ≠ 0) : owns handler = true := by
  cases handler with
  | stage stage => cases stage <;> first | rfl | exact absurd rfl flies
  | timer => exact absurd rfl flies
  | _ => rfl

theorem flying_le (handler : Handler α) : flying handler ≤ 1 := by
  cases handler with
  | stage stage => cases stage <;> simp [flying]
  | _ => simp [flying]

theorem flight_held (owned : Owned [] usenet) (connit : ConnectionHandle) :
    total (fun entry => if entry.1 = connit then flightOf entry else 0) usenet.pending ≤
      (holds usenet connit).length := by
  have single := owned.single connit
  have distinct := List.nodup_iff_count_le_one.mp (List.nodup_append'.mp owned.distinct).2.1 connit
  rw [owners, List.count_nil] at single
  have fewer : total (fun entry => if entry.1 = connit then flightOf entry else 0) usenet.pending ≤
      total (handlerOf connit) usenet.pending := by
    apply List.sum_le_sum
    rintro ⟨other, handler⟩ _
    by_cases flies : flying handler = 0
    · simp [flightOf, flies]
    · simp only [handlerOf, flying_owns flies, and_true, flightOf]
      split
      · exact flying_le handler
      · exact Nat.le_refl 0
  by_cases nothing : holds usenet connit = []
  · rw [nothing, List.length_nil, Nat.le_zero, total, List.sum_eq_zero]
    intro weight summed
    obtain ⟨⟨other, handler⟩, member, rfl⟩ := List.mem_map.mp summed
    by_cases same : other = connit
    · subst same
      rw [if_pos rfl]
      by_contra flies
      exact flying_holds owned member flies nothing
    · exact if_neg same
  · have some' := List.length_pos_iff.mpr nothing
    omega

theorem flight_le (owned : Owned [] usenet) :
    flight usenet ≤ total (fun connit => (holds usenet connit).length) usenet.busy := by
  have distinct := (List.nodup_append'.mp owned.distinct).2.1
  have keyed : ∀ entry ∈ usenet.pending, flightOf entry ≠ 0 → entry.1 ∈ usenet.busy :=
    fun entry member flies => owner_of_handler owned member (flying_owns flies)
  rw [flight, ← total_fibers distinct keyed]
  exact List.sum_le_sum (fun connit _ => flight_held owned connit)

/-- Only a connection of the pool reports that posting is not permitted. -/
theorem refusal_known (sound : Efforts usenet) {msg : α}
    (member : .posted connit msg .postingNotPermitted ∈ usenet.trace) : connit < usenet.nextHandle := by
  have once := refused_once sound.owned (sound.refused connit)
  have weighs : 1 ≤ refusals connit usenet := by
    have some' := weight_le_total (fun entry => if reporter entry = connit then refusalOf entry else 0) member
    rwa [show reporter (.posted connit msg .postingNotPermitted) = connit from rfl, if_pos rfl] at some'
  by_contra beyond
  rw [if_neg beyond] at once
  omega

theorem refusals_le (sound : Efforts usenet) :
    total (fun connit => refusals connit usenet) (List.range usenet.nextHandle) ≤ usenet.nextHandle := by
  calc total (fun connit => refusals connit usenet) (List.range usenet.nextHandle)
      ≤ total (fun _ => 1) (List.range usenet.nextHandle) := by
        apply List.sum_le_sum
        intro connit known
        have once := refused_once sound.owned (sound.refused connit)
        rwa [if_pos (List.mem_range.mp known)] at once
    _ = usenet.nextHandle := by simp [total]

section Sums

variable [DecidableEq α] {keys : List α}

/-- What has become of a post in the pool, or will. -/
def efforts (usenet : Usenet α) (msg : α) : Nat :=
  reports msg true usenet + reports msg false usenet + held msg usenet

/-- A report that concludes a post, against one that does not. -/
theorem postedOf_cases (connit : ConnectionHandle) (msg : α) (result : PostResult) :
    reportOf msg true (.posted connit msg result) + reportOf msg false (.posted connit msg result) = 1 ∨
      result = .postingNotPermitted := by
  cases result with
  | postingNotPermitted => exact .inr rfl
  | _ => exact .inl (by simp [reportOf, concludes])

/-- A report is one of a post that is known, or a refusal. -/
theorem posted_le (sound : Efforts usenet)
    (within : ∀ msg, 0 < reports msg true usenet + reports msg false usenet → msg ∈ keys) :
    total postedOf usenet.trace ≤
      total (fun msg => reports msg true usenet + reports msg false usenet) keys +
        total (fun connit => refusals connit usenet) (List.range usenet.nextHandle) := by
  simp only [reports, ← total_add] at within ⊢
  simp only [refusals]
  have byPost := total_comm (fun msg entry => reportOf msg true entry + reportOf msg false entry) keys usenet.trace
  have byConnection := total_comm (fun connit entry => if reporter entry = connit then refusalOf entry else 0)
    (List.range usenet.nextHandle) usenet.trace
  rw [← byPost, ← byConnection, ← total_add]
  apply List.sum_le_sum
  intro entry member
  cases entry with
  | posted connit msg result =>
    rcases postedOf_cases connit msg result with concluding | rfl
    · have weighs := weight_le_total (fun entry => reportOf msg true entry + reportOf msg false entry) member
      have known : msg ∈ keys := within msg (by simp only [concluding] at weighs; exact weighs)
      have counts := weight_le_total (fun other => reportOf other true (.posted connit msg result) +
        reportOf other false (.posted connit msg result)) known
      simp only [concluding] at counts
      exact Nat.le_trans counts (Nat.le_add_right _ _)
    · have known := List.mem_range.mpr (refusal_known sound member)
      have counts := weight_le_total (fun other =>
        if reporter (.posted connit msg .postingNotPermitted) = other then 1 else 0) known
      rw [show reporter (.posted connit msg .postingNotPermitted) = connit from rfl, if_pos rfl] at counts
      exact Nat.le_trans counts (Nat.le_add_left _ _)
  | _ => exact Nat.zero_le _

/-- What is in flight is the article of a post that is known. -/
theorem flight_le_held (owned : Owned [] usenet) (within : ∀ msg, 0 < held msg usenet → msg ∈ keys) :
    flight usenet ≤ total (fun msg => held msg usenet) keys := by
  have single : ∀ connit ∈ usenet.busy, (holds usenet connit).length ≤
      total (fun msg => (holds usenet connit).count msg) keys := by
    intro connit busy
    have most := holds_length owned connit
    have distinct := List.nodup_iff_count_le_one.mp (List.nodup_append'.mp owned.distinct).2.1 connit
    cases given : holds usenet connit with
    | nil => exact Nat.zero_le _
    | cons msg rest =>
      have one : 1 ≤ (holds usenet connit).count msg := List.count_pos_iff.mpr (by simp [given])
      have known : msg ∈ keys := by
        apply within
        have weighs := weight_le_total (fun connit => (holds usenet connit).count msg) busy
        simp only [held]
        omega
      have counts := weight_le_total (fun msg => (holds usenet connit).count msg) known
      rw [← given]
      omega
  calc flight usenet
      ≤ total (fun connit => (holds usenet connit).length) usenet.busy := flight_le owned
    _ ≤ total (fun connit => total (fun msg => (holds usenet connit).count msg) keys) usenet.busy :=
        List.sum_le_sum single
    _ = total (fun msg => held msg usenet) keys := total_comm ..

/-- Every command that was sent is an effort for a known post, or the last of its connection. -/
theorem started_le (sound : Efforts usenet) (within : ∀ msg, 0 < efforts usenet msg → msg ∈ keys) :
    started usenet ≤ total (efforts usenet) keys + usenet.nextHandle := by
  have reported := posted_le sound (fun msg some' => within msg (by simp only [efforts]; omega))
  have flies := flight_le_held sound.owned (fun msg some' => within msg (by simp only [efforts]; omega))
  have refused := refusals_le sound
  have answered : started usenet ≤ total postedOf usenet.trace + flight usenet := sound.answered
  have sums : total (efforts usenet) keys =
      total (fun msg => reports msg true usenet + reports msg false usenet) keys +
        total (fun msg => held msg usenet) keys := total_add ..
  omega

end Sums

/-- No step of the pool but one makes connections. -/
theorem step_nextHandle {event : Event α} (owned : Owned [] usenet)
    (other : ∀ conninfo numConnections, event ≠ .addConnections conninfo numConnections)
    (taken : usenet.step event = some after) : after.nextHandle = usenet.nextHandle := by
  cases event with
  | addConnections conninfo numConnections => exact absurd rfl (other conninfo numConnections)
  | call index request =>
    obtain ⟨-, rfl⟩ := step_call taken
    rfl
  | take index place outcome =>
    obtain ⟨connit, handler, -, -, rfl⟩ := step_take taken
    exact ((deliver_apart { usenet with pending := usenet.pending.eraseIdx place } connit handler outcome).nextHandle :)
  | expire connit =>
    obtain ⟨-, -, rfl⟩ := step_expire taken
    rfl
  | proceed index choice =>
    obtain ⟨io, task, tasks, result, found, proceeded, rfl⟩ := step_proceed taken
    exact (goes_discarded 0 (proceed_goes (popTask_owned owned found) proceeded)).2
  | _ =>
    cases taken
    rfl

end Post2Usenet.Proofs.PoolEfforts
