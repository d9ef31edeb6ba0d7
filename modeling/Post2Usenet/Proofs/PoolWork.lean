import Post2Usenet.Lib.Machine
import Post2Usenet.Proofs.PoolSteps

/-! Whether a queued command can wait beside an idle connection. Two appends do not
look at the ready list: that of a producer woken from its wait, and that of a
stat whose connection failed. -/

namespace Post2Usenet.Proofs.PoolWork
open Connection Usenet PoolSteps

variable {α : Type} {usenet after : Usenet α} {connit : ConnectionHandle} {command : Command α}

def Conserving (usenet : Usenet α) : Prop := usenet.ready = [] ∨ usenet.queue = []

/-- The steps that append to the queue without a look at the ready list. -/
def AppendsUnseen (usenet : Usenet α) : Event α → Prop
  | .proceed index _ =>
    match headTask usenet index with
    | some (.wait _ _) => usenet.queue.length < usenet.maxsize
    | some (.requeueStat _ _) => True
    | _ => False
  | _ => False

/-- The cached size never hides a connection, whatever `erase` does to it. -/
def Covered (usenet : Usenet α) : Prop := usenet.ready.length ≤ usenet.readySize

theorem decrement_covers {size length : Nat} (covers : length + 1 ≤ size) : length ≤ decrement size := by
  rw [decrement]
  split <;> omega

theorem erase_covered (covered : Covered usenet) {named : Side} (member : named = .ready → connit ∈ usenet.ready) :
    Covered (usenet.erase named connit) := by
  by_cases inside : connit ∈ usenet.ready
  · have shorter := List.length_erase_of_mem inside
    have filled := List.length_pos_of_mem inside
    have less : (usenet.ready.erase connit).length + 1 ≤ usenet.readySize := by
      have := covered
      simp only [Covered] at this
      omega
    have either (counted : Prop) [Decidable counted] : (usenet.ready.erase connit).length ≤
        if counted then decrement usenet.readySize else usenet.readySize := by
      split
      · exact decrement_covers less
      · omega
    exact either _
  · have busy : named = .busy := by
      cases named with
      | ready => exact absurd (member rfl) inside
      | busy => rfl
    simpa [Covered, erase, inside, busy, List.erase_of_not_mem] using covered

theorem becomeReady_covered (covered : Covered usenet) : Covered (usenet.becomeReady connit) := by
  have shorter := (List.erase_sublist : (usenet.ready.erase connit).Sublist usenet.ready).length_le
  simp only [Covered, becomeReady, List.length_append, List.length_singleton] at covered ⊢
  omega

theorem Covered.frame (covered : Covered usenet) (ready : after.ready = usenet.ready)
    (readySize : after.readySize = usenet.readySize) : Covered after := by
  rw [Covered, ready, readySize]
  exact covered

theorem shutdown_covered (covered : Covered usenet) (taken : usenet.shutdown connit = some after) : Covered after := by
  apply shutdown_keeps _ covered taken
  intro before named connit after earlier member disconnected
  have apart := gracefulDisconnect_apart disconnected
  exact (erase_covered earlier member).frame apart.ready apart.readySize

structure Kept (usenet : Usenet α) : Prop where
  covered : Covered usenet
  conserving : Conserving usenet

theorem Kept.frame (kept : Kept usenet) (ready : after.ready = usenet.ready)
    (readySize : after.readySize = usenet.readySize) (queue : after.queue = usenet.queue) : Kept after := by
  refine ⟨kept.covered.frame ready readySize, ?_⟩
  rw [Conserving, ready, queue]
  exact kept.conserving

theorem dispatch_kept (kept : Kept usenet) (taken : usenet.dispatch command = some after) : Kept after := by
  obtain ⟨connit, ready, first, run⟩ := dispatch_cases taken
  have apart := run_apart run
  have covered := kept.covered
  rw [Covered, first, List.length_cons] at covered
  refine ⟨?_, ?_⟩
  · rw [Covered, apart.ready, apart.readySize]
    exact decrement_covers covered
  · rw [Conserving, apart.queue]
    right
    exact kept.conserving.resolve_left (by simp [first])

theorem pushBack_kept (kept : Kept usenet) (none : usenet.readySize = 0) : Kept (usenet.pushBack command) := by
  have covered := kept.covered
  rw [Covered, none, Nat.le_zero, List.length_eq_zero_iff] at covered
  exact ⟨kept.covered.frame rfl rfl, .inl covered⟩

theorem proceed_kept {choice : Choice α} {task : Task α} (kept : Kept usenet)
    (waits : ∀ command notified, task = .wait command notified → usenet.queue.length < usenet.maxsize → usenet.ready = [])
    (requeues : ∀ connit msgid, task = .requeueStat connit msgid → usenet.ready = [])
    {result : Usenet α × List (Task α)} (taken : usenet.proceed choice task = some result) : Kept result.1 := by
  cases proceed_executes taken with
  | dispatches idle dispatched =>
    have recorded (entry : Entry α) : Kept (usenet.record entry) := kept.frame rfl rfl rfl
    exact dispatch_kept (recorded _) dispatched
  | waits => exact kept
  | defers none room =>
    have recorded (entry : Entry α) : Kept (usenet.record entry) := kept.frame rfl rfl rfl
    exact pushBack_kept (recorded _) none
  | @resumes command notified room => exact ⟨kept.covered.frame rfl rfl, .inl (waits command notified rfl room)⟩
  | sleeps => exact kept
  | becomesReady became =>
    rcases onConnBecomesReady_cases became with ⟨_, _, notified, waiting, woken, run⟩ | ⟨empty, -, rfl⟩ | ⟨empty, -, down⟩
    · have apart := run_apart run
      have same : notified.ready = usenet.ready ∧ notified.readySize = usenet.readySize := by
        rcases woken with rfl | ⟨_, _, _, _, _, rfl⟩
        · exact ⟨rfl, rfl⟩
        · exact ⟨rfl, rfl⟩
      have none := kept.conserving.resolve_right (by simp [waiting])
      exact ⟨kept.covered.frame (apart.ready.trans same.1) (apart.readySize.trans same.2),
        .inl (apart.ready.trans (same.1.trans none))⟩
    · exact ⟨becomeReady_covered kept.covered, .inr empty⟩
    · exact ⟨shutdown_covered (becomeReady_covered kept.covered) down, .inr ((shutdown_remains down).queue.trans empty)⟩
  | @discards connit work stopped =>
    have erased : Covered (usenet.erase .busy connit) := erase_covered kept.covered nofun
    refine ⟨erased.frame rfl rfl, ?_⟩
    rcases kept.conserving with none | empty
    · exact .inl (by simp [record, erase, none])
    · exact .inr empty
  | redispatches idle dispatched => exact dispatch_kept kept dispatched
  | requeues none => exact pushBack_kept kept none
  | @reconnects connit msgid connection present => exact ⟨kept.covered.frame rfl rfl, .inl (requeues connit msgid rfl)⟩
  | observes slot => exact kept.frame rfl rfl rfl

theorem addConnections_same (usenet : Usenet α) (conninfo : ConnectionInfo) (numConnections : Nat) :
    (usenet.addConnections conninfo numConnections).ready = usenet.ready ∧
      (usenet.addConnections conninfo numConnections).readySize = usenet.readySize ∧
      (usenet.addConnections conninfo numConnections).queue = usenet.queue :=
  addConnections_keeps (motive := fun next =>
      next.ready = usenet.ready ∧ next.readySize = usenet.readySize ∧ next.queue = usenet.queue)
    (fun _ same => same) ⟨rfl, rfl, rfl⟩ numConnections

theorem step_kept {event : Event α} (kept : Kept usenet) (seen : AppendsUnseen usenet event → usenet.ready = [])
    (taken : usenet.step event = some after) : Kept after := by
  cases event with
  | setOperationTimeout seconds =>
    cases taken
    exact kept.frame rfl rfl rfl
  | addConnections conninfo numConnections =>
    cases taken
    obtain ⟨ready, readySize, queue⟩ := addConnections_same usenet conninfo numConnections
    exact kept.frame ready readySize queue
  | start =>
    cases taken
    exact kept.frame rfl rfl rfl
  | stop =>
    cases taken
    exact kept.frame rfl rfl rfl
  | spawn =>
    cases taken
    exact kept.frame rfl rfl rfl
  | call index request =>
    obtain ⟨-, rfl⟩ := step_call taken
    exact kept.frame rfl rfl rfl
  | take index place outcome =>
    obtain ⟨connit, handler, -, -, rfl⟩ := step_take taken
    have apart := deliver_apart { usenet with pending := usenet.pending.eraseIdx place } connit handler outcome
    exact kept.frame apart.ready apart.readySize apart.queue
  | expire connit =>
    obtain ⟨-, -, rfl⟩ := step_expire taken
    exact kept.frame rfl rfl rfl
  | proceed index choice =>
    obtain ⟨io, task, tasks, result, found, proceeded, rfl⟩ := step_proceed taken
    have rest : Kept { usenet with threads := usenet.threads.set index ⟨io, tasks⟩ } := kept.frame rfl rfl rfl
    refine (proceed_kept rest ?_ ?_ proceeded).frame rfl rfl rfl
    · rintro command notified rfl room
      exact seen (by simpa [AppendsUnseen, headTask_found found] using room)
    · rintro connit msgid rfl
      exact seen (by simp [AppendsUnseen, headTask_found found])
  | rewrite articles =>
    cases taken
    exact kept.frame rfl rfl rfl

theorem unseen_append_breaks {event : Event α} (unseen : AppendsUnseen usenet event) (idle : usenet.ready ≠ [])
    (taken : usenet.step event = some after) : ¬ Conserving after := by
  cases event with
  | proceed index choice =>
    obtain ⟨io, task, tasks, result, found, proceeded, rfl⟩ := step_proceed taken
    simp only [AppendsUnseen, headTask_found found] at unseen
    split at unseen
    next command notified same =>
      cases same
      cases proceeded
      rw [resume, if_pos unseen]
      simp [Conserving, pushTasks, pushBack, record, idle]
    next connit msgid same =>
      cases same
      obtain ⟨after, requeued, rfl⟩ := Option.map_eq_some_iff.mp proceeded
      obtain ⟨connection, -, rfl⟩ := requeueStat_cases requeued
      simp [Conserving, pushTasks, perform, pushBack, idle]
    · exact unseen.elim
  | _ => exact unseen.elim

/-- No command waits beside an idle connection in a run precisely when the two
appends that do not look happen only while no connection is ready. -/
theorem conserving_iff_unready (eraseRule : EraseRule) (iothreads maxQueueSize : Nat) (articles : α → Article)
    (events : List (Event α)) :
    Machine.Holds step Conserving (Usenet.make eraseRule iothreads maxQueueSize articles) events ↔
      Machine.Meets step (fun usenet event => AppendsUnseen usenet event → usenet.ready = [])
        (Usenet.make eraseRule iothreads maxQueueSize articles) events := by
  apply Machine.holds_iff_meets Covered
  · exact ⟨Nat.le_refl 0, .inl rfl⟩
  · intro before event after covered conserving taken seen
    have kept := step_kept ⟨covered, conserving⟩ seen taken
    exact ⟨kept.covered, kept.conserving⟩
  · intro before event after _ _ taken missed
    obtain ⟨unseen, idle⟩ := Classical.not_imp.mp missed
    exact unseen_append_breaks unseen idle taken

/-- A producer is woken by one connection, and another one becomes ready before it
has the mutex again. -/
def wokenRun : List (Event Nat) :=
  opens ++ posts 1 ++ posts 2 ++ connects 1 0 1 ++ [.proceed 1 ⟨answer "", some 0, []⟩] ++ takes 1 [(1, "")] ++
    connects 1 0 1 ++ [.proceed 1 goOn, .proceed 0 goOn]

theorem woken_waits_beside_idle :
    ¬ Machine.Holds step Conserving (Usenet.make .named 1 1 sampleArticles) wokenRun := by
  intro holds
  have computed : (Machine.run step (Usenet.make .named 1 1 sampleArticles) wokenRun).map
      (fun usenet => (usenet.ready, usenet.queue)) = some ([1], [.startAsyncPost 2]) := by decide +kernel
  obtain ⟨usenet, reached, seen⟩ := Option.map_eq_some_iff.mp computed
  simp only [Prod.mk.injEq] at seen
  rcases Machine.holds_last holds reached with none | empty
  · simp [seen.1] at none
  · simp [seen.2] at empty

end Post2Usenet.Proofs.PoolWork
