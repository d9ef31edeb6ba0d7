import Post2Usenet.Proofs.PoolOwnership

/-! Producers that sleep until the queue has room. Only a connection that becomes
ready makes room, so a producer must not be left asleep without a connection. -/

namespace Post2Usenet.Proofs.PoolProducers
open Connection Usenet PoolSteps PoolOwnership Tally

variable {α : Type} {usenet after : Usenet α} {connit : ConnectionHandle} {hand : List ConnectionHandle}

def sleeping : Task α → Nat
  | .wait _ false => 1
  | _ => 0

/-- The threads that are blocked on `m_queuecv` and that nobody has notified. -/
def sleepers (usenet : Usenet α) : Nat := onTasks sleeping usenet

def NotOrphaned (usenet : Usenet α) : Prop := 0 < sleepers usenet → usenet.ready ++ usenet.busy ≠ []

/-- A task that leaves a producer without a connection: the last connection goes
while one sleeps, or one goes to sleep, for the first time or again, when there
is none. -/
def StrandsBy (usenet : Usenet α) : Task α → Prop
  | .discardConnection connit => 0 < sleepers usenet ∧ ∀ other ∈ usenet.ready ++ usenet.busy, other = connit
  | .onConnBecomesReady connit =>
    0 < sleepers usenet ∧ usenet.queue = [] ∧ usenet.work = false ∧ ∀ other ∈ usenet.busy, other = connit
  | .request request =>
    usenet.ready ++ usenet.busy = [] ∧ usenet.readySize = 0 ∧ request.bypassWait = false ∧ usenet.maxsize ≠ 0 ∧
      usenet.maxsize ≤ usenet.queue.length
  | .wait _ _ => usenet.ready ++ usenet.busy = [] ∧ usenet.maxsize ≤ usenet.queue.length
  | _ => False

def Strands (usenet : Usenet α) : Event α → Prop
  | .proceed index _ => ∃ task, headTask usenet index = some task ∧ StrandsBy usenet task
  | _ => False

theorem sleeping_uncalled (task : Task α) (uncalled : calling task = false) : sleeping task = 0 := by
  cases task with
  | wait command notified => cases uncalled
  | _ => rfl

theorem notified_sleepers (woken : Notified usenet after) : sleepers after ≤ sleepers usenet := by
  rcases woken with rfl | ⟨index, io, command, tasks, found, rfl⟩
  · exact Nat.le_refl _
  · have change := total_set (fun thread : Thread α => total sleeping thread.tasks) found
      ⟨io, .wait command true :: tasks⟩
    simp only [total_cons, sleeping] at change
    simp only [sleepers, onTasks]
    omega

theorem proceed_sleepers {choice : Choice α} {task : Task α} {result : Usenet α × List (Task α)}
    (taken : usenet.proceed choice task = some result) : sleepers result.1 ≤ sleepers usenet := by
  obtain ⟨notified, woken, same⟩ := proceed_threads taken
  have counted : sleepers result.1 = sleepers notified := by simp only [sleepers, onTasks, same]
  rw [counted]
  exact notified_sleepers woken

theorem dispatch_busy {command : Command α} (taken : usenet.dispatch command = some after) :
    after.ready ++ after.busy ≠ [] := by
  obtain ⟨connit, ready, -, run⟩ := dispatch_cases taken
  simp [(run_apart run).busy]

theorem in_hand_ne_nil (owned : Owned (connit :: hand) usenet) : usenet.ready ++ usenet.busy ≠ [] :=
  List.ne_nil_of_mem (List.mem_append_right _ (owned_in_hand owned).1)

theorem calls_awake (calls : List (Request α)) : total sleeping (calls.map Task.request) = 0 := by
  rw [total_map]
  simp [total, sleeping]

/-- A critical section that strands nobody keeps what it found. -/
theorem proceed_notOrphaned {choice : Choice α} {task : Task α} (owned : Owned ((connit? task).toList ++ hand) usenet)
    (fits : ∀ connit, connit? task = some connit →
      ∀ connection, usenet.connections connit = some connection → TaskFits connection task)
    (holds : 0 < sleeping task + sleepers usenet → usenet.ready ++ usenet.busy ≠ []) (kept : ¬ StrandsBy usenet task)
    {result : Usenet α × List (Task α)} (taken : usenet.proceed choice task = some result)
    (asleep : 0 < sleepers result.1 + total sleeping result.2) : result.1.ready ++ result.1.busy ≠ [] := by
  have fewer := proceed_sleepers taken
  have before (quiet : total sleeping result.2 = 0) : 0 < sleepers usenet := by omega
  cases proceed_executes taken with
  | dispatches idle dispatched => exact dispatch_busy dispatched
  | waits none waits bounded full => exact fun empty => kept ⟨empty, none, waits, bounded, full⟩
  | sleeps full => exact fun empty => kept ⟨empty, full⟩
  | @becomesReady connit after became =>
    rcases onConnBecomesReady_cases became with ⟨_, _, notified, -, woken, run⟩ | ⟨-, -, rfl⟩ | ⟨empty, stopped, down⟩
    · have same : notified.ready ++ notified.busy = usenet.ready ++ usenet.busy := by
        rcases woken with rfl | ⟨_, _, _, _, _, rfl⟩ <;> rfl
      have apart := run_apart run
      rw [apart.ready, apart.busy]
      exact same ▸ in_hand_ne_nil owned
    · simp [becomeReady]
    · have left : ∃ other ∈ usenet.busy, other ≠ connit := by
        by_contra none
        exact kept ⟨before rfl, empty, stopped, by simpa using none⟩
      obtain ⟨other, member, different⟩ := left
      have busy := (shutdown_owned (becomeReady_owned owned (fits connit rfl)) (by simp [becomeReady]) down).2.2
      apply List.ne_nil_of_mem (a := other)
      rw [busy]
      exact List.mem_append_right _ ((List.mem_erase_of_ne different).mpr member)
  | @discards connit work stopped =>
    have left : ∃ other ∈ usenet.ready ++ usenet.busy, other ≠ connit := by
      by_contra none
      exact kept ⟨before rfl, by simpa using none⟩
    obtain ⟨other, member, different⟩ := left
    apply List.ne_nil_of_mem (a := other)
    simp only [record, erase, List.mem_append, List.mem_erase_of_ne different]
    exact List.mem_append.mp member
  | redispatches idle dispatched => exact dispatch_busy dispatched
  | reconnects => exact (in_hand_ne_nil owned :)
  | observes slot => exact holds (Nat.add_pos_right _ (before (calls_awake _)))
  | _ => exact holds (Nat.add_pos_right _ (before rfl))

theorem strandsBy_pop {index : Nat} {io : Bool} {task : Task α} {tasks : List (Task α)}
    (found : usenet.threads[index]? = some ⟨io, task :: tasks⟩) :
    StrandsBy { usenet with threads := usenet.threads.set index ⟨io, tasks⟩ } task ↔ StrandsBy usenet task := by
  have popped := onTasks_pop sleeping found
  cases task with
  | discardConnection connit =>
    simp only [sleeping, Nat.zero_add] at popped
    simp only [StrandsBy, sleepers, popped]
  | onConnBecomesReady connit =>
    simp only [sleeping, Nat.zero_add] at popped
    simp only [StrandsBy, sleepers, popped]
  | _ => exact Iff.rfl

theorem addConnections_busy (usenet : Usenet α) (conninfo : ConnectionInfo) (numConnections : Nat) :
    ∀ connit ∈ usenet.ready ++ usenet.busy, connit ∈ (usenet.addConnections conninfo numConnections).ready ++
      (usenet.addConnections conninfo numConnections).busy := by
  intro connit member
  refine addConnections_keeps (motive := fun next => connit ∈ next.ready ++ next.busy) ?_ member numConnections
  intro before member
  rw [List.mem_append] at member ⊢
  exact member.imp id (fun busy => List.mem_append_left _ busy)

theorem step_notOrphaned {event : Event α} (owned : Owned [] usenet) (holds : NotOrphaned usenet)
    (kept : ¬ Strands usenet event) (taken : usenet.step event = some after) : NotOrphaned after := by
  cases event with
  | setOperationTimeout seconds =>
    cases taken
    exact holds
  | addConnections conninfo numConnections =>
    cases taken
    intro asleep
    simp only [sleepers, onTasks, addConnections_threads] at asleep
    obtain ⟨connit, member⟩ := List.exists_mem_of_ne_nil _ (holds asleep)
    exact List.ne_nil_of_mem (addConnections_busy usenet conninfo numConnections connit member)
  | start =>
    cases taken
    intro asleep
    apply holds
    have same := onTasks_idle sleeping usenet true usenet.numthreads
    simp only [sleepers] at asleep ⊢
    rw [← same]
    exact asleep
  | stop =>
    cases taken
    exact holds
  | spawn =>
    cases taken
    intro asleep
    apply holds
    have same := onTasks_idle sleeping usenet false 1
    simp only [sleepers] at asleep ⊢
    rw [← same]
    exact asleep
  | call index request =>
    obtain ⟨found, rfl⟩ := step_call taken
    intro asleep
    apply holds
    rw [sleepers, onTasks_pushTasks sleeping (List.getElem?_eq_some_iff.mp found).1] at asleep
    exact asleep
  | take index place outcome =>
    obtain ⟨connit, handler, idle, -, rfl⟩ := step_take taken
    have apart := deliver_apart { usenet with pending := usenet.pending.eraseIdx place } connit handler outcome
    have inside := (List.getElem?_eq_some_iff.mp idle).1
    intro asleep
    rw [sleepers, onTasks_pushTasks sleeping (by rw [apart.threads]; exact inside), deliver_weightless sleeping_uncalled] at asleep
    simp only [onTasks, apart.threads] at asleep
    simp only [pushTasks, apart.ready, apart.busy]
    exact holds asleep
  | expire connit =>
    obtain ⟨-, -, rfl⟩ := step_expire taken
    exact holds
  | proceed index choice =>
    obtain ⟨io, task, tasks, result, found, proceeded, rfl⟩ := step_proceed taken
    have popped := onTasks_pop sleeping found
    have inside := proceed_inside found proceeded
    intro asleep
    rw [sleepers, onTasks_pushTasks sleeping inside] at asleep
    exact proceed_notOrphaned (popTask_owned owned found) (popTask_fits owned found)
      (fun before => holds (by rw [sleepers, popped]; exact before))
      (fun strands => kept ⟨task, headTask_found found, (strandsBy_pop found).mp strands⟩) proceeded asleep
  | rewrite articles =>
    cases taken
    exact holds

/-- What a stranding task leaves: somebody asleep, and no connection. -/
theorem proceed_strands {choice : Choice α} {task : Task α} (owned : Owned ((connit? task).toList ++ hand) usenet)
    (fits : ∀ connit, connit? task = some connit →
      ∀ connection, usenet.connections connit = some connection → TaskFits connection task)
    (strands : StrandsBy usenet task) {result : Usenet α × List (Task α)}
    (taken : usenet.proceed choice task = some result) :
    0 < sleepers result.1 + total sleeping result.2 ∧ result.1.ready ++ result.1.busy = [] := by
  cases task with
  | request request =>
    obtain ⟨empty, none, waits, bounded, full⟩ := strands
    rw [proceed_request, executeOrDefer, if_neg (by omega), if_pos ⟨waits, bounded, full⟩] at taken
    cases taken
    exact ⟨by simp [sleeping], empty⟩
  | wait command notified =>
    obtain ⟨empty, full⟩ := strands
    cases taken
    rw [resume, if_neg (by omega)]
    exact ⟨by simp [sleeping], empty⟩
  | onConnBecomesReady connit =>
    obtain ⟨asleep, empty, stopped, last⟩ := strands
    obtain ⟨after, became, rfl⟩ := Option.map_eq_some_iff.mp taken
    rcases onConnBecomesReady_cases became with ⟨_, _, _, waiting, -, -⟩ | ⟨-, working, -⟩ | ⟨-, -, down⟩
    · cases empty.symm.trans waiting
    · cases stopped.symm.trans working
    · have threads := (shutdown_remains down).threads
      obtain ⟨-, ready, busy⟩ :=
        shutdown_owned (becomeReady_owned owned (fits connit rfl)) (by simp [becomeReady]) down
      have distinct := (List.nodup_append'.mp owned.distinct).2.1
      refine ⟨?_, ?_⟩
      · have same : sleepers after = sleepers usenet := by
          simp only [sleepers, onTasks, threads]
          rfl
        simp only [same, total_nil]
        omega
      · rw [ready, busy, List.nil_append, List.eq_nil_iff_forall_not_mem]
        intro other member
        have both := distinct.mem_erase_iff.mp member
        exact both.1 (last other both.2)
  | discardConnection connit =>
    obtain ⟨asleep, last⟩ := strands
    cases taken
    obtain ⟨work, same, -⟩ := discardConnection_cases usenet connit
    have distinct := List.nodup_append'.mp owned.distinct
    rw [same]
    refine ⟨Nat.add_pos_left asleep _, ?_⟩
    rw [List.eq_nil_iff_forall_not_mem]
    intro other member
    simp only [record, erase, List.mem_append, distinct.1.mem_erase_iff, distinct.2.1.mem_erase_iff] at member
    rcases member with ⟨different, inside⟩ | ⟨different, inside⟩
    · exact different (last other (List.mem_append_left _ inside))
    · exact different (last other (List.mem_append_right _ inside))
  | _ => exact strands.elim

theorem step_strands {event : Event α} (owned : Owned [] usenet) (strands : Strands usenet event)
    (taken : usenet.step event = some after) : ¬ NotOrphaned after := by
  cases event with
  | proceed index choice =>
    obtain ⟨task, head, strands⟩ := strands
    obtain ⟨io, first, tasks, result, found, proceeded, rfl⟩ := step_proceed taken
    rw [headTask_found found] at head
    cases head
    obtain ⟨asleep, empty⟩ := proceed_strands (popTask_owned owned found) (popTask_fits owned found)
      ((strandsBy_pop found).mpr strands) proceeded
    have inside := proceed_inside found proceeded
    intro holds
    apply holds _ empty
    rw [sleepers, onTasks_pushTasks sleeping inside]
    exact asleep
  | _ => exact strands.elim

/-- No producer of a run is left asleep without a connection precisely when no step
of the run strands one. -/
theorem notOrphaned_iff_unstranded (eraseRule : EraseRule) (iothreads maxQueueSize : Nat) (articles : α → Article)
    (events : List (Event α)) :
    Machine.Holds step NotOrphaned (Usenet.make eraseRule iothreads maxQueueSize articles) events ↔
      Machine.Meets step (fun usenet event => ¬ Strands usenet event)
        (Usenet.make eraseRule iothreads maxQueueSize articles) events := by
  apply Machine.holds_iff_meets (Owned [])
  · exact ⟨owned_make .., fun asleep => absurd asleep (Nat.lt_irrefl 0)⟩
  · exact fun before event after owned holds taken kept =>
      ⟨step_owned owned taken, step_notOrphaned owned holds kept taken⟩
  · intro before event after owned _ taken strands
    rw [not_not] at strands
    exact step_strands owned strands taken

/-- The only connection cannot connect while a producer waits for room. -/
def refusedRun : List (Event Nat) :=
  [.spawn, .addConnections sampleConninfo 1, .start] ++ posts 1 ++ posts 2 ++ takes 1 [(0, "")] ++
    [.take 1 0 ⟨true, [], false⟩] ++ takes 1 [(0, "")] ++ [.proceed 1 goOn]

theorem refused_orphans : ¬ Machine.Holds step NotOrphaned (Usenet.make .named 1 1 sampleArticles) refusedRun := by
  intro holds
  have computed : (Machine.run step (Usenet.make .named 1 1 sampleArticles) refusedRun).map
      (fun usenet => (sleepers usenet, usenet.ready ++ usenet.busy)) = some (1, []) := by decide +kernel
  obtain ⟨usenet, reached, seen⟩ := Option.map_eq_some_iff.mp computed
  simp only [Prod.mk.injEq] at seen
  exact Machine.holds_last holds reached (by omega) seen.2

end Post2Usenet.Proofs.PoolProducers
