import Post2Usenet.Proofs.Deadlocks
import Post2Usenet.Proofs.PoolLoads

/-! How much a run of the program holds at once. The main thread waits for room in the queue,
and what goes back to the queue after a failure was held by a connection before. -/

namespace Post2Usenet.Proofs.Backlogs
open Connection Main MainRun MainSteps PoolSteps PoolOwnership PoolLoads PoolProducers PoolWaits Deadlocks Retries Tally

variable {eraseRule : EraseRule} {crc32 : Bytes → UInt32} {launch : Launch} {main after : Main} {event : Main.Event}
  {usenet next : Usenet FilepieceKey} {outer inner : List (Task FilepieceKey)}

/-- What the program does to its pool is one event that keeps to the rules, or nothing. -/
inductive Drives (usenet next : Usenet FilepieceKey) : Prop
  | rests (same : next = usenet)
  | takes {articles : FilepieceKey → Article} {event : Usenet.Event FilepieceKey}
      (taken : { usenet with articles }.step event = some next) (disciplined : Disciplined event)
      (restrained : Restrained { usenet with articles } event)

theorem Drives.plain {event : Usenet.Event FilepieceKey} (taken : usenet.step event = some next) (disciplined : Disciplined event)
    (restrained : Restrained usenet event) : Drives usenet next :=
  @takes usenet next usenet.articles event taken disciplined restrained

theorem step_drives (taken : main.step crc32 launch event = some after) : Drives main.usenet after.usenet := by
  have going := step_going taken
  have stepped := step_cases taken
  cases stepped with
  | advance =>
    simp only [Main.step, going, Bool.false_eq_true, if_false] at taken
    cases advance_goes taken with
    | posts position found inside called => exact .takes called trivial rfl
    | validates position found inside called => exact .plain called trivial rfl
    | stops position stopped => exact .plain stopped trivial trivial
    | _ => exact .rests rfl
  | take stepped => exact .plain stepped trivial trivial
  | expire stepped => exact .plain stepped trivial trivial
  | throws | write => exact .rests rfl
  | proceed proceeds =>
    have bypass (request : Request FilepieceKey) (member : request ∈ []) : request.bypassWait = true := by cases member
    cases proceeds with
    | exits => exact .rests rfl
    | requeues head named seldom stepped =>
      refine .takes stepped (fun request member => ?_) (fun task same => ?_)
      · cases List.mem_singleton.mp member
        rfl
      · cases head.symm.trans same
        exact Nat.le_refl 1
    | finishes head stepped => exact .plain stepped bypass (fun _ _ => Nat.zero_le _)
    | plain unfailed unfinished stepped => exact .plain stepped bypass (fun _ _ => Nat.zero_le _)

/-- The invariant of every run. -/
structure Stocked (launch : Launch) (usenet : Usenet FilepieceKey) : Prop where
  maxsize : usenet.maxsize = launch.cfg.queueSize
  loaded : ∃ outer inner, Loaded (numConnections launch) outer inner usenet

theorem step_stocked (limited : launch.cfg.queueSize ≠ 0) (persistent : Persistent eraseRule launch main)
    (stocked : Stocked launch main.usenet) (taken : main.step crc32 launch event = some after) : Stocked launch after.usenet := by
  obtain ⟨maxsize, outer, inner, loaded⟩ := stocked
  cases step_drives taken with
  | rests same => exact same ▸ ⟨maxsize, outer, inner, loaded⟩
  | @takes articles event taken disciplined restrained =>
    have owned : Owned [] { main.usenet with articles } := persistent.sound.runs.owned.frame rfl rfl rfl rfl rfl rfl
    have rewritten : Loaded (numConnections launch) outer inner { main.usenet with articles } := loaded.frame rfl rfl rfl rfl rfl
    exact ⟨(step_maxsize taken).trans maxsize,
      step_loaded owned rewritten (Nat.le_of_eq persistent.handles) (maxsize.symm ▸ limited) disciplined restrained taken⟩

/-- Nothing is engaged before the first connection is made. -/
theorem launch_stocked (eraseRule : EraseRule) (launch : Launch) : Stocked launch (launch.usenet eraseRule) := by
  obtain ⟨led, -⟩ := launch_led eraseRule launch
  obtain ⟨usenet, ⟨maxsize, queue, ready, pending⟩, same⟩ := launch_keeps eraseRule launch
    (motive := fun usenet => usenet.maxsize = launch.cfg.queueSize ∧ usenet.queue = [] ∧ usenet.ready = [] ∧ occupied usenet = 0)
    (fun usenet conninfo kept => ⟨kept.1, kept.2.1, kept.2.2.1, by
      rw [Usenet.addConnection, asyncConnect_occupied]
      exact kept.2.2.2⟩) ⟨rfl, rfl, rfl, rfl⟩
  rw [same] at led ⊢
  have none : engaged usenet.start = 0 := by
    have tasks : onTasks retrying usenet.start = 0 := by simp [onTasks, led.attending.staffed.threads]
    show occupied usenet + usenet.ready.length + _ = 0
    rw [pending, ready, tasks]
    rfl
  have bounded : usenet.start.queue.length + engaged usenet.start ≤ usenet.start.maxsize + numConnections launch := by
    rw [none]
    show usenet.queue.length + 0 ≤ _
    rw [queue]
    exact Nat.zero_le _
  exact ⟨maxsize, [], [], led.attending.staffed, rfl, .nil, by rw [none]; exact Nat.zero_le _, bounded⟩

/-- The queue can be longer than its bound, but not by more than there are connections. What the
connections are busy with, what goes back to the queue and the connections that wait for a
command count as well. -/
theorem queue_limited {events : List Main.Event} (limited : launch.cfg.queueSize ≠ 0)
    (reached : Machine.run (Main.step crc32 launch) (launch.begin eraseRule) events = some main) :
    main.usenet.getQueueSize + engaged main.usenet ≤ launch.cfg.queueSize + numConnections launch ∧
      engaged main.usenet ≤ numConnections launch := by
  have always : Persistent eraseRule launch main ∧ Stocked launch main.usenet := by
    refine Machine.Reachable.invariant (fun main => Persistent eraseRule launch main ∧ Stocked launch main.usenet)
      ⟨events, reached⟩ ⟨begin_persistent eraseRule launch, launch_stocked eraseRule launch⟩ ?_
    exact fun _ _ _ kept taken => ⟨step_persistent kept.1 taken, step_stocked limited kept.1 kept.2 taken⟩
  obtain ⟨-, maxsize, outer, inner, loaded⟩ := always
  exact ⟨maxsize ▸ loaded.bounded, loaded.held⟩

/-- Two pieces, and a queue for one. -/
def narrowLaunch : Launch :=
  { sampleLaunch with
    cfg := { sampleLaunch.cfg with queueSize := 1 }
    postitems := Fileset.addFile ⟨2, []⟩ ⟨ascii "n.bin", [16, 30, 44, 58], by decide⟩
    single := rfl
    files_fit := by decide
    pieces_fit := by decide }

/-- The first piece is refused while the second one fills the queue, and goes back to it. -/
def overfullRun : List Main.Event :=
  logsIn ++ [.advance, goesOn 0, .advance, goesOn 0] ++ answersPost "441 refused\r\n" ++ [goesOn 1, goesOn 1]

theorem overfull_limited : ∃ main,
    Machine.run (Main.step Yencgenerator.crc32Type narrowLaunch) (narrowLaunch.begin .named) overfullRun = some main ∧
      main.usenet.getQueueSize = narrowLaunch.cfg.queueSize + numConnections narrowLaunch ∧
      main.usenet.getQueueSize + engaged main.usenet ≤ narrowLaunch.cfg.queueSize + numConnections narrowLaunch ∧
      engaged main.usenet ≤ numConnections narrowLaunch := by
  have computed :
      (Machine.run (Main.step Yencgenerator.crc32Type narrowLaunch) (narrowLaunch.begin .named) overfullRun).map
        (fun main => main.usenet.getQueueSize) = some 2 := by decide +kernel
  obtain ⟨main, reached, full⟩ := Option.map_eq_some_iff.mp computed
  exact ⟨main, reached, full, queue_limited (by decide) reached⟩

end Post2Usenet.Proofs.Backlogs
