import Post2Usenet.Proofs.PoolProgress
import Post2Usenet.Proofs.PoolWaits
import Post2Usenet.Proofs.Terminations

/-! Where the program can stop short of its end. Some thread can always go on, or a handler
can run, but for a main thread that sleeps behind a full queue when no connection is left to
take from it. This takes a connection that was discarded. -/

namespace Post2Usenet.Proofs.Deadlocks
open Connection Main MainRun MainSteps PoolSteps PoolOwnership PoolLists PoolProducers PoolBound PoolProgress PoolWaits Retries
  Terminations Tally

variable {eraseRule : EraseRule} {crc32 : Bytes → UInt32} {launch : Launch} {main after : Main} {event : Main.Event}
  {usenet next : Usenet FilepieceKey} {outer inner : List (Task FilepieceKey)}

/-- The main thread is in one of the loops that call the pool. -/
def looping : Position → Bool
  | .posting _ _ | .validating _ _ => true
  | _ => false

/-- The main thread sleeps, the queue is full, and nobody will take from it. -/
structure Deadlocked (main : Main) : Prop where
  looping : looping main.position = true
  asleep : ∃ command, main.usenet.threads = [⟨false, [.wait command false]⟩, ⟨true, []⟩]
  full : main.usenet.maxsize ≠ 0 ∧ main.usenet.maxsize ≤ main.usenet.queue.length
  unoccupied : main.usenet.busy = []
  delivered : main.usenet.pending = []
  disarmed : ∀ connit, (main.usenet.connections connit).isSome = true → main.usenet.armed connit = false

/-- A deadlock lasts, whatever thread wakes by itself. -/
theorem deadlocked_stays (deadlocked : Deadlocked main) (taken : main.step crc32 launch event = some after) : after = main := by
  obtain ⟨command, threads⟩ := deadlocked.asleep
  have going := step_going taken
  have stepped := step_cases taken
  cases stepped with
  | advance =>
    simp only [Main.step, going, Bool.false_eq_true, if_false] at taken
    have busy : main.between = false := by simp [between, threads]
    simp [Main.advance, busy] at taken
  | take stepped =>
    obtain ⟨connit, handler, -, found, -⟩ := step_take stepped
    simp [deadlocked.delivered] at found
  | expire stepped =>
    obtain ⟨present, armed, -⟩ := step_expire stepped
    cases armed.symm.trans (deadlocked.disarmed _ present)
  | throws thrown => simp [Usenet.throws, deadlocked.delivered] at thrown
  | write position =>
    have loops := deadlocked.looping
    rw [position] at loops
    cases loops
  | @proceed thread outcome wake nonces _ proceeds =>
    have asleep (task : Task FilepieceKey) (head : headTask main.usenet thread = some task) : thread = 0 ∧ task = .wait command false := by
      rw [headTask, threads] at head
      rcases thread with _ | _ | thread
      · exact ⟨rfl, (Option.some.inj head).symm⟩
      · cases head
      · simp at head
    cases proceeds with
    | exits head => cases (asleep _ head).2
    | requeues head => cases (asleep _ head).2
    | finishes head => cases (asleep _ head).2
    | plain unfailed unfinished stepped =>
      obtain ⟨io, task, tasks, result, found, proceeded, rfl⟩ := step_proceed stepped
      obtain ⟨rfl, rfl⟩ := asleep task (headTask_found found)
      rw [threads] at found
      cases found
      cases proceeded
      have full : ¬ main.usenet.queue.length < main.usenet.maxsize := Nat.not_lt.mpr deadlocked.full.2
      have slept : (main.usenet.threads.set 0 ⟨false, []⟩).modify 0
          (fun thread => { thread with tasks := [.wait command false] ++ thread.tasks }) = main.usenet.threads := by
        rw [threads]
        rfl
      rw [Usenet.resume, if_neg full, Usenet.pushTasks]
      dsimp only
      rw [slept]

/-- What holds of the pool of every run, and lets it go on. -/
structure Led (outer inner : List (Task FilepieceKey)) (usenet : Usenet FilepieceKey) : Prop where
  owned : Owned [] usenet
  attending : Attending outer inner usenet
  reckoned : usenet.misused = true ∨ Sized usenet

theorem Led.rewrite (led : Led outer inner usenet) (articles : FilepieceKey → Article) : Led outer inner { usenet with articles } := by
  obtain ⟨owned, ⟨staffed, covered, served⟩, reckoned⟩ := led
  refine ⟨owned.frame rfl rfl rfl rfl rfl rfl, ⟨staffed.frame rfl rfl, covered.frame rfl rfl, fun intact => ?_⟩, ?_⟩
  · exact (served ⟨intact.working, intact.connected, intact.kept⟩).frame rfl rfl rfl
  · exact reckoned.imp id (fun sized => sized.frame rfl rfl rfl rfl rfl)

theorem step_led {event : Usenet.Event FilepieceKey} (led : Led outer inner usenet) (disciplined : Disciplined event)
    (taken : usenet.step event = some next) :
    ∃ later rest, Led later rest next ∧ (outer = [] → (∀ index request, event ≠ .call index request) → later = []) := by
  obtain ⟨later, rest, attending, idle⟩ := step_attending led.owned led.attending disciplined taken
  exact ⟨later, rest, ⟨step_owned led.owned taken, attending, step_reckoned led.owned led.reckoned taken⟩, idle⟩

/-- The invariant of every run. -/
structure Progressing (eraseRule : EraseRule) (launch : Launch) (main : Main) : Prop where
  persistent : Persistent eraseRule launch main
  led : ∃ outer inner, Led outer inner main.usenet ∧ (outer = [] ∨ looping main.position = true ∨ main.position.ended = true)
  stopped : main.position = .joining → main.usenet.work = false
  working : looping main.position = true → main.usenet.work = true ∨ Discarded main.usenet

/-- A thread with something to do can do it, and its callback does not fail. -/
theorem thread_goes (crc32 : Bytes → UInt32) (sound : Sound eraseRule launch main) (going : main.position.ended = false)
    (railed : ¬ Derailed main.usenet) {thread : Nat} {task : Task FilepieceKey} (head : headTask main.usenet thread = some task) :
    ∃ wake after, main.step crc32 launch (.proceed thread ⟨false, [], false⟩ wake sampleNonces) = some after := by
  have owned := sound.runs.owned
  obtain ⟨io, tasks, found⟩ := headTask_cases head
  simp only [Main.step, going, Bool.false_eq_true, if_false, Main.proceed, found]
  cases task with
  | slotPostFailed msg =>
    have named := sound.named (sound.failing head).1
    by_cases often : 3 ≤ (main.msgidRetries msg).elim 1 (· + 1)
    · simp [postFailed, named, often]
    · have rewritten : Owned [] { main.usenet with
          articles := Function.update main.usenet.articles msg
            ((main.usenet.articles msg).retry launch.cfg msg sampleNonces.1) } := owned.frame rfl rfl rfl rfl rfl rfl
      obtain ⟨wake, goes⟩ := step_goes rewritten head
        (fun derailed => railed ⟨derailed.next, derailed.counted, derailed.empty⟩)
      obtain ⟨usenet, stepped⟩ := goes ⟨false, [], false⟩ [.enqueuePost msg true]
      refine ⟨wake, ?_⟩
      simp only [postFailed, named, Option.bind_eq_bind, Option.bind_some, if_neg often]
      rw [show Main.onPool _ (.rewrite _) = some _ from rfl]
      simp only [Option.bind_some, Option.pure_def, if_neg (going_ongoing going)]
      exact ⟨_, Option.map_eq_some_iff.mpr ⟨usenet, stepped, rfl⟩⟩
  | slotFinishPost msg =>
    obtain ⟨wake, goes⟩ := step_goes owned head railed
    obtain ⟨usenet, stepped⟩ := goes ⟨false, [], false⟩ []
    exact ⟨wake, _, Option.map_eq_some_iff.mpr ⟨usenet, stepped, rfl⟩⟩
  | _ =>
    obtain ⟨wake, goes⟩ := step_goes owned head railed
    obtain ⟨usenet, stepped⟩ := goes ⟨false, [], false⟩ []
    exact ⟨wake, _, Option.map_eq_some_iff.mpr ⟨usenet, stepped, rfl⟩⟩

/-- Between two calls, and when nothing is left to wait for, the main thread goes on. -/
theorem advance_enabled (crc32 : Bytes → UInt32) (progressing : Progressing eraseRule launch main)
    (going : main.position.ended = false) (unwritten : main.position ≠ .writing)
    (threads : main.usenet.threads = [⟨false, []⟩, ⟨true, []⟩]) (delivered : main.usenet.pending = [])
    (disarmed : ∀ connit, (main.usenet.connections connit).isSome = true → main.usenet.armed connit = false) :
    ∃ after, main.step crc32 launch .advance = some after := by
  have files := progressing.persistent.sound.files
  have owned := progressing.persistent.sound.runs.owned
  have between : main.between = true := by simp [between, threads]
  have pieces {fileIndex : Nat} (inside : fileIndex < launch.postitems.getNumFiles) :
      ∃ numPieces, main.postitems.getNumPieces fileIndex = some numPieces := by
    rw [files, Fileset.getNumPieces]
    exact ⟨_, by rw [List.getElem?_eq_getElem (by exact inside), Option.map_some]⟩
  have calls (usenet : Usenet FilepieceKey) (same : usenet.threads = main.usenet.threads) (request : Request FilepieceKey) :
      ∃ after, usenet.step (.call 0 request) = some after := by
    simp [Usenet.step, same, threads]
  simp only [Main.step, going, Bool.false_eq_true, if_false, Main.advance, between, if_true]
  cases position : main.position with
  | posting fileIndex pieceIndex =>
    dsimp only
    split
    next inside =>
      obtain ⟨numPieces, found⟩ := pieces inside
      rw [found, Option.bind_some]
      split
      · rw [Main.post]
        split
        next chunk chunked article postitems served built =>
          obtain ⟨usenet, stepped⟩ := calls { main.usenet with
            articles := Function.update main.usenet.articles ⟨fileIndex, pieceIndex⟩ article } rfl
            (.enqueuePost ⟨fileIndex, pieceIndex⟩ false)
          rw [show Main.onPool _ (.rewrite _) = some _ from rfl, Option.bind_eq_bind, Option.bind_some, Main.onPool, stepped]
          exact ⟨_, rfl⟩
        · exact ⟨_, rfl⟩
      · exact ⟨_, rfl⟩
    · exact ⟨_, rfl⟩
  | validating fileIndex pieceIndex =>
    dsimp only
    split
    next inside =>
      obtain ⟨numPieces, found⟩ := pieces inside
      rw [found, Option.bind_some]
      split
      · obtain ⟨usenet, stepped⟩ := calls main.usenet rfl
          (.enqueueStat (Fileset.getUsenetMessageId launch.runNonce launch.cfg.msgiddomain fileIndex pieceIndex))
        simp only [Main.validate, Main.onPool, stepped]
        exact ⟨_, rfl⟩
      · exact ⟨_, rfl⟩
    · exact ⟨_, rfl⟩
  | stopping => exact ⟨_, rfl⟩
  | joining =>
    have joined : main.usenet.Joined := by
      refine ⟨progressing.stopped position, delivered, fun connit member => disarmed connit ((owned.alive connit).mp member), ?_⟩
      simp [threads]
    exact ⟨_, if_pos joined⟩
  | writing => exact absurd position unwritten
  | returned | exited | terminated => simp [Position.ended, position] at going

/-- Whoever waits without having been notified waits behind a full queue. -/
theorem asleep_full (runs : Runs eraseRule launch main.usenet) (limited : main.usenet.maxsize ≠ 0) {command : Command FilepieceKey}
    (threads : main.usenet.threads = [⟨false, [.wait command false]⟩, ⟨true, []⟩]) :
    main.usenet.maxsize ≤ main.usenet.queue.length := by
  obtain ⟨heap, reached⟩ := runs.reached
  have always : main.usenet.maxsize ≠ 0 → Fronted main.usenet ∧ Supplied main.usenet := by
    refine reached.invariant (fun usenet => usenet.maxsize ≠ 0 → Fronted usenet ∧ Supplied usenet) ?_ ?_
    · exact fun _ => ⟨fun thread inside => absurd inside List.not_mem_nil, fun sleeps => absurd sleeps (Nat.lt_irrefl 0)⟩
    · intro before event after kept taken limited
      obtain ⟨fronted, supplied⟩ := kept (step_maxsize taken ▸ limited)
      exact ⟨step_fronted fronted taken, (step_supplied (step_maxsize taken ▸ limited) fronted supplied taken).2⟩
  obtain ⟨-, supplied⟩ := always limited
  have one : sleepers main.usenet = 1 := by simp [sleepers, onTasks, threads, total, sleeping]
  have none : notified main.usenet = 0 := by simp [notified, onTasks, threads, total, awoken]
  have bound := supplied (by omega)
  omega

theorem busy_of_resting (owned : Owned [] usenet) (delivered : usenet.pending = [])
    (noTask : ∀ connit, onTasks (taskOf connit) usenet = 0) : usenet.busy = [] := by
  rw [List.eq_nil_iff_forall_not_mem]
  intro connit member
  have single := owned.single connit
  have some' := List.count_pos_iff.mpr member
  rw [owners, delivered, noTask] at single
  simp only [total_nil, List.count_nil] at single
  omega

/-- A run that has not ended can go on without an early wake, or is deadlocked or derailed. -/
theorem goes_on (crc32 : Bytes → UInt32) (progressing : Progressing eraseRule launch main) (going : main.position.ended = false) :
    Deadlocked main ∨ Derailed main.usenet ∨
      ∃ event after, main.step crc32 launch event = some after ∧ wakesEarly main event = false := by
  obtain ⟨outer, inner, ⟨owned, ⟨staffed, -, -⟩, -⟩, inCall⟩ := progressing.led
  have sound := progressing.persistent.sound
  have threads := staffed.threads
  by_cases railed : Derailed main.usenet
  · exact .inr (.inl railed)
  have goes {thread : Nat} {task : Task FilepieceKey} (head : headTask main.usenet thread = some task)
      (awake : ∀ command, task ≠ .wait command false) :
      ∃ event after, main.step crc32 launch event = some after ∧ wakesEarly main event = false := by
    obtain ⟨wake, after, taken⟩ := thread_goes crc32 sound going railed head
    refine ⟨_, after, taken, ?_⟩
    simp only [wakesEarly, head]
    split
    next same => exact absurd (Option.some.inj same) (awake _)
    · rfl
  by_cases writing : main.position = .writing
  · exact .inr (.inr ⟨.write false 0, _, by simp [Main.step, writing, Position.ended]; rfl, rfl⟩)
  cases inner with
  | cons task tasks =>
    have head : headTask main.usenet 1 = some task := headTask_found (by rw [threads]; rfl)
    refine .inr (.inr (goes head ?_))
    rintro command rfl
    cases staffed.unwaiting _ (List.mem_cons_self ..)
  | nil =>
    by_cases delivered : main.usenet.pending = []
    · by_cases disarmed : ∀ connit, (main.usenet.connections connit).isSome = true → main.usenet.armed connit = false
      · rcases staffed.single with rfl | ⟨task, rfl, calls⟩
        · obtain ⟨after, taken⟩ := advance_enabled crc32 progressing going writing threads delivered disarmed
          exact .inr (.inr ⟨.advance, after, taken, rfl⟩)
        · have head : headTask main.usenet 0 = some task := headTask_found (by rw [threads]; rfl)
          by_cases awake : ∀ command, task ≠ .wait command false
          · exact .inr (.inr (goes head awake))
          · obtain ⟨command, rfl⟩ : ∃ command, task = .wait command false := by simpa using awake
            have limited := staffed.limited command false rfl
            refine .inl ⟨?_, ⟨command, threads⟩, ⟨limited, asleep_full sound.runs limited threads⟩, ?_, delivered, disarmed⟩
            · rcases inCall with none | loops | ended
              · cases none
              · exact loops
              · cases going.symm.trans ended
            · exact busy_of_resting owned delivered (fun connit => by simp [onTasks, threads, total, taskOf, connit?])
      · obtain ⟨connit, present, armed⟩ : ∃ connit, (main.usenet.connections connit).isSome = true ∧
            main.usenet.armed connit = true := by simpa using disarmed
        refine .inr (.inr ⟨.expire connit, ?_⟩)
        simp only [Main.step, going, Bool.false_eq_true, if_false, Main.onPool, Usenet.step, if_pos (And.intro present armed)]
        exact ⟨_, rfl, rfl⟩
    · obtain ⟨⟨connit, handler⟩, rest, first⟩ := List.exists_cons_of_ne_nil delivered
      refine .inr (.inr ⟨.take 1 0 ⟨false, [], false⟩, ?_⟩)
      simp only [Main.step, going, Bool.false_eq_true, if_false]
      split
      · exact ⟨_, rfl, rfl⟩
      next unthrown =>
        simp only [Main.onPool, Usenet.step, if_neg unthrown, threads, first, List.getElem?_cons_succ, List.getElem?_cons_zero]
        exact ⟨_, rfl, rfl⟩

theorem Led.idle (led : Led outer inner main.usenet) (between : main.between = true) : outer = [] := by
  simpa [Main.between, led.attending.staffed.threads] using between

theorem advance_between (taken : main.advance crc32 launch = some after) : main.between = true := by
  rw [Main.advance] at taken
  split at taken
  next between => exact between
  · cases taken

/-- The steps of the pool that the main thread does not begin. -/
def unasked : Usenet.Event FilepieceKey → Bool
  | .call _ _ | .stop => false
  | _ => true

theorem pool_progressing (progressing : Progressing eraseRule launch main) (persistent : Persistent eraseRule launch after)
    {articles : FilepieceKey → Article} {event : Usenet.Event FilepieceKey}
    (taken : { main.usenet with articles }.step event = some after.usenet) (position : after.position = main.position)
    (disciplined : Disciplined event) (inside : unasked event = true) : Progressing eraseRule launch after := by
  obtain ⟨outer, inner, led, inCall⟩ := progressing.led
  obtain ⟨later, rest, next, idle⟩ := step_led (led.rewrite articles) disciplined taken
  have work := step_work disciplined taken
  obtain ⟨new, trace, -⟩ := PoolTrace.step_written taken
  refine ⟨persistent, ⟨later, rest, next, ?_⟩, fun joining => ?_, fun loops => ?_⟩
  · have uncalled (index : Nat) (request : Request FilepieceKey) : event ≠ .call index request := by
      rintro rfl
      cases inside
    rw [position]
    exact inCall.imp (fun none => idle none uncalled) id
  · have stopped := progressing.stopped (position ▸ joining)
    rcases work with same | ⟨stopped, -⟩
    · exact same.trans stopped
    · exact stopped
  · rcases work with same | ⟨-, stopped | discarded⟩
    · rcases progressing.working (position ▸ loops) with working | ⟨connit, member⟩
      · exact .inl (same.trans working)
      · exact .inr ⟨connit, by rw [trace]; exact List.mem_append_right _ member⟩
    · subst stopped
      cases inside
    · exact .inr discarded

/-- The main thread goes on and leaves the pool alone. -/
theorem moved_progressing (progressing : Progressing eraseRule launch main) (persistent : Persistent eraseRule launch after)
    (same : after.usenet = main.usenet) (loops : looping after.position = true → looping main.position = true)
    (joining : after.position ≠ .joining)
    (idle : ∀ outer inner, Led outer inner main.usenet →
      (outer = [] ∨ looping main.position = true ∨ main.position.ended = true) → outer = [] ∨ after.position.ended = true) :
    Progressing eraseRule launch after := by
  obtain ⟨outer, inner, led, inCall⟩ := progressing.led
  refine ⟨persistent, ⟨outer, inner, same ▸ led, ?_⟩, fun joins => absurd joins joining, ?_⟩
  · exact (idle outer inner led inCall).imp id .inr
  · rw [same]
    exact fun next => progressing.working (loops next)

/-- A call that the main thread makes in one of its loops. -/
theorem call_progressing (progressing : Progressing eraseRule launch main) (persistent : Persistent eraseRule launch after)
    {articles : FilepieceKey → Article} {request : Request FilepieceKey}
    (taken : { main.usenet with articles }.step (.call 0 request) = some after.usenet)
    (before : looping main.position = true) (loops : looping after.position = true) : Progressing eraseRule launch after := by
  obtain ⟨outer, inner, led, -⟩ := progressing.led
  obtain ⟨later, rest, next, -⟩ := step_led (led.rewrite articles) (by trivial) taken
  refine ⟨persistent, ⟨later, rest, next, .inr (.inl loops)⟩, fun joining => ?_, fun _ => ?_⟩
  · rw [joining] at loops
    cases loops
  · obtain ⟨-, same⟩ := step_call taken
    rw [same]
    exact progressing.working before

theorem advance_progressing (progressing : Progressing eraseRule launch main) (persistent : Persistent eraseRule launch after)
    (taken : main.advance crc32 launch = some after) : Progressing eraseRule launch after := by
  have between := advance_between taken
  have idle (outer inner : List (Task FilepieceKey)) (led : Led outer inner main.usenet)
      (_ : outer = [] ∨ looping main.position = true ∨ main.position.ended = true) : outer = [] ∨ after.position.ended = true :=
    .inl (led.idle between)
  cases advance_goes taken with
  | posts position found inside called => exact call_progressing progressing persistent called (by rw [position]; rfl) rfl
  | validates position found inside called =>
    have called : { main.usenet with articles := main.usenet.articles }.step _ = some _ := called
    exact call_progressing progressing persistent called (by rw [position]; rfl) rfl
  | nextPosted position | nextValidated position =>
    exact moved_progressing progressing persistent rfl (fun _ => by rw [position]; rfl) (fun joins => by cases joins) idle
  | allPosted position =>
    refine moved_progressing progressing persistent rfl (fun _ => by rw [position]; rfl) ?_ idle
    intro joins
    dsimp only at joins
    split at joins <;> cases joins
  | allValidated position | finds position | leaves position | throws position =>
    exact moved_progressing progressing persistent rfl (fun loops => by cases loops) (fun joins => by cases joins) idle
  | stops position stopped =>
    obtain ⟨outer, inner, led, -⟩ := progressing.led
    obtain ⟨later, rest, next, kept⟩ := step_led led (by trivial) stopped
    have none := kept (led.idle between) (fun _ _ same => by cases same)
    refine ⟨persistent, ⟨later, rest, next, .inl none⟩, fun _ => ?_, fun loops => by cases loops⟩
    cases stopped
    rfl

theorem step_progressing (progressing : Progressing eraseRule launch main) (taken : main.step crc32 launch event = some after) :
    Progressing eraseRule launch after := by
  have persistent := step_persistent progressing.persistent taken
  have going := step_going taken
  have stepped := step_cases taken
  cases stepped with
  | advance =>
    simp only [Main.step, going, Bool.false_eq_true, if_false] at taken
    exact advance_progressing progressing persistent taken
  | take stepped => exact pool_progressing progressing persistent stepped rfl (by trivial) rfl
  | throws =>
    exact moved_progressing progressing persistent rfl (fun loops => by cases loops) (fun joins => by cases joins)
      (fun _ _ _ _ => .inr rfl)
  | expire stepped => exact pool_progressing progressing persistent stepped rfl (by trivial) rfl
  | proceed proceeds =>
    have bypass (request : Request FilepieceKey) (member : request ∈ []) : request.bypassWait = true := by cases member
    cases proceeds with
    | exits =>
      exact moved_progressing progressing persistent rfl (fun loops => by cases loops) (fun joins => by cases joins)
        (fun _ _ _ _ => .inr rfl)
    | requeues head named seldom stepped =>
      refine pool_progressing progressing persistent stepped rfl (fun request member => ?_) rfl
      cases List.mem_singleton.mp member
      rfl
    | finishes head stepped => exact pool_progressing progressing persistent stepped rfl bypass rfl
    | plain unfailed unfinished stepped => exact pool_progressing progressing persistent stepped rfl bypass rfl
  | write position =>
    refine moved_progressing progressing persistent rfl (fun loops => by cases loops) (fun joins => by cases joins)
      (fun outer inner led inCall => .inl ?_)
    rw [position] at inCall
    rcases inCall with none | loops | ended
    · exact none
    · cases loops
    · cases ended

/-- A pool whose connections were all just made. -/
structure Opened (usenet : Usenet FilepieceKey) : Prop where
  threads : usenet.threads = [⟨false, []⟩]
  numthreads : usenet.numthreads = 1
  ready : usenet.ready = []
  busy : usenet.busy.length = usenet.nextHandle
  sized : Sized usenet

theorem addConnection_opened (opened : Opened usenet) (conninfo : ConnectionInfo) : Opened (usenet.addConnection conninfo) := by
  refine ⟨opened.threads, opened.numthreads, opened.ready, ?_, addConnections_sized opened.sized conninfo 1⟩
  simp [Usenet.addConnection, Usenet.perform, opened.busy]

/-- Before it is started, the pool is made and the connections are added one by one. -/
theorem launch_keeps (eraseRule : EraseRule) (launch : Launch) {motive : Usenet FilepieceKey → Prop}
    (keeps : ∀ usenet conninfo, motive usenet → motive (usenet.addConnection conninfo))
    (start : motive { Usenet.make eraseRule launch.cfg.ioThreads launch.cfg.queueSize (fun _ => ⟨⟨[], [], [], [], []⟩, []⟩) with
      optimeout := launch.cfg.operationTimeout
      threads := [⟨false, []⟩] }) : ∃ usenet, motive usenet ∧ launch.usenet eraseRule = usenet.start := by
  have connects (servers : List (ConnectionInfo × Int)) (usenet : Usenet FilepieceKey) (begun : motive usenet) :
      motive (servers.foldl (fun usenet server => usenet.addConnections server.1 (server.2 % 2 ^ 64).toNat) usenet) := by
    induction servers generalizing usenet with
    | nil => exact begun
    | cons server servers ih =>
      exact ih _ (addConnections_keeps (fun before kept => keeps before server.1 kept) begun (server.2 % 2 ^ 64).toNat)
  exact ⟨_, connects launch.cfg.servers _ start, rfl⟩

theorem launch_led (eraseRule : EraseRule) (launch : Launch) :
    Led [] [] (launch.usenet eraseRule) ∧ (launch.usenet eraseRule).work = true := by
  have owned := (launch_runs eraseRule launch).1.owned
  obtain ⟨usenet, opened, same⟩ := launch_keeps eraseRule launch (motive := Opened)
    (fun _ conninfo opened => addConnection_opened opened conninfo) ⟨rfl, launch.single, rfl, rfl, rfl, rfl, rfl⟩
  rw [same] at owned ⊢
  have threads : usenet.start.threads = [⟨false, []⟩, ⟨true, []⟩] := by
    simp only [Usenet.start, opened.threads, opened.numthreads]
    rfl
  have ready : usenet.start.ready = [] := opened.ready
  have busy : usenet.start.busy.length = usenet.start.nextHandle := opened.busy
  refine ⟨⟨owned, ⟨⟨threads, .inl rfl, ?_, ?_⟩, ?_, fun intact => ⟨?_, ?_⟩⟩, ?_⟩, rfl⟩
  · exact fun task member => absurd member List.not_mem_nil
  · exact fun command notified same => by cases same
  · rw [PoolWork.Covered, ready]
    exact Nat.zero_le _
  · rw [ready, List.nil_append]
    exact List.ne_nil_of_length_pos (busy ▸ intact.connected)
  · exact fun command notified same => by cases same
  · exact .inr (opened.sized.frame rfl rfl rfl rfl rfl)

theorem run_progressing {events : List Main.Event}
    (reached : Machine.run (Main.step crc32 launch) (launch.begin eraseRule) events = some main) :
    Progressing eraseRule launch main := by
  refine Machine.Reachable.invariant (Progressing eraseRule launch) ⟨events, reached⟩ ?_
    (fun _ _ _ progressing taken => step_progressing progressing taken)
  obtain ⟨led, working⟩ := launch_led eraseRule launch
  exact ⟨begin_persistent eraseRule launch, ⟨[], [], led, .inl rfl⟩, (fun joins => by cases joins), fun _ => .inl working⟩

/-- Connections that are still there would take from the queue. -/
theorem deadlocked_discarded (progressing : Progressing eraseRule launch main) (deadlocked : Deadlocked main) :
    numConnections launch = 0 ∨ Discarded main.usenet := by
  obtain ⟨outer, inner, led, -⟩ := progressing.led
  obtain ⟨command, threads⟩ := deadlocked.asleep
  by_contra! intact
  have working := (progressing.working deadlocked.looping).resolve_right intact.2
  have connected : 0 < main.usenet.nextHandle := progressing.persistent.handles ▸ Nat.pos_of_ne_zero intact.1
  have served := led.attending.served ⟨working, connected, fun connit member => intact.2 ⟨connit, member⟩⟩
  have waits : outer = [.wait command false] := by
    rw [led.attending.staffed.threads] at threads
    simp only [List.cons.injEq, Thread.mk.injEq, true_and] at threads
    exact threads.1
  have queued : main.usenet.queue ≠ [] := by
    apply List.ne_nil_of_length_pos
    have full := deadlocked.full
    omega
  exact served.taken command false waits queued deadlocked.unoccupied

/-- What a run can do that has not come to its end: it goes on, or it is deadlocked for good
after a connection was lost, or it has misused its lists. -/
theorem run_progresses {events : List Main.Event}
    (reached : Machine.run (Main.step crc32 launch) (launch.begin eraseRule) events = some main)
    (going : main.position.ended = false) :
    (∃ event after, main.step crc32 launch event = some after ∧ wakesEarly main event = false) ∨
    (Deadlocked main ∧ (numConnections launch = 0 ∨ Discarded main.usenet) ∧
      ∀ event after, main.step crc32 launch event = some after → after = main) ∨
    (Derailed main.usenet ∧ main.usenet.misused = true) := by
  have progressing := run_progressing reached
  rcases goes_on crc32 progressing going with deadlocked | derailed | goes
  · exact .inr (.inl ⟨deadlocked, deadlocked_discarded progressing deadlocked,
      fun event after taken => deadlocked_stays deadlocked taken⟩)
  · obtain ⟨outer, inner, led, -⟩ := progressing.led
    exact .inr (.inr ⟨derailed, derailed_misused led.reckoned derailed⟩)
  · exact .inl goes

/-- Three pieces, and a queue for two. -/
def forsakenLaunch : Launch :=
  { sampleLaunch with
    cfg := { sampleLaunch.cfg with queueSize := 2 }
    postitems := Fileset.addFile ⟨2, []⟩ ⟨ascii "m.bin", [15, 29, 43, 57, 71], by decide⟩
    single := rfl
    files_fit := by decide
    pieces_fit := by decide }

/-- The only connection cannot be made, and the third piece waits for room. -/
def forsakenRun : List Main.Event :=
  [hears "", .take 1 0 ⟨true, [], false⟩, hears "", goesOn 1] ++ (List.replicate 3 [.advance, goesOn 0]).flatten

theorem forsaken_deadlocked : ∃ main,
    Machine.run (Main.step Yencgenerator.crc32Type forsakenLaunch) (forsakenLaunch.begin .named) forsakenRun = some main ∧
      main.usenet.threads = [⟨false, [.wait (.startAsyncPost ⟨0, 2⟩) false]⟩, ⟨true, []⟩] ∧
      ((∃ event after, main.step Yencgenerator.crc32Type forsakenLaunch event = some after ∧ wakesEarly main event = false) ∨
        (Deadlocked main ∧ (numConnections forsakenLaunch = 0 ∨ Discarded main.usenet) ∧
          ∀ event after, main.step Yencgenerator.crc32Type forsakenLaunch event = some after → after = main) ∨
        (Derailed main.usenet ∧ main.usenet.misused = true)) := by
  have computed :
      (Machine.run (Main.step Yencgenerator.crc32Type forsakenLaunch) (forsakenLaunch.begin .named) forsakenRun).map
        (fun main => (main.usenet.threads, main.position.ended)) =
      some ([⟨false, [.wait (.startAsyncPost ⟨0, 2⟩) false]⟩, ⟨true, []⟩], false) := by decide +kernel
  obtain ⟨main, reached, seen⟩ := Option.map_eq_some_iff.mp computed
  rw [Prod.mk.injEq] at seen
  exact ⟨main, reached, seen.1, run_progresses reached seen.2⟩

end Post2Usenet.Proofs.Deadlocks
