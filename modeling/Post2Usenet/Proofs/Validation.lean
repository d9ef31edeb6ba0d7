import Post2Usenet.Proofs.Retries

/-! The checks that follow the posts. They are called for after all posts were, but the
pool hands a check to any connection that has nothing to do, whatever the others still
have to post. -/

namespace Post2Usenet.Proofs.Validation
open Connection ConnectionSteps Usenet PoolSteps PoolOwnership PoolTrace PoolAccounting PoolRequests PoolAttempts
open MainSteps MainRun Retries Tally Main

variable {α : Type} {usenet after : Usenet α} {connit : ConnectionHandle} {command : Command α}

/-- A command that checks nothing. -/
def unchecking : Command α → Bool
  | .startAsyncPost _ => true
  | .startAsyncStat _ => false

def uncheckingHandler : Handler α → Bool
  | .stage .doStat | .stage .statWritten | .stage .statAnswered | .statHandler _ _ => false
  | _ => true

def uncheckingTask : Task α → Bool
  | .request request => unchecking request.command
  | .wait command _ | .dispatchOrQueue command => unchecking command
  | .requeueStat _ _ | .slotFinishStat _ _ => false
  | _ => true

/-- The pool has nothing to check. -/
structure Unchecking (usenet : Usenet α) : Prop where
  queue : ∀ command ∈ usenet.queue, unchecking command = true
  pending : ∀ entry ∈ usenet.pending, uncheckingHandler entry.2 = true
  tasks : EveryTask (fun task => uncheckingTask task = true) usenet

theorem Unchecking.frame (free : Unchecking usenet) (queue : after.queue = usenet.queue)
    (pending : after.pending = usenet.pending) (threads : after.threads = usenet.threads) : Unchecking after :=
  ⟨queue ▸ free.queue, pending ▸ free.pending, free.tasks.frame threads⟩

theorem Unchecking.rewrite (free : Unchecking usenet) (articles : α → Article) : Unchecking { usenet with articles } :=
  free.frame rfl rfl rfl

theorem perform_unchecking (free : Unchecking usenet) (connit : ConnectionHandle) {act : Act α}
    (pends : Pends uncheckingHandler act) : Unchecking (usenet.perform connit act) := by
  refine ⟨free.queue, fun entry member => ?_, free.tasks⟩
  rcases List.mem_append.mp member with earlier | new
  · exact free.pending entry earlier
  · obtain ⟨handler, left, rfl⟩ := List.mem_map.mp new
    exact pends handler left

theorem performAccepted_unchecking (free : Unchecking usenet) (connit : ConnectionHandle) {result : Bool × Act α}
    (pends : result.1 = true → Pends uncheckingHandler result.2) : Unchecking (usenet.performAccepted connit result) := by
  rw [performAccepted]
  split
  next accepted => exact perform_unchecking free connit (pends accepted)
  · exact free.frame rfl rfl rfl

theorem run_unchecking (free : Unchecking usenet) (posts : unchecking command = true)
    (taken : usenet.run connit command = some after) : Unchecking after := by
  cases command with
  | startAsyncPost msg =>
    obtain ⟨connection, -, rfl⟩ := Option.map_eq_some_iff.mp taken
    apply performAccepted_unchecking free
    simp only [asyncPost]
    split
    · exact fun accepted => by cases accepted
    · exact fun _ => pends_one rfl rfl
  | startAsyncStat msgid => cases posts

theorem dispatch_unchecking (free : Unchecking usenet) (posts : unchecking command = true)
    (taken : usenet.dispatch command = some after) : Unchecking after := by
  obtain ⟨connit, ready, -, run⟩ := dispatch_cases taken
  have moved : Unchecking { usenet with
      ready
      busy := connit :: usenet.busy
      readySize := decrement usenet.readySize
      busySize := usenet.busySize + 1 } := free.frame rfl rfl rfl
  exact run_unchecking moved posts run

theorem pushBack_unchecking (free : Unchecking usenet) (posts : unchecking command = true) :
    Unchecking (usenet.pushBack command) := by
  refine ⟨fun other member => ?_, free.pending, free.tasks⟩
  rcases List.mem_append.mp member with earlier | new
  · exact free.queue other earlier
  · rw [List.mem_singleton.mp new]
    exact posts

theorem gracefulDisconnect_unchecking (free : Unchecking usenet) {named : Side}
    (taken : usenet.gracefulDisconnect named connit = some after) : Unchecking after := by
  obtain ⟨connection, -, rfl⟩ := Option.map_eq_some_iff.mp taken
  have quits : Unchecking (usenet.performAccepted connit connection.asyncGracefulDisconnect) := by
    apply performAccepted_unchecking free
    simp only [asyncGracefulDisconnect]
    split
    · exact fun accepted => by cases accepted
    · exact fun _ => pends_one (handlers_timeout ..) rfl
  exact quits.frame rfl rfl rfl

theorem shutdown_unchecking (free : Unchecking usenet) (taken : usenet.shutdown connit = some after) :
    Unchecking after := by
  apply shutdown_keeps _ free taken
  exact fun before named connit after earlier _ disconnected => gracefulDisconnect_unchecking earlier disconnected

theorem woken_unchecking (free : Unchecking usenet) (woken : Notified usenet after) : Unchecking after := by
  rcases woken with rfl | ⟨index, io, command, rest, found, rfl⟩
  · exact free
  · obtain ⟨waiting, popped⟩ := free.tasks.pop found
    refine ⟨free.queue, free.pending, fun thread member task inside => ?_⟩
    rcases List.mem_or_eq_of_mem_set member with earlier | rfl
    · exact free.tasks thread earlier task inside
    · rcases List.mem_cons.mp inside with rfl | later
      · exact waiting
      · exact free.tasks _ (List.mem_of_getElem? found) task (List.mem_cons_of_mem _ later)

/-- A critical section that checks nothing leaves nothing to check, but for what an
observer calls. -/
theorem proceed_unchecking (free : Unchecking usenet) {choice : Choice α} {task : Task α}
    (posts : uncheckingTask task = true)
    (calls : ∀ request ∈ observed choice task, unchecking request.command = true)
    {result : Usenet α × List (Task α)} (taken : usenet.proceed choice task = some result) :
    Unchecking result.1 ∧ ∀ more ∈ result.2, uncheckingTask more = true := by
  have passed (command : Command α) : Unchecking (usenet.record (.passed command)) := free.frame rfl rfl rfl
  cases proceed_executes taken with
  | dispatches idle dispatched => exact ⟨dispatch_unchecking (passed _) posts dispatched, List.forall_mem_nil _⟩
  | waits => exact ⟨free, fun more member => by rw [List.mem_singleton.mp member]; exact posts⟩
  | defers => exact ⟨pushBack_unchecking (passed _) posts, List.forall_mem_nil _⟩
  | resumes => exact ⟨pushBack_unchecking (passed _) posts, List.forall_mem_nil _⟩
  | sleeps => exact ⟨free, fun more member => by rw [List.mem_singleton.mp member]; exact posts⟩
  | @becomesReady connit after became =>
    refine ⟨?_, List.forall_mem_nil _⟩
    rcases onConnBecomesReady_cases became with ⟨next, queue, notified, waiting, woken, run⟩ | ⟨-, -, rfl⟩ | ⟨-, -, down⟩
    · have queued : ∀ command ∈ next :: queue, unchecking command = true := waiting ▸ free.queue
      have awake := woken_unchecking free woken
      have popped : Unchecking { notified with queue } :=
        ⟨fun command member => queued command (List.mem_cons_of_mem _ member), awake.pending, awake.tasks⟩
      exact run_unchecking popped (queued next (List.mem_cons_self ..)) run
    · exact free.frame rfl rfl rfl
    · have becomes : Unchecking (usenet.becomeReady connit) := free.frame rfl rfl rfl
      exact shutdown_unchecking becomes down
  | discards => exact ⟨free.frame rfl rfl rfl, List.forall_mem_nil _⟩
  | redispatches idle dispatched => exact ⟨dispatch_unchecking free posts dispatched, List.forall_mem_nil _⟩
  | requeues => exact ⟨pushBack_unchecking free posts, List.forall_mem_nil _⟩
  | reconnects => cases posts
  | observes slot =>
    refine ⟨free.frame rfl rfl rfl, fun more member => ?_⟩
    obtain ⟨request, inside, rfl⟩ := List.mem_map.mp member
    have called : request ∈ observed choice task := by cases task <;> cases slot <;> exact inside
    exact calls request called

theorem follows_unchecking {stage : Stage} {handler : Handler α} (free : uncheckingHandler (.stage stage : Handler α) = true)
    (follow : follows stage handler = true) : uncheckingHandler handler = true := by
  cases handler with
  | stage next => cases stage <;> cases next <;> first | rfl | (cases free; done) | cases follow
  | statHandler msgid result => cases stage <;> first | (cases free; done) | cases follow
  | _ => rfl

theorem deliver_unchecking (free : Unchecking usenet) (connit : ConnectionHandle) {handler : Handler α}
    (posts : uncheckingHandler handler = true) (outcome : Outcome) :
    Unchecking (usenet.deliver connit handler outcome).1 ∧
      ∀ task ∈ (usenet.deliver connit handler outcome).2, uncheckingTask task = true := by
  cases present : usenet.connections connit with
  | none =>
    simp only [deliver, present]
    exact ⟨free, List.forall_mem_nil _⟩
  | some connection =>
    simp only [deliver, present]
    cases handler with
    | stage stage =>
      refine ⟨perform_unchecking free connit fun handler member => ?_, List.forall_mem_nil _⟩
      exact follows_unchecking posts (run_follows usenet.articles stage outcome connection handler member)
    | timer => exact ⟨free, List.forall_mem_nil _⟩
    | connectHandler result =>
      refine ⟨free.frame rfl rfl rfl, ?_⟩
      cases result <;> simp [onConnected, uncheckingTask]
    | statHandler msgid result => cases posts
    | postHandler msg result =>
      have recorded : Unchecking (usenet.record (.posted connit msg result)) := free.frame rfl rfl rfl
      cases result with
      | postingNotPermitted =>
        refine ⟨perform_unchecking recorded connit (by simp [Pends]), ?_⟩
        simp [onPostFinished, uncheckingTask, unchecking]
      | postFailure => exact ⟨recorded, by simp [onPostFinished, uncheckingTask]⟩
      | postFailureConnectionError =>
        refine ⟨perform_unchecking recorded connit (asyncConnect_pends _ rfl), ?_⟩
        simp [onPostFinished, uncheckingTask]
      | postSuccess => exact ⟨recorded, by simp [onPostFinished, uncheckingTask]⟩

/-- Without a call there is nothing to check. -/
theorem step_unchecking {event : Usenet.Event α} (free : Unchecking usenet) (taken : usenet.step event = some after)
    (uncalled : ∀ request ∈ calls usenet event, unchecking request.command = true) : Unchecking after := by
  cases event with
  | addConnections conninfo numConnections =>
    cases taken
    refine addConnections_keeps (motive := Unchecking) (fun before earlier => ?_) free numConnections
    have listed : Unchecking { before with
        busy := before.busy ++ [before.nextHandle]
        busySize := before.busySize + 1
        nextHandle := before.nextHandle + 1 } := earlier.frame rfl rfl rfl
    exact perform_unchecking listed before.nextHandle (asyncConnect_pends _ rfl)
  | start =>
    cases taken
    exact ⟨free.queue, free.pending, free.tasks.idle true usenet.numthreads⟩
  | spawn =>
    cases taken
    exact ⟨free.queue, free.pending, free.tasks.idle false 1⟩
  | call index request =>
    obtain ⟨-, rfl⟩ := step_call taken
    have posts : uncheckingTask (.request request) = true := uncalled request (List.mem_singleton_self _)
    exact ⟨free.queue, free.pending, free.tasks.push (by simpa using posts) index⟩
  | take index place outcome =>
    obtain ⟨connit, handler, -, found, rfl⟩ := step_take taken
    have taken : Unchecking { usenet with pending := usenet.pending.eraseIdx place } :=
      ⟨free.queue, fun entry member => free.pending entry (List.mem_of_mem_eraseIdx member), free.tasks⟩
    obtain ⟨delivered, tasks⟩ :=
      deliver_unchecking taken connit (free.pending _ (List.mem_of_getElem? found)) outcome
    exact ⟨delivered.queue, delivered.pending, delivered.tasks.push tasks index⟩
  | expire connit =>
    obtain ⟨-, -, rfl⟩ := step_expire taken
    refine ⟨free.queue, fun entry member => ?_, free.tasks⟩
    rcases List.mem_append.mp member with earlier | new
    · exact free.pending entry earlier
    · rw [List.mem_singleton.mp new]
      rfl
  | proceed index choice =>
    obtain ⟨io, task, tasks, result, found, proceeded, rfl⟩ := step_proceed taken
    obtain ⟨posts, rest⟩ := free.tasks.pop found
    have popped : Unchecking { usenet with threads := usenet.threads.set index ⟨io, tasks⟩ } :=
      ⟨free.queue, free.pending, rest⟩
    have observes : ∀ request ∈ observed choice task, unchecking request.command = true := by
      intro request member
      apply uncalled
      simpa only [calls, headTask_found found, Option.toList_some, List.flatMap_cons, List.flatMap_nil,
        List.append_nil] using member
    obtain ⟨kept, tasks⟩ := proceed_unchecking popped posts observes proceeded
    exact ⟨kept.queue, kept.pending, kept.tasks.push tasks index⟩
  | _ =>
    cases taken
    exact free.frame rfl rfl rfl

section Run

variable {eraseRule : EraseRule} {crc32 : Bytes → UInt32} {launch : Launch} {main after : Main} {event : Main.Event}
  {key : FilepieceKey}

/-- While the posting loop runs nothing is checked. -/
def Early (main : Main) : Prop := ∀ fileIndex pieceIndex, main.position = .posting fileIndex pieceIndex →
  Unchecking main.usenet

theorem past_early (past : past main.position = true) : Early main := by
  intro fileIndex pieceIndex posting
  rw [posting] at past
  cases past

theorem pool_early {event : Usenet.Event FilepieceKey} {usenet : Usenet FilepieceKey} (early : Early main)
    (taken : main.usenet.step event = some usenet)
    (uncalled : ∀ request ∈ calls main.usenet event, unchecking request.command = true) :
    Early { main with usenet } :=
  fun fileIndex pieceIndex posting => step_unchecking (early fileIndex pieceIndex posting) taken uncalled

/-- What is called in a critical section is called by the callback. -/
theorem proceed_calls {usenet : Usenet FilepieceKey} {thread : Nat} {choice : Usenet.Choice FilepieceKey}
    {request : Request FilepieceKey} (member : request ∈ calls usenet (.proceed thread choice)) : request ∈ choice.calls := by
  obtain ⟨task, -, inside⟩ := List.mem_flatMap.mp member
  cases task with
  | slotPostFailed | slotFinishPost | slotFinishStat => exact inside
  | _ => cases inside

theorem advance_early (early : Early main) (advances : Advances crc32 launch main after) : Early after := by
  cases advances with
  | posts position found inside served built taken =>
    have rewritten := (early _ _ position).rewrite
    exact fun _ _ _ => step_unchecking (rewritten _) taken (by simp [calls, Request.command, unchecking])
  | nextFile position found outside => exact fun _ _ _ => early _ _ position
  | postsNoMore before last later => exact past_early later
  | calls before asks taken later => exact past_early later
  | passes before later => exact past_early later
  | joins => exact past_early rfl
  | throws =>
    intro _ _ posting
    cases posting

theorem proceed_early {thread : Nat} {outcome : Outcome} {wake : Option Nat} {nonces : RetryNonces}
    (early : Early main) (proceeds : Proceeds launch main thread outcome wake nonces after) : Early after := by
  have silent {usenet : Usenet FilepieceKey} (request : Request FilepieceKey)
      (member : request ∈ calls usenet (.proceed thread ⟨outcome, wake, []⟩)) : unchecking request.command = true := by
    cases proceed_calls member
  cases proceeds with
  | exits head named often =>
    intro fileIndex pieceIndex posting
    cases posting
  | requeues head named seldom taken =>
    intro fileIndex pieceIndex posting
    have rewritten := (early fileIndex pieceIndex posting).rewrite
    refine step_unchecking (rewritten _) taken (fun request member => ?_)
    rw [List.mem_singleton.mp (proceed_calls member)]
    rfl
  | finishes head taken => exact pool_early early taken silent
  | plain unfailed unfinished taken => exact pool_early early taken silent

theorem step_early (early : Early main) (taken : main.step crc32 launch event = some after) : Early after := by
  cases step_cases taken with
  | advance advances => exact advance_early early advances
  | take stepped => exact pool_early early stepped (List.forall_mem_nil _)
  | throws =>
    intro _ _ posting
    cases posting
  | expire stepped => exact pool_early early stepped (List.forall_mem_nil _)
  | proceed proceeds => exact proceed_early early proceeds
  | write position => exact past_early rfl

/-- The id that the posting loop gave to a piece, and that the validating loop checks. -/
def originalId (launch : Launch) (key : FilepieceKey) : Bytes :=
  Fileset.getUsenetMessageId launch.runNonce launch.cfg.msgiddomain key.fileIndex key.pieceIndex

/-- No post was reported to have failed. -/
def Unfailed (usenet : Usenet FilepieceKey) : Prop :=
  ∀ connit key result, .posted connit key result ∈ usenet.trace → concludes result ≠ some false

/-- Whoever checks a piece finds that the server has taken the article with that id. -/
def Checked (launch : Launch) (main : Main) : Prop :=
  Unfailed main.usenet → ∀ connit key earlier, Piece launch.postitems key →
    (.wrote connit (Protocol.stat ++ originalId launch key ++ crlf) .statWritten :: earlier) <:+ main.usenet.trace →
    (∃ other, .posted other key .postSuccess ∈ earlier) ∧
      (main.usenet.articles key).header.msgid = originalId launch key

def returningOf (key : FilepieceKey) : Task FilepieceKey → Nat
  | .dispatchOrQueue command => queuedOf key command
  | _ => 0

/-- A refused article on its way back to the queue. -/
def returning (key : FilepieceKey) (usenet : Usenet FilepieceKey) : Nat := onTasks (returningOf key) usenet

/-- The pool has nothing left to do for an article. -/
structure Released (key : FilepieceKey) (usenet : Usenet FilepieceKey) : Prop where
  called : called key usenet = 0
  queued : queued key usenet = 0
  returning : returning key usenet = 0
  held : held key usenet = 0

/-- A connection checks a piece only when the pool has let go of its article. -/
def Waits (launch : Launch) (main : Main) : Main.Event → Prop
  | .take _ place _ => Unfailed main.usenet → ∀ connit connection key, Piece launch.postitems key →
      main.usenet.pending[place]? = some (connit, .stage .doStat) →
      main.usenet.connections connit = some connection → connection.msgid = originalId launch key →
      Released key main.usenet
  | _ => True

/-- What a thread has in hand is on its way back, or about to be told to an observer. -/
theorem inHand_cases (key : FilepieceKey) (usenet : Usenet FilepieceKey) :
    inHand key usenet = returning key usenet + (concluding key false usenet + concluding key true usenet) := by
  simp only [inHand, returning, concluding, onTasks, ← total_add]
  apply total_congr
  intro thread _
  apply total_congr
  intro task _
  cases task <;> simp [inHandOf, returningOf, concludingOf]

theorem unfailed_reports {usenet : Usenet FilepieceKey} (unfailed : Unfailed usenet) (key : FilepieceKey) :
    reports key false usenet = 0 := by
  rw [reports, total, List.sum_eq_zero]
  intro weight member
  obtain ⟨entry, inside, rfl⟩ := List.mem_map.mp member
  cases entry with
  | posted connit other result =>
    rw [reportOf, if_neg]
    exact fun failed => unfailed connit other result inside failed.2
  | _ => rfl

theorem reports_posted {usenet : Usenet FilepieceKey} :
    0 < reports key true usenet ↔ ∃ other, .posted other key .postSuccess ∈ usenet.trace := by
  constructor
  · intro reported
    by_contra none
    apply absurd reported
    rw [Nat.not_lt, Nat.le_zero, reports, total, List.sum_eq_zero]
    intro weight member
    obtain ⟨entry, inside, rfl⟩ := List.mem_map.mp member
    cases entry with
    | posted connit other result =>
      rw [reportOf, if_neg]
      rintro ⟨rfl, success⟩
      cases result with
      | postSuccess => exact none ⟨connit, inside⟩
      | _ => cases success
    | _ => rfl
  · rintro ⟨other, posted⟩
    have weighs := weight_le_total (reportOf key true) posted
    have one : reportOf key true (.posted other key .postSuccess) = 1 := by simp [reportOf, concludes]
    rwa [one] at weighs

/-- Without a failure, the pool lets go of an article exactly by having it posted. -/
theorem released_iff (sound : Sound eraseRule launch main) (unfailed : Unfailed main.usenet)
    (exists' : 0 < made main key) :
    Released key main.usenet ↔ ∃ other, .posted other key .postSuccess ∈ main.usenet.trace := by
  have once := sound.once key
  have bound := made_le main key
  have posted := sound.runs.settled key true
  have failed := sound.runs.settled key false
  have hand := inHand_cases key main.usenet
  rw [unfailed_reports unfailed] at failed
  rw [← reports_posted]
  constructor
  · rintro ⟨called, queued, returning, held⟩
    omega
  · intro reported
    constructor <;> omega

/-- An article that was never refused has the id that it started with. -/
theorem posted_original (persistent : Persistent eraseRule launch main) (unfailed : Unfailed main.usenet)
    {other : ConnectionHandle} (posted : .posted other key .postSuccess ∈ main.usenet.trace) :
    (main.usenet.articles key).header.msgid = originalId launch key := by
  obtain ⟨sound, tried, -⟩ := persistent
  have reported := reports_posted.mpr ⟨other, posted⟩
  have once := sound.once key
  have succeeded := sound.runs.settled key true
  have failed := sound.runs.settled key false
  have hand := inHand_cases key main.usenet
  rw [unfailed_reports unfailed] at failed
  obtain ⟨size, found, -⟩ := sound.known (show 0 < made main key by omega)
  rw [(sound.described key size found).msgid, currentId, (tried.excepted key).mp (by omega)]
  rfl

/-- A check is only under way when all pieces were made. -/
theorem checking_made (sound : Sound eraseRule launch main) (early : Early main) (going : main.position.ended = false)
    {connit : ConnectionHandle} (checks : (connit, .stage .doStat) ∈ main.usenet.pending)
    (piece : Piece launch.postitems key) : 0 < made main key := by
  have behind : Behind main.position key := by
    cases position : main.position with
    | posting fileIndex pieceIndex =>
      have free := (early fileIndex pieceIndex position).pending _ checks
      cases free
    | exited | terminated =>
      rw [position] at going
      cases going
    | _ => trivial
  simp [made, sound.behind key piece behind]

theorem stat_injective {first rest : Bytes} (same : Protocol.stat ++ first ++ crlf = Protocol.stat ++ rest ++ crlf) :
    first = rest :=
  List.append_cancel_left (List.append_cancel_right same)

theorem unfailed_earlier (unfailed : Unfailed after.usenet) {new : List (Entry FilepieceKey)}
    (trace : after.usenet.trace = new ++ main.usenet.trace) : Unfailed main.usenet :=
  fun connit key result member => unfailed connit key result (trace ▸ List.mem_append_right _ member)

theorem step_checked (persistent : Persistent eraseRule launch main) (early : Early main) (checked : Checked launch main)
    (taken : main.step crc32 launch event = some after) (waits : Waits launch main event) : Checked launch after := by
  intro unfailed connit key earlier piece ends
  have later := step_persistent persistent taken
  obtain ⟨new, trace, written⟩ := MainRun.step_written taken
  have before := unfailed_earlier unfailed trace
  have posted : ∃ other, .posted other key .postSuccess ∈ earlier := by
    rw [trace] at ends
    rcases new_or_earlier ends with ⟨member, kept⟩ | ends
    · rcases written _ member with quits | ⟨thread, place, outcome, stage, connection, rfl, found, present, writes⟩
      · cases quits
      · obtain ⟨rfl, same⟩ := stat_written writes
        have released := waits before connit connection key piece found present (stat_injective same).symm
        have exists' := checking_made persistent.sound early (step_going taken) (List.mem_of_getElem? found) piece
        obtain ⟨other, posted⟩ := (released_iff persistent.sound before exists').mp released
        exact ⟨other, kept.subset posted⟩
    · exact (checked before connit key earlier piece ends).1
  obtain ⟨other, success⟩ := posted
  have inside := ends.subset (List.mem_cons_of_mem _ success)
  exact ⟨⟨other, success⟩, posted_original later unfailed inside⟩

theorem stat_sent {usenet after : Usenet FilepieceKey} {connit : ConnectionHandle} {thread place : Nat} {outcome : Outcome}
    {connection : Connection FilepieceKey} (taken : usenet.step (.take thread place outcome) = some after)
    (found : usenet.pending[place]? = some (connit, .stage .doStat))
    (present : usenet.connections connit = some connection) :
    after.trace = .wrote connit (Protocol.stat ++ connection.msgid ++ crlf) .statWritten :: usenet.trace := by
  obtain ⟨_, _, -, found', rfl⟩ := step_take taken
  cases found.symm.trans found'
  simp only [pushTasks, deliver, present, Connection.run, doStat, write, perform, timeoutNextAsyncOperation]
  split <;> rfl

/-- A connection that checks too soon has sent its command before the answer. -/
theorem step_unchecked (persistent : Persistent eraseRule launch main) (early : Early main)
    (taken : main.step crc32 launch event = some after) (hasty : ¬ Waits launch main event) : ¬ Checked launch after := by
  intro checked
  apply hasty
  have going := step_going taken
  cases step_cases taken with
  | @take thread place outcome usenet stepped =>
    intro unfailed connit connection key piece found present named
    have trace := stat_sent stepped found present
    rw [named] at trace
    have stillUnfailed : Unfailed usenet := by
      intro other article result member
      rw [trace] at member
      refine unfailed other article result ((List.mem_cons.mp member).resolve_left (fun same => ?_))
      cases same
    obtain ⟨⟨other, posted⟩, -⟩ := checked stillUnfailed connit key main.usenet.trace piece (trace ▸ List.suffix_refl _)
    have exists' := checking_made persistent.sound early going (List.mem_of_getElem? found) piece
    exact (released_iff persistent.sound unfailed exists').mpr ⟨other, posted⟩
  | throws thrown =>
    obtain ⟨_, _, -, timer, -⟩ := throws_timer thrown
    intro unfailed connit connection key piece found
    cases timer.symm.trans found
  | _ => trivial

theorem begin_early (eraseRule : EraseRule) (launch : Launch) : Early (launch.begin eraseRule) := by
  have connects (servers : List (ConnectionInfo × Int)) (usenet : Usenet FilepieceKey) (free : Unchecking usenet) :
      Unchecking (servers.foldl
        (fun usenet server => usenet.addConnections server.1 (server.2 % 2 ^ 64).toNat) usenet) := by
    induction servers generalizing usenet with
    | nil => exact free
    | cons server servers ih =>
      have added : usenet.step (.addConnections server.1 (server.2 % 2 ^ 64).toNat) =
        some (usenet.addConnections server.1 (server.2 % 2 ^ 64).toNat) := rfl
      exact ih _ (step_unchecking free added (List.forall_mem_nil _))
  have made : Unchecking (Usenet.make eraseRule launch.cfg.ioThreads launch.cfg.queueSize
      (fun _ => ⟨⟨[], [], [], [], []⟩, []⟩) : Usenet FilepieceKey) :=
    ⟨List.forall_mem_nil _, List.forall_mem_nil _, List.forall_mem_nil _⟩
  have spawned := step_unchecking made (show Usenet.step _ .spawn = some _ from rfl) (List.forall_mem_nil _)
  have configured := step_unchecking spawned
    (show Usenet.step _ (.setOperationTimeout launch.cfg.operationTimeout) = some _ from rfl) (List.forall_mem_nil _)
  have started := step_unchecking (connects launch.cfg.servers _ configured)
    (show Usenet.step _ .start = some _ from rfl) (List.forall_mem_nil _)
  exact fun _ _ _ => started

/-- No check overtakes its post exactly in the runs in which each check waits until the pool
has let go of the article. -/
theorem checked_iff (events : List Main.Event) :
    Machine.Holds (Main.step crc32 launch) (Checked launch) (launch.begin eraseRule) events ↔
      Machine.Meets (Main.step crc32 launch) (Waits launch) (launch.begin eraseRule) events := by
  obtain ⟨-, trace, -⟩ := launch_runs eraseRule launch
  apply Machine.holds_iff_meets (fun main => Persistent eraseRule launch main ∧ Early main)
  · refine ⟨⟨begin_persistent eraseRule launch, begin_early eraseRule launch⟩, ?_⟩
    intro _ connit key earlier _ ends
    rw [show (launch.begin eraseRule).usenet.trace = [] from trace] at ends
    cases List.suffix_nil.mp ends
  · exact fun before event after inv checked taken waits =>
      ⟨⟨step_persistent inv.1 taken, step_early inv.2 taken⟩, step_checked inv.1 inv.2 checked taken waits⟩
  · exact fun before event after inv _ taken hasty => step_unchecked inv.1 inv.2 taken hasty

def hastyLaunch : Launch :=
  { sampleLaunch with
    cfg := { sampleLaunch.cfg with servers := [(sampleConninfo, 2)], validatePosts := true }
    single := rfl }

private def ends (place : Nat) (line : String) : Main.Event := .take 1 place (answer line)

private def succeeds : Entry FilepieceKey → Bool
  | .posted _ _ result => concludes result ≠ some false
  | _ => true

/-- Two connections and one piece: the second connection is free to check it while the first
is still to post it. -/
def hastyRun : List Main.Event :=
  ["", "", "", "", "", "", "200 ready\r\n", "200 ready\r\n", "", "", "281 welcome\r\n", "281 welcome\r\n"].map (ends 0) ++
    [ends 0 "", goesOn 1, ends 0 "", goesOn 1, .advance, goesOn 0, .advance, .advance, .advance, goesOn 0,
      ends 1 "", ends 0 "", ends 1 "", ends 1 "340 go on\r\n", ends 1 "", ends 1 "240 posted\r\n", ends 1 "",
      goesOn 1, goesOn 1]

theorem hasty_check : ∃ main,
    Machine.run (Main.step Yencgenerator.crc32Type hastyLaunch) (hastyLaunch.begin .named) hastyRun = some main ∧
      Unfailed main.usenet ∧ .posted 0 ⟨0, 0⟩ .postSuccess ∈ main.usenet.trace ∧ ¬ Checked hastyLaunch main := by
  have computed :
      (Machine.run (Main.step Yencgenerator.crc32Type hastyLaunch) (hastyLaunch.begin .named) hastyRun).map
        (fun main => (main.usenet.trace.all succeeds, main.usenet.trace[1]?, (main.usenet.trace.drop 4).head?,
          total (reportOf ⟨0, 0⟩ true) (main.usenet.trace.drop 5))) =
        some (true, some (.posted 0 ⟨0, 0⟩ .postSuccess),
          some (.wrote 1 (Protocol.stat ++ originalId hastyLaunch ⟨0, 0⟩ ++ crlf) .statWritten), 0) := by decide +kernel
  obtain ⟨main, reached, seen⟩ := Option.map_eq_some_iff.mp computed
  simp only [Prod.mk.injEq] at seen
  obtain ⟨all, success, check, unanswered⟩ := seen
  have unfailed : Unfailed main.usenet := by
    intro connit key result member
    simpa [succeeds] using List.all_eq_true.mp all _ member
  refine ⟨main, reached, unfailed, List.mem_of_getElem? success, fun checked => ?_⟩
  obtain ⟨earlier, dropped⟩ := List.head?_eq_some_iff.mp check
  have rest : main.usenet.trace.drop 5 = earlier := by
    rw [← List.drop_drop (i := 1) (j := 4), dropped]
    rfl
  obtain ⟨⟨other, posted⟩, -⟩ := checked unfailed 1 ⟨0, 0⟩ earlier ⟨1, by decide, by decide⟩
    (dropped ▸ List.drop_suffix 4 main.usenet.trace)
  have weighs := weight_le_total (reportOf ⟨0, 0⟩ true) posted
  rw [← rest, unanswered] at weighs
  cases weighs

end Run

end Post2Usenet.Proofs.Validation
