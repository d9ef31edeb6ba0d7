import Post2Usenet.Proofs.MainRun
import Post2Usenet.Proofs.PoolEfforts

/-! Failed posts. The post-failed callback counts them by piece although the id that
it finds the piece by is never the same twice, so every piece is tried three times
at most, and all that changes from one attempt to the next is the header. -/

namespace Post2Usenet.Proofs.Retries
open Connection Usenet PoolSteps PoolOwnership PoolTrace PoolAccounting PoolRequests PoolAttempts PoolEfforts
open MainSteps MainRun Tally Main

variable {eraseRule : EraseRule} {crc32 : Bytes → UInt32} {launch : Launch} {main after : Main} {event : Main.Event}
  {key : FilepieceKey}

/-- The step runs the post-failed callback for a piece. -/
def failing (key : FilepieceKey) (main : Main) : Main.Event → Bool
  | .proceed thread _ _ _ => headTask main.usenet thread = some (.slotPostFailed key)
  | _ => false

/-- The failures of a piece that its counter knows of. -/
def failed (main : Main) (key : FilepieceKey) : Nat := (main.msgidRetries key).getD 0

/-- The callback has counted three failures, and takes the program with it. -/
def gaveUp (main : Main) (key : FilepieceKey) : Main :=
  { main with
    msgidRetries := Function.update main.msgidRetries key (some (failed main key + 1))
    position := .exited
    dump := dumpfile (main.usenet.articles key) }

/-- What a run of the callback comes to. -/
inductive Retried (launch : Launch) (main : Main) (key : FilepieceKey) (thread : Nat) (nonces : RetryNonces) : Main → Prop
  | exits (often : 2 ≤ failed main key) : Retried launch main key thread nonces (gaveUp main key)
  | requeues {outcome : Outcome} {wake : Option Nat} {usenet : Usenet FilepieceKey}
      (seldom : failed main key < 2)
      (taken : { main.usenet with
        articles := Function.update main.usenet.articles key
          ((main.usenet.articles key).retry launch.cfg key nonces) }.step
          (.proceed thread ⟨outcome, wake, [.enqueuePost key true]⟩) = some usenet) :
      Retried launch main key thread nonces { main with
        usenet
        msgidRetries := Function.update main.msgidRetries key (some (failed main key + 1))
        msgidExceptions := Function.update main.msgidExceptions key (some nonces.messageNonce) }

theorem failed_succ (main : Main) (key : FilepieceKey) : (main.msgidRetries key).elim 1 (· + 1) = failed main key + 1 := by
  rw [failed]
  cases main.msgidRetries key <;> rfl

theorem step_retried (sound : Sound eraseRule launch main) {thread : Nat} {outcome : Outcome} {wake : Option Nat}
    {nonces : { nonces : RetryNonces // nonces.Drawn }}
    (head : headTask main.usenet thread = some (.slotPostFailed key))
    (taken : main.step crc32 launch (.proceed thread outcome wake nonces) = some after) :
    Retried launch main key thread nonces after := by
  have known := sound.named (sound.failing head).1
  cases step_cases taken with
  | proceed proceeds =>
    cases proceeds with
    | exits failing named often =>
      cases head.symm.trans failing
      cases known.symm.trans named
      rw [failed_succ] at often ⊢
      exact .exits (Nat.le_of_succ_le_succ often)
    | requeues failing named seldom requeued =>
      cases head.symm.trans failing
      cases known.symm.trans named
      rw [failed_succ] at seldom ⊢
      exact .requeues (Nat.lt_of_succ_lt_succ seldom) requeued
    | finishes finishing => cases head.symm.trans finishing
    | plain unfailed => exact absurd head (unfailed key)

/-- The steps of the pool that neither write an article nor make a connection. -/
def keeping : Usenet.Event FilepieceKey → Bool
  | .rewrite _ | .addConnections _ _ => false
  | _ => true

/-- No callback for a failed post has run: what was made stays as it was. -/
structure Calm (main after : Main) : Prop where
  handles : after.usenet.nextHandle = main.usenet.nextHandle
  retries : after.msgidRetries = main.msgidRetries
  exceptions : after.msgidExceptions = main.msgidExceptions
  failures : ∀ key, callbacks key false after.usenet = callbacks key false main.usenet
  kept : ∀ key, 0 < made main key → 0 < made after key ∧ after.usenet.articles key = main.usenet.articles key
  fresh : ∀ key, 0 < made after key → 0 < made main key ∨ (after.usenet.articles key).header.additional = []

theorem moves_calm (main : Main) (position : Position) (nzb : Option Bytes) : Calm main { main with position, nzb } :=
  ⟨rfl, rfl, rfl, fun _ => rfl, fun _ exists' => ⟨exists', rfl⟩, fun _ => .inl⟩

theorem Calm.moves {position : Position} (calm : Calm main after) : Calm main { after with position } :=
  ⟨calm.handles, calm.retries, calm.exceptions, calm.failures, calm.kept, calm.fresh⟩

theorem pool_calm {event : Usenet.Event FilepieceKey} {usenet : Usenet FilepieceKey} (owned : Owned [] main.usenet)
    (taken : main.usenet.step event = some usenet) (plain : keeping event = true)
    (other : ∀ task, runs main.usenet event = some task → ∀ key, concludingOf key false task = 0) :
    Calm main { main with usenet } := by
  have articles := step_articles owned taken (by rintro _ rfl; cases plain)
  have handles := step_nextHandle owned (by rintro _ _ rfl; cases plain) taken
  refine ⟨handles, rfl, rfl, fun key => ?_, fun key exists' => ⟨exists', congrFun articles key⟩, fun _ => .inl⟩
  have moved := step_callbacks key false taken
  cases run : runs main.usenet event with
  | none => simpa [run] using moved
  | some task => simpa [run, other task run key] using moved

/-- A step of the pool in which no task runs. -/
theorem quiet_calm {event : Usenet.Event FilepieceKey} {usenet : Usenet FilepieceKey} (owned : Owned [] main.usenet)
    (taken : main.usenet.step event = some usenet) (plain : keeping event = true) (quiet : runs main.usenet event = none) :
    Calm main { main with usenet } := by
  refine pool_calm owned taken plain (fun task run => ?_)
  cases quiet.symm.trans run

theorem proceed_calm {thread : Nat} {outcome : Outcome} {wake : Option Nat} {nonces : RetryNonces}
    (owned : Owned [] main.usenet) (calm : ∀ key, headTask main.usenet thread ≠ some (.slotPostFailed key))
    (proceeds : Proceeds launch main thread outcome wake nonces after) : Calm main after := by
  have goes (task : Task FilepieceKey) (run : headTask main.usenet thread = some task) (key : FilepieceKey) :
      concludingOf key false task = 0 := by
    cases task with
    | slotPostFailed msg => exact absurd run (calm msg)
    | _ => simp [concludingOf]
  cases proceeds with
  | exits head => exact absurd head (calm _)
  | requeues head => exact absurd head (calm _)
  | @finishes msg usenet head taken =>
    have finishes : Calm (main.postFinished msg) { main.postFinished msg with usenet } := pool_calm owned taken rfl goes
    exact ⟨finishes.handles, finishes.retries, finishes.exceptions, finishes.failures, finishes.kept, finishes.fresh⟩
  | plain unfailed unfinished taken => exact pool_calm owned taken rfl goes

theorem posts_calm (sound : Sound eraseRule launch main) {fileIndex pieceIndex size : Nat} {article : Article}
    {postitems : Fileset} {usenet : Usenet FilepieceKey} (position : main.position = .posting fileIndex pieceIndex)
    (unmarked : article.header.additional = [])
    (taken : { main.usenet with
      articles := Function.update main.usenet.articles ⟨fileIndex, pieceIndex⟩ article }.step
        (.call 0 (.enqueuePost ⟨fileIndex, pieceIndex⟩ false)) = some usenet) :
    Calm main { main with
      usenet
      postitems
      position := .posting fileIndex (pieceIndex + 1)
      pieceSizes := Function.update main.pieceSizes ⟨fileIndex, pieceIndex⟩ (some size) } := by
  obtain ⟨-, rfl⟩ := step_call taken
  have absent : made main ⟨fileIndex, pieceIndex⟩ = 0 := by
    by_contra some'
    have isSome : (main.pieceSizes ⟨fileIndex, pieceIndex⟩).isSome = true := by
      by_contra none
      exact some' (if_neg none)
    have behind := sound.ahead fileIndex pieceIndex position _ isSome
    rw [position] at behind
    simp [Behind] at behind
  refine ⟨rfl, rfl, rfl, fun _ => rfl, fun key exists' => ?_, fun key exists' => ?_⟩
  · have other : key ≠ ⟨fileIndex, pieceIndex⟩ := by
      rintro rfl
      omega
    refine ⟨?_, Function.update_of_ne other ..⟩
    simpa only [made, Function.update_of_ne other] using exists'
  · by_cases new : key = ⟨fileIndex, pieceIndex⟩
    · subst new
      exact .inr (by simp [pushTasks, unmarked])
    · exact .inl (by simpa only [made, Function.update_of_ne new] using exists')

theorem advance_calm (sound : Sound eraseRule launch main) (advances : Advances crc32 launch main after) :
    Calm main after := by
  have owned := sound.runs.owned
  cases advances with
  | posts position found inside served built taken =>
    obtain ⟨item, subject, part, -, -, -, rfl, -⟩ := makeArticle_some crc32 built
    exact posts_calm sound position rfl taken
  | calls before asks taken =>
    rcases asks with rfl | ⟨msgid, rfl⟩
    · exact (quiet_calm owned taken rfl rfl).moves
    · exact (quiet_calm owned taken rfl rfl).moves
  | nextFile | postsNoMore | passes | joins | throws => exact moves_calm main _ main.nzb

theorem step_calm (sound : Sound eraseRule launch main) (calm : ∀ key, failing key main event = false)
    (taken : main.step crc32 launch event = some after) : Calm main after := by
  have owned := sound.runs.owned
  cases step_cases taken with
  | advance advances => exact advance_calm sound advances
  | take stepped => exact quiet_calm owned stepped rfl rfl
  | throws thrown => exact moves_calm main _ main.nzb
  | expire stepped => exact quiet_calm owned stepped rfl rfl
  | proceed proceeds => exact proceed_calm owned (fun key => by simpa [failing] using calm key) proceeds
  | write position => exact moves_calm main _ _

/-- What a header has gained by a number of failures. -/
structure Marked (count : Nat) (header : Header) : Prop where
  length : header.additional.length = count
  random : ∀ element ∈ header.additional, ascii "X-Random-" <+: element.field

/-- The counters agree, and every header shows how often its post has failed. -/
structure Tried (main : Main) : Prop where
  counted : main.position ≠ .exited → ∀ key, failed main key = callbacks key false main.usenet
  twice : ∀ key, callbacks key false main.usenet ≤ 2 * made main key
  excepted : ∀ key, callbacks key false main.usenet = 0 ↔ main.msgidExceptions key = none
  marked : ∀ key, 0 < made main key → Marked (callbacks key false main.usenet) (main.usenet.articles key).header

theorem calm_tried (calm : Calm main after) (going : main.position.ended = false) (tried : Tried main) : Tried after := by
  have moreMade (key : FilepieceKey) : made main key ≤ made after key := by
    have bound := made_le main key
    have kept := calm.kept key
    omega
  refine ⟨?_, ?_, ?_, ?_⟩
  · intro _ key
    rw [failed, calm.retries, calm.failures]
    exact tried.counted (going_ongoing going) key
  · intro key
    have more := moreMade key
    have twice := tried.twice key
    rw [calm.failures]
    omega
  · intro key
    rw [calm.exceptions, calm.failures]
    exact tried.excepted key
  · intro key exists'
    rw [calm.failures]
    by_cases earlier : 0 < made main key
    · rw [(calm.kept key earlier).2]
      exact tried.marked key earlier
    · have nothing := tried.twice key
      have unmarked := (calm.fresh key exists').resolve_left earlier
      refine ⟨?_, ?_⟩
      · rw [unmarked, List.length_nil]
        omega
      · rw [unmarked]
        exact fun _ member => absurd member List.not_mem_nil

/-- What the pool makes of an article that comes back with another header. -/
theorem requeue_effects (sound : Sound eraseRule launch main) {thread : Nat} {article : Article} {outcome : Outcome}
    {wake : Option Nat} {usenet : Usenet FilepieceKey}
    (head : headTask main.usenet thread = some (.slotPostFailed key))
    (taken : { main.usenet with articles := Function.update main.usenet.articles key article }.step
      (.proceed thread ⟨outcome, wake, [.enqueuePost key true]⟩) = some usenet) :
    usenet.articles = Function.update main.usenet.articles key article ∧
      usenet.nextHandle = main.usenet.nextHandle ∧
      ∀ other, callbacks other false usenet = callbacks other false main.usenet + if key = other then 1 else 0 := by
  obtain ⟨-, free, unposted⟩ := sound.failing head
  have rewritten := sound.runs.rewrite free unposted article
  have handles := step_nextHandle rewritten.owned (fun _ _ same => by cases same) taken
  refine ⟨step_articles rewritten.owned taken (fun _ same => by cases same), handles, fun other => ?_⟩
  have counted : callbacks other false usenet =
      callbacks other false main.usenet + concludingOf other false (.slotPostFailed key) :=
    (proceed_counts other taken head).2 false
  simp [counted, concludingOf]

theorem retry_marked {article : Article} {count : Nat} (marked : Marked count article.header) (cfg : ProgConfig)
    (key : FilepieceKey) (nonces : RetryNonces) : Marked (count + 1) (article.retry cfg key nonces).header := by
  refine ⟨?_, ?_⟩
  · simp only [Article.retry, Header.retry, List.length_append, List.length_singleton, marked.length]
  · intro element member
    rcases List.mem_append.mp member with earlier | last
    · exact marked.random element earlier
    · rw [List.mem_singleton.mp last]
      exact List.prefix_append ..

theorem retried_tried (sound : Sound eraseRule launch main) (tried : Tried main)
    (going : main.position.ended = false) {thread : Nat} (head : headTask main.usenet thread = some (.slotPostFailed key))
    {nonces : RetryNonces} (retried : Retried launch main key thread nonces after) : Tried after := by
  obtain ⟨exists', -, -⟩ := sound.failing head
  have one : made main key = 1 := by
    have bound := made_le main key
    omega
  have counted := tried.counted (going_ongoing going)
  cases retried with
  | exits often =>
    refine ⟨fun position => absurd rfl position, tried.twice, tried.excepted, tried.marked⟩
  | @requeues outcome wake usenet seldom taken =>
    obtain ⟨articles, -, failures⟩ := requeue_effects sound head taken
    refine ⟨?_, ?_, ?_, ?_⟩
    · intro _ other
      have before := counted other
      by_cases same : key = other
      · subst same
        simp only [failed, Function.update_self, Option.getD_some, failures, ite_true] at before ⊢
        omega
      · simp only [failed, Function.update_of_ne (Ne.symm same), failures, if_neg same] at before ⊢
        omega
    · intro other
      have before := tried.twice other
      show callbacks other false usenet ≤ 2 * made main other
      rw [failures]
      by_cases same : key = other
      · subst same
        rw [counted] at seldom
        rw [if_pos rfl]
        omega
      · rwa [if_neg same]
    · intro other
      show callbacks other false usenet = 0 ↔ Function.update main.msgidExceptions key (some nonces.messageNonce) other = none
      rw [failures]
      by_cases same : key = other
      · subst same
        simp
      · rw [if_neg same, Nat.add_zero, Function.update_of_ne (Ne.symm same)]
        exact tried.excepted other
    · intro other made
      show Marked (callbacks other false usenet) (usenet.articles other).header
      have before := tried.marked other made
      rw [failures, articles]
      by_cases same : key = other
      · subst same
        rw [if_pos rfl, Function.update_self]
        exact retry_marked before ..
      · rwa [if_neg same, Function.update_of_ne (Ne.symm same)]

/-- The piece whose callback a step runs, with the thread that runs it. -/
theorem failing_cases (main : Main) (event : Main.Event) : (∀ key, failing key main event = false) ∨
    ∃ key thread outcome wake nonces, event = .proceed thread outcome wake nonces ∧
      headTask main.usenet thread = some (.slotPostFailed key) := by
  by_cases calm : ∀ key, failing key main event = false
  · exact .inl calm
  · obtain ⟨key, runs⟩ := not_forall.mp calm
    rw [Bool.not_eq_false] at runs
    cases event with
    | proceed thread outcome wake nonces => exact .inr ⟨key, thread, outcome, wake, nonces, rfl, of_decide_eq_true runs⟩
    | _ => cases runs

theorem step_tried (sound : Sound eraseRule launch main) (tried : Tried main)
    (taken : main.step crc32 launch event = some after) : Tried after := by
  have going := step_going taken
  rcases failing_cases main event with calm | ⟨key, thread, outcome, wake, nonces, rfl, head⟩
  · exact calm_tried (step_calm sound calm taken) going tried
  · exact retried_tried sound tried going head (step_retried sound head taken)

/-- The text of an article, which no retry touches. -/
structure SameText (first article : Article) : Prop where
  payload : article.payload = first.payload
  from' : article.header.from' = first.header.from'
  newsgroups : article.header.newsgroups = first.header.newsgroups
  subject : article.header.subject = first.header.subject

theorem SameText.refl (article : Article) : SameText article article := ⟨rfl, rfl, rfl, rfl⟩

theorem SameText.trans {first middle article : Article} (earlier : SameText first middle) (later : SameText middle article) :
    SameText first article :=
  ⟨later.payload.trans earlier.payload, later.from'.trans earlier.from', later.newsgroups.trans earlier.newsgroups,
    later.subject.trans earlier.subject⟩

/-- What a step leaves alone, whichever callback it runs. -/
structure Lasts (main after : Main) : Prop where
  handles : after.usenet.nextHandle = main.usenet.nextHandle
  text : ∀ key, 0 < made main key →
    0 < made after key ∧ SameText (main.usenet.articles key) (after.usenet.articles key)

theorem step_lasts (sound : Sound eraseRule launch main) (taken : main.step crc32 launch event = some after) :
    Lasts main after := by
  rcases failing_cases main event with calm | ⟨key, thread, outcome, wake, nonces, rfl, head⟩
  · have calm := step_calm sound calm taken
    refine ⟨calm.handles, fun key exists' => ?_⟩
    obtain ⟨still, same⟩ := calm.kept key exists'
    exact ⟨still, same ▸ .refl _⟩
  · cases step_retried sound head taken with
    | exits often => exact ⟨rfl, fun key exists' => ⟨exists', .refl _⟩⟩
    | @requeues outcome wake usenet seldom requeued =>
      obtain ⟨articles, handles, -⟩ := requeue_effects sound head requeued
      refine ⟨handles, fun other exists' => ⟨exists', ?_⟩⟩
      show SameText (main.usenet.articles other) (usenet.articles other)
      rw [articles]
      by_cases same : other = key
      · rw [same, Function.update_self]
        exact ⟨rfl, rfl, rfl, rfl⟩
      · rw [Function.update_of_ne same]
        exact .refl _

/-- The connections of all servers. -/
def numConnections (launch : Launch) : Nat := total (fun server => (server.2 % 2 ^ 64).toNat) launch.cfg.servers

theorem addConnections_nextHandle (usenet : Usenet FilepieceKey) (conninfo : ConnectionInfo) (count : Nat) :
    (usenet.addConnections conninfo count).nextHandle = usenet.nextHandle + count := by
  induction count generalizing usenet with
  | zero => rfl
  | succ count ih =>
    rw [addConnections, ih]
    exact (Nat.succ_add_eq_add_succ ..)

theorem launch_nextHandle (eraseRule : EraseRule) (launch : Launch) :
    (launch.usenet eraseRule).nextHandle = numConnections launch := by
  have connects (servers : List (ConnectionInfo × Int)) (usenet : Usenet FilepieceKey) :
      (servers.foldl (fun usenet server => usenet.addConnections server.1 (server.2 % 2 ^ 64).toNat) usenet).nextHandle =
        usenet.nextHandle + total (fun server => (server.2 % 2 ^ 64).toNat) servers := by
    induction servers generalizing usenet with
    | nil => rfl
    | cons server servers ih => rw [List.foldl_cons, ih, addConnections_nextHandle, total_cons, Nat.add_assoc]
  exact (connects launch.cfg.servers _).trans (Nat.zero_add _)

/-- What holds of every run. -/
structure Persistent (eraseRule : EraseRule) (launch : Launch) (main : Main) : Prop where
  sound : Sound eraseRule launch main
  tried : Tried main
  handles : main.usenet.nextHandle = numConnections launch

theorem step_persistent (persistent : Persistent eraseRule launch main)
    (taken : main.step crc32 launch event = some after) : Persistent eraseRule launch after :=
  ⟨turn_sound persistent.sound (step_turn persistent.sound.files taken),
    step_tried persistent.sound persistent.tried taken,
    (step_lasts persistent.sound taken).handles.trans persistent.handles⟩

theorem begin_persistent (eraseRule : EraseRule) (launch : Launch) :
    Persistent eraseRule launch (launch.begin eraseRule) := by
  obtain ⟨-, trace, -⟩ := launch_runs eraseRule launch
  have none (key : FilepieceKey) : callbacks key false (launch.begin eraseRule).usenet = 0 := by
    simp [callbacks, Launch.begin, trace]
  refine ⟨begin_sound eraseRule launch, ⟨?_, ?_, ?_, ?_⟩, launch_nextHandle eraseRule launch⟩
  · exact fun _ key => (none key).symm
  · exact fun key => (none key).le.trans (Nat.zero_le _)
  · exact fun key => iff_of_true (none key) rfl
  · exact fun key exists' => by cases exists'

theorem run_persistent {events : List Main.Event}
    (reached : Machine.run (Main.step crc32 launch) (launch.begin eraseRule) events = some main) :
    Persistent eraseRule launch main :=
  Machine.Reachable.invariant (Persistent eraseRule launch) ⟨events, reached⟩ (begin_persistent eraseRule launch)
    (fun _ _ _ persistent taken => step_persistent persistent taken)

/-- How often the callback has run for a piece, against how often it has queued the article again. -/
structure Counts (main : Main) (key : FilepieceKey) (count : Nat) : Prop where
  atMost : count ≤ 3
  exactly : main.position ≠ .exited → count = callbacks key false main.usenet

theorem step_counts (persistent : Persistent eraseRule launch main) {count : Nat} (counts : Counts main key count)
    (taken : main.step crc32 launch event = some after) :
    Counts after key (count + if failing key main event then 1 else 0) := by
  obtain ⟨sound, tried, -⟩ := persistent
  have same := counts.exactly (going_ongoing (step_going taken))
  have few : count ≤ 2 := by
    have twice := tried.twice key
    have bound := made_le main key
    omega
  rcases failing_cases main event with calm | ⟨other, thread, outcome, wake, nonces, rfl, head⟩
  · rw [calm key]
    exact ⟨counts.atMost, fun _ => same.trans ((step_calm sound calm taken).failures key).symm⟩
  · have runs : failing key main (.proceed thread outcome wake nonces) = decide (other = key) := by
      simp [failing, head]
    rw [runs]
    cases step_retried sound head taken with
    | exits often =>
      refine ⟨?_, fun ongoing => absurd rfl ongoing⟩
      split <;> omega
    | @requeues outcome wake usenet seldom requeued =>
      have failures := (requeue_effects sound head requeued).2.2 key
      refine ⟨?_, fun _ => ?_⟩
      · split <;> omega
      · show _ = callbacks key false usenet
        rw [failures, same]
        simp

theorem run_counts (key : FilepieceKey) {events : List Main.Event}
    (reached : Machine.run (Main.step crc32 launch) (launch.begin eraseRule) events = some main) :
    Counts main key (Machine.tally (Main.step crc32 launch) (failing key) (launch.begin eraseRule) events) := by
  refine (Machine.tally_invariant (fun main count => Persistent eraseRule launch main ∧ Counts main key count) reached
    ?_ ?_).2
  · have persistent := begin_persistent eraseRule launch
    refine ⟨persistent, Nat.zero_le _, fun _ => ?_⟩
    obtain ⟨-, trace, -⟩ := launch_runs eraseRule launch
    simp [callbacks, Launch.begin, trace]
  · rintro before event after count ⟨persistent, counts⟩ taken
    exact ⟨step_persistent persistent taken, step_counts persistent counts taken⟩

/-- What the callback makes of the id: it has a new nonce, which the map of exceptions keeps. -/
structure Renews (launch : Launch) (key : FilepieceKey) (nonces : RetryNonces) (main after : Main) : Prop where
  articles : after.usenet.articles =
    Function.update main.usenet.articles key ((main.usenet.articles key).retry launch.cfg key nonces)
  exceptions : after.msgidExceptions = Function.update main.msgidExceptions key (some nonces.messageNonce)
  changed : nonces.messageNonce ≠ (main.msgidExceptions key).getD launch.runNonce →
    (after.usenet.articles key).header.msgid ≠ (main.usenet.articles key).header.msgid

/-- A run of the callback when so many were before it. -/
structure Callback (launch : Launch) (key : FilepieceKey) (thread : Nat) (nonces : RetryNonces) (count : Nat)
    (main after : Main) : Prop where
  few : count ≤ 2
  last : count = 2 → after.position = .exited ∧ after.usenet = main.usenet
  again : count < 2 → after.position = main.position ∧ Renews launch key nonces main after ∧
    headTask after.usenet thread = some (.request (.enqueuePost key true)) ∧
    called key main.usenet = 0 ∧ called key after.usenet = 1 ∧
    ∀ other, other ≠ key → called other after.usenet = called other main.usenet

/-- The callback leaves its thread one call to make. -/
theorem requeue_calls (sound : Sound eraseRule launch main) {thread : Nat} {article : Article} {outcome : Outcome}
    {wake : Option Nat} {usenet : Usenet FilepieceKey}
    (head : headTask main.usenet thread = some (.slotPostFailed key))
    (taken : { main.usenet with articles := Function.update main.usenet.articles key article }.step
      (.proceed thread ⟨outcome, wake, [.enqueuePost key true]⟩) = some usenet) :
    headTask usenet thread = some (.request (.enqueuePost key true)) ∧
      called key main.usenet = 0 ∧ called key usenet = 1 ∧
      ∀ other, other ≠ key → called other usenet = called other main.usenet := by
  obtain ⟨exists', -, -⟩ := sound.failing head
  have inHand : 1 ≤ inHand key main.usenet := by
    have weighs := headTask_weighs (inHandOf key) head
    simpa [inHandOf, inHand] using weighs
  have once := sound.once key
  have bound := made_le main key
  have moved (other : FilepieceKey) : called other usenet + passed other usenet =
      called other main.usenet + passed other main.usenet + asked other [.enqueuePost key true] :=
    (proceed_counts other taken head).1
  obtain ⟨io, task, tasks, result, found, proceeded, rfl⟩ := step_proceed taken
  cases (headTask_found found).symm.trans head
  cases proceeded
  have inside := (List.getElem?_eq_some_iff.mp found).1
  have calls (other : FilepieceKey) := moved other
  simp only [passed, pushTasks, record, total_cons, passedOf, asked, total_nil, Request.command, queuedOf] at calls
  refine ⟨?_, by omega, ?_, fun other different => ?_⟩
  · simp [headTask, pushTasks, record, inside]
  · have one := calls key
    rw [if_pos rfl] at one
    simp only [pushTasks, record] at one ⊢
    omega
  · have none := calls other
    rw [if_neg (Ne.symm different)] at none
    simp only [pushTasks, record] at none ⊢
    omega

theorem nonce_drawn (sound : Sound eraseRule launch main) (key : FilepieceKey) :
    RunNonce nonceLength ((main.msgidExceptions key).getD launch.runNonce) := by
  cases exception : main.msgidExceptions key with
  | none => exact launch.drawn
  | some nonce => exact sound.drawn key nonce exception

theorem requeue_renews (sound : Sound eraseRule launch main) {thread : Nat} {nonces : RetryNonces} (drawn : nonces.Drawn)
    {outcome : Outcome} {wake : Option Nat} {usenet : Usenet FilepieceKey} {msgidRetries : FilepieceKey → Option Nat}
    (head : headTask main.usenet thread = some (.slotPostFailed key))
    (taken : { main.usenet with
      articles := Function.update main.usenet.articles key
        ((main.usenet.articles key).retry launch.cfg key nonces) }.step
        (.proceed thread ⟨outcome, wake, [.enqueuePost key true]⟩) = some usenet) :
    Renews launch key nonces main { main with
      usenet
      msgidRetries
      msgidExceptions := Function.update main.msgidExceptions key (some nonces.messageNonce) } := by
  obtain ⟨articles, -, -⟩ := requeue_effects sound head taken
  refine ⟨articles, rfl, fun new same => ?_⟩
  obtain ⟨size, found, piece⟩ := sound.known (sound.failing head).1
  obtain ⟨file, within⟩ := piece_fits piece
  have before : (main.usenet.articles key).header.msgid = currentId launch main key :=
    (sound.described key size found).msgid
  have after : (usenet.articles key).header.msgid =
      Fileset.getUsenetMessageId nonces.messageNonce launch.cfg.msgiddomain key.fileIndex key.pieceIndex := by
    rw [articles, Function.update_self]
    rfl
  exact new (MessageIds.getUsenetMessageId_injective drawn.messageNonce (nonce_drawn sound key) file (by omega) file
    (by omega) ((after.symm.trans same).trans before)).1

theorem step_callback (persistent : Persistent eraseRule launch main) {count : Nat} (counts : Counts main key count)
    {thread : Nat} {outcome : Outcome} {wake : Option Nat} {nonces : { nonces : RetryNonces // nonces.Drawn }}
    (head : headTask main.usenet thread = some (.slotPostFailed key))
    (taken : main.step crc32 launch (.proceed thread outcome wake nonces) = some after) :
    Callback launch key thread nonces count main after := by
  obtain ⟨sound, tried, -⟩ := persistent
  have going := step_going taken
  have ongoing : main.position ≠ .exited := by
    intro exited
    rw [exited] at going
    cases going
  have same := counts.exactly ongoing
  have counted := tried.counted ongoing key
  have twice := tried.twice key
  have bound := made_le main key
  cases step_retried sound head taken with
  | exits often => exact ⟨by omega, fun _ => ⟨rfl, rfl⟩, fun seldom => by omega⟩
  | @requeues outcome wake usenet seldom requeued =>
    exact ⟨by omega, fun often => by omega,
      fun _ => ⟨rfl, requeue_renews sound nonces.property head requeued, requeue_calls sound head requeued⟩⟩

/-- A call that bypasses the wait passes it. -/
theorem requeue_passes {thread : Nat} {choice : Choice FilepieceKey} {usenet after : Usenet FilepieceKey}
    (head : headTask usenet thread = some (.request (.enqueuePost key true)))
    (taken : usenet.step (.proceed thread choice) = some after) : passed key after = passed key usenet + 1 := by
  obtain ⟨io, task, tasks, result, found, proceeded, rfl⟩ := step_proceed taken
  cases (headTask_found found).symm.trans head
  have counted := proceed_trace (quiet_passedOf key) proceeded
  have passes : result.2 = [] := by
    cases proceed_executes proceeded with
    | dispatches => rfl
    | waits none bypass => cases bypass
    | defers => rfl
    | observes slot => cases slot
  rw [passes] at counted
  simp only [recorded, passedOf, Request.command, queuedOf, ite_true] at counted
  exact counted.trans (Nat.add_comm ..)

/-- All that the pool did for a piece was for its first post, or for one after a failure. -/
theorem efforts_le (persistent : Persistent eraseRule launch main) (key : FilepieceKey) :
    efforts main.usenet key ≤ 3 * made main key := by
  obtain ⟨sound, tried, -⟩ := persistent
  have asked := sound.asked key
  have balance := sound.runs.balance key
  have posted := sound.runs.settled key true
  have missed := sound.runs.settled key false
  have inHand := concluding_inHand key main.usenet
  have twice := tried.twice key
  rw [efforts]
  omega

theorem started_bounded (persistent : Persistent eraseRule launch main) :
    started main.usenet ≤ 3 * launch.postitems.getTotalPieces + numConnections launch := by
  obtain ⟨heap, reached⟩ := persistent.sound.runs.reached
  have within : ∀ key, 0 < efforts main.usenet key → key ∈ pieces launch.postitems := by
    intro key some'
    have bound := efforts_le persistent key
    exact mem_pieces.mpr (persistent.sound.known (by omega)).choose_spec.2
  calc started main.usenet
      ≤ total (efforts main.usenet) (pieces launch.postitems) + main.usenet.nextHandle :=
        started_le (reachable_efforts reached) within
    _ ≤ total (fun _ => 3) (pieces launch.postitems) + main.usenet.nextHandle := by
        apply Nat.add_le_add_right
        apply List.sum_le_sum
        intro key _
        have bound := efforts_le persistent key
        have one := made_le main key
        omega
    _ = 3 * launch.postitems.getTotalPieces + numConnections launch := by
        rw [persistent.handles, ← pieces_length launch.pieces_fit]
        simp [total, Nat.mul_comm]

/-- The article of a piece after some failures, against the one it started with. Its id has
the nonce of the run, or once it has failed, the one that the map of exceptions then has. -/
structure Attempt (launch : Launch) (main : Main) (key : FilepieceKey) (count : Nat) (first : Article) : Prop where
  text : SameText first (main.usenet.articles key)
  marked : Marked count (main.usenet.articles key).header
  original : count = 0 → main.msgidExceptions key = none ∧ (main.usenet.articles key).header.msgid =
    Fileset.getUsenetMessageId launch.runNonce launch.cfg.msgiddomain key.fileIndex key.pieceIndex
  renewed : 0 < count → ∃ nonce, RunNonce nonceLength nonce ∧ main.msgidExceptions key = some nonce ∧
    (main.usenet.articles key).header.msgid =
      Fileset.getUsenetMessageId nonce launch.cfg.msgiddomain key.fileIndex key.pieceIndex

theorem run_lasts {first : Main} {rest : List Main.Event} (persistent : Persistent eraseRule launch first)
    (exists' : 0 < made first key) (reached : Machine.run (Main.step crc32 launch) first rest = some main) :
    0 < made main key ∧ SameText (first.usenet.articles key) (main.usenet.articles key) := by
  have kept : Persistent eraseRule launch main ∧
      0 < made main key ∧ SameText (first.usenet.articles key) (main.usenet.articles key) := by
    apply Machine.Reachable.invariant (fun main => Persistent eraseRule launch main ∧
      0 < made main key ∧ SameText (first.usenet.articles key) (main.usenet.articles key)) ⟨rest, reached⟩
    · exact ⟨persistent, exists', .refl _⟩
    · rintro before event after ⟨persistent, exists', same⟩ taken
      obtain ⟨still, text⟩ := (step_lasts persistent.sound taken).text key exists'
      exact ⟨step_persistent persistent taken, still, same.trans text⟩
  exact kept.2

/-- Only the article of a piece that was made is written, as it is then. -/
theorem step_writes (sound : Sound eraseRule launch main) (taken : main.step crc32 launch event = some after)
    {new : List (Entry FilepieceKey)} (trace : after.usenet.trace = new ++ main.usenet.trace)
    {connit : ConnectionHandle} {buffers : Bytes} (member : .wrote connit buffers .articleWritten ∈ new) :
    ∃ key, 0 < held key main.usenet ∧ 0 < made main key ∧ buffers = (main.usenet.articles key).wire := by
  obtain ⟨added, same, written⟩ := MainRun.step_written taken
  cases List.append_cancel_right (trace.symm.trans same)
  rcases written _ member with quits | ⟨_, _, _, stage, connection, -, -, present, writes⟩
  · cases quits
  · obtain ⟨key, given, rfl⟩ := article_written writes
    have holds := held_of_article sound.runs.owned present given
    have once := sound.once key
    exact ⟨key, holds, by omega, rfl⟩

/-- How often the callback has run for a piece. -/
def failures (crc32 : Bytes → UInt32) (eraseRule : EraseRule) (launch : Launch) (key : FilepieceKey)
    (events : List Main.Event) : Nat :=
  Machine.tally (Main.step crc32 launch) (failing key) (launch.begin eraseRule) events

/-- The effort of a run, at its end and in its next step. -/
structure Bounded (crc32 : Bytes → UInt32) (eraseRule : EraseRule) (launch : Launch) (events : List Main.Event)
    (main : Main) : Prop where
  thrice : ∀ key, failures crc32 eraseRule launch key events ≤ 3
  callback : ∀ key thread outcome wake nonces after,
    headTask main.usenet thread = some (.slotPostFailed key) →
    main.step crc32 launch (.proceed thread outcome wake nonces) = some after →
    Callback launch key thread nonces (failures crc32 eraseRule launch key events) main after
  requeue : ∀ key thread outcome wake nonces after,
    headTask main.usenet thread = some (.request (.enqueuePost key true)) →
    main.step crc32 launch (.proceed thread outcome wake nonces) = some after →
    passed key after.usenet = passed key main.usenet + 1
  commands : started main.usenet ≤ 3 * launch.postitems.getTotalPieces + numConnections launch
  attempts : ∀ earlier rest first key, events = earlier ++ rest →
    Machine.run (Main.step crc32 launch) (launch.begin eraseRule) earlier = some first → 0 < made first key →
    main.position ≠ .exited →
    Attempt launch main key (failures crc32 eraseRule launch key events) (first.usenet.articles key)
  writes : ∀ event after new connit buffers, main.step crc32 launch event = some after →
    after.usenet.trace = new ++ main.usenet.trace → .wrote connit buffers .articleWritten ∈ new →
    ∃ key, 0 < held key main.usenet ∧ 0 < made main key ∧ buffers = (main.usenet.articles key).wire

theorem proceed_onPool {thread : Nat} {outcome : Outcome} {wake : Option Nat}
    {nonces : { nonces : RetryNonces // nonces.Drawn }} {request : Request FilepieceKey}
    (head : headTask main.usenet thread = some (.request request))
    (taken : main.step crc32 launch (.proceed thread outcome wake nonces) = some after) :
    main.usenet.step (.proceed thread ⟨outcome, wake, []⟩) = some after.usenet := by
  cases step_cases taken with
  | proceed proceeds =>
    cases proceeds with
    | exits failing => cases head.symm.trans failing
    | requeues failing => cases head.symm.trans failing
    | finishes finishing => cases head.symm.trans finishing
    | plain unfailed unfinished stepped => exact stepped

/-- In every run each piece is tried three times at most, and a connection that may not post
costs one more command. -/
theorem effort_bounded {events : List Main.Event}
    (reached : Machine.run (Main.step crc32 launch) (launch.begin eraseRule) events = some main) :
    Bounded crc32 eraseRule launch events main := by
  have persistent := run_persistent reached
  refine ⟨fun key => (run_counts key reached).atMost, ?_, ?_, started_bounded persistent, ?_, ?_⟩
  · exact fun key thread outcome wake nonces after head taken =>
      step_callback persistent (run_counts key reached) head taken
  · exact fun key thread outcome wake nonces after head taken => requeue_passes head (proceed_onPool head taken)
  · rintro earlier rest first key rfl begun exists' ongoing
    rw [Machine.run_append, begun] at reached
    obtain ⟨still, text⟩ := run_lasts (run_persistent begun) exists' reached
    have counts := run_counts key (show Machine.run _ (launch.begin eraseRule) (earlier ++ rest) = some main by
      rw [Machine.run_append, begun]; exact reached)
    have same : failures crc32 eraseRule launch key (earlier ++ rest) = callbacks key false main.usenet :=
      counts.exactly ongoing
    obtain ⟨size, found, -⟩ := persistent.sound.known still
    have msgid := (persistent.sound.described key size found).msgid
    have excepted := persistent.tried.excepted key
    rw [currentId] at msgid
    rw [same]
    refine ⟨text, persistent.tried.marked key still, fun none => ?_, fun some' => ?_⟩
    · rw [excepted.mp none] at msgid
      exact ⟨excepted.mp none, msgid⟩
    · obtain ⟨nonce, exception⟩ := Option.ne_none_iff_exists'.mp (fun none => absurd (excepted.mpr none) (by omega))
      rw [exception] at msgid
      exact ⟨nonce, persistent.sound.drawn key nonce exception, exception, msgid⟩
  · exact fun event after new connit buffers taken trace member => step_writes persistent.sound taken trace member

theorem refusedThrice_bounded : ∃ main,
    Machine.run (Main.step Yencgenerator.crc32Type sampleLaunch) (sampleLaunch.begin .holder) refusedThriceRun =
        some main ∧
      main.position = .exited ∧ failures Yencgenerator.crc32Type .holder sampleLaunch ⟨0, 0⟩ refusedThriceRun = 3 ∧
      started main.usenet = 3 ∧ Bounded Yencgenerator.crc32Type .holder sampleLaunch refusedThriceRun main := by
  have computed :
      (Machine.run (Main.step Yencgenerator.crc32Type sampleLaunch) (sampleLaunch.begin .holder) refusedThriceRun).map
        (fun main => (main.position, started main.usenet)) = some (.exited, 3) := by decide +kernel
  obtain ⟨main, reached, seen⟩ := Option.map_eq_some_iff.mp computed
  obtain ⟨exited, three⟩ := Prod.mk.inj seen
  exact ⟨main, reached, exited, by decide +kernel, three, effort_bounded reached⟩

end Post2Usenet.Proofs.Retries
