import Post2Usenet.Proofs.PoolSockets

/-! A connection that is connected again after an error starts over, unless its socket was not
given up or its TLS stream remembers the session before. -/

namespace Post2Usenet.Proofs.Recoveries
open Connection ConnectionSteps PoolSteps PoolOwnership PoolSockets Recovery

variable {α : Type}

/-- What `close` promises: `async_connect` opens a new socket, and the buffer is empty then. -/
structure Restarted (connection : Connection α) : Prop where
  sockOpen : connection.sockOpen = false
  readbuf : connection.readbuf = []
  state : connection.state = .disconnected

/-- Every connection that reported an error was closed, opened a new socket afterwards, and
took no line that has a byte in it from before. -/
structure Clean (recovery : Recovery α) : Prop where
  closed : ∀ connit, ∀ connection ∈ (recovery.replies connit).closed, Restarted connection
  opened : ∀ connit, (recovery.replies connit).reopened = false
  unread : ∀ connit, (recovery.replies connit).misread = false

/-- The sockets that are open when a connection is closed for an error are shut down without throwing. -/
def Severed (recovery : Recovery α) : Event α → Prop
  | .pool event => Severs recovery.usenet event
  | _ => True

/-- The TLS streams of the connections that are closed for an error hold nothing then. -/
def Drained (recovery : Recovery α) : Event α → Prop
  | .pool event => ∀ connit connection outcome,
    recovered recovery.usenet event = some (connit, connection, outcome) →
      connection.conninfo.tls = true → (recovery.replies connit).held = []
  | _ => True

/-- The pool keeps the connection as `close` has left it, and connects it again. -/
def Reconnects (recovery : Recovery α) : Event α → Prop
  | .pool event => ∀ connit connection outcome after,
    recovered recovery.usenet event = some (connit, connection, outcome) → recovery.usenet.step event = some after →
      after.connections connit = some (connection.close outcome) ∧ (connit, .stage .doConnect) ∈ after.pending
  | _ => True

/-- Nothing that can be read is from before an error. -/
structure Fresh (replies : Replies α) : Prop where
  old : replies.old = 0
  closed : ∀ connection ∈ replies.closed, Restarted connection
  reopened : replies.reopened = false
  misread : replies.misread = false

structure Sound (recovery : Recovery α) : Prop where
  owned : Owned [] recovery.usenet
  opening : Opening recovery.usenet
  fresh : ∀ connit, Fresh (recovery.replies connit)

theorem close_restarted {connection : Connection α} {outcome : Outcome}
    (connected : connection.state = .connectedAndAuthenticated)
    (severed : connection.sockOpen = true → outcome.shutdownThrows = false) :
    Restarted (connection.close outcome) := by
  refine ⟨close_sockOpen connected severed, ?_, ?_⟩
  · rw [close, if_neg (by simp [connected])]
  · rw [close, if_neg (by simp [connected])]

theorem recover_fresh {replies : Replies α} (fresh : Fresh replies) {connection : Connection α} {outcome : Outcome}
    (restarted : Restarted (connection.close outcome))
    (drained : connection.conninfo.tls = true → replies.held = []) :
    Fresh (replies.recover connection outcome) := by
  have none : (if connection.conninfo.tls then replies.held else []) = [] := by
    split
    next encrypted => exact drained encrypted
    · rfl
  refine ⟨?_, ?_, fresh.reopened, fresh.misread⟩
  · simp [Replies.recover, none, restarted.sockOpen, restarted.readbuf]
  · intro closed member
    rcases List.mem_cons.mp member with rfl | earlier
    · exact restarted
    · exact fresh.closed closed earlier

theorem receive_fresh {replies after : Replies α} (fresh : Fresh replies) {received : Bytes}
    (taken : replies.receive received = some after) : Fresh after := by
  rw [Replies.receive] at taken
  split at taken
  · cases taken
    exact ⟨fresh.old, fresh.closed, fresh.reopened, fresh.misread⟩
  · cases taken

theorem answer_fresh {replies : Replies α} (fresh : Fresh replies) (line : Option Bytes) :
    Fresh (replies.answer line) := by
  cases line with
  | none => exact fresh
  | some line =>
    exact ⟨by simp [Replies.answer, fresh.old], fresh.closed, fresh.reopened,
      by simp [Replies.answer, fresh.old, fresh.misread]⟩

theorem serve_fresh {replies after : Replies α} (fresh : Fresh replies) {connection : Connection α} {stage : Stage}
    {outcome : Outcome} (shut : stage = .resolved → connection.sockOpen = false)
    (taken : replies.serve connection stage outcome = some after) : Fresh after := by
  rw [Replies.serve] at taken
  split at taken
  · obtain ⟨read, received, rfl⟩ := Option.map_eq_some_iff.mp taken
    exact answer_fresh (receive_fresh fresh received) _
  · cases taken
    refine ⟨fresh.old, fresh.closed, ?_, fresh.misread⟩
    by_cases resolves : stage = .resolved
    · simp [fresh.reopened, shut resolves]
    · simp [fresh.reopened, resolves]

theorem update_fresh {replies : ConnectionHandle → Replies α} (fresh : ∀ connit, Fresh (replies connit))
    {connit : ConnectionHandle} {changed : Replies α} (still : Fresh changed) (other : ConnectionHandle) :
    Fresh (Function.update replies connit changed other) := by
  by_cases same : other = connit
  · subst same
    simpa using still
  · simpa [Function.update_of_ne same] using fresh other

theorem served_cases {usenet : Usenet α} {event : Usenet.Event α} {connit : ConnectionHandle}
    {connection : Connection α} {stage : Stage} {outcome : Outcome}
    (serves : served usenet event = some (connit, connection, stage, outcome)) :
    (connit, .stage stage) ∈ usenet.pending ∧ usenet.connections connit = some connection := by
  cases event with
  | take index place =>
    simp only [served] at serves
    split at serves
    next found =>
      obtain ⟨_, present, same⟩ := Option.map_eq_some_iff.mp serves
      cases same
      exact ⟨List.mem_of_getElem? found, present⟩
    · cases serves
  | _ => cases serves

/-- The two paths on which the pool closes a connection for an error. -/
theorem recovered_cases {usenet : Usenet α} {event : Usenet.Event α} {connit : ConnectionHandle}
    {connection : Connection α} {outcome : Outcome} (recovers : recovered usenet event = some (connit, connection, outcome)) :
    usenet.connections connit = some connection ∧
      ((∃ index place msg, event = .take index place outcome ∧
        usenet.pending[place]? = some (connit, .postHandler msg .postFailureConnectionError)) ∨
      (∃ index choice io msgid tasks, event = .proceed index choice ∧ outcome = choice.outcome ∧
        usenet.threads[index]? = some ⟨io, .requeueStat connit msgid :: tasks⟩)) := by
  cases event with
  | take index place =>
    simp only [recovered] at recovers
    split at recovers
    next msg found =>
      obtain ⟨_, present, same⟩ := Option.map_eq_some_iff.mp recovers
      cases same
      exact ⟨present, .inl ⟨index, place, msg, rfl, found⟩⟩
    · cases recovers
  | proceed index choice =>
    simp only [recovered] at recovers
    split at recovers
    next io connit msgid tasks found =>
      obtain ⟨_, present, same⟩ := Option.map_eq_some_iff.mp recovers
      cases same
      exact ⟨present, .inr ⟨index, choice, io, msgid, tasks, rfl, rfl, found⟩⟩
    · cases recovers
  | _ => cases recovers

section Recovered

variable {usenet after : Usenet α} {event : Usenet.Event α} {connit : ConnectionHandle} {connection : Connection α}
  {outcome : Outcome}

/-- A connection is still connected when the pool closes it for an error. -/
theorem recovered_connected (owned : Owned [] usenet) (opening : Opening usenet)
    (recovers : recovered usenet event = some (connit, connection, outcome)) :
    connection.state = .connectedAndAuthenticated := by
  obtain ⟨present, ⟨_, _, msg, -, found⟩ | ⟨_, _, _, msgid, _, -, -, found⟩⟩ := recovered_cases recovers
  · have fits := owned.handlers _ _ (List.mem_of_getElem? found) rfl connection present
    exact fits.state
  · exact ((opening.requeued connit msgid).pop found).1 rfl connection present

theorem recovered_reconnects (owned : Owned [] usenet) (opening : Opening usenet)
    (recovers : recovered usenet event = some (connit, connection, outcome)) (taken : usenet.step event = some after) :
    after.connections connit = some (connection.close outcome) ∧ (connit, .stage .doConnect) ∈ after.pending := by
  have connected := recovered_connected owned opening recovers
  have disconnected : (connection.close outcome).state = .disconnected := by
    rw [close, if_neg (by simp [connected])]
  have performed (usenet : Usenet α) :
      (usenet.perform connit (connection.close outcome).asyncConnect).connections connit = some (connection.close outcome) ∧
        (connit, .stage .doConnect) ∈ (usenet.perform connit (connection.close outcome).asyncConnect).pending := by
    simp [Usenet.perform, asyncConnect, disconnected, Call.handler?]
  obtain ⟨present, ⟨_, _, msg, rfl, found⟩ | ⟨_, _, _, msgid, _, rfl, rfl, found⟩⟩ := recovered_cases recovers
  · obtain ⟨_, _, -, known, rfl⟩ := step_take taken
    cases found.symm.trans known
    simp only [Usenet.deliver, present]
    exact performed _
  · obtain ⟨_, _, _, _, known, proceeded, rfl⟩ := step_proceed taken
    cases found.symm.trans known
    obtain ⟨_, requeued, rfl⟩ := Option.map_eq_some_iff.mp proceeded
    obtain ⟨_, alive, rfl⟩ := requeueStat_cases requeued
    cases present.symm.trans alive
    exact performed _

end Recovered

theorem follow_fresh {recovery : Recovery α} (sound : Sound recovery) {event : Usenet.Event α}
    (severed : Severed recovery (.pool event)) (drained : Drained recovery (.pool event))
    {replies : ConnectionHandle → Replies α} (taken : recovery.follow event = some replies) (connit : ConnectionHandle) :
    Fresh (replies connit) := by
  rw [follow] at taken
  split at taken
  next closing connection outcome recovers =>
    cases taken
    have connected := recovered_connected sound.owned sound.opening recovers
    have restarted := close_restarted connected (severed closing connection outcome recovers)
    exact update_fresh sound.fresh
      (recover_fresh (sound.fresh closing) restarted (drained closing connection outcome recovers)) connit
  next serving connection stage outcome recovers serves =>
    obtain ⟨changed, served, rfl⟩ := Option.map_eq_some_iff.mp taken
    obtain ⟨member, present⟩ := served_cases serves
    refine update_fresh sound.fresh (serve_fresh (sound.fresh serving) ?_ served) connit
    rintro rfl
    exact sound.opening.closed serving .resolved member rfl connection present
  · cases taken
    exact sound.fresh connit

theorem step_sound {recovery after : Recovery α} {event : Event α} (sound : Sound recovery)
    (severed : Severed recovery event) (drained : Drained recovery event)
    (taken : recovery.step event = some after) : Sound after := by
  cases event with
  | pool event =>
    obtain ⟨usenet, stepped, taken⟩ := Option.bind_eq_some_iff.mp taken
    obtain ⟨replies, followed, rfl⟩ := Option.map_eq_some_iff.mp taken
    exact ⟨step_owned sound.owned stepped, step_opening sound.owned sound.opening severed stepped,
      follow_fresh sound severed drained followed⟩
  | arrive connit bytes =>
    obtain ⟨old, closed, reopened, misread⟩ := sound.fresh connit
    simp only [step] at taken
    split at taken
    · split at taken
      · cases taken
        exact ⟨sound.owned, sound.opening, update_fresh sound.fresh ⟨old, closed, reopened, misread⟩⟩
      · cases taken
    · cases taken
  | pull connit count =>
    obtain ⟨old, closed, reopened, misread⟩ := sound.fresh connit
    simp only [step] at taken
    split at taken
    · split at taken
      · cases taken
        exact ⟨sound.owned, sound.opening, update_fresh sound.fresh ⟨old, closed, reopened, misread⟩⟩
      · cases taken
    · cases taken

theorem sound_clean {recovery : Recovery α} (sound : Sound recovery) : Clean recovery :=
  ⟨fun connit => (sound.fresh connit).closed, fun connit => (sound.fresh connit).reopened,
    fun connit => (sound.fresh connit).misread⟩

theorem sound_make (eraseRule : EraseRule) (iothreads maxQueueSize : Nat) (articles : α → Article) :
    Sound (Recovery.make eraseRule iothreads maxQueueSize articles) := by
  refine ⟨owned_make .., ⟨?_, ?_⟩, fun connit => ⟨rfl, ?_, rfl, rfl⟩⟩
  · intro connit stage member
    cases member
  · intro connit msgid thread member
    cases member
  · intro connection member
    cases member

/-- A socket that `shutdown` gives back is still open after `close`. -/
theorem close_throws {connection : Connection α} {outcome : Outcome} (stillOpen : connection.sockOpen = true)
    (throws : outcome.shutdownThrows = true) : (connection.close outcome).sockOpen = true := by
  rw [close]
  split
  · exact stillOpen
  · simp [stillOpen, throws]

theorem clean_severed {recovery after : Recovery α} {event : Event α} (taken : recovery.step event = some after)
    (clean : Clean after) : Severed recovery event := by
  cases event with
  | pool event =>
    intro connit connection outcome recovers stillOpen
    by_contra throws
    obtain ⟨usenet, stepped, taken⟩ := Option.bind_eq_some_iff.mp taken
    obtain ⟨replies, followed, rfl⟩ := Option.map_eq_some_iff.mp taken
    simp only [follow, recovers] at followed
    cases followed
    have restarted := clean.closed connit (connection.close outcome) (by simp [Replies.recover])
    have left := close_throws stillOpen (by simpa using throws)
    cases left.symm.trans restarted.sockOpen
  | _ => trivial

theorem sound_reconnects {recovery : Recovery α} (event : Event α) (sound : Sound recovery) : Reconnects recovery event := by
  cases event with
  | pool event =>
    intro connit connection outcome after recovers taken
    exact recovered_reconnects sound.owned sound.opening recovers taken
  | _ => trivial

/-- A run whose connections all let go of the session that failed recovers clean, and connects
each of them again; and every run that recovers clean has let go of the sockets. -/
theorem recovers_clean (eraseRule : EraseRule) (iothreads maxQueueSize : Nat) (articles : α → Article)
    (events : List (Event α)) :
    (Machine.Meets step (fun recovery event => Severed recovery event ∧ Drained recovery event)
      (Recovery.make eraseRule iothreads maxQueueSize articles) events →
        Machine.Holds step Clean (Recovery.make eraseRule iothreads maxQueueSize articles) events ∧
          Machine.Meets step Reconnects (Recovery.make eraseRule iothreads maxQueueSize articles) events) ∧
    (Machine.Holds step Clean (Recovery.make eraseRule iothreads maxQueueSize articles) events →
      Machine.Meets step Severed (Recovery.make eraseRule iothreads maxQueueSize articles) events) := by
  constructor
  · intro guarded
    have kept (before : Recovery α) (event : Event α) (after : Recovery α) (sound : Sound before)
        (guarded : Severed before event ∧ Drained before event) (taken : before.step event = some after) : Sound after :=
      step_sound sound guarded.1 guarded.2 taken
    have sound := Machine.holds_of_meets Sound Sound (sound_make ..) (fun _ sound => sound) kept guarded
    exact ⟨Machine.holds_of_meets Sound Clean (sound_make ..) (fun _ => sound_clean) kept guarded,
      Machine.meets_of_holds (fun _ event => sound_reconnects event) sound⟩
  · exact Machine.meets_of_next (fun before event after taken clean => clean_severed taken clean)

/-- Both conditions, to be computed. -/
def letsGo (recovery : Recovery α) : Event α → Bool
  | .pool event =>
    match recovered recovery.usenet event with
    | some (connit, connection, outcome) =>
      (!connection.sockOpen || !outcome.shutdownThrows) &&
        (!connection.conninfo.tls || (recovery.replies connit).held.isEmpty)
    | none => true
  | _ => true

theorem letsGo_sound (recovery : Recovery α) (event : Event α) (passed : letsGo recovery event = true) :
    Severed recovery event ∧ Drained recovery event := by
  cases event with
  | pool event =>
    rw [letsGo] at passed
    constructor
    · intro connit connection outcome recovers stillOpen
      simp only [recovers, Bool.and_eq_true, Bool.or_eq_true, Bool.not_eq_true'] at passed
      simpa [stillOpen] using passed.1
    · intro connit connection outcome recovers encrypted
      simp only [recovers, Bool.and_eq_true, Bool.or_eq_true, Bool.not_eq_true'] at passed
      simpa [encrypted] using passed.2
  | _ => exact ⟨trivial, trivial⟩

def samplePool : Recovery Nat := .make .named 1 5 sampleArticles

def pools (events : List (Usenet.Event Nat)) : List (Event Nat) := events.map .pool

/-- A line arrives and is read. -/
def replies (line : String) : List (Event Nat) := [.arrive 0 (ascii line), .pool (.take 1 0 (answer line))]

/-- The address is resolved, and the socket connected; with TLS there is a handshake. -/
def reaches (tls : Bool) : List (Usenet.Event Nat) :=
  takes 1 [(0, ""), (0, ""), (0, "")] ++ if tls then takes 1 [(0, "")] else []

/-- One connection logs in, and has a post to write. -/
def logsIn (tls : Bool) : List (Event Nat) :=
  pools ([.spawn, .addConnections { sampleConninfo with tls } 1, .start] ++ reaches tls) ++ replies "200 ready\r\n" ++
    pools (takes 1 [(0, "")]) ++ replies "281 welcome\r\n" ++
    pools (takes 1 [(0, "")] ++ [.proceed 1 goOn] ++ posts 7 ++ takes 1 [(0, "")])

/-- The post cannot be written. The connection is closed, and connected again. -/
def breaks (tls shutdownThrows : Bool) : List (Event Nat) :=
  pools ([.take 1 0 ⟨true, [], false⟩, .take 1 0 ⟨false, [], shutdownThrows⟩, .proceed 1 goOn] ++ reaches tls)

/-- What the first session left unread goes with its socket. -/
def mendingRun : List (Event Nat) :=
  logsIn true ++ [.arrive 0 (ascii "400 idle\r\n")] ++ breaks true false ++ replies "200 ready\r\n"

theorem mending_recovers : ∃ recovery, Machine.run step samplePool mendingRun = some recovery ∧
    (recovery.replies 0).closed.length = 1 ∧ Clean recovery := by
  have computed : (Machine.run step samplePool mendingRun).map (fun recovery => (recovery.replies 0).closed.length) =
      some 1 := by decide +kernel
  obtain ⟨recovery, reached, closed⟩ := Option.map_eq_some_iff.mp computed
  have meets : Machine.Meets step (fun recovery event => Severed recovery event ∧ Drained recovery event) samplePool
      mendingRun := Machine.meets_of_passes letsGo_sound (by decide +kernel)
  exact ⟨recovery, reached, closed,
    Machine.holds_last ((recovers_clean .named 1 5 sampleArticles mendingRun).1 meets).1 reached⟩

/-- The peer is gone, so `shutdown` throws, and the old socket is connected once more. -/
def throwingRun : List (Event Nat) := logsIn false ++ breaks false true

/-- The socket is closed, and the TLS stream has kept a reply, which answers the next greeting. -/
def rememberingRun : List (Event Nat) :=
  logsIn true ++ [.arrive 0 (ascii "400 idle\r\n"), .pull 0 10] ++ breaks true false ++
    pools (takes 1 [(0, "400 idle\r\n")])

theorem recovery_unclean : ¬ Machine.Holds step Clean samplePool throwingRun ∧
    ¬ Machine.Holds step Clean samplePool rememberingRun := by
  constructor
  · intro holds
    have computed : (Machine.run step samplePool throwingRun).map (fun recovery =>
        (recovery.replies 0).closed.map (fun connection => connection.sockOpen)) = some [true] := by decide +kernel
    obtain ⟨recovery, reached, seen⟩ := Option.map_eq_some_iff.mp computed
    have clean := Machine.holds_last holds reached
    have left : true ∈ (recovery.replies 0).closed.map (fun connection => connection.sockOpen) := by simp [seen]
    obtain ⟨connection, member, stillOpen⟩ := List.mem_map.mp left
    cases stillOpen.symm.trans (clean.closed 0 connection member).sockOpen
  · intro holds
    have computed : (Machine.run step samplePool rememberingRun).map (fun recovery => (recovery.replies 0).misread) =
        some true := by decide +kernel
    obtain ⟨recovery, reached, seen⟩ := Option.map_eq_some_iff.mp computed
    cases seen.symm.trans ((Machine.holds_last holds reached).unread 0)

end Post2Usenet.Proofs.Recoveries
