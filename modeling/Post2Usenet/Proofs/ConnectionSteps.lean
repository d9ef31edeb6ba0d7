import Post2Usenet.Connection

/-! Every function of a connection hands over to exactly one other: a connection
that is busy has one thing pending, and the two always fit each other. -/

namespace Post2Usenet.Proofs.ConnectionSteps
open Connection

variable {α : Type}

/-- The state a function finds its connection in. -/
def entry : Stage → State
  | .doConnect => .disconnected
  | .resolved | .connected | .handshaken | .greeted => .connecting
  | .usernameWritten | .usernameAnswered | .passwordWritten | .passwordAnswered => .connecting
  | .doPost | .doStat => .connectedAndAuthenticated
  | .postWritten | .postAnswered | .articleWritten | .articleAnswered | .statWritten | .statAnswered => .busy
  | .quitWritten => .busy

def posting : Stage → Bool
  | .doPost | .postWritten | .postAnswered | .articleWritten | .articleAnswered => true
  | _ => false

/-- Ready for a command. -/
structure Idle (connection : Connection α) : Prop where
  state : connection.state = .connectedAndAuthenticated
  article : connection.article = none

/-- Whether a handler keeps its connection busy. -/
def owns : Handler α → Bool
  | .timer | .stage .quitWritten => false
  | _ => true

def Fits (connection : Connection α) : Handler α → Prop
  | .stage stage => connection.state = entry stage ∧ connection.article.isSome = posting stage
  | .timer => True
  | .connectHandler .connectSuccess | .postHandler _ _ | .statHandler _ _ => Idle connection
  | .connectHandler _ => connection.article = none

/-- The article bound to a handler. -/
def articles : Handler α → List α
  | .postHandler article _ => [article]
  | _ => []

/-- One handler is left behind, it fits, and the article is with it or with the connection. -/
def HandsOver (held : List α) (act : Act α) : Prop :=
  ∃ handler, act.2.filterMap Call.handler? = [handler] ∧ owns handler = true ∧ Fits act.1 handler ∧
    act.1.article.toList ++ articles handler = held

abbrev Continues (connection : Connection α) (act : Act α) : Prop := HandsOver connection.article.toList act

theorem handlers_timeout (connection : Connection α) (calls : List (Call α)) :
    (connection.timeoutNextAsyncOperation ++ calls).filterMap Call.handler? = calls.filterMap Call.handler? := by
  rw [timeoutNextAsyncOperation]
  split <;> rfl

theorem write_continues {connection before : Connection α} {buffers : Bytes} {stage : Stage}
    (fits : Fits connection (.stage stage)) (staying : owns (.stage stage : Handler α) = true)
    (same : connection.article = before.article) : Continues before (connection.write buffers stage) :=
  ⟨.stage stage, handlers_timeout .., staying, fits, by simp [write, articles, same]⟩

theorem readLine_continues {connection before : Connection α} {stage : Stage}
    (fits : Fits connection (.stage stage)) (staying : owns (.stage stage : Handler α) = true)
    (same : connection.article = before.article) : Continues before (connection.readLine stage) :=
  ⟨.stage stage, handlers_timeout .., staying, fits, by simp [readLine, articles, same]⟩

theorem connectHandlerCallback_continues {connection before : Connection α} {result : ConnectResult}
    (empty : connection.article = none) (same : connection.article = before.article)
    (success : result = .connectSuccess → connection.state = .connectedAndAuthenticated) :
    Continues before (connection.connectHandlerCallback result) := by
  refine ⟨.connectHandler result, rfl, rfl, ?_, by simp [connectHandlerCallback, articles, same]⟩
  cases result with
  | fatalConnectError => exact empty
  | invalidCredentials => exact empty
  | connectSuccess => exact ⟨success rfl, empty⟩

theorem postHandlerCallback_continues {connection before : Connection α} (result : PostResult)
    (held : connection.article.isSome = true) (same : connection.article = before.article) :
    Continues before (connection.postHandlerCallback result) := by
  obtain ⟨article, found⟩ := Option.isSome_iff_exists.mp held
  refine ⟨.postHandler article result, ?_, rfl, ⟨rfl, rfl⟩, ?_⟩
  · simp [postHandlerCallback, found, Call.handler?]
  · simp [postHandlerCallback, articles, ← same, found]

theorem statHandlerCallback_continues {connection before : Connection α} (result : StatResult)
    (empty : connection.article = none) (same : connection.article = before.article) :
    Continues before (connection.statHandlerCallback result) :=
  ⟨.statHandler connection.msgid result, rfl, rfl, ⟨rfl, empty⟩, by simp [statHandlerCallback, articles, same]⟩

theorem preceded_continues {connection : Connection α} {act : Act α} (continues : Continues connection act) :
    Continues connection (preceded [.cancelTimer] act) :=
  continues

theorem onWritten_continues {connection : Connection α} {outcome : Outcome} {good bad : Connection α → Act α}
    (goodContinues : Continues connection (good connection)) (badContinues : Continues connection (bad connection)) :
    Continues connection (connection.onWritten outcome good bad) := by
  rw [onWritten]
  apply preceded_continues
  split
  · exact badContinues
  · exact goodContinues

theorem receiveLine_readbuf (connection : Connection α) (outcome : Outcome) :
    ∃ readbuf, (connection.receiveLine outcome).2 = { connection with readbuf } := by
  rw [receiveLine]
  split
  · exact ⟨_, rfl⟩
  · dsimp only
    split
    · exact ⟨_, rfl⟩
    · split
      · exact ⟨_, rfl⟩
      · exact ⟨_, rfl⟩

theorem onLine_continues {connection : Connection α} {outcome : Outcome} {good : Bytes → Connection α → Act α}
    {bad : Connection α → Act α}
    (goodContinues : ∀ line readbuf, Continues connection (good line { connection with readbuf }))
    (badContinues : ∀ readbuf, Continues connection (bad { connection with readbuf })) :
    Continues connection (connection.onLine outcome good bad) := by
  obtain ⟨readbuf, rest⟩ := receiveLine_readbuf connection outcome
  rw [onLine]
  split
  next line after found =>
    rw [found] at rest
    cases rest
    exact goodContinues line readbuf
  next after found =>
    rw [found] at rest
    cases rest
    exact badContinues readbuf

private theorem checkAuthinfoResult_continues {connection before : Connection α} (line : Bytes)
    (empty : connection.article = none) (same : connection.article = before.article) :
    Continues before (connection.checkAuthinfoResult line) := by
  rw [checkAuthinfoResult]
  split
  · exact connectHandlerCallback_continues empty same (fun _ => rfl)
  · exact connectHandlerCallback_continues empty same nofun

private theorem fails_continues {connection : Connection α} (empty : connection.article = none) :
    Continues connection (connection.connectHandlerCallback .fatalConnectError) :=
  connectHandlerCallback_continues empty rfl nofun

theorem run_continues (heap : α → Article) {stage : Stage} (outcome : Outcome) {connection : Connection α}
    (fits : Fits connection (.stage stage)) (staying : owns (.stage stage : Handler α) = true) :
    Continues connection (connection.run heap stage outcome) := by
  obtain ⟨state, article⟩ := fits
  have empty (idle : posting stage = false) : connection.article = none := by simpa [idle] using article
  cases stage with
  | doConnect =>
    exact ⟨.stage .resolved, rfl, rfl, ⟨rfl, article⟩, by simp [run, doConnect, articles]⟩
  | resolved =>
    simp only [run]
    split
    · exact fails_continues (empty rfl)
    · exact ⟨.stage .connected, handlers_timeout .., rfl, ⟨state, article⟩, by simp [articles]⟩
  | connected =>
    simp only [run]
    split
    · exact fails_continues (empty rfl)
    · split
      · exact preceded_continues ⟨.stage .handshaken, handlers_timeout .., rfl, ⟨state, article⟩, by simp [articles]⟩
      · exact preceded_continues (readLine_continues ⟨state, article⟩ rfl rfl)
  | handshaken =>
    simp only [run]
    split
    · exact fails_continues (empty rfl)
    · exact preceded_continues (readLine_continues ⟨state, article⟩ rfl rfl)
  | greeted =>
    apply onLine_continues
    · intro line readbuf
      split
      · exact fails_continues (empty rfl)
      · exact write_continues ⟨state, article⟩ rfl rfl
    · exact fun readbuf => fails_continues (empty rfl)
  | usernameWritten =>
    apply onWritten_continues
    · exact readLine_continues ⟨state, article⟩ rfl rfl
    · exact fails_continues (empty rfl)
  | usernameAnswered =>
    apply onLine_continues
    · intro line readbuf
      split
      · exact write_continues ⟨state, article⟩ rfl rfl
      · exact checkAuthinfoResult_continues line (empty rfl) rfl
    · exact fun readbuf => fails_continues (empty rfl)
  | passwordWritten =>
    apply onWritten_continues
    · exact readLine_continues ⟨state, article⟩ rfl rfl
    · exact fails_continues (empty rfl)
  | passwordAnswered =>
    apply onLine_continues
    · exact fun line readbuf => checkAuthinfoResult_continues line (empty rfl) rfl
    · exact fun readbuf => fails_continues (empty rfl)
  | doPost => exact write_continues ⟨rfl, article⟩ rfl rfl
  | postWritten =>
    apply onWritten_continues
    · exact readLine_continues ⟨state, article⟩ rfl rfl
    · exact postHandlerCallback_continues _ article rfl
  | postAnswered =>
    apply onLine_continues
    · intro line readbuf
      split
      · exact postHandlerCallback_continues _ article rfl
      · obtain ⟨message, held⟩ := Option.isSome_iff_exists.mp article
        simp only [held]
        exact write_continues ⟨state, by simp [posting]⟩ rfl held.symm
    · exact fun readbuf => postHandlerCallback_continues _ article rfl
  | articleWritten =>
    apply onWritten_continues
    · exact readLine_continues ⟨state, article⟩ rfl rfl
    · exact postHandlerCallback_continues _ article rfl
  | articleAnswered =>
    apply onLine_continues
    · intro line readbuf
      split
      · exact postHandlerCallback_continues _ article rfl
      · exact postHandlerCallback_continues _ article rfl
    · exact fun readbuf => postHandlerCallback_continues _ article rfl
  | doStat => exact write_continues ⟨rfl, article⟩ rfl rfl
  | statWritten =>
    apply onWritten_continues
    · exact readLine_continues ⟨state, article⟩ rfl rfl
    · exact statHandlerCallback_continues _ (empty rfl) rfl
  | statAnswered =>
    apply onLine_continues
    · intro line readbuf
      split
      · exact statHandlerCallback_continues _ (empty rfl) rfl
      · exact statHandlerCallback_continues _ (empty rfl) rfl
    · exact fun readbuf => statHandlerCallback_continues _ (empty rfl) rfl
  | quitWritten => cases staying

/-- What a function of a connection can leave to be run next. -/
def follows : Stage → Handler α → Bool
  | .doConnect, .stage .resolved => true
  | .resolved, .stage .connected | .resolved, .connectHandler .fatalConnectError => true
  | .connected, .stage .handshaken | .connected, .stage .greeted => true
  | .connected, .connectHandler .fatalConnectError => true
  | .handshaken, .stage .greeted | .handshaken, .connectHandler .fatalConnectError => true
  | .greeted, .stage .usernameWritten | .greeted, .connectHandler .fatalConnectError => true
  | .usernameWritten, .stage .usernameAnswered | .usernameWritten, .connectHandler .fatalConnectError => true
  | .usernameAnswered, .stage .passwordWritten | .usernameAnswered, .connectHandler _ => true
  | .passwordWritten, .stage .passwordAnswered | .passwordWritten, .connectHandler .fatalConnectError => true
  | .passwordAnswered, .connectHandler _ => true
  | .doPost, .stage .postWritten => true
  | .postWritten, .stage .postAnswered | .postWritten, .postHandler _ .postFailureConnectionError => true
  | .postAnswered, .stage .articleWritten | .postAnswered, .postHandler _ .postingNotPermitted => true
  | .postAnswered, .postHandler _ .postFailureConnectionError => true
  | .articleWritten, .stage .articleAnswered | .articleWritten, .postHandler _ .postFailureConnectionError => true
  | .articleAnswered, .postHandler _ .postSuccess | .articleAnswered, .postHandler _ .postFailure => true
  | .articleAnswered, .postHandler _ .postFailureConnectionError => true
  | .doStat, .stage .statWritten => true
  | .statWritten, .stage .statAnswered | .statWritten, .statHandler _ .connectionError => true
  | .statAnswered, .statHandler _ _ => true
  | _, _ => false

/-- All that is left to be run is of one kind. -/
def Pends (kind : Handler α → Bool) (act : Act α) : Prop :=
  ∀ handler ∈ act.2.filterMap Call.handler?, kind handler = true

section Pends

variable {kind : Handler α → Bool}

theorem pends_one {act : Act α} {handler : Handler α} (one : act.2.filterMap Call.handler? = [handler])
    (fits : kind handler = true) : Pends kind act := by
  intro other member
  rw [one, List.mem_singleton] at member
  rw [member]
  exact fits

theorem onLine_pends {connection : Connection α} {outcome : Outcome} {good : Bytes → Connection α → Act α}
    {bad : Connection α → Act α} (goodPends : ∀ line connection, Pends kind (good line connection))
    (badPends : ∀ connection, Pends kind (bad connection)) : Pends kind (connection.onLine outcome good bad) := by
  rw [onLine]
  split
  · exact goodPends _ _
  · exact badPends _

theorem onWritten_pends {connection : Connection α} {outcome : Outcome} {good bad : Connection α → Act α}
    (goodPends : Pends kind (good connection)) (badPends : Pends kind (bad connection)) :
    Pends kind (connection.onWritten outcome good bad) := by
  rw [onWritten]
  split
  · exact badPends
  · exact goodPends

theorem write_pends (connection : Connection α) (buffers : Bytes) {stage : Stage} (fits : kind (.stage stage) = true) :
    Pends kind (connection.write buffers stage) :=
  pends_one (handlers_timeout ..) fits

theorem readLine_pends (connection : Connection α) {stage : Stage} (fits : kind (.stage stage) = true) :
    Pends kind (connection.readLine stage) :=
  pends_one (handlers_timeout ..) fits

theorem connectHandlerCallback_pends (connection : Connection α) {result : ConnectResult}
    (fits : kind (.connectHandler result) = true) : Pends kind (connection.connectHandlerCallback result) :=
  pends_one rfl fits

theorem postHandlerCallback_pends (connection : Connection α) {result : PostResult}
    (fits : ∀ msg, kind (.postHandler msg result) = true) : Pends kind (connection.postHandlerCallback result) := by
  intro handler member
  simp only [postHandlerCallback, List.mem_filterMap, List.mem_map, Option.mem_toList] at member
  obtain ⟨_, ⟨msg, -, rfl⟩, same⟩ := member
  cases same
  exact fits msg

theorem statHandlerCallback_pends (connection : Connection α) {result : StatResult}
    (fits : ∀ msgid, kind (.statHandler msgid result) = true) : Pends kind (connection.statHandlerCallback result) :=
  pends_one rfl (fits connection.msgid)

theorem asyncConnect_pends (connection : Connection α) (fits : kind (.stage .doConnect) = true) :
    Pends kind connection.asyncConnect := by
  simp only [asyncConnect]
  split
  · exact pends_one rfl fits
  · exact nofun

end Pends

/-- The order in which the functions of a connection can run. -/
theorem run_follows (heap : α → Article) (stage : Stage) (outcome : Outcome) (connection : Connection α) :
    Pends (follows stage) (connection.run heap stage outcome) := by
  have checked (line : Bytes) (connection : Connection α) {stage : Stage}
      (fits : ∀ result, follows stage (.connectHandler result : Handler α) = true) :
      Pends (follows stage) (connection.checkAuthinfoResult line) := by
    rw [checkAuthinfoResult]
    split <;> exact connectHandlerCallback_pends _ (fits _)
  cases stage with
  | doConnect => exact pends_one rfl rfl
  | resolved =>
    simp only [run]
    split
    · exact connectHandlerCallback_pends _ rfl
    · exact pends_one (handlers_timeout ..) rfl
  | connected =>
    simp only [run]
    split
    · exact connectHandlerCallback_pends _ rfl
    · split
      · exact pends_one (handlers_timeout ..) rfl
      · exact readLine_pends connection rfl
  | handshaken =>
    simp only [run]
    split
    · exact connectHandlerCallback_pends _ rfl
    · exact readLine_pends connection rfl
  | greeted =>
    apply onLine_pends
    · intro line connection
      split
      · exact connectHandlerCallback_pends _ rfl
      · exact write_pends connection _ rfl
    · exact fun connection => connectHandlerCallback_pends _ rfl
  | usernameWritten =>
    apply onWritten_pends
    · exact readLine_pends connection rfl
    · exact connectHandlerCallback_pends _ rfl
  | usernameAnswered =>
    apply onLine_pends
    · intro line connection
      split
      · exact write_pends connection _ rfl
      · exact checked line connection (fun _ => rfl)
    · exact fun connection => connectHandlerCallback_pends _ rfl
  | passwordWritten =>
    apply onWritten_pends
    · exact readLine_pends connection rfl
    · exact connectHandlerCallback_pends _ rfl
  | passwordAnswered =>
    apply onLine_pends
    · exact fun line connection => checked line connection (fun _ => rfl)
    · exact fun connection => connectHandlerCallback_pends _ rfl
  | doPost => exact write_pends _ _ rfl
  | postWritten =>
    apply onWritten_pends
    · exact readLine_pends connection rfl
    · exact postHandlerCallback_pends connection (fun _ => rfl)
  | postAnswered =>
    apply onLine_pends
    · intro line connection
      split
      · exact postHandlerCallback_pends connection (fun _ => rfl)
      · split
        · exact write_pends _ _ rfl
        · exact nofun
    · exact fun connection => postHandlerCallback_pends connection (fun _ => rfl)
  | articleWritten =>
    apply onWritten_pends
    · exact readLine_pends connection rfl
    · exact postHandlerCallback_pends connection (fun _ => rfl)
  | articleAnswered =>
    apply onLine_pends
    · intro line connection
      split
      · exact postHandlerCallback_pends connection (fun _ => rfl)
      · exact postHandlerCallback_pends connection (fun _ => rfl)
    · exact fun connection => postHandlerCallback_pends connection (fun _ => rfl)
  | doStat => exact write_pends _ _ rfl
  | statWritten =>
    apply onWritten_pends
    · exact readLine_pends connection rfl
    · exact statHandlerCallback_pends connection (fun _ => rfl)
  | statAnswered =>
    apply onLine_pends
    · intro line connection
      split
      · exact statHandlerCallback_pends connection (fun _ => rfl)
      · exact statHandlerCallback_pends connection (fun _ => rfl)
    · exact fun connection => statHandlerCallback_pends connection (fun _ => rfl)
  | quitWritten => exact nofun

theorem onWritten_sockOpen {connection : Connection α} {outcome : Outcome} {good bad : Connection α → Act α}
    (goodOpen : (good connection).1.sockOpen = true) (badOpen : (bad connection).1.sockOpen = true) :
    (connection.onWritten outcome good bad).1.sockOpen = true := by
  rw [onWritten]
  split
  · exact badOpen
  · exact goodOpen

section Opened

variable {connection : Connection α} (opened : connection.sockOpen = true)

include opened

theorem onLine_sockOpen {outcome : Outcome} {good : Bytes → Connection α → Act α} {bad : Connection α → Act α}
    (goodOpen : ∀ line connection, connection.sockOpen = true → (good line connection).1.sockOpen = true)
    (badOpen : ∀ connection, connection.sockOpen = true → (bad connection).1.sockOpen = true) :
    (connection.onLine outcome good bad).1.sockOpen = true := by
  obtain ⟨readbuf, rest⟩ := receiveLine_readbuf connection outcome
  rw [onLine]
  split
  next line after found =>
    rw [found] at rest
    cases rest
    exact goodOpen line _ opened
  next after found =>
    rw [found] at rest
    cases rest
    exact badOpen _ opened

theorem checkAuthinfoResult_sockOpen (line : Bytes) : (connection.checkAuthinfoResult line).1.sockOpen = true := by
  rw [checkAuthinfoResult]
  split
  · exact opened
  · exact opened

/-- Only the handler of `QUIT` closes the socket. -/
theorem run_sockOpen (heap : α → Article) {stage : Stage} (goesOn : stage ≠ .quitWritten) (outcome : Outcome) :
    (connection.run heap stage outcome).1.sockOpen = true := by
  cases stage with
  | doConnect | doPost | doStat => exact opened
  | resolved =>
    rw [run]
    split
    · exact opened
    · rfl
  | connected =>
    rw [run]
    split
    · exact opened
    · split
      · exact opened
      · exact opened
  | handshaken =>
    rw [run]
    split
    · exact opened
    · exact opened
  | greeted =>
    apply onLine_sockOpen opened
    · intro line connection opened
      split
      · exact opened
      · exact opened
    · exact fun _ opened => opened
  | usernameAnswered =>
    apply onLine_sockOpen opened
    · intro line connection opened
      split
      · exact opened
      · exact checkAuthinfoResult_sockOpen opened line
    · exact fun _ opened => opened
  | passwordAnswered =>
    apply onLine_sockOpen opened
    · exact fun line _ opened => checkAuthinfoResult_sockOpen opened line
    · exact fun _ opened => opened
  | postAnswered =>
    apply onLine_sockOpen opened
    · intro line connection opened
      split
      · exact opened
      · split
        · exact opened
        · exact opened
    · exact fun _ opened => opened
  | articleAnswered | statAnswered =>
    apply onLine_sockOpen opened
    · intro line connection opened
      split
      · exact opened
      · exact opened
    · exact fun _ opened => opened
  | usernameWritten | passwordWritten | postWritten | articleWritten | statWritten =>
    exact onWritten_sockOpen opened opened
  | quitWritten => exact absurd rfl goesOn

end Opened

/-- A connection that is closed and opened again starts over. -/
theorem asyncConnect_close_continues {connection : Connection α} (outcome : Outcome)
    (empty : connection.article = none) : Continues connection (connection.close outcome).asyncConnect := by
  have closed : (connection.close outcome).state = .disconnected ∧ (connection.close outcome).article = none := by
    rw [close]
    split
    · exact ⟨by assumption, empty⟩
    · exact ⟨rfl, empty⟩
  refine ⟨.stage .doConnect, ?_, rfl, ⟨closed.1, by simp [closed.2, posting, asyncConnect]⟩, ?_⟩
  · simp [asyncConnect, closed.1, Call.handler?]
  · simp [asyncConnect, articles, closed.2, empty]

/-- An idle connection accepts a post, which it then holds. -/
theorem asyncPost_idle {connection : Connection α} (idle : Idle connection) (message : α) :
    (connection.asyncPost message).1 = true ∧ HandsOver [message] (connection.asyncPost message).2 := by
  simp only [asyncPost, idle.state, ne_eq, not_true, ite_false]
  exact ⟨trivial, .stage .doPost, rfl, rfl, ⟨rfl, rfl⟩, rfl⟩

theorem asyncStat_idle {connection : Connection α} (idle : Idle connection) (mid : Bytes) :
    (connection.asyncStat mid).1 = true ∧ HandsOver [] (connection.asyncStat mid).2 := by
  simp only [asyncStat, idle.state, ne_eq, not_true, ite_false]
  refine ⟨trivial, .stage .doStat, rfl, rfl, ⟨rfl, ?_⟩, by simp [idle.article, articles]⟩
  simp [idle.article, posting]

end Post2Usenet.Proofs.ConnectionSteps
