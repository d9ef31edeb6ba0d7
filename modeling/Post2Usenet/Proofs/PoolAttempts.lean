import Post2Usenet.Proofs.PoolRequests

/-! The writes behind the reports. When a connection reports that a post succeeded,
the last thing it wrote is the article of that post, as the article still is. -/

namespace Post2Usenet.Proofs.PoolAttempts
open Connection Usenet ConnectionSteps PoolSteps PoolOwnership PoolTrace PoolAccounting Tally

variable {α : Type} {usenet middle after : Usenet α} {connit : ConnectionHandle} {command : Command α}
  {hand : List ConnectionHandle} {last : Option (Bytes × Stage)} {heap : α → Article}

/-- What a connection wrote last, with the handler of the write. -/
def lastWritten (connit : ConnectionHandle) : List (Entry α) → Option (Bytes × Stage)
  | [] => none
  | .wrote other buffers handler :: earlier =>
    if other = connit then some (buffers, handler) else lastWritten connit earlier
  | _ :: earlier => lastWritten connit earlier

def writes (last : Option (Bytes × Stage)) : Call α → Option (Bytes × Stage)
  | .asyncWrite buffers handler => some (buffers, handler)
  | _ => last

def written (last : Option (Bytes × Stage)) (calls : List (Call α)) : Option (Bytes × Stage) := calls.foldl writes last

/-- A handler that has sent an article finds that it was written last. -/
def Attends (last : Option (Bytes × Stage)) (heap : α → Article) (article : Option α) : Handler α → Prop
  | .stage .articleWritten | .stage .articleAnswered => ∀ msg, article = some msg →
    last = some ((heap msg).wire, .articleWritten)
  | .postHandler msg .postSuccess => last = some ((heap msg).wire, .articleWritten)
  | _ => True

/-- The handlers that have nothing to attend to. -/
def plain : Handler α → Bool
  | .stage .articleWritten | .stage .articleAnswered | .postHandler _ .postSuccess => false
  | _ => true

theorem attends_plain {article : Option α} {handler : Handler α} (plainly : plain handler = true) :
    Attends last heap article handler := by
  cases handler with
  | stage stage => cases stage <;> trivial
  | postHandler msg result => cases result <;> trivial
  | _ => trivial

theorem plain_stale {handler : Handler α} (stale : owns handler = false) : plain handler = true := by
  cases handler with
  | stage stage => cases stage <;> first | rfl | cases stale
  | timer => rfl
  | _ => cases stale

/-- Whatever is left attends to what was written last. -/
def Sends (last : Option (Bytes × Stage)) (heap : α → Article) (act : Act α) : Prop :=
  ∀ handler ∈ act.2.filterMap Call.handler?, Attends (written last act.2) heap act.1.article handler

theorem sends_plain {act : Act α} (pends : Pends plain act) : Sends last heap act :=
  fun handler member => attends_plain (pends handler member)

theorem written_timeout (connection : Connection α) (calls : List (Call α)) :
    written last (connection.timeoutNextAsyncOperation ++ calls) = written last calls := by
  rw [timeoutNextAsyncOperation]
  split <;> rfl

theorem onWritten_sends {connection : Connection α} {outcome : Outcome} {good bad : Connection α → Act α}
    (goodSends : Sends last heap (good connection)) (badSends : Sends last heap (bad connection)) :
    Sends last heap (connection.onWritten outcome good bad) := by
  rw [onWritten]
  split
  · exact badSends
  · exact goodSends

theorem onLine_sends {connection : Connection α} {outcome : Outcome} {good : Bytes → Connection α → Act α}
    {bad : Connection α → Act α} (goodSends : ∀ line readbuf, Sends last heap (good line { connection with readbuf }))
    (badSends : ∀ readbuf, Sends last heap (bad { connection with readbuf })) :
    Sends last heap (connection.onLine outcome good bad) := by
  obtain ⟨readbuf, rest⟩ := receiveLine_readbuf connection outcome
  rw [onLine]
  split
  next line after found =>
    rw [found] at rest
    cases rest
    exact goodSends line readbuf
  next after found =>
    rw [found] at rest
    cases rest
    exact badSends readbuf

/-- The functions between sending an article and the report. -/
def sending : Stage → Bool
  | .postAnswered | .articleWritten | .articleAnswered => true
  | _ => false

theorem follows_plain {stage : Stage} {handler : Handler α} (before : sending stage = false)
    (follows : follows stage handler = true) : plain handler = true := by
  cases handler with
  | stage next =>
    cases next <;> first | rfl | (cases stage <;> first | (cases before; done) | cases follows)
  | postHandler msg result =>
    cases result <;> first | rfl | (cases stage <;> first | (cases before; done) | cases follows)
  | _ => rfl

private theorem report_sends {connection : Connection α} {result : PostResult}
    (attends : ∀ msg, connection.article = some msg → last = some ((heap msg).wire, .articleWritten)) :
    Sends last heap (connection.postHandlerCallback result) := by
  intro handler member
  cases held : connection.article with
  | none => simp [postHandlerCallback, held] at member
  | some msg =>
    simp only [postHandlerCallback, held, Option.toList_some, List.map_cons, List.map_nil, List.filterMap_cons,
      List.filterMap_nil, Call.handler?, List.mem_singleton] at member ⊢
    subst member
    cases result with
    | postSuccess => exact attends msg held
    | _ => trivial

theorem run_sends (stage : Stage) (outcome : Outcome) {connection : Connection α}
    (attends : Attends last heap connection.article (.stage stage)) :
    Sends last heap (connection.run heap stage outcome) := by
  cases stage with
  | postAnswered =>
    apply onLine_sends
    · intro line readbuf
      split
      · exact sends_plain (postHandlerCallback_pends _ (fun _ => rfl))
      · split
        next message held =>
          intro handler member
          simp only [sendArticle, write, handlers_timeout, List.filterMap_cons, List.filterMap_nil, Call.handler?,
            List.mem_singleton] at member
          subst member
          intro msg same
          cases held.symm.trans same
          exact written_timeout _ _
        · exact fun _ member => by cases member
    · exact fun readbuf => sends_plain (postHandlerCallback_pends _ (fun _ => rfl))
  | articleWritten =>
    apply onWritten_sends
    · intro handler member
      simp only [readLine, handlers_timeout, List.filterMap_cons, List.filterMap_nil, Call.handler?,
        List.mem_singleton] at member
      subst member
      exact fun msg held => (written_timeout _ _).trans (attends msg held)
    · exact sends_plain (postHandlerCallback_pends _ (fun _ => rfl))
  | articleAnswered =>
    apply onLine_sends
    · intro line readbuf
      split <;> exact report_sends attends
    · exact fun readbuf => report_sends attends
  | _ => exact sends_plain (fun handler member => follows_plain rfl (run_follows heap _ outcome connection handler member))

theorem write_writes {connection : Connection α} {buffers sent : Bytes} {handler stage : Stage}
    (member : .asyncWrite buffers handler ∈ (connection.write sent stage).2) : buffers = sent := by
  simp only [write, timeoutNextAsyncOperation, List.mem_append, List.mem_singleton] at member
  rcases member with timed | same
  · split at timed <;> simp at timed
  · exact (Call.asyncWrite.inj same).1

theorem writes_follow {stage handler : Stage} {outcome : Outcome} {connection : Connection α} {buffers : Bytes}
    (member : .asyncWrite buffers handler ∈ (connection.run heap stage outcome).2) :
    follows stage (.stage handler : Handler α) = true :=
  run_follows heap stage outcome connection _ (List.mem_filterMap.mpr ⟨_, member, rfl⟩)

/-- An article that is written is the one that its connection was given. -/
theorem article_written {stage : Stage} {outcome : Outcome} {connection : Connection α} {buffers : Bytes}
    (member : .asyncWrite buffers .articleWritten ∈ (connection.run heap stage outcome).2) :
    ∃ msg, connection.article = some msg ∧ buffers = (heap msg).wire := by
  have follow := writes_follow member
  cases stage with
  | postAnswered =>
    have posted (other : Connection α) (result : PostResult) :
        .asyncWrite buffers .articleWritten ∉ (other.postHandlerCallback result).2 := by simp [postHandlerCallback]
    obtain ⟨readbuf, rest⟩ := receiveLine_readbuf connection outcome
    simp only [Connection.run, onLine] at member
    split at member
    next line after found =>
      rw [found] at rest
      cases rest
      simp only [preceded, List.cons_append, List.nil_append, List.mem_cons, reduceCtorEq, false_or] at member
      split at member
      · exact absurd member (posted _ _)
      · split at member
        next msg held => exact ⟨msg, held, write_writes member⟩
        · cases member
    · exact absurd member (posted _ _)
  | _ => cases follow

theorem stat_written {stage : Stage} {outcome : Outcome} {connection : Connection α} {buffers : Bytes}
    (member : .asyncWrite buffers .statWritten ∈ (connection.run heap stage outcome).2) :
    stage = .doStat ∧ buffers = Protocol.stat ++ connection.msgid ++ crlf := by
  have follow := writes_follow member
  cases stage with
  | doStat => exact ⟨rfl, write_writes member⟩
  | _ => cases follow

theorem lastWritten_append {new earlier : List (Entry α)}
    (silent : ∀ entry ∈ new, ∀ buffers handler, entry ≠ .wrote connit buffers handler) :
    lastWritten connit (new ++ earlier) = lastWritten connit earlier := by
  induction new with
  | nil => rfl
  | cons entry new ih =>
    have rest := ih (fun other member => silent other (List.mem_cons_of_mem _ member))
    have first := silent entry (List.mem_cons_self ..)
    cases entry with
    | wrote other buffers handler =>
      rw [List.cons_append, lastWritten, if_neg, rest]
      rintro rfl
      exact first buffers handler rfl
    | _ => exact rest

theorem lastWritten_adds {kind : Entry α → Prop} (adds : Adds kind usenet after)
    (silent : ∀ buffers handler, ¬ kind (.wrote connit buffers handler)) :
    lastWritten connit after.trace = lastWritten connit usenet.trace := by
  obtain ⟨new, trace, kinds⟩ := adds
  rw [trace]
  apply lastWritten_append
  rintro entry member buffers handler rfl
  exact silent buffers handler (kinds _ member)

theorem lastWritten_perform (usenet : Usenet α) (connit : ConnectionHandle) (act : Act α) :
    lastWritten connit (usenet.perform connit act).trace = written (lastWritten connit usenet.trace) act.2 := by
  have same (calls : List (Call α)) (earlier : List (Entry α)) :
      lastWritten connit ((calls.filterMap (wrote? connit)).reverse ++ earlier) =
        written (lastWritten connit earlier) calls := by
    induction calls generalizing earlier with
    | nil => rfl
    | cons call calls ih =>
      cases call with
      | asyncWrite buffers handler =>
        have first := ih (.wrote connit buffers handler :: earlier)
        simpa [wrote?, written, writes, lastWritten] using first
      | _ => exact ih earlier
  exact same act.2 usenet.trace

theorem lastWritten_elsewhere (usenet : Usenet α) {other : ConnectionHandle} (different : other ≠ connit) (act : Act α) :
    lastWritten other (usenet.perform connit act).trace = lastWritten other usenet.trace := by
  apply lastWritten_adds (perform_adds usenet connit act)
  rintro buffers handler ⟨call, -, wrote⟩
  cases call with
  | asyncWrite sent next =>
    cases wrote
    exact different rfl
  | _ => cases wrote

/-- Whatever is pending attends to what its connection wrote last. -/
def Attended (usenet : Usenet α) : Prop := ∀ connit handler, (connit, handler) ∈ usenet.pending →
  Attends (lastWritten connit usenet.trace) usenet.articles ((usenet.connections connit).bind Connection.article) handler

/-- No handler is pending that keeps the connection busy. -/
def Free (connit : ConnectionHandle) (usenet : Usenet α) : Prop :=
  ∀ handler, (connit, handler) ∈ usenet.pending → owns handler = false

theorem free_of_none (none : owners usenet connit = 0) : Free connit usenet := by
  intro handler member
  by_contra owning
  exact handler_elsewhere none member (by simpa using owning) rfl

/-- Connections with something pending go on undisturbed. -/
structure Undisturbed (before after : Usenet α) : Prop where
  articles : after.articles = before.articles
  pending : ∃ new, after.pending = before.pending ++ new ∧ ∀ entry ∈ new, plain entry.2 = true
  connections : ∀ connit handler, (connit, handler) ∈ before.pending → owns handler = true →
    after.connections connit = before.connections connit ∧
      lastWritten connit after.trace = lastWritten connit before.trace

section Undisturbed

theorem Undisturbed.attended (undisturbed : Undisturbed usenet after) (attended : Attended usenet) : Attended after := by
  intro connit handler member
  obtain ⟨new, pending, plainly⟩ := undisturbed.pending
  rw [pending] at member
  rcases List.mem_append.mp member with earlier | fresh
  · by_cases owning : owns handler = true
    · obtain ⟨connection, write⟩ := undisturbed.connections connit handler earlier owning
      rw [connection, write, undisturbed.articles]
      exact attended connit handler earlier
    · exact attends_plain (plain_stale (by simpa using owning))
  · exact attends_plain (plainly _ fresh)

theorem Undisturbed.trans (first : Undisturbed usenet middle) (rest : Undisturbed middle after) :
    Undisturbed usenet after := by
  obtain ⟨earlier, middlePending, earlierPlain⟩ := first.pending
  obtain ⟨later, afterPending, laterPlain⟩ := rest.pending
  refine ⟨rest.articles.trans first.articles,
    ⟨earlier ++ later, by rw [afterPending, middlePending, List.append_assoc], ?_⟩, ?_⟩
  · exact fun entry member => (List.mem_append.mp member).elim (earlierPlain entry) (laterPlain entry)
  · intro connit handler member owning
    obtain ⟨connection, write⟩ := first.connections connit handler member owning
    obtain ⟨connection', write'⟩ :=
      rest.connections connit handler (middlePending ▸ List.mem_append_left _ member) owning
    exact ⟨connection'.trans connection, write'.trans write⟩

theorem undisturbed_frame (articles : after.articles = usenet.articles) (pending : after.pending = usenet.pending)
    (connections : after.connections = usenet.connections)
    (write : ∀ connit, lastWritten connit after.trace = lastWritten connit usenet.trace) : Undisturbed usenet after :=
  ⟨articles, ⟨[], by simp [pending], nofun⟩, fun connit _ _ _ => ⟨by rw [connections], write connit⟩⟩

theorem record_undisturbed (usenet : Usenet α) {entry : Entry α}
    (silent : ∀ connit buffers handler, entry ≠ .wrote connit buffers handler) :
    Undisturbed usenet (usenet.record entry) := by
  refine undisturbed_frame rfl rfl rfl (fun connit => ?_)
  apply @lastWritten_append _ connit [entry] usenet.trace
  intro other member buffers handler
  rw [List.mem_singleton.mp member]
  exact silent connit buffers handler

theorem perform_undisturbed (free : Free connit usenet) {act : Act α} (pends : Pends plain act) :
    Undisturbed usenet (usenet.perform connit act) := by
  refine ⟨rfl, ⟨_, rfl, ?_⟩, ?_⟩
  · intro entry member
    obtain ⟨handler, left, rfl⟩ := List.mem_map.mp member
    exact pends handler left
  · intro other handler member owning
    have different : other ≠ connit := by
      rintro rfl
      rw [free handler member] at owning
      cases owning
    exact ⟨Function.update_of_ne different .., lastWritten_elsewhere usenet different act⟩

theorem erase_undisturbed (free : Free connit usenet) (named : Side) : Undisturbed usenet (usenet.erase named connit) := by
  refine ⟨rfl, ⟨[], (List.append_nil _).symm, nofun⟩, ?_⟩
  intro other handler member owning
  have different : other ≠ connit := by
    rintro rfl
    rw [free handler member] at owning
    cases owning
  exact ⟨Function.update_of_ne different .., rfl⟩

theorem performAccepted_undisturbed (free : Free connit usenet) {result : Bool × Act α}
    (pends : result.1 = true → Pends plain result.2) : Undisturbed usenet (usenet.performAccepted connit result) := by
  rw [performAccepted]
  split
  next accepted => exact perform_undisturbed free (pends accepted)
  · exact record_undisturbed usenet (by simp)

theorem run_undisturbed (free : Free connit usenet) (taken : usenet.run connit command = some after) :
    Undisturbed usenet after := by
  cases command with
  | startAsyncPost msg =>
    obtain ⟨connection, -, rfl⟩ := Option.map_eq_some_iff.mp taken
    apply performAccepted_undisturbed free
    simp only [asyncPost]
    split
    · exact fun accepted => by cases accepted
    · exact fun _ => pends_one rfl rfl
  | startAsyncStat msgid =>
    obtain ⟨connection, -, rfl⟩ := Option.map_eq_some_iff.mp taken
    apply performAccepted_undisturbed free
    simp only [asyncStat]
    split
    · exact fun accepted => by cases accepted
    · exact fun _ => pends_one rfl rfl

theorem dispatch_undisturbed (owned : Owned hand usenet) (taken : usenet.dispatch command = some after) :
    Undisturbed usenet after := by
  obtain ⟨⟨connit, moved⟩, head, run⟩ := Option.bind_eq_some_iff.mp taken
  obtain ⟨movedOwned, -⟩ := takeReady_owned owned head
  obtain ⟨ready, -, same⟩ := takeReady_cases head
  have still : Undisturbed usenet moved := by
    rw [same]
    exact undisturbed_frame rfl rfl rfl (fun _ => rfl)
  exact still.trans (run_undisturbed (free_of_none (owned_in_hand movedOwned).2.2.2) run)

theorem gracefulDisconnect_undisturbed (free : Free connit usenet) {named : Side}
    (taken : usenet.gracefulDisconnect named connit = some after) : Undisturbed usenet after := by
  obtain ⟨connection, -, rfl⟩ := Option.map_eq_some_iff.mp taken
  have quits : Pends (fun handler => !owns handler) connection.asyncGracefulDisconnect.2 := by
    simp only [asyncGracefulDisconnect]
    split
    · exact fun _ member => by cases member
    · exact write_pends _ _ rfl
  have told : Undisturbed usenet (usenet.performAccepted connit connection.asyncGracefulDisconnect) :=
    performAccepted_undisturbed free (fun _ handler member => plain_stale (by simpa using quits handler member))
  have stillFree : Free connit (usenet.performAccepted connit connection.asyncGracefulDisconnect) := by
    rw [performAccepted]
    split
    · intro handler member
      simp only [perform, List.mem_append, List.mem_map, Prod.mk.injEq] at member
      rcases member with earlier | ⟨_, left, -, rfl⟩
      · exact free handler earlier
      · simpa using quits _ left
    · exact free
  exact (told.trans (erase_undisturbed stillFree named)).trans (record_undisturbed _ (by simp))

theorem shutdown_undisturbed (owned : Owned hand usenet) (member : connit ∈ usenet.ready)
    (taken : usenet.shutdown connit = some after) : Undisturbed usenet after := by
  refine (shutdown_owned_keeps ?_ owned member (undisturbed_frame rfl rfl rfl (fun _ => rfl)) taken).2.2
  intro before named connit after earlier inside undisturbed disconnected
  exact undisturbed.trans
    (gracefulDisconnect_undisturbed (free_of_none (ready_unowned earlier inside).2.1) disconnected)

theorem onConnBecomesReady_undisturbed (owned : Owned (connit :: hand) usenet)
    (idle : ∀ connection, usenet.connections connit = some connection → Idle connection) {wake : Option Nat}
    (taken : usenet.onConnBecomesReady connit wake = some after) : Undisturbed usenet after := by
  have free := free_of_none (owned_in_hand owned).2.2.2
  have becomes : Undisturbed usenet (usenet.becomeReady connit) := undisturbed_frame rfl rfl rfl (fun _ => rfl)
  rcases onConnBecomesReady_cases taken with ⟨_, queue, notified, -, woken, run⟩ | ⟨-, -, rfl⟩ | ⟨-, -, down⟩
  · have popped : Undisturbed usenet { notified with queue } := by
      rcases woken with rfl | ⟨_, _, _, _, _, rfl⟩ <;> exact undisturbed_frame rfl rfl rfl (fun _ => rfl)
    have stillFree : Free connit { notified with queue } := by
      rcases woken with rfl | ⟨_, _, _, _, _, rfl⟩ <;> exact free
    exact popped.trans (run_undisturbed stillFree run)
  · exact becomes
  · exact becomes.trans (shutdown_undisturbed (becomeReady_owned owned idle) (by simp [becomeReady]) down)

theorem proceed_undisturbed {choice : Choice α} {task : Task α} (owned : Owned ((connit? task).toList ++ hand) usenet)
    (fits : ∀ connit, connit? task = some connit →
      ∀ connection, usenet.connections connit = some connection → TaskFits connection task)
    {result : Usenet α × List (Task α)} (taken : usenet.proceed choice task = some result) :
    Undisturbed usenet result.1 := by
  cases proceed_executes taken with
  | @dispatches request after idle dispatched =>
    have passes : Undisturbed usenet (usenet.record (.passed request.command)) := record_undisturbed usenet (by simp)
    exact passes.trans (dispatch_undisturbed (record_owned owned _) dispatched)
  | waits => exact undisturbed_frame rfl rfl rfl (fun _ => rfl)
  | defers => exact (record_undisturbed usenet (by simp)).trans (undisturbed_frame rfl rfl rfl (fun _ => rfl))
  | resumes => exact (record_undisturbed usenet (by simp)).trans (undisturbed_frame rfl rfl rfl (fun _ => rfl))
  | sleeps => exact undisturbed_frame rfl rfl rfl (fun _ => rfl)
  | @becomesReady connit after became => exact onConnBecomesReady_undisturbed owned (fits connit rfl) became
  | discards =>
    have erased := erase_undisturbed (free_of_none (owned_in_hand owned).2.2.2) .busy
    exact erased.trans ((record_undisturbed _ (by simp)).trans (undisturbed_frame rfl rfl rfl (fun _ => rfl)))
  | redispatches idle dispatched => exact dispatch_undisturbed owned dispatched
  | requeues => exact undisturbed_frame rfl rfl rfl (fun _ => rfl)
  | @reconnects connit msgid connection present =>
    have pushed : Undisturbed usenet (usenet.pushBack (.startAsyncStat msgid)) :=
      undisturbed_frame rfl rfl rfl (fun _ => rfl)
    have free : Free connit (usenet.pushBack (.startAsyncStat msgid)) := free_of_none (owned_in_hand owned).2.2.2
    exact pushed.trans (perform_undisturbed free (asyncConnect_pends _ rfl))
  | observes slot => cases task <;> cases slot <;> exact record_undisturbed usenet (by simp)

theorem addConnection_undisturbed (owned : Owned hand usenet) (conninfo : ConnectionInfo) :
    Undisturbed usenet (usenet.addConnection conninfo) := by
  have listed : Undisturbed usenet { usenet with
      busy := usenet.busy ++ [usenet.nextHandle]
      busySize := usenet.busySize + 1
      nextHandle := usenet.nextHandle + 1 } := undisturbed_frame rfl rfl rfl (fun _ => rfl)
  refine listed.trans (perform_undisturbed ?_ (asyncConnect_pends _ rfl))
  intro handler member
  by_contra owning
  have busy := owner_of_handler owned member (by simpa using owning)
  exact Nat.lt_irrefl _ (owned.known _ (List.mem_append_right _ busy))

theorem addConnections_undisturbed (owned : Owned hand usenet) (conninfo : ConnectionInfo) (numConnections : Nat) :
    Undisturbed usenet (usenet.addConnections conninfo numConnections) := by
  have start : Owned hand usenet ∧ Undisturbed usenet usenet := ⟨owned, undisturbed_frame rfl rfl rfl (fun _ => rfl)⟩
  have keeps : ∀ before, Owned hand before ∧ Undisturbed usenet before →
      Owned hand (before.addConnection conninfo) ∧ Undisturbed usenet (before.addConnection conninfo) :=
    fun before earlier => ⟨addConnection_owned earlier.1 conninfo,
      earlier.2.trans (addConnection_undisturbed earlier.1 conninfo)⟩
  exact (addConnections_keeps keeps start numConnections).2

end Undisturbed

theorem perform_attended (attended : Attended usenet) (free : Free connit usenet) {act : Act α}
    (sends : Sends (lastWritten connit usenet.trace) usenet.articles act) : Attended (usenet.perform connit act) := by
  intro other handler member
  simp only [perform, List.mem_append, List.mem_map, Prod.mk.injEq] at member
  rcases member with earlier | ⟨fresh, left, rfl, rfl⟩
  · by_cases owning : owns handler = true
    · have different : other ≠ connit := by
        rintro rfl
        rw [free handler earlier] at owning
        cases owning
      have before := attended other handler earlier
      rw [lastWritten_elsewhere usenet different]
      simpa [perform, Function.update_of_ne different] using before
    · exact attends_plain (plain_stale (by simpa using owning))
  · rw [lastWritten_perform]
    simpa [perform] using sends fresh left

theorem deliver_attended (owned : Owned (connit :: hand) usenet) (attended : Attended usenet) {handler : Handler α}
    (attends : Attends (lastWritten connit usenet.trace) usenet.articles
      ((usenet.connections connit).bind Connection.article) handler) (outcome : Outcome) :
    Attended (usenet.deliver connit handler outcome).1 := by
  have free := free_of_none (owned_in_hand owned).2.2.2
  obtain ⟨connection, present⟩ := present_in_hand owned
  simp only [present, Option.bind_some] at attends
  have recorded {entry : Entry α} (silent : ∀ connit buffers handler, entry ≠ .wrote connit buffers handler) :=
    record_undisturbed usenet silent
  simp only [deliver, present]
  cases handler with
  | stage stage => exact perform_attended attended free (run_sends stage outcome attends)
  | timer => exact attended
  | connectHandler result => exact (recorded (by simp)).attended attended
  | statHandler msgid result => exact (recorded (by simp)).attended attended
  | postHandler msg result =>
    have reported : Undisturbed usenet (usenet.record (.posted connit msg result)) := recorded (by simp)
    have stillFree : Free connit (usenet.record (.posted connit msg result)) := free
    cases result with
    | postingNotPermitted =>
      exact (reported.trans (perform_undisturbed stillFree (by simp [Pends]))).attended attended
    | postFailureConnectionError =>
      exact (reported.trans (perform_undisturbed stillFree (asyncConnect_pends _ rfl))).attended attended
    | postFailure => exact reported.attended attended
    | postSuccess => exact reported.attended attended

/-- A step of the pool keeps what is pending in touch with what was written. -/
theorem step_attended {event : Event α} (owned : Owned [] usenet) (attended : Attended usenet)
    (same : ∀ articles, event = .rewrite articles → articles = usenet.articles) (taken : usenet.step event = some after) :
    Attended after := by
  cases event with
  | addConnections conninfo numConnections =>
    cases taken
    exact (addConnections_undisturbed owned conninfo numConnections).attended attended
  | call index request =>
    obtain ⟨-, rfl⟩ := step_call taken
    exact attended
  | take index place outcome =>
    obtain ⟨connit, handler, -, found, rfl⟩ := step_take taken
    have others : Attended { usenet with pending := usenet.pending.eraseIdx place } :=
      fun other handler member => attended other handler (List.mem_of_mem_eraseIdx member)
    rcases takePending_cases owned found outcome with ⟨-, taken, -⟩ | ⟨-, nothing⟩
    · exact deliver_attended taken others (attended connit handler (List.mem_of_getElem? found)) outcome
    · rw [nothing]
      exact others
  | expire connit =>
    obtain ⟨-, -, rfl⟩ := step_expire taken
    have added : Undisturbed usenet { usenet with
        armed := Function.update usenet.armed connit false
        pending := usenet.pending ++ [(connit, .timer)] } :=
      ⟨rfl, ⟨_, rfl, by simp [plain]⟩, fun _ _ _ _ => ⟨rfl, rfl⟩⟩
    exact added.attended attended
  | proceed index choice =>
    obtain ⟨io, task, tasks, result, found, proceeded, rfl⟩ := step_proceed taken
    have popped : Attended { usenet with threads := usenet.threads.set index ⟨io, tasks⟩ } := attended
    have goes := proceed_undisturbed (popTask_owned owned found) (popTask_fits owned found) proceeded
    exact goes.attended popped
  | rewrite articles =>
    cases taken
    rw [same articles rfl]
    exact attended
  | _ =>
    cases taken
    exact attended

theorem step_articles {event : Event α} (owned : Owned [] usenet) (taken : usenet.step event = some after)
    (same : ∀ articles, event = .rewrite articles → articles = usenet.articles) : after.articles = usenet.articles := by
  cases event with
  | addConnections conninfo numConnections =>
    cases taken
    exact (addConnections_undisturbed owned conninfo numConnections).articles
  | call index request =>
    obtain ⟨-, rfl⟩ := step_call taken
    rfl
  | take index place outcome =>
    obtain ⟨connit, handler, -, -, rfl⟩ := step_take taken
    exact ((deliver_apart { usenet with pending := usenet.pending.eraseIdx place } connit handler outcome).articles :)
  | expire connit =>
    obtain ⟨-, -, rfl⟩ := step_expire taken
    rfl
  | proceed index choice =>
    obtain ⟨io, task, tasks, result, found, proceeded, rfl⟩ := step_proceed taken
    exact ((proceed_undisturbed (popTask_owned owned found) (popTask_fits owned found)
      proceeded).articles :)
  | rewrite articles =>
    cases taken
    exact same articles rfl
  | _ =>
    cases taken
    rfl

/-- Behind every success there is the article, as it is now. -/
def Attested (usenet : Usenet α) : Prop :=
  ∀ connit msg earlier, (.posted connit msg .postSuccess :: earlier) <:+ usenet.trace →
    lastWritten connit earlier = some ((usenet.articles msg).wire, .articleWritten)

theorem new_or_earlier {entry : Entry α} {earlier new trace : List (Entry α)}
    (ends : (entry :: earlier) <:+ new ++ trace) : entry ∈ new ∧ trace <:+ earlier ∨ (entry :: earlier) <:+ trace := by
  induction new with
  | nil => exact .inr ends
  | cons first new ih =>
    rcases List.suffix_cons_iff.mp ends with same | later
    · cases same
      exact .inl ⟨List.mem_cons_self .., List.suffix_append ..⟩
    · exact (ih later).imp_left (And.imp_left (List.mem_cons_of_mem first))

theorem attested_adds {kind : Entry α → Prop} (attested : Attested usenet) (adds : Adds kind usenet after)
    (silent : ∀ connit msg, ¬ kind (.posted connit msg .postSuccess)) (articles : after.articles = usenet.articles) :
    Attested after := by
  intro connit msg earlier ends
  obtain ⟨new, trace, kinds⟩ := adds
  rw [trace] at ends
  rw [articles]
  rcases new_or_earlier ends with ⟨fresh, -⟩ | before
  · exact absurd (kinds _ fresh) (silent connit msg)
  · exact attested connit msg earlier before

theorem deliver_attested (attested : Attested usenet) {handler : Handler α}
    (attends : ∀ msg, handler = .postHandler msg .postSuccess →
      lastWritten connit usenet.trace = some ((usenet.articles msg).wire, .articleWritten)) (outcome : Outcome) :
    Attested (usenet.deliver connit handler outcome).1 := by
  have articles := (deliver_apart usenet connit handler outcome).articles
  have adds := deliver_adds usenet connit handler outcome
  cases handler with
  | postHandler msg result =>
    cases result with
    | postSuccess =>
      cases present : usenet.connections connit with
      | none =>
        simp only [deliver, present]
        exact attested
      | some connection =>
        simp only [deliver, present, onPostFinished, record]
        intro other posted earlier ends
        rcases List.suffix_cons_iff.mp ends with same | before
        · cases same
          exact attends msg rfl
        · exact attested other posted earlier before
    | _ => exact attested_adds attested adds (by simp [Reports]) articles
  | _ => exact attested_adds attested adds (by simp [Reports]) articles

theorem step_attested {event : Event α} (owned : Owned [] usenet) (attended : Attended usenet) (attested : Attested usenet)
    (same : ∀ articles, event = .rewrite articles → articles = usenet.articles) (taken : usenet.step event = some after) :
    Attested after := by
  cases event with
  | addConnections conninfo numConnections =>
    cases taken
    have kept := (addConnections_undisturbed owned conninfo numConnections).articles
    exact attested_adds attested (@addConnections_adds _ (fun _ => False) ..) (by simp) kept
  | call index request =>
    obtain ⟨-, rfl⟩ := step_call taken
    exact attested
  | take index place outcome =>
    obtain ⟨connit, handler, -, found, rfl⟩ := step_take taken
    have before : Attested { usenet with pending := usenet.pending.eraseIdx place } := attested
    refine (deliver_attested before ?_ outcome :)
    rintro msg rfl
    exact attended connit _ (List.mem_of_getElem? found)
  | expire connit =>
    obtain ⟨-, -, rfl⟩ := step_expire taken
    exact attested
  | proceed index choice =>
    obtain ⟨io, task, tasks, result, found, proceeded, rfl⟩ := step_proceed taken
    have before : Attested { usenet with threads := usenet.threads.set index ⟨io, tasks⟩ } := attested
    have goes := proceed_undisturbed (popTask_owned owned found) (popTask_fits owned found) proceeded
    refine (attested_adds before (proceed_adds proceeded) ?_ goes.articles :)
    cases task <;> simp [Leaves, Refusal, Parting]
  | rewrite articles =>
    cases taken
    rw [same articles rfl]
    exact attested
  | _ =>
    cases taken
    exact attested

section Rewrite

variable [DecidableEq α] {msg : α}

theorem held_of_article (owned : Owned [] usenet) {connection : Connection α}
    (present : usenet.connections connit = some connection) (holds : connection.article = some msg) :
    0 < held msg usenet := by
  have known := owned.known connit ((owned.alive connit).mpr (by simp [present]))
  have weighs := weight_le_total (fun connit => heldOf msg (usenet.connections connit)) (List.mem_range.mpr known)
  have one : heldOf msg (usenet.connections connit) = 1 := by simp [present, heldOf, holds]
  simp only [one] at weighs
  rw [held_placed msg owned]
  omega

theorem held_of_handler (owned : Owned [] usenet) {result : PostResult}
    (member : (connit, .postHandler msg result) ∈ usenet.pending) : 0 < held msg usenet := by
  have weighs := weight_le_total (boundOf msg) member
  have one : boundOf msg (connit, .postHandler msg result) = 1 := by simp [boundOf, ConnectionSteps.articles]
  simp only [one] at weighs
  rw [held_placed msg owned]
  omega

/-- Only articles that no connection holds may change. -/
theorem rewrite_attended (owned : Owned [] usenet) (attended : Attended usenet) {articles : α → Article}
    (agree : ∀ msg, 0 < held msg usenet → articles msg = usenet.articles msg) :
    Attended { usenet with articles } := by
  intro connit handler member
  have before := attended connit handler member
  have posting (sent : ∀ msg, (usenet.connections connit).bind Connection.article = some msg →
      lastWritten connit usenet.trace = some ((usenet.articles msg).wire, .articleWritten)) :
      ∀ msg, (usenet.connections connit).bind Connection.article = some msg →
        lastWritten connit usenet.trace = some ((articles msg).wire, .articleWritten) := by
    intro msg holds
    obtain ⟨connection, present, given⟩ := Option.bind_eq_some_iff.mp holds
    rw [agree msg (held_of_article owned present given)]
    exact sent msg holds
  cases handler with
  | stage stage =>
    cases stage with
    | articleWritten => exact posting before
    | articleAnswered => exact posting before
    | _ => trivial
  | postHandler msg result =>
    cases result with
    | postSuccess =>
      simp only [Attends] at before ⊢
      rw [agree msg (held_of_handler owned member)]
      exact before
    | _ => trivial
  | _ => trivial

/-- Articles with a success behind them may not change. -/
theorem rewrite_attested (attested : Attested usenet) {articles : α → Article}
    (agree : ∀ msg, 0 < reports msg true usenet → articles msg = usenet.articles msg) :
    Attested { usenet with articles } := by
  intro connit msg earlier ends
  have weighs := weight_le_total (reportOf msg true) (ends.subset (List.mem_cons_self ..))
  have one : reportOf msg true (.posted connit msg .postSuccess) = 1 := by simp [reportOf, concludes]
  rw [one] at weighs
  have before := attested connit msg earlier ends
  rw [← agree msg weighs] at before
  exact before

end Rewrite

end Post2Usenet.Proofs.PoolAttempts
