import Post2Usenet.Lib.Simulation
import Post2Usenet.Proofs.Logins

/-! Whatever a connection has been through, at most one thing of it is pending, and
belongs to one exchange. So what the owner starts ends with one call of its handler. -/

namespace Post2Usenet.Proofs.Completions
open Connection ConnectionSteps Reactor ReactorSteps Exchanges Logins

variable {α : Type} {reactor after : Reactor α} {heap : α → Article}

/-- Nothing is pending, and nothing is left of the last exchange. -/
structure Rests (reactor : Reactor α) : Prop where
  pending : reactor.pending = []
  article : reactor.connection.article = none
  msgid : reactor.connection.msgid = []
  sockOpen : reactor.connection.state = .connectedAndAuthenticated → reactor.connection.sockOpen = true

inductive Engaged (heap : α → Article) (reactor : Reactor α) : Prop
  | rests (rests : Rests reactor)
  | connects {conninfo : ConnectionInfo} {before : List (Occurrence α)} (stands : Stands (Connects conninfo) before reactor)
  | posts {message : α} {before : List (Occurrence α)} (stands : Stands (Posts heap message) before reactor)
  | stats {mid : Bytes} {before : List (Occurrence α)} (stands : Stands (Stats mid) before reactor)
  | quits {number : Nat} (pending : reactor.pending = [(number, .stage .quitWritten)])
      (article : reactor.connection.article = none) (msgid : reactor.connection.msgid = [])
      (sockOpen : reactor.connection.sockOpen = true)

theorem engaged_rests (engaged : Engaged heap reactor) (free : reactor.pending = []) : Rests reactor := by
  cases engaged with
  | rests rests => exact rests
  | connects stands =>
    cases stands with
    | midway pending history goes => simp [free] at pending
    | concluded callback pending history goes =>
      obtain ⟨result, rfl, -⟩ := connecting_verdict goes.script callback
      obtain ⟨success, opens⟩ := goes.reports result rfl
      exact ⟨free, goes.article, goes.msgid, fun ready => opens (success.mp ready)⟩
  | posts stands =>
    cases stands with
    | midway pending history goes => simp [free] at pending
    | concluded callback pending history goes =>
      exact ⟨free, (goes.idle callback).article, goes.msgid, fun _ => goes.sockOpen⟩
  | stats stands =>
    cases stands with
    | midway pending history goes => simp [free] at pending
    | concluded callback pending history goes =>
      exact ⟨free, goes.article, (goes.idle callback).2, fun _ => goes.sockOpen⟩
  | quits pending article msgid sockOpen => simp [free] at pending

theorem engaged_alone (engaged : Engaged heap reactor) : reactor.pending.length ≤ 1 := by
  have standing {script : Script α} {before : List (Occurrence α)} (stands : Stands script before reactor) :
      reactor.pending.length ≤ 1 := by
    cases stands with
    | midway pending history goes => simp [pending]
    | concluded callback pending history goes => simp [pending]
  cases engaged with
  | rests rests => simp [rests.pending]
  | connects stands => exact standing stands
  | posts stands => exact standing stands
  | stats stands => exact standing stands
  | quits pending article msgid sockOpen => simp [pending]

/-- An operation that is accepted is alone, and its script begins. -/
theorem starts {script : Script α} {connection : Connection α} {stage : Stage} (free : reactor.pending = [])
    (goes : script connection (.stage stage) []) :
    Stands script reactor.history (reactor.perform (connection, [.post (.stage stage)])) :=
  .midway (by simp [perform, ask, Reactor.start, free]; rfl) rfl goes

theorem connect_starts (heap : α → Article) (rests : Rests reactor) (disconnected : reactor.connection.state = .disconnected) :
    serve heap reactor .asyncConnect = some (reactor.perform (reactor.connection, [.post (.stage .doConnect)])) ∧
      Stands (Connects reactor.connection.conninfo) reactor.history
        (reactor.perform (reactor.connection, [.post (.stage .doConnect)])) := by
  refine ⟨by simp [serve, rests.pending, asyncConnect, disconnected], starts rests.pending ?_⟩
  refine .midway .accepted rfl disconnected (fun late => ?_) rests.article rests.msgid
  cases late

theorem post_starts (heap : α → Article) (rests : Rests reactor)
    (ready : reactor.connection.state = .connectedAndAuthenticated) (message : α) :
    serve heap reactor (.asyncPost message) =
        some (reactor.perform ({ reactor.connection with article := some message }, [.post (.stage .doPost)])) ∧
      Stands (Posts heap message) reactor.history
        (reactor.perform ({ reactor.connection with article := some message }, [.post (.stage .doPost)])) := by
  refine ⟨by simp [serve, rests.pending, asyncPost, ready], starts rests.pending ?_⟩
  exact ⟨.accepted, fun _ _ => rfl, fun callback => absurd rfl (callback _), rests.msgid, rests.sockOpen ready⟩

theorem stat_starts (heap : α → Article) (rests : Rests reactor)
    (ready : reactor.connection.state = .connectedAndAuthenticated) (mid : Bytes) :
    serve heap reactor (.asyncStat mid) =
        some (reactor.perform ({ reactor.connection with msgid := mid }, [.post (.stage .doStat)])) ∧
      Stands (Stats mid) reactor.history
        (reactor.perform ({ reactor.connection with msgid := mid }, [.post (.stage .doStat)])) := by
  refine ⟨by simp [serve, rests.pending, asyncStat, ready], starts rests.pending ?_⟩
  exact ⟨.accepted, fun _ _ => rfl, fun callback => absurd rfl (callback _), rests.article, rests.sockOpen ready⟩

theorem close_rests (connection : Connection α) (outcome : Outcome) :
    (connection.close outcome).state = .disconnected ∧ (connection.close outcome).article = connection.article ∧
      (connection.close outcome).msgid = connection.msgid := by
  rw [close]
  split
  next already => exact ⟨already, rfl, rfl⟩
  next => exact ⟨rfl, rfl, rfl⟩

theorem io_engaged (engaged : Engaged heap reactor) {event : Event α} (served : io event = true)
    (taken : step heap reactor event = some after) : Engaged heap after := by
  cases engaged with
  | connects stands => exact .connects (step_stands (connects_follows _) stands served taken).1
  | posts stands => exact .posts (step_stands (posts_follows _) stands served taken).1
  | stats stands => exact .stats (step_stands (stats_follows _) stands served taken).1
  | rests rests =>
    obtain ⟨-, armed, expired, terminated, rfl⟩ | ⟨place, outcome, number, handler, rfl, found, rfl⟩ := io_step served taken
    · exact .rests ⟨rests.pending, rests.article, rests.msgid, rests.sockOpen⟩
    · simp [rests.pending] at found
  | quits pending article msgid sockOpen =>
    obtain ⟨-, armed, expired, terminated, rfl⟩ | ⟨place, outcome, number, handler, rfl, found, rfl⟩ := io_step served taken
    · exact .quits pending article msgid sockOpen
    · obtain ⟨same, empty⟩ := only_pending pending found
      cases same
      obtain ⟨state, articles, msgids⟩ := close_rests reactor.connection outcome
      exact .rests ⟨empty, articles.trans article, msgids.trans msgid, fun ready => by cases state.symm.trans ready⟩

theorem called_free {event : Event α} (called : io event = false) (taken : step heap reactor event = some after) :
    reactor.pending = [] := by
  by_contra busy
  replace taken := (step_serve taken).2
  cases event with
  | complete place outcome => cases called
  | expire => cases called
  | cancel place => cases called
  | _ => simp [serve, busy] at taken

/-- A call at rest is refused, closes the connection, or starts one operation. -/
theorem step_engaged (engaged : Engaged heap reactor) {event : Event α} (taken : step heap reactor event = some after) :
    Engaged heap after := by
  have resting (called : io event = false) : Rests reactor := engaged_rests engaged (called_free called taken)
  have refused (called : io event = false)
      (idle : serve heap reactor event = some (reactor.perform (reactor.connection, []))) : Engaged heap after := by
    cases idle.symm.trans (step_serve taken).2
    exact .rests (resting called)
  cases event with
  | complete place outcome => exact io_engaged engaged rfl taken
  | expire => exact io_engaged engaged rfl taken
  | cancel place => exact io_engaged engaged rfl taken
  | asyncConnect =>
    by_cases disconnected : reactor.connection.state = .disconnected
    · obtain ⟨accepted, stands⟩ := connect_starts heap (resting rfl) disconnected
      cases accepted.symm.trans (step_serve taken).2
      exact .connects stands
    · exact refused rfl (by simp [serve, (resting rfl).pending, asyncConnect, disconnected])
  | asyncPost message =>
    by_cases ready : reactor.connection.state = .connectedAndAuthenticated
    · obtain ⟨accepted, stands⟩ := post_starts heap (resting rfl) ready message
      cases accepted.symm.trans (step_serve taken).2
      exact .posts stands
    · exact refused rfl (by simp [serve, (resting rfl).pending, asyncPost, ready])
  | asyncStat mid =>
    by_cases ready : reactor.connection.state = .connectedAndAuthenticated
    · obtain ⟨accepted, stands⟩ := stat_starts heap (resting rfl) ready mid
      cases accepted.symm.trans (step_serve taken).2
      exact .stats stands
    · exact refused rfl (by simp [serve, (resting rfl).pending, asyncStat, ready])
  | asyncGracefulDisconnect =>
    obtain ⟨free, article, msgid, sockOpen⟩ := resting rfl
    by_cases ready : reactor.connection.state = .connectedAndAuthenticated
    · obtain ⟨armed, performed⟩ := @perform_one α reactor
        (write { reactor.connection with state := .busy } Protocol.quit .quitWritten) _ (handlers_timeout ..)
      replace taken := (step_serve taken).2
      rw [serve, if_pos free, asyncGracefulDisconnect, if_neg (not_not.mpr ready), performed] at taken
      cases taken
      exact .quits (congrArg (· ++ [_]) free) article msgid (sockOpen ready)
    · exact refused rfl (by simp [serve, free, asyncGracefulDisconnect, ready])
  | close outcome =>
    obtain ⟨free, article, msgid, -⟩ := resting rfl
    obtain ⟨state, articles, msgids⟩ := close_rests reactor.connection outcome
    replace taken := (step_serve taken).2
    rw [serve, if_pos free] at taken
    cases taken
    exact .rests ⟨free, articles.trans article, msgids.trans msgid, fun ready => by cases state.symm.trans ready⟩

theorem reachable_engaged {conninfo : ConnectionInfo} {timeout : Int}
    (reached : Machine.Reachable (step heap) (make conninfo timeout) reactor) : Engaged heap reactor :=
  reached.invariant (Engaged heap) (.rests ⟨rfl, rfl, rfl, nofun⟩) (fun _ _ _ engaged taken => step_engaged engaged taken)

theorem reachable_running {conninfo : ConnectionInfo} {timeout : Int}
    (reached : Machine.Reachable (step heap) (make conninfo timeout) reactor) (sockOpen : reactor.connection.sockOpen = true) :
    reactor.terminated = false := by
  by_contra ended
  rcases reached.last with rfl | ⟨earlier, event, -, taken⟩
  · exact ended rfl
  · have shut := (step_terminated taken (Bool.eq_true_of_not_eq_false ended)).1
    cases sockOpen.symm.trans shut

theorem reachable_rests {conninfo : ConnectionInfo} {timeout : Int}
    (reached : Machine.Reachable (step heap) (make conninfo timeout) reactor) (free : reactor.pending = []) :
    Rests reactor :=
  engaged_rests (reachable_engaged reached) free

/-- How far an operation has come that ends with a verdict: until the owner's handler is
invoked, one thing is pending, which can end in any way. -/
inductive Ends (heap : α → Article) (verdict : Script α) (before : List (Occurrence α)) (reactor : Reactor α) : Prop
  | goesOn {number : Nat} {handler : Handler α} {new : List (Occurrence α)}
      (pending : reactor.pending = [(number, handler)])
      (enabled : ∀ outcome, ∃ next, step heap reactor (.complete 0 outcome) = some next)
      (history : reactor.history = new ++ before) (silent : ∀ other, .invoked other ∉ new)
  | ended {handler : Handler α} {new : List (Occurrence α)} (pending : reactor.pending = [])
      (history : reactor.history = .invoked handler :: new ++ before) (silent : ∀ other, .invoked other ∉ new)
      (told : verdict reactor.connection handler new)

/-- A call is accepted, and while only the io service goes on, it ends with one verdict
after a bounded number of handlers. -/
def Completes (heap : α → Article) (limit : Nat) (verdict : Script α) (reactor : Reactor α) (call : Event α) : Prop :=
  ∃ started, step heap reactor call = some started ∧ started.pending ≠ [] ∧
    ∀ events after, (∀ event ∈ events, io event = true) → Machine.run (step heap) started events = some after →
      (events.map completes).sum ≤ limit ∧ Ends heap verdict reactor.history after

section Completes

variable {script verdict : Script α}

theorem stands_ends (running : reactor.terminated = false)
    (silent : ∀ connection handler new, script connection handler new → ∀ other, .invoked other ∉ new)
    (told : ∀ connection handler new, script connection handler new → (∀ stage, handler ≠ .stage stage) →
      verdict connection handler new)
    {before : List (Occurrence α)} (stands : Stands script before reactor) : Ends heap verdict before reactor := by
  cases stands with
  | midway pending history goes =>
    refine .goesOn pending (fun outcome => ?_) history (silent _ _ _ goes)
    simp only [step_running running, serve, pending, List.getElem?_cons_zero]
    exact ⟨_, rfl⟩
  | concluded callback pending history goes =>
    exact .ended pending history (silent _ _ _ goes) (told _ _ _ goes callback)

theorem starts_completes (follow : Follows heap script)
    (silent : ∀ connection handler new, script connection handler new → ∀ other, .invoked other ∉ new)
    (told : ∀ connection handler new, script connection handler new → (∀ stage, handler ≠ .stage stage) →
      verdict connection handler new)
    {call : Event α} {connection : Connection α} {stage : Stage} (free : reactor.pending = [])
    (taken : step heap reactor call = some (reactor.perform (connection, [.post (.stage stage)])))
    (stands : Stands script reactor.history (reactor.perform (connection, [.post (.stage stage)])))
    (runs : ∀ events after, (∀ event ∈ events, io event = true) →
      Machine.run (step heap) (reactor.perform (connection, [.post (.stage stage)])) events = some after →
      after.terminated = false) :
    Completes heap (remaining (.stage stage : Handler α)) verdict reactor call := by
  refine ⟨_, taken, by simp [perform, ask, Reactor.start], fun events after served reached => ?_⟩
  obtain ⟨stands, bound⟩ := run_stands follow stands served reached
  have whole : left (reactor.perform (connection, [.post (.stage stage)])) = remaining (.stage stage : Handler α) := by
    simp [left, perform, ask, Reactor.start, free]
  exact ⟨by omega, stands_ends (runs events after served reached) silent told stands⟩

/-- A script that keeps the socket open does not end the program. -/
theorem stands_runs (follow : Follows heap script) (opens : ∀ connection handler new,
    script connection handler new → connection.sockOpen = true) {before : List (Occurrence α)}
    (stands : Stands script before reactor) (running : reactor.terminated = false) {events : List (Event α)}
    (served : ∀ event ∈ events, io event = true) (reached : Machine.run (step heap) reactor events = some after) :
    after.terminated = false := by
  have sockOpen : after.connection.sockOpen = true := by
    cases (run_stands follow stands served reached).1 with
    | midway pending history goes => exact opens _ _ _ goes
    | concluded callback pending history goes => exact opens _ _ _ goes
  by_contra ended
  rcases Machine.Reachable.last ⟨events, reached⟩ with rfl | ⟨earlier, event, -, taken⟩
  · exact ended running
  · have shut := (step_terminated taken (Bool.eq_true_of_not_eq_false ended)).1
    cases sockOpen.symm.trans shut

end Completes

/-- The connection can be used again. -/
structure Accepts (connection : Connection α) : Prop where
  article : connection.article = none
  msgid : connection.msgid = []
  asyncPost : ∀ message, (connection.asyncPost message).1 = true
  asyncStat : ∀ mid, (connection.asyncStat mid).1 = true

theorem idle_accepts {connection : Connection α} (idle : Idle connection) (msgid : connection.msgid = []) :
    Accepts connection :=
  ⟨idle.article, msgid, fun message => by simp [asyncPost, idle.state], fun mid => by simp [asyncStat, idle.state]⟩

def PostEnds (heap : α → Article) (message : α) (connection : Connection α) (handler : Handler α)
    (new : List (Occurrence α)) : Prop :=
  (∃ result, handler = .postHandler message result ∧ PostVerdict (heap message) new result) ∧ Accepts connection

def StatEnds (mid : Bytes) (connection : Connection α) (handler : Handler α) (new : List (Occurrence α)) : Prop :=
  (∃ result, handler = .statHandler mid result ∧ StatVerdict mid new result) ∧ Accepts connection

def ConnectEnds (conninfo : ConnectionInfo) (connection : Connection α) (handler : Handler α)
    (new : List (Occurrence α)) : Prop :=
  ∃ result, handler = .connectHandler result ∧ ConnectVerdict conninfo new result ∧
    (connection.state = .connectedAndAuthenticated ↔ result = .connectSuccess)

section Main

variable {conninfo : ConnectionInfo} {timeout : Int}

/-- Every post and every stat of a connection that is free ends with one call of the
handler, with the verdict that belongs to what has occurred. -/
theorem operation_completes (reached : Machine.Reachable (step heap) (make conninfo timeout) reactor)
    (free : reactor.pending = []) (ready : reactor.connection.state = .connectedAndAuthenticated) :
    (∀ message, Completes heap 6 (PostEnds heap message) reactor (.asyncPost message)) ∧
      ∀ mid, Completes heap 4 (StatEnds mid) reactor (.asyncStat mid) := by
  have rests := reachable_rests reached free
  have running := reachable_running reached (rests.sockOpen ready)
  have starting (act : Act α) : (reactor.perform act).terminated = false := (perform_terminated ..).trans running
  constructor
  · intro message
    obtain ⟨accepted, stands⟩ := post_starts heap rests ready message
    refine starts_completes (posts_follows message) ?_ ?_ free ((step_running running _).trans accepted) stands ?_
    · exact fun _ _ _ goes => posting_silent goes.script
    · exact fun _ _ _ goes callback =>
        ⟨posting_verdict goes.script callback, idle_accepts (goes.idle callback) goes.msgid⟩
    · exact fun _ _ => stands_runs (posts_follows message) (fun _ _ _ goes => goes.sockOpen) stands (starting _)
  · intro mid
    obtain ⟨accepted, stands⟩ := stat_starts heap rests ready mid
    refine starts_completes (stats_follows mid) ?_ ?_ free ((step_running running _).trans accepted) stands ?_
    · exact fun _ _ _ goes => stating_silent goes.script
    · exact fun _ _ _ goes callback =>
        ⟨stating_verdict goes.script callback, idle_accepts (goes.idle callback).1 (goes.idle callback).2⟩
    · exact fun _ _ => stands_runs (stats_follows mid) (fun _ _ _ goes => goes.sockOpen) stands (starting _)

def plainServer : ConnectionInfo := ⟨ascii "user", ascii "pass", ascii "news.example", 119, false⟩

def arriving (line : String) : Outcome := ⟨false, ascii line, false⟩

/-- The connection of a server that welcomes it. -/
def authenticating : List (Event Unit) :=
  .asyncConnect :: ["", "", "", "200 ready\r\n", "", "281 welcome\r\n", ""].map (fun line => .complete 0 (arriving line))

def oneArticle (_ : Unit) : Article := ⟨⟨ascii "poster", [], ascii "sample", [], []⟩, [ascii "text\r\n"]⟩

theorem authenticated_completes :
    ∃ reactor, Machine.run (step oneArticle) (make plainServer 30) authenticating = some reactor ∧
      Completes oneArticle 6 (PostEnds oneArticle ()) reactor (.asyncPost ()) ∧
      Completes oneArticle 4 (StatEnds (ascii "id@example")) reactor (.asyncStat (ascii "id@example")) := by
  have computed : (Machine.run (step oneArticle) (make plainServer 30) authenticating).map
      (fun reactor => (reactor.pending, reactor.connection.state)) =
        some ([], .connectedAndAuthenticated) := by decide +kernel
  obtain ⟨reactor, reached, seen⟩ := Option.map_eq_some_iff.mp computed
  obtain ⟨free, ready⟩ := Prod.mk.injEq .. |>.mp seen
  obtain ⟨posts, stats⟩ := operation_completes ⟨_, reached⟩ free ready
  exact ⟨reactor, reached, posts (), stats _⟩

/-- No handler of the timer can find the socket closed. -/
def Undisturbed (reactor : Reactor α) : Prop :=
  reactor.connection.sockOpen = true ∨ reactor.armed = none ∧ reactor.expired = []

theorem complete_undisturbed {handler : Handler α} {new : List (Occurrence α)} (undisturbed : Undisturbed reactor)
    (goes : Connects conninfo reactor.connection handler new) (outcome : Outcome) :
    Undisturbed (reactor.complete heap handler outcome) := by
  cases handler with
  | stage stage =>
    cases opens : opened stage with
    | true =>
      obtain ⟨next, one, -⟩ := @connects_follows _ heap conninfo reactor.connection stage outcome new goes
      obtain ⟨armed, performed⟩ := @perform_one α { reactor with
        history := ended reactor.connection stage outcome ++ reactor.history } _ next one
      have goesOn : stage ≠ .quitWritten := by
        rintro rfl
        cases goes.script
      rw [complete, performed]
      exact .inl (run_sockOpen (goes.sockOpen stage rfl opens) heap goesOn outcome)
    | false =>
      -- Before the socket is opened nothing starts the timer.
      have early : stage = .doConnect ∨ stage = .resolved := by
        cases stage <;> first | exact .inl rfl | exact .inr rfl | cases opens
      rcases early with rfl | rfl
      · exact undisturbed
      · simp only [complete, run]
        split
        · exact undisturbed
        · obtain ⟨armed, performed⟩ := @perform_one α { reactor with
            history := ended reactor.connection .resolved outcome ++ reactor.history }
            ({ reactor.connection with sockOpen := true },
              reactor.connection.timeoutNextAsyncOperation ++ [.asyncConnect .connected]) _ (handlers_timeout ..)
          rw [performed]
          exact .inl rfl
  | _ => exact undisturbed

theorem step_undisturbed {before : List (Occurrence α)} (stands : Stands (Connects conninfo) before reactor)
    (undisturbed : Undisturbed reactor) {event : Event α} (served : io event = true)
    (taken : step heap reactor event = some after) : after.terminated = false ∧ Undisturbed after := by
  have running : after.terminated = false := by
    by_contra ended
    obtain ⟨shut, place, operation, rfl, found⟩ := step_terminated taken (Bool.eq_true_of_not_eq_false ended)
    obtain ⟨-, armed, expired, terminated, rfl⟩ | ⟨_, _, _, _, same, -⟩ := io_step served taken
    · obtain sockOpen | ⟨-, nothing⟩ := undisturbed
      · cases sockOpen.symm.trans shut
      · simp [nothing] at found
    · cases same
  refine ⟨running, ?_⟩
  cases event with
  | complete place outcome =>
    obtain ⟨none', -⟩ | ⟨_, _, number, handler, same, found, rfl⟩ := io_step served taken
    · cases none'
    · cases same
      cases stands with
      | midway pending history goes =>
        obtain ⟨same, empty⟩ := only_pending pending found
        cases same
        have kept : Undisturbed { reactor with pending := reactor.pending.eraseIdx place } := undisturbed
        exact complete_undisturbed kept goes outcome
      | concluded callback pending history goes => simp [pending] at found
  | expire =>
    replace taken := (step_serve taken).2
    simp only [serve] at taken
    split at taken
    next operation armed =>
      cases taken
      exact .inl (undisturbed.resolve_right (fun calm => by cases armed.symm.trans calm.1))
    next => cases taken
  | cancel place =>
    replace taken := (step_serve taken).2
    simp only [serve] at taken
    split at taken
    next operation found =>
      cases taken
      exact .inl (undisturbed.resolve_right (fun calm => by simp [calm.2] at found))
    next => cases taken
  | _ => cases served

theorem undisturbed_runs {before : List (Occurrence α)} (stands : Stands (Connects conninfo) before reactor)
    (running : reactor.terminated = false) (undisturbed : Undisturbed reactor) {events : List (Event α)}
    (served : ∀ event ∈ events, io event = true) (reached : Machine.run (step heap) reactor events = some after) :
    after.terminated = false := by
  induction events generalizing reactor with
  | nil =>
    cases reached
    exact running
  | cons event rest ih =>
    obtain ⟨next, taken, reached⟩ := Option.bind_eq_some_iff.mp reached
    have here := served event (List.mem_cons_self ..)
    obtain ⟨running, undisturbed⟩ := step_undisturbed stands undisturbed here taken
    exact ih (step_stands (connects_follows _) stands here taken).1 running undisturbed
      (fun other member => served other (List.mem_cons_of_mem _ member)) reached

/-- A wait that an earlier operation has left ends the program while the name is resolved. -/
theorem disturbed_incomplete {verdict : Script α} {limit : Nat} (free : reactor.pending = [])
    (disconnected : reactor.connection.state = .disconnected) (disturbed : ¬ Undisturbed reactor) :
    ¬ Completes heap limit verdict reactor .asyncConnect := by
  rintro ⟨started, taken, -, ends⟩
  obtain ⟨running, taken⟩ := step_serve taken
  have asked : reactor.connection.asyncConnect = (reactor.connection, [.post (.stage .doConnect)]) := by
    rw [asyncConnect, if_pos disconnected]
  rw [serve, if_pos free, asked] at taken
  cases taken
  obtain ⟨closed, left⟩ := not_or.mp disturbed
  have shut : reactor.connection.sockOpen = false := Bool.eq_false_iff.mpr closed
  -- The program has ended, and something is still pending.
  have ending (events : List (Event α)) (served : ∀ event ∈ events, io event = true) (expired : List Nat) (armed : Option Nat)
      (reached : Machine.run (step heap) (reactor.perform (reactor.connection, [.post (.stage .doConnect)])) events =
        some { reactor.perform (reactor.connection, [.post (.stage .doConnect)]) with
          armed, expired, terminated := true }) : False := by
    cases (ends events _ served reached).2 with
    | goesOn pending enabled =>
      obtain ⟨next, goesOn⟩ := enabled ⟨false, [], false⟩
      cases (step_serve goesOn).1
    | ended pending => simp [perform, ask, Reactor.start] at pending
  cases expired : reactor.expired with
  | cons operation rest =>
    refine ending [.cancel 0] (List.forall_mem_singleton.mpr rfl) rest reactor.armed ?_
    simp [Machine.run, step, serve, perform, ask, Reactor.start, running, expired, shut]
  | nil =>
    cases armed : reactor.armed with
    | none => exact left ⟨armed, expired⟩
    | some operation =>
      refine ending [.expire, .cancel 0] (List.forall_mem_cons.mpr ⟨rfl, List.forall_mem_singleton.mpr rfl⟩) [] none ?_
      simp [Machine.run, step, serve, perform, ask, Reactor.start, running, expired, armed, shut]

/-- Connecting ends with one call of the handler precisely when no wait of the timer is left that
finds the socket closed. Nothing is ever written too early. -/
theorem connect_completes_iff (reached : Machine.Reachable (step heap) (make conninfo timeout) reactor)
    (running : reactor.terminated = false) (free : reactor.pending = [])
    (disconnected : reactor.connection.state = .disconnected) :
    (Completes heap 10 (ConnectEnds reactor.connection.conninfo) reactor .asyncConnect ↔
      reactor.connection.sockOpen = true ∨ reactor.armed = none ∧ reactor.expired = []) ∧
      ∀ started events after, step heap reactor .asyncConnect = some started → (∀ event ∈ events, io event = true) →
        Machine.run (step heap) started events = some after →
        ∃ new, after.history = new ++ reactor.history ∧ InOrder reactor.connection.conninfo new := by
  obtain ⟨accepted, stands⟩ := connect_starts heap (reachable_rests reached free) disconnected
  refine ⟨⟨fun completes => ?_, fun undisturbed => ?_⟩, ?_⟩
  · by_contra disturbed
    exact disturbed_incomplete free disconnected disturbed completes
  · refine starts_completes (connects_follows _) ?_ ?_ free ((step_running running _).trans accepted) stands ?_
    · exact fun _ _ _ goes => connecting_silent goes.script
    · intro connection handler new goes callback
      obtain ⟨result, same, verdict⟩ := connecting_verdict goes.script callback
      exact ⟨result, same, verdict, (goes.reports result same).1⟩
    · exact fun _ _ => undisturbed_runs stands ((perform_terminated ..).trans running) undisturbed
  · intro started events after taken served reached
    cases accepted.symm.trans (step_serve taken).2
    obtain ⟨stands, -⟩ := run_stands (connects_follows _) stands served reached
    cases stands with
    | midway pending history goes => exact ⟨_, history, connecting_inOrder goes.script⟩
    | concluded callback pending history goes =>
      have ordered := connecting_inOrder goes.script
      exact ⟨_, history, ordered⟩

private def encryptedServer : ConnectionInfo := ⟨ascii "user", ascii "pass", ascii "news.example", 563, true⟩

/-- A connection that was refused its credentials and closed. -/
private def closing : List (Event Unit) :=
  .asyncConnect :: ["", "", "", "", "200 ready\r\n", "", "481 no\r\n", ""].map (fun line => .complete 0 (arriving line)) ++
    [.close (arriving "")]

theorem closed_connects :
    ∃ reactor, Machine.run (step oneArticle) (make encryptedServer 30) closing = some reactor ∧
      Completes oneArticle 10 (ConnectEnds reactor.connection.conninfo) reactor .asyncConnect := by
  have computed : (Machine.run (step oneArticle) (make encryptedServer 30) closing).map
      (fun reactor => (reactor.terminated, reactor.pending.isEmpty, reactor.connection.state, reactor.armed, reactor.expired)) =
        some (false, true, .disconnected, none, []) := by decide +kernel
  obtain ⟨reactor, reached, seen⟩ := Option.map_eq_some_iff.mp computed
  simp only [Prod.mk.injEq] at seen
  obtain ⟨running, empty, disconnected, calm⟩ := seen
  have free := List.isEmpty_iff.mp empty
  exact ⟨reactor, reached, (connect_completes_iff ⟨_, reached⟩ running free disconnected).1.mpr (.inr calm)⟩

/-- The server hangs up instead of answering `POST`, and the connection is closed. -/
def hungUp : List (Event Unit) :=
  authenticating ++ [.asyncPost (), .complete 0 (arriving ""), .complete 0 (arriving ""), .complete 0 ⟨true, [], false⟩,
    .complete 0 (arriving ""), .close (arriving "")]

/-- The timer of the read that failed is still armed. -/
theorem hung_up_incomplete :
    ∃ reactor, Machine.run (step oneArticle) (make plainServer 30) hungUp = some reactor ∧ reactor.terminated = false ∧
      reactor.pending = [] ∧ reactor.connection.state = .disconnected ∧ reactor.armed = some 9 ∧
      ¬ Completes oneArticle 10 (ConnectEnds reactor.connection.conninfo) reactor .asyncConnect := by
  have computed : (Machine.run (step oneArticle) (make plainServer 30) hungUp).map (fun reactor =>
      (reactor.terminated, reactor.pending.isEmpty, reactor.connection.state, reactor.armed, reactor.connection.sockOpen)) =
        some (false, true, .disconnected, some 9, false) := by decide +kernel
  obtain ⟨reactor, reached, seen⟩ := Option.map_eq_some_iff.mp computed
  simp only [Prod.mk.injEq] at seen
  obtain ⟨running, empty, disconnected, armed, shut⟩ := seen
  have free := List.isEmpty_iff.mp empty
  refine ⟨reactor, reached, running, free, disconnected, armed, disturbed_incomplete free disconnected ?_⟩
  rintro (sockOpen | ⟨calm, -⟩)
  · cases shut.symm.trans sockOpen
  · cases armed.symm.trans calm

end Main

end Post2Usenet.Proofs.Completions
