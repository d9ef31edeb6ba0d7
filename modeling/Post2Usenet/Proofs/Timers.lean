import Post2Usenet.Proofs.Completions

/-! The timer of a connection. A wait belongs to the operation that is started after it
was set; a write stops the timer however it ends, the others only when they succeed. -/

namespace Post2Usenet.Proofs.Timers
open Connection ConnectionSteps Reactor ReactorSteps Logins Completions

variable {α : Type} {reactor after : Reactor α} {heap : α → Article}

/-- The operation's handler has still to run, and the socket is open. -/
def Outstanding (reactor : Reactor α) (operation : Nat) : Prop :=
  (∃ handler, (operation, handler) ∈ reactor.pending) ∧ reactor.connection.sockOpen = true

/-- Each time the timer's handler cancels, the operation that the wait belongs to is outstanding. -/
def CancelsOwn (reactor : Reactor α) (event : Event α) : Prop :=
  ∀ place operation, event = .cancel place → reactor.expired[place]? = some operation → Outstanding reactor operation

/-- Whichever of the timer's handlers comes next would cancel the operation its wait belongs to. -/
def Punctual (reactor : Reactor α) : Prop := ∀ operation ∈ reactor.expired, Outstanding reactor operation

/-- No handler runs while the wait that belongs to its operation has its own handler queued,
and no wait ends whose operation is over. -/
def InTime (reactor : Reactor α) : Event α → Prop
  | .complete place _ => ∀ entry, reactor.pending[place]? = some entry → entry.1 ∉ reactor.expired
  | .expire => ∀ operation, reactor.armed = some operation → ∃ handler, (operation, handler) ∈ reactor.pending
  | _ => True

/-- What a function of a connection asks for: one thing at most, and the timer only right
before an operation of the open socket. -/
inductive Shaped : List (Call α) → Prop
  | nothing : Shaped []
  | stopped {calls : List (Call α)} (shaped : Shaped calls) : Shaped (.cancelTimer :: calls)
  | untimed {call : Call α} {handler : Handler α} (one : call.handler? = some handler) : Shaped [call]
  | timed {seconds : Int} {call : Call α} {stage : Stage} (one : call.handler? = some (.stage stage))
      (opens : opened stage = true) : Shaped [.startTimer seconds, call]

section Shapes

variable {connection : Connection α} {outcome : Outcome} {stage : Stage}

theorem shaped_timed {call : Call α} (one : call.handler? = some (.stage stage)) (opens : opened stage = true) :
    Shaped (connection.timeoutNextAsyncOperation ++ [call]) := by
  rw [timeoutNextAsyncOperation]
  split
  · exact .untimed one
  · exact .timed one opens

theorem shaped_write {buffers : Bytes} (opens : opened stage = true) : Shaped (connection.write buffers stage).2 :=
  shaped_timed rfl opens

theorem shaped_readLine (opens : opened stage = true) : Shaped (connection.readLine stage).2 :=
  shaped_timed rfl opens

theorem shaped_postHandlerCallback {result : PostResult} : Shaped (connection.postHandlerCallback result).2 := by
  rw [postHandlerCallback]
  cases connection.article with
  | none => exact .nothing
  | some message => exact .untimed rfl

theorem shaped_checkAuthinfoResult {line : Bytes} : Shaped (connection.checkAuthinfoResult line).2 := by
  rw [checkAuthinfoResult]
  split
  · exact .untimed rfl
  · exact .untimed rfl

theorem shaped_onWritten {good bad : Connection α → Act α} (goes : Shaped (good connection).2)
    (fails : Shaped (bad connection).2) : Shaped (connection.onWritten outcome good bad).2 := by
  rw [onWritten]
  split
  · exact .stopped fails
  · exact .stopped goes

theorem shaped_onLine {good : Bytes → Connection α → Act α} {bad : Connection α → Act α}
    (goes : ∀ line connection, Shaped (good line connection).2) (fails : ∀ connection, Shaped (bad connection).2) :
    Shaped (connection.onLine outcome good bad).2 := by
  rw [onLine]
  split
  · exact .stopped (goes _ _)
  · exact fails _

theorem run_shaped (heap : α → Article) (stage : Stage) (outcome : Outcome) (connection : Connection α) :
    Shaped (connection.run heap stage outcome).2 := by
  cases stage with
  | doConnect => exact .untimed rfl
  | resolved =>
    simp only [run]
    split
    · exact .untimed rfl
    · exact shaped_timed rfl rfl
  | connected =>
    simp only [run]
    split
    · exact .untimed rfl
    · split
      · exact .stopped (shaped_timed rfl rfl)
      · exact .stopped (shaped_readLine rfl)
  | handshaken =>
    simp only [run]
    split
    · exact .untimed rfl
    · exact .stopped (shaped_readLine rfl)
  | greeted =>
    apply shaped_onLine
    · intro line connection
      split
      · exact .untimed rfl
      · exact shaped_write rfl
    · exact fun connection => .untimed rfl
  | usernameWritten => exact shaped_onWritten (shaped_readLine rfl) (.untimed rfl)
  | usernameAnswered =>
    apply shaped_onLine
    · intro line connection
      split
      · exact shaped_write rfl
      · exact shaped_checkAuthinfoResult
    · exact fun connection => .untimed rfl
  | passwordWritten => exact shaped_onWritten (shaped_readLine rfl) (.untimed rfl)
  | passwordAnswered => exact shaped_onLine (fun _ _ => shaped_checkAuthinfoResult) (fun _ => .untimed rfl)
  | doPost => exact shaped_write rfl
  | postWritten => exact shaped_onWritten (shaped_readLine rfl) shaped_postHandlerCallback
  | postAnswered =>
    apply shaped_onLine
    · intro line connection
      split
      · exact shaped_postHandlerCallback
      · split
        · exact shaped_write rfl
        · exact .nothing
    · exact fun connection => shaped_postHandlerCallback
  | articleWritten => exact shaped_onWritten (shaped_readLine rfl) shaped_postHandlerCallback
  | articleAnswered =>
    apply shaped_onLine
    · intro line connection
      split
      · exact shaped_postHandlerCallback
      · exact shaped_postHandlerCallback
    · exact fun connection => shaped_postHandlerCallback
  | doStat => exact shaped_write rfl
  | statWritten => exact shaped_onWritten (shaped_readLine rfl) (.untimed rfl)
  | statAnswered =>
    apply shaped_onLine
    · intro line connection
      split
      · exact .untimed rfl
      · exact .untimed rfl
    · exact fun connection => .untimed rfl
  | quitWritten => exact .stopped .nothing

end Shapes

/-- The numbers of the operations are used once, and the timer is armed for one of the open socket. -/
structure Numbered (reactor : Reactor α) : Prop where
  pending : ∀ entry ∈ reactor.pending, entry.1 < reactor.started
  armed : ∀ operation, reactor.armed = some operation → operation < reactor.started
  stage : ∀ operation handler, reactor.armed = some operation → (operation, handler) ∈ reactor.pending →
    ∃ stage, handler = .stage stage ∧ opened stage = true

theorem idle_numbered (earlier : ∀ entry ∈ reactor.pending, entry.1 < reactor.started) (free : reactor.armed = none) :
    Numbered reactor := by
  refine ⟨earlier, fun operation armed => ?_, fun operation handler armed => ?_⟩
  · cases free.symm.trans armed
  · cases free.symm.trans armed

theorem asked_numbered {calls : List (Call α)} (shaped : Shaped calls) (numbered : Numbered reactor) :
    Numbered (calls.foldl ask reactor) := by
  induction shaped generalizing reactor with
  | nothing => exact numbered
  | stopped shaped ih => exact ih (idle_numbered numbered.pending rfl)
  | @untimed call handler one =>
    obtain ⟨history, starts⟩ := @ask_starts α reactor call handler one
    simp only [List.foldl_cons, List.foldl_nil, starts]
    refine ⟨?_, fun operation armed => Nat.lt_succ_of_lt (numbered.armed operation armed), ?_⟩
    · simp only [List.forall_mem_append, List.forall_mem_singleton]
      exact ⟨fun entry member => Nat.lt_succ_of_lt (numbered.pending entry member), Nat.lt_succ_self _⟩
    · intro operation handler armed member
      simp only [List.mem_append, List.mem_singleton, Prod.mk.injEq] at member
      have earlier := numbered.armed operation armed
      obtain before | ⟨now, -⟩ := member
      · exact numbered.stage operation handler armed before
      · omega
  | @timed seconds call stage one opens =>
    obtain ⟨history, starts⟩ := @ask_starts α { reactor with armed := some reactor.started } call (.stage stage) one
    have both : [.startTimer seconds, call].foldl ask reactor = _ := starts
    rw [both]
    refine ⟨?_, fun operation armed => ?_, ?_⟩
    · simp only [List.forall_mem_append, List.forall_mem_singleton]
      exact ⟨fun entry member => Nat.lt_succ_of_lt (numbered.pending entry member), Nat.lt_succ_self _⟩
    · cases armed
      exact Nat.lt_succ_self _
    · intro operation handler armed member
      cases armed
      simp only [List.mem_append, List.mem_singleton, Prod.mk.injEq] at member
      obtain before | ⟨-, rfl⟩ := member
      · exact absurd (numbered.pending _ before) (Nat.lt_irrefl _)
      · exact ⟨stage, rfl, opens⟩

theorem ask_new (reactor : Reactor α) (call : Call α) :
    (reactor.ask call).expired = reactor.expired ∧ reactor.started ≤ (reactor.ask call).started ∧
      ∀ entry ∈ (reactor.ask call).pending, entry ∈ reactor.pending ∨ reactor.started ≤ entry.1 := by
  cases handler : call.handler? with
  | none =>
    cases call with
    | startTimer seconds => exact ⟨rfl, Nat.le_refl _, fun _ member => .inl member⟩
    | cancelTimer => exact ⟨rfl, Nat.le_refl _, fun _ member => .inl member⟩
    | _ => cases handler
  | some handler' =>
    obtain ⟨history, starts⟩ := @ask_starts α reactor call handler' handler
    rw [starts]
    refine ⟨rfl, Nat.le_succ _, fun entry member => ?_⟩
    obtain before | now := List.mem_append.mp member
    · exact .inl before
    · rw [List.mem_singleton] at now
      exact .inr (by rw [now])

/-- What is newly pending has a new number. -/
theorem asked_new (calls : List (Call α)) (reactor : Reactor α) :
    (calls.foldl ask reactor).expired = reactor.expired ∧ reactor.started ≤ (calls.foldl ask reactor).started ∧
      ∀ entry ∈ (calls.foldl ask reactor).pending, entry ∈ reactor.pending ∨ reactor.started ≤ entry.1 := by
  induction calls generalizing reactor with
  | nil => exact ⟨rfl, Nat.le_refl _, fun _ member => .inl member⟩
  | cons call calls ih =>
    obtain ⟨expired, later, first⟩ := ask_new reactor call
    obtain ⟨expired', later', rest⟩ := ih (reactor.ask call)
    refine ⟨expired'.trans expired, Nat.le_trans later later', fun entry member => ?_⟩
    obtain before | new := rest entry member
    · exact first entry before
    · exact .inr (Nat.le_trans later new)

theorem complete_new (handler : Handler α) (outcome : Outcome) :
    (reactor.complete heap handler outcome).expired = reactor.expired ∧
      ∀ entry ∈ (reactor.complete heap handler outcome).pending, entry ∈ reactor.pending ∨ reactor.started ≤ entry.1 := by
  cases handler with
  | stage stage =>
    obtain ⟨expired, -, new⟩ := asked_new (reactor.connection.run heap stage outcome).2 { reactor with
      connection := (reactor.connection.run heap stage outcome).1
      history := ended reactor.connection stage outcome ++ reactor.history }
    exact ⟨expired, new⟩
  | _ => exact ⟨rfl, fun _ member => .inl member⟩

theorem complete_numbered (numbered : Numbered reactor) (place : Nat) (handler : Handler α) (outcome : Outcome) :
    Numbered ({ reactor with pending := reactor.pending.eraseIdx place }.complete heap handler outcome) := by
  have fewer : ∀ entry ∈ reactor.pending.eraseIdx place, entry ∈ reactor.pending :=
    fun entry member => List.mem_of_mem_eraseIdx member
  cases handler with
  | stage stage =>
    apply asked_numbered (run_shaped heap stage outcome reactor.connection)
    exact ⟨fun entry member => numbered.pending entry (fewer entry member), numbered.armed,
      fun operation handler armed member => numbered.stage operation handler armed (fewer _ member)⟩
  | _ =>
    exact ⟨fun entry member => numbered.pending entry (fewer entry member), numbered.armed,
      fun operation handler armed member => numbered.stage operation handler armed (fewer _ member)⟩

theorem step_numbered (numbered : Numbered reactor) {event : Event α} (taken : step heap reactor event = some after) :
    Numbered after := by
  have called {act : Act α} (shaped : Shaped act.2)
      (taken : (if reactor.pending = [] then some (reactor.perform act) else none) = some after) : Numbered after := by
    split at taken
    · cases taken
      exact asked_numbered shaped ⟨numbered.pending, numbered.armed, numbered.stage⟩
    · cases taken
  have served := (step_serve taken).2
  cases event with
  | asyncConnect =>
    refine called ?_ served
    rw [asyncConnect]
    dsimp only
    split
    · exact .untimed rfl
    · exact .nothing
  | asyncPost message =>
    refine called ?_ served
    rw [asyncPost]
    split
    · exact .nothing
    · exact .untimed rfl
  | asyncStat mid =>
    refine called ?_ served
    rw [asyncStat]
    split
    · exact .nothing
    · exact .untimed rfl
  | asyncGracefulDisconnect =>
    refine called ?_ served
    rw [asyncGracefulDisconnect]
    split
    · exact .nothing
    · exact shaped_write rfl
  | close outcome =>
    simp only [serve] at served
    split at served
    · cases served
      exact ⟨numbered.pending, numbered.armed, numbered.stage⟩
    · cases served
  | complete place outcome =>
    obtain ⟨none', -⟩ | ⟨_, _, number, handler, same, found, rfl⟩ := io_step rfl taken
    · cases none'
    · cases same
      exact complete_numbered numbered place handler outcome
  | expire =>
    simp only [serve] at served
    split at served
    · cases served
      exact idle_numbered numbered.pending rfl
    · cases served
  | cancel place =>
    simp only [serve] at served
    split at served
    · cases served
      exact ⟨numbered.pending, numbered.armed, numbered.stage⟩
    · cases served

/-- The socket is open while the operation is pending that the timer is armed for. -/
theorem armed_open (engaged : Engaged heap reactor) (numbered : Numbered reactor) {operation : Nat} {handler : Handler α}
    (armed : reactor.armed = some operation) (member : (operation, handler) ∈ reactor.pending) :
    reactor.connection.sockOpen = true := by
  obtain ⟨stage, rfl, opens⟩ := numbered.stage operation handler armed member
  cases engaged with
  | rests rests => simp [rests.pending] at member
  | connects stands =>
    cases stands with
    | midway pending history goes =>
      simp only [pending, List.mem_singleton, Prod.mk.injEq] at member
      exact goes.sockOpen stage member.2.symm opens
    | concluded callback pending history goes => simp [pending] at member
  | posts stands =>
    cases stands with
    | midway pending history goes => exact goes.sockOpen
    | concluded callback pending history goes => simp [pending] at member
  | stats stands =>
    cases stands with
    | midway pending history goes => exact goes.sockOpen
    | concluded callback pending history goes => simp [pending] at member
  | quits pending article msgid sockOpen => exact sockOpen

theorem pending_alone (engaged : Engaged heap reactor) {entry : Nat × Handler α} (member : entry ∈ reactor.pending) :
    reactor.pending = [entry] := by
  obtain ⟨only, pending⟩ := List.length_eq_one_iff.mp
    (Nat.le_antisymm (engaged_alone engaged) (List.length_pos_of_mem member))
  rw [pending, List.mem_singleton] at member
  rw [pending, member]

theorem called_expired {event : Event α} (called : io event = false) (taken : step heap reactor event = some after) :
    after.expired = reactor.expired := by
  have free := called_free called taken
  replace taken := (step_serve taken).2
  have performed {act : Act α} (taken : (if reactor.pending = [] then some (reactor.perform act) else none) = some after) :
      after.expired = reactor.expired := by
    rw [if_pos free] at taken
    cases taken
    exact (asked_new act.2 { reactor with connection := act.1 }).1
  cases event with
  | asyncConnect => exact performed taken
  | asyncPost message => exact performed taken
  | asyncStat mid => exact performed taken
  | asyncGracefulDisconnect => exact performed taken
  | close outcome =>
    rw [serve, if_pos free] at taken
    cases taken
    rfl
  | complete place outcome => cases called
  | expire => cases called
  | cancel place => cases called

theorem step_punctual (engaged : Engaged heap reactor) (numbered : Numbered reactor) (punctual : Punctual reactor)
    {event : Event α} (taken : step heap reactor event = some after) (inTime : InTime reactor event) : Punctual after := by
  have calling (called : io event = false) : Punctual after := by
    rw [Punctual, called_expired called taken]
    intro operation member
    obtain ⟨⟨handler, waiting⟩, -⟩ := punctual operation member
    simp [called_free called taken] at waiting
  cases event with
  | complete place outcome =>
    obtain ⟨served, -⟩ | ⟨_, _, number, handler, same, found, rfl⟩ := io_step rfl taken
    · cases served
    · cases same
      rw [Punctual, (complete_new handler outcome).1]
      intro operation member
      obtain ⟨⟨other, waiting⟩, -⟩ := punctual operation member
      rw [pending_alone engaged (List.mem_of_getElem? found), List.mem_singleton] at waiting
      cases waiting
      exact absurd member (inTime _ found)
  | expire =>
    replace taken := (step_serve taken).2
    simp only [serve] at taken
    split at taken
    next operation armed =>
      cases taken
      intro other member
      obtain before | now := List.mem_append.mp member
      · exact punctual other before
      · obtain ⟨handler, waiting⟩ := inTime operation armed
        have sockOpen := armed_open engaged numbered armed waiting
        rw [List.mem_singleton.mp now]
        exact ⟨⟨handler, waiting⟩, sockOpen⟩
    next => cases taken
  | cancel place =>
    replace taken := (step_serve taken).2
    simp only [serve] at taken
    split at taken
    · cases taken
      exact fun operation member => punctual operation (List.mem_of_mem_eraseIdx member)
    · cases taken
  | _ => exact calling rfl

theorem step_late (engaged : Engaged heap reactor) (numbered : Numbered reactor) {event : Event α}
    (taken : step heap reactor event = some after) (late : ¬ InTime reactor event) : ¬ Punctual after := by
  intro punctual
  cases event with
  | complete place outcome =>
    apply late
    intro entry found queued
    obtain ⟨served, -⟩ | ⟨_, _, number, handler, same, found', rfl⟩ := io_step rfl taken
    · cases served
    · cases same
      cases found.symm.trans found'
      obtain ⟨expired, new⟩ := @complete_new α { reactor with pending := reactor.pending.eraseIdx place } heap handler outcome
      obtain ⟨⟨other, waiting⟩, -⟩ := punctual number (by rw [expired]; exact queued)
      obtain before | later := new _ waiting
      · simp [(only_pending (pending_alone engaged (List.mem_of_getElem? found)) found).2] at before
      · exact absurd (numbered.pending _ (List.mem_of_getElem? found)) (Nat.not_lt.mpr later)
  | expire =>
    apply late
    intro operation armed
    replace taken := (step_serve taken).2
    simp only [serve, armed] at taken
    cases taken
    exact (punctual operation (List.mem_append_right _ (List.mem_singleton_self _))).1
  | _ => exact late trivial

/-- The timer cancels what it was armed for exactly in the runs in which no operation ends
with its timer's handler queued, and no timer that was left armed expires. -/
theorem punctual_iff (conninfo : ConnectionInfo) (timeout : Int) (events : List (Event α)) :
    (Machine.Holds (step heap) Punctual (make conninfo timeout) events ↔
      Machine.Meets (step heap) InTime (make conninfo timeout) events) ∧
    (Machine.Meets (step heap) InTime (make conninfo timeout) events →
      Machine.Meets (step heap) CancelsOwn (make conninfo timeout) events) := by
  have exact : Machine.Holds (step heap) Punctual (make conninfo timeout) events ↔
      Machine.Meets (step heap) InTime (make conninfo timeout) events := by
    apply Machine.holds_iff_meets (fun reactor => Engaged heap reactor ∧ Numbered reactor)
    · exact ⟨⟨.rests ⟨rfl, rfl, rfl, nofun⟩, nofun, nofun, nofun⟩, nofun⟩
    · exact fun _ _ _ inv punctual taken inTime =>
        ⟨⟨step_engaged inv.1 taken, step_numbered inv.2 taken⟩, step_punctual inv.1 inv.2 punctual taken inTime⟩
    · exact fun _ _ _ inv _ taken late => step_late inv.1 inv.2 taken late
  refine ⟨exact, fun meets => Machine.meets_of_holds ?_ (exact.mpr meets)⟩
  intro reactor event punctual place operation _ found
  exact punctual operation (List.mem_of_getElem? found)

/-- The timer of the read that failed expires while the name is being resolved for the next
connection. -/
def hungUpRun : List (Event Unit) := hungUp ++ [.asyncConnect, .complete 0 (arriving ""), .expire]

theorem hung_up_strays : ¬ Machine.Meets (step oneArticle) CancelsOwn (make plainServer 30) (hungUpRun ++ [.cancel 0]) := by
  intro meets
  have computed : (Machine.run (step oneArticle) (make plainServer 30) hungUpRun).map
      (fun reactor => (reactor.terminated, reactor.expired, reactor.connection.sockOpen)) = some (false, [9], false) := by
    decide +kernel
  obtain ⟨reactor, reached, seen⟩ := Option.map_eq_some_iff.mp computed
  simp only [Prod.mk.injEq] at seen
  have taken : step oneArticle reactor (.cancel 0) =
      some { reactor with expired := reactor.expired.eraseIdx 0, terminated := true } := by
    simp [step, serve, seen]
  obtain ⟨-, sockOpen⟩ := Machine.meets_at meets reached taken 0 9 rfl (by simp [seen])
  rw [seen.2.2] at sockOpen
  cases sockOpen

end Post2Usenet.Proofs.Timers
