import Post2Usenet.Reactor
import Post2Usenet.Lib.Machine
import Post2Usenet.Proofs.ConnectionSteps

/-! What the io service does with what a connection asks for, and what it follows of an
operation that goes on from one function of the connection to the next. -/

namespace Post2Usenet.Proofs.ReactorSteps
open Connection ConnectionSteps Reactor

variable {α : Type} {reactor after : Reactor α} {heap : α → Article}

theorem writes_timeout (connection : Connection α) (calls : List (Call α)) :
    writes (connection.timeoutNextAsyncOperation ++ calls) = writes calls := by
  rw [timeoutNextAsyncOperation]
  split <;> rfl

/-- What a call that starts an operation does. -/
theorem ask_starts {call : Call α} {handler : Handler α} (one : call.handler? = some handler) :
    ∃ history, reactor.ask call = { reactor with
      pending := reactor.pending ++ [(reactor.started, handler)]
      started := reactor.started + 1
      history } := by
  cases call with
  | startTimer seconds => cases one
  | cancelTimer => cases one
  | _ =>
    cases one
    exact ⟨_, rfl⟩

/-- A connection that leaves one handler behind has started one operation. -/
theorem perform_one {act : Act α} {handler : Handler α} (one : act.2.filterMap Call.handler? = [handler]) :
    ∃ armed, reactor.perform act = { reactor with
      connection := act.1
      pending := reactor.pending ++ [(reactor.started, handler)]
      started := reactor.started + 1
      armed
      history := writes act.2 ++ reactor.history } := by
  have silent (calls : List (Call α)) (quiet : calls.filterMap Call.handler? = []) (reactor : Reactor α) :
      ∃ armed, calls.foldl ask reactor = { reactor with armed, history := writes calls ++ reactor.history } := by
    induction calls generalizing reactor with
    | nil => exact ⟨reactor.armed, rfl⟩
    | cons call calls ih =>
      cases call with
      | startTimer seconds => exact ih quiet { reactor with armed := some reactor.started }
      | cancelTimer => exact ih quiet { reactor with armed := none }
      | _ => cases quiet
  have all (calls : List (Call α)) (one : calls.filterMap Call.handler? = [handler]) (reactor : Reactor α) :
      ∃ armed, calls.foldl ask reactor = { reactor with
        pending := reactor.pending ++ [(reactor.started, handler)]
        started := reactor.started + 1
        armed
        history := writes calls ++ reactor.history } := by
    induction calls generalizing reactor with
    | nil => cases one
    | cons call calls ih =>
      cases call with
      | startTimer seconds => exact ih one { reactor with armed := some reactor.started }
      | cancelTimer => exact ih one { reactor with armed := none }
      | asyncWrite buffers stage =>
        obtain ⟨same, quiet⟩ := List.cons.inj one
        cases same
        obtain ⟨armed, rest⟩ := silent calls quiet
          ({ reactor with history := .wrote buffers stage :: reactor.history }.start (.stage stage))
        exact ⟨armed, rest.trans (by simp [writes, written?, Reactor.start])⟩
      | _ =>
        obtain ⟨same, quiet⟩ := List.cons.inj one
        cases same
        obtain ⟨armed, rest⟩ := silent calls quiet (reactor.start _)
        exact ⟨armed, rest⟩
  exact all act.2 one { reactor with connection := act.1 }

/-- What a script says of a connection, of the handler that is pending, and of what has occurred. -/
abbrev Script (α : Type) := Connection α → Handler α → List (Occurrence α) → Prop

section Scripts

variable {script : Script α} {connection : Connection α} {stage : Stage} {outcome : Outcome} {new : List (Occurrence α)}

/-- The one handler that is left behind continues the script. -/
def Leads (script : Script α) (act : Act α) (new : List (Occurrence α)) : Prop :=
  ∃ handler, act.2.filterMap Call.handler? = [handler] ∧ script act.1 handler (writes act.2 ++ new)

/-- Whichever function of the connection comes next, and however its operation ended, the script goes on. -/
def Follows (heap : α → Article) (script : Script α) : Prop :=
  ∀ connection stage outcome new, script connection (.stage stage) new →
    Leads script (connection.run heap stage outcome) (ended connection stage outcome ++ new)

theorem leads_timed {calls : List (Call α)} {handler : Handler α}
    (one : calls.filterMap Call.handler? = [handler]) (goes : script connection handler (writes calls ++ new)) :
    Leads script (connection, connection.timeoutNextAsyncOperation ++ calls) new :=
  ⟨handler, by rw [handlers_timeout, one], by rw [writes_timeout]; exact goes⟩

theorem leads_write {buffers : Bytes} (goes : script connection (.stage stage) (.wrote buffers stage :: new)) :
    Leads script (connection.write buffers stage) new :=
  leads_timed rfl goes

theorem leads_readLine (goes : script connection (.stage stage) new) : Leads script (connection.readLine stage) new :=
  leads_timed rfl goes

theorem leads_post {handler : Handler α} (goes : script connection handler new) :
    Leads script (connection, [.post handler]) new :=
  ⟨handler, rfl, goes⟩

theorem leads_preceded {act : Act α} (leads : Leads script act new) : Leads script (preceded [.cancelTimer] act) new := leads

theorem leads_branch (told : posted stage = false) (reading : Session.reads stage = false) {good bad : Act α}
    (fails : Leads script bad (.completed stage true none :: new))
    (goes : Leads script good (.completed stage false none :: new)) :
    Leads script (if outcome.failed = true then bad else good) (ended connection stage outcome ++ new) := by
  simp only [ended, told, reading, Bool.false_eq_true, ite_false]
  cases outcome.failed with
  | false => exact goes
  | true => exact fails

theorem leads_onWritten (told : posted stage = false) (reading : Session.reads stage = false)
    {good bad : Connection α → Act α} (goes : Leads script (good connection) (.completed stage false none :: new))
    (fails : Leads script (bad connection) (.completed stage true none :: new)) :
    Leads script (connection.onWritten outcome good bad) (ended connection stage outcome ++ new) :=
  leads_preceded (leads_branch told reading fails goes)

theorem leads_onLine (told : posted stage = false) (reading : Session.reads stage = true)
    {good : Bytes → Connection α → Act α} {bad : Connection α → Act α}
    (goes : ∀ line readbuf, Leads script (good line { connection with readbuf }) (.completed stage false (some line) :: new))
    (fails : ∀ readbuf, Leads script (bad { connection with readbuf }) (.completed stage true none :: new)) :
    Leads script (connection.onLine outcome good bad) (ended connection stage outcome ++ new) := by
  obtain ⟨readbuf, rest⟩ := receiveLine_readbuf connection outcome
  simp only [ended, told, reading, Bool.false_eq_true, ite_false, ite_true]
  rw [onLine]
  split
  next line after found =>
    rw [found] at rest
    cases rest
    simp only [found, Option.isNone_some]
    exact leads_preceded (goes line readbuf)
  next after found =>
    rw [found] at rest
    cases rest
    simp only [found, Option.isNone_none]
    exact fails readbuf

end Scripts

/-- The events that are not calls of the owner. -/
def io : Event α → Bool
  | .complete _ _ | .expire | .cancel _ => true
  | _ => false

def completes : Event α → Nat
  | .complete _ _ => 1
  | _ => 0

/-- How many handlers can run at most before nothing is pending. -/
def remaining : Handler α → Nat
  | .stage .doConnect => 10
  | .stage .resolved => 9
  | .stage .connected => 8
  | .stage .handshaken => 7
  | .stage .greeted => 6
  | .stage .usernameWritten => 5
  | .stage .usernameAnswered => 4
  | .stage .passwordWritten => 3
  | .stage .passwordAnswered => 2
  | .stage .doPost => 6
  | .stage .postWritten => 5
  | .stage .postAnswered => 4
  | .stage .articleWritten => 3
  | .stage .articleAnswered => 2
  | .stage .doStat => 4
  | .stage .statWritten => 3
  | .stage .statAnswered => 2
  | _ => 1

theorem follows_remaining {stage : Stage} {handler : Handler α} (follow : follows stage handler = true) :
    remaining handler < remaining (.stage stage : Handler α) := by
  cases handler with
  | stage next => cases stage <;> cases next <;> first | (simp only [remaining]; omega) | cases follow
  | timer => cases stage <;> cases follow
  | connectHandler result => cases stage <;> first | (simp only [remaining]; omega) | cases follow
  | postHandler message result => cases stage <;> first | (simp only [remaining]; omega) | cases follow
  | statHandler msgid result => cases stage <;> first | (simp only [remaining]; omega) | cases follow

/-- Where an operation is that began when the history was this: it goes on, or the owner's
handler has been invoked, once and last. -/
inductive Stands (script : Script α) (before : List (Occurrence α)) (reactor : Reactor α) : Prop
  | midway {number : Nat} {handler : Handler α} {new : List (Occurrence α)}
      (pending : reactor.pending = [(number, handler)]) (history : reactor.history = new ++ before)
      (goes : script reactor.connection handler new)
  | concluded {handler : Handler α} {new : List (Occurrence α)} (callback : ∀ stage, handler ≠ .stage stage)
      (pending : reactor.pending = []) (history : reactor.history = .invoked handler :: new ++ before)
      (goes : script reactor.connection handler new)

/-- How many handlers can run at most from here. -/
def left (reactor : Reactor α) : Nat := (reactor.pending.map (fun entry => remaining entry.2)).sum

theorem complete_stands {script : Script α} (follow : Follows heap script) (outcome : Outcome)
    {before new : List (Occurrence α)} {handler : Handler α} (history : reactor.history = new ++ before)
    (goes : script reactor.connection handler new) :
    Stands script before ({ reactor with pending := [] }.complete heap handler outcome) ∧
      1 + left ({ reactor with pending := [] }.complete heap handler outcome) ≤ remaining handler := by
  have calls (callback : ∀ stage, handler ≠ .stage stage) : Stands script before
      { reactor with pending := [], history := .invoked handler :: reactor.history } :=
    .concluded callback rfl (by simp [history]) goes
  cases handler with
  | stage stage =>
    obtain ⟨next, one, continues⟩ := follow reactor.connection stage outcome new goes
    have later := follows_remaining (run_follows heap stage outcome reactor.connection next (by simp [one]))
    obtain ⟨armed, performed⟩ := @perform_one α { reactor with
      pending := []
      history := ended reactor.connection stage outcome ++ reactor.history } _ next one
    rw [complete, performed]
    refine ⟨.midway rfl ?_ continues, by simp [left]; omega⟩
    simp [history]
  | timer => exact ⟨calls nofun, Nat.le_refl 1⟩
  | connectHandler result => exact ⟨calls nofun, Nat.le_refl 1⟩
  | postHandler message result => exact ⟨calls nofun, Nat.le_refl 1⟩
  | statHandler msgid result => exact ⟨calls nofun, Nat.le_refl 1⟩

theorem step_running (running : reactor.terminated = false) (event : Event α) :
    step heap reactor event = reactor.serve heap event := by
  rw [step, running, if_neg Bool.false_ne_true]

theorem step_serve {event : Event α} (taken : step heap reactor event = some after) :
    reactor.terminated = false ∧ reactor.serve heap event = some after := by
  rw [step] at taken
  split at taken
  next => cases taken
  next running => exact ⟨Bool.eq_false_iff.mpr running, taken⟩

theorem perform_terminated (reactor : Reactor α) (act : Act α) : (reactor.perform act).terminated = reactor.terminated := by
  have asked (calls : List (Call α)) (reactor : Reactor α) : (calls.foldl ask reactor).terminated = reactor.terminated := by
    induction calls generalizing reactor with
    | nil => rfl
    | cons call calls ih =>
      rw [List.foldl_cons, ih]
      cases call <;> rfl
  exact asked act.2 _

theorem complete_terminated (reactor : Reactor α) (handler : Handler α) (outcome : Outcome) :
    (reactor.complete heap handler outcome).terminated = reactor.terminated := by
  cases handler with
  | stage stage => exact perform_terminated _ _
  | _ => rfl

/-- The events of the io service: a wait of the timer that moves on, or a handler that runs. -/
theorem io_step {event : Event α} (served : io event = true) (taken : step heap reactor event = some after) :
    (completes event = 0 ∧ ∃ armed expired terminated, after = { reactor with armed, expired, terminated }) ∨
      ∃ place outcome number handler, event = .complete place outcome ∧ reactor.pending[place]? = some (number, handler) ∧
        after = { reactor with pending := reactor.pending.eraseIdx place }.complete heap handler outcome := by
  replace taken := (step_serve taken).2
  cases event with
  | complete place outcome =>
    simp only [serve] at taken
    split at taken
    next number handler found =>
      cases taken
      exact .inr ⟨place, outcome, number, handler, rfl, found, rfl⟩
    next => cases taken
  | expire =>
    simp only [serve] at taken
    split at taken
    · cases taken
      exact .inl ⟨rfl, _, _, _, rfl⟩
    · cases taken
  | cancel place =>
    simp only [serve] at taken
    split at taken
    · cases taken
      exact .inl ⟨rfl, _, _, _, rfl⟩
    · cases taken
  | _ => cases served

/-- Only a closed socket ends the program. -/
theorem step_terminated {event : Event α} (taken : step heap reactor event = some after) (ended : after.terminated = true) :
    after.connection.sockOpen = false ∧ ∃ place operation, event = .cancel place ∧ reactor.expired[place]? = some operation := by
  obtain ⟨running, taken⟩ := step_serve taken
  have kept (same : after.terminated = reactor.terminated) : False := by simp [same, running] at ended
  cases event with
  | cancel place =>
    simp only [serve] at taken
    split at taken
    next operation found =>
      cases taken
      exact ⟨by simpa using ended, place, operation, rfl, found⟩
    next => cases taken
  | complete place outcome =>
    simp only [serve] at taken
    split at taken
    · cases taken
      exact (kept (complete_terminated ..)).elim
    · cases taken
  | expire =>
    simp only [serve] at taken
    split at taken
    · cases taken
      exact (kept rfl).elim
    · cases taken
  | close outcome =>
    simp only [serve] at taken
    split at taken
    · cases taken
      exact (kept rfl).elim
    · cases taken
  | asyncConnect | asyncPost | asyncStat | asyncGracefulDisconnect =>
    simp only [serve] at taken
    split at taken
    · cases taken
      exact (kept (perform_terminated ..)).elim
    · cases taken

theorem only_pending {number : Nat} {handler : Handler α} (pending : reactor.pending = [(number, handler)]) {place : Nat}
    {entry : Nat × Handler α} (found : reactor.pending[place]? = some entry) :
    entry = (number, handler) ∧ reactor.pending.eraseIdx place = [] := by
  obtain ⟨inside, same⟩ := List.getElem?_eq_some_iff.mp found
  have first : place = 0 := by simpa [pending] using inside
  subst first
  exact ⟨by simpa [pending] using same.symm, by simp [pending]⟩

theorem step_stands {script : Script α} (follow : Follows heap script) {before : List (Occurrence α)}
    (stands : Stands script before reactor) {event : Event α} (served : io event = true)
    (taken : step heap reactor event = some after) :
    Stands script before after ∧ completes event + left after ≤ left reactor := by
  obtain ⟨none', armed, expired, terminated, rfl⟩ | ⟨place, outcome, number, handler, rfl, found, rfl⟩ := io_step served taken
  · refine ⟨?_, by simp [none', left]⟩
    cases stands with
    | midway pending history goes => exact .midway pending history goes
    | concluded callback pending history goes => exact .concluded callback pending history goes
  · cases stands with
    | midway pending history goes =>
      obtain ⟨same, empty⟩ := only_pending pending found
      cases same
      have whole : left reactor = remaining handler := by simp [left, pending]
      rw [empty, whole]
      exact complete_stands follow outcome history goes
    | concluded callback pending history goes => simp [pending] at found

theorem run_stands {script : Script α} (follow : Follows heap script) {before : List (Occurrence α)}
    (stands : Stands script before reactor) {events : List (Event α)} (served : ∀ event ∈ events, io event = true)
    (reached : Machine.run (step heap) reactor events = some after) :
    Stands script before after ∧ (events.map completes).sum + left after ≤ left reactor := by
  induction events generalizing reactor with
  | nil =>
    cases reached
    exact ⟨stands, by simp⟩
  | cons event rest ih =>
    obtain ⟨next, taken, reached⟩ := Option.bind_eq_some_iff.mp reached
    obtain ⟨stands, fewer⟩ := step_stands follow stands (served event (List.mem_cons_self ..)) taken
    obtain ⟨stands, bound⟩ := ih stands (fun other member => served other (List.mem_cons_of_mem _ member)) reached
    refine ⟨stands, ?_⟩
    simp only [List.map_cons, List.sum_cons]
    omega

end Post2Usenet.Proofs.ReactorSteps
