import Post2Usenet.Operations
import Post2Usenet.Proofs.Completions

/-! A connection accepts one operation at a time as long as nobody asks it while a
function that was accepted has yet to run: its state changes only then. -/

namespace Post2Usenet.Proofs.OperationOrder
open Connection ConnectionSteps ReactorSteps Exchanges Logins Operations
open Reactor (writes)
open Completions (plainServer arriving)

variable {α : Type} {heap : α → Article}

def article? : Occurrence α → Option Bytes
  | .wrote buffers .articleWritten => some buffers
  | _ => none

/-- The connection holds what it was asked for. -/
def Held (connection : Connection α) : Operation α → Prop
  | .post message => connection.article = some message
  | .stat mid => connection.msgid = mid

/-- An exchange sends its article once at most, and exactly once when the result is the
server's answer to it. The result is bound to what was accepted. -/
def Sends (heap : α → Article) (exchange : Exchange α) : Prop :=
  match exchange.operation with
  | .post message =>
    (exchange.occurred.filterMap article? = [] ∨ exchange.occurred.filterMap article? = [(heap message).wire]) ∧
      ∀ handler, exchange.determined = some handler → ∃ result, handler = .postHandler message result ∧
        (result = .postSuccess ∨ result = .postFailure → exchange.occurred.filterMap article? = [(heap message).wire]) ∧
        (result = .postingNotPermitted → exchange.occurred.filterMap article? = [])
  | .stat mid =>
    exchange.occurred.filterMap article? = [] ∧
      ∀ handler, exchange.determined = some handler → ∃ result, handler = .statHandler mid result

/-- One operation at a time: the result of every exchange but the latest is determined,
and the connection holds what the latest is about until its own is. -/
structure Exclusive (heap : α → Article) (operations : Operations α) : Prop where
  alone : ∀ exchange ∈ operations.exchanges.tail, exchange.determined.isSome = true
  held : ∀ exchange ∈ operations.exchanges, exchange.determined = none → Held operations.connection exchange.operation
  sends : ∀ exchange ∈ operations.exchanges, Sends heap exchange

/-- Nobody asks while a function that was accepted waits to run. -/
def Patient (operations : Operations α) : Event α → Prop
  | .ask _ => .doPost ∉ operations.stages ∧ .doStat ∉ operations.stages
  | _ => True

/-- The script of an operation. -/
def Conducts (heap : α → Article) : Operation α → Script α
  | .post message => Posts heap message
  | .stat mid => Stats mid

theorem conducts_follows (operation : Operation α) : Follows heap (Conducts heap operation) := by
  cases operation with
  | post message => exact posts_follows message
  | stat mid => exact stats_follows mid

/-- Its result is determined, at the end of its script. -/
def Concluded (heap : α → Article) (exchange : Exchange α) : Prop :=
  ∃ handler connection, exchange.determined = some handler ∧ (∀ stage, handler ≠ .stage stage) ∧
    Conducts heap exchange.operation connection handler exchange.occurred

inductive Engaged (heap : α → Article) (operations : Operations α) : Prop
  | rests (stages : operations.stages = []) (article : operations.connection.article = none)
      (msgid : operations.connection.msgid = [])
      (sockOpen : operations.connection.state = .connectedAndAuthenticated → operations.connection.sockOpen = true)
      (past : ∀ exchange ∈ operations.exchanges, Concluded heap exchange)
  | connects {conninfo : ConnectionInfo} {stage : Stage} {new : List (Occurrence α)} (stages : operations.stages = [stage])
      (goes : Connects conninfo operations.connection (.stage stage) new)
      (past : ∀ exchange ∈ operations.exchanges, Concluded heap exchange)
  | conducts {operation : Operation α} {stage : Stage} {new : List (Occurrence α)} {earlier : List (Exchange α)}
      (stages : operations.stages = [stage]) (goes : Conducts heap operation operations.connection (.stage stage) new)
      (fits : Fits operations.connection (.stage stage)) (staying : owns (.stage stage : Handler α) = true)
      (latest : operations.exchanges = ⟨operation, new, none⟩ :: earlier)
      (past : ∀ exchange ∈ earlier, Concluded heap exchange)
  | quits (stages : operations.stages = [.quitWritten]) (state : operations.connection.state = .busy) (article : operations.connection.article = none)
      (msgid : operations.connection.msgid = []) (past : ∀ exchange ∈ operations.exchanges, Concluded heap exchange)

section Sends

theorem posting_sent {message : α} {handler : Handler α} {new : List (Occurrence α)}
    (script : Posting heap message handler new) :
    (new.filterMap article? = [] ∨ new.filterMap article? = [(heap message).wire]) ∧
      ∀ result, handler = .postHandler message result →
        (result = .postSuccess ∨ result = .postFailure → new.filterMap article? = [(heap message).wire]) ∧
        (result = .postingNotPermitted → new.filterMap article? = []) := by
  constructor
  · induction script with
    | fails told before ih => exact ih
    | accepted => exact .inl rfl
    | commanded => exact .inl rfl
    | asked => exact .inl rfl
    | permitted allowed => exact .inr rfl
    | sent allowed => exact .inr rfl
    | refused refusal => exact .inl rfl
    | replied allowed => exact .inr rfl
  · intro result same
    cases script with
    | fails told before =>
      cases same
      exact ⟨fun answer => by simp at answer, fun refused => by cases refused⟩
    | refused refusal =>
      cases same
      exact ⟨fun answer => by simp at answer, fun _ => rfl⟩
    | replied allowed =>
      refine ⟨fun _ => rfl, fun refused => ?_⟩
      cases same
      split at refused
      · cases refused
      · cases refused
    | _ => cases same

theorem stating_sent {mid : Bytes} {handler : Handler α} {new : List (Occurrence α)}
    (script : Stating mid handler new) : new.filterMap article? = [] := by
  induction script with
  | fails told before ih => exact ih
  | _ => rfl

theorem concluded_sends {exchange : Exchange α} (concluded : Concluded heap exchange) : Sends heap exchange := by
  obtain ⟨operation, occurred, determined⟩ := exchange
  obtain ⟨handler, connection, rfl, callback, goes⟩ := concluded
  cases operation with
  | post message =>
    obtain ⟨once, verdict⟩ := posting_sent goes.script
    obtain ⟨result, rfl, -⟩ := posting_verdict goes.script callback
    refine ⟨once, fun handler same => ?_⟩
    cases same
    exact ⟨result, rfl, verdict result rfl⟩
  | stat mid =>
    obtain ⟨result, rfl, -⟩ := stating_verdict goes.script callback
    refine ⟨stating_sent goes.script, fun handler same => ?_⟩
    cases same
    exact ⟨result, rfl⟩

theorem conducting_sends {operation : Operation α} {connection : Connection α} {handler : Handler α}
    {new : List (Occurrence α)} (goes : Conducts heap operation connection handler new) :
    Sends heap ⟨operation, new, none⟩ := by
  cases operation with
  | post message => exact ⟨(posting_sent goes.script).1, fun handler same => by cases same⟩
  | stat mid => exact ⟨stating_sent goes.script, fun handler same => by cases same⟩

theorem conducting_held {operation : Operation α} {connection : Connection α} {stage : Stage}
    {new : List (Occurrence α)} (goes : Conducts heap operation connection (.stage stage) new) :
    Held connection operation := by
  cases operation with
  | post message => exact goes.held stage rfl
  | stat mid => exact goes.held stage rfl

end Sends

variable {operations after : Operations α}

theorem concluded_isSome {exchange : Exchange α} (concluded : Concluded heap exchange) :
    exchange.determined.isSome = true := by
  obtain ⟨handler, connection, same, -⟩ := concluded
  simp [same]

theorem exclusive_past (past : ∀ exchange ∈ operations.exchanges, Concluded heap exchange) : Exclusive heap operations where
  alone exchange member := concluded_isSome (past exchange (List.mem_of_mem_tail member))
  held exchange member open' := by simpa [open'] using concluded_isSome (past exchange member)
  sends exchange member := concluded_sends (past exchange member)

theorem engaged_exclusive (engaged : Engaged heap operations) : Exclusive heap operations := by
  cases engaged with
  | rests stages article msgid sockOpen past => exact exclusive_past past
  | connects stages goes past => exact exclusive_past past
  | quits stages state article msgid past => exact exclusive_past past
  | @conducts operation stage new earlier stages goes fits staying latest past =>
    constructor
    · rw [latest]
      exact fun exchange member => concluded_isSome (past exchange member)
    · rw [latest]
      refine List.forall_mem_cons.mpr ⟨fun _ => conducting_held goes, fun exchange member open' => ?_⟩
      simpa [open'] using concluded_isSome (past exchange member)
    · rw [latest]
      exact List.forall_mem_cons.mpr ⟨conducting_sends goes, fun exchange member => concluded_sends (past exchange member)⟩

/-- What is determined stays as it is. -/
theorem note_past {exchanges : List (Exchange α)} (past : ∀ exchange ∈ exchanges, Concluded heap exchange)
    (new : List (Occurrence α)) (determined : Option (Handler α)) : note new determined exchanges = exchanges := by
  cases exchanges with
  | nil => rfl
  | cons exchange earlier => rw [note, if_pos (concluded_isSome (past exchange (List.mem_cons_self ..)))]

theorem perform_one {act : Act α} {handler : Handler α} (one : act.2.filterMap Call.handler? = [handler])
    (ended : List (Occurrence α)) :
    operations.perform ended act = {
      connection := act.1
      pending := operations.pending ++ [handler]
      exchanges := note (writes act.2 ++ ended) (result? handler) operations.exchanges } := by
  simp only [perform, one]
  cases handler <;> rfl

theorem stages_append (connection : Connection α) (pending : List (Handler α)) (handler : Handler α)
    (exchanges : List (Exchange α)) :
    (Operations.mk connection (pending ++ [handler]) exchanges).stages = pending.filterMap stage? ++ (stage? handler).toList := by
  cases handler <;> simp [stages, stage?]

/-- Taking a handler out of the queue takes its function out. -/
theorem stages_eraseIdx {place : Nat} {handler : Handler α} (found : operations.pending[place]? = some handler) :
    ∃ first rest, operations.stages = first ++ (stage? handler).toList ++ rest ∧
      (operations.pending.eraseIdx place).filterMap stage? = first ++ rest := by
  obtain ⟨inside, same⟩ := List.getElem?_eq_some_iff.mp found
  have split : operations.pending = operations.pending.take place ++ handler :: operations.pending.drop (place + 1) := by
    rw [← same, List.getElem_cons_drop, List.take_append_drop]
  refine ⟨(operations.pending.take place).filterMap stage?, (operations.pending.drop (place + 1)).filterMap stage?, ?_, ?_⟩
  · rw [stages, congrArg (List.filterMap stage?) split, List.filterMap_append, List.append_assoc]
    congr 1
    cases handler <;> rfl
  · rw [List.eraseIdx_eq_take_drop_succ, List.filterMap_append]

theorem only_stage {place : Nat} {stage other : Stage} (found : operations.pending[place]? = some (.stage stage))
    (alone : operations.stages = [other]) :
    stage = other ∧ (operations.pending.eraseIdx place).filterMap stage? = [] := by
  obtain ⟨first, rest, stages, erased⟩ := stages_eraseIdx found
  rw [alone] at stages
  have counted := congrArg List.length stages
  simp only [stage?, Option.toList_some, List.length_append, List.length_cons, List.length_nil] at counted
  obtain rfl := List.eq_nil_of_length_eq_zero (by omega : first.length = 0)
  obtain rfl := List.eq_nil_of_length_eq_zero (by omega : rest.length = 0)
  exact ⟨by simpa [stage?] using stages.symm, erased⟩

/-- A script that ends has determined a result, and leaves nothing of the operation. -/
theorem conducts_concluded {operation : Operation α} {connection : Connection α} {handler : Handler α}
    {new : List (Occurrence α)} (goes : Conducts heap operation connection handler new)
    (callback : ∀ stage, handler ≠ .stage stage) :
    result? handler = some handler ∧ connection.article = none ∧ connection.msgid = [] ∧ connection.sockOpen = true := by
  cases operation with
  | post message =>
    obtain ⟨result, rfl, -⟩ := posting_verdict goes.script callback
    exact ⟨rfl, (goes.idle callback).article, goes.msgid, goes.sockOpen⟩
  | stat mid =>
    obtain ⟨result, rfl, -⟩ := stating_verdict goes.script callback
    exact ⟨rfl, goes.article, (goes.idle callback).2, goes.sockOpen⟩

/-- The function that is queued runs, and leaves the next one or has ended what it belongs to. -/
theorem complete_engaged (engaged : Engaged heap operations) {place : Nat} {stage : Stage} (outcome : Outcome)
    (found : operations.pending[place]? = some (.stage stage)) :
    Engaged heap ({ operations with pending := operations.pending.eraseIdx place }.perform
      (Reactor.ended operations.connection stage outcome) (operations.connection.run heap stage outcome)) := by
  cases engaged with
  | rests stages article msgid sockOpen past =>
    obtain ⟨first, rest, split, -⟩ := stages_eraseIdx found
    simp [stages, stage?] at split
  | @connects conninfo other new stages goes past =>
    obtain ⟨rfl, empty⟩ := only_stage found stages
    obtain ⟨handler, one, continues⟩ := connects_follows conninfo operations.connection stage outcome new goes
    rw [perform_one one, note_past past]
    by_cases more : ∃ next, handler = .stage next
    · obtain ⟨next, rfl⟩ := more
      exact .connects (by rw [stages_append, empty]; rfl) continues past
    · have callback : ∀ next, handler ≠ .stage next := fun next same => more ⟨next, same⟩
      obtain ⟨result, rfl, -⟩ := connecting_verdict continues.script callback
      obtain ⟨success, opens⟩ := continues.reports result rfl
      exact .rests (by rw [stages_append, empty]; rfl) continues.article continues.msgid
        (fun ready => opens (success.mp ready)) past
  | @conducts operation other new earlier stages goes fits staying latest past =>
    obtain ⟨rfl, empty⟩ := only_stage found stages
    obtain ⟨handler, one, continues⟩ := conducts_follows operation operations.connection stage outcome new goes
    obtain ⟨same, alone, owned, laterFits, -⟩ := run_continues heap outcome fits staying
    cases List.singleton_inj.mp (alone.symm.trans one)
    rw [perform_one one, latest]
    by_cases more : ∃ next, handler = .stage next
    · obtain ⟨next, rfl⟩ := more
      exact .conducts (by rw [stages_append, empty]; rfl) continues laterFits owned (by simp [note, result?]) past
    · have callback : ∀ next, handler ≠ .stage next := fun next same => more ⟨next, same⟩
      obtain ⟨determined, article, msgid, sockOpen⟩ := conducts_concluded continues callback
      refine .rests ?_ article msgid (fun _ => sockOpen) ?_
      · rw [stages_append, empty]
        cases handler with
        | stage next => exact absurd rfl (callback next)
        | _ => rfl
      · simp only [note, Option.isSome_none, Bool.false_eq_true, ite_false, determined]
        exact List.forall_mem_cons.mpr ⟨⟨handler, _, rfl, callback, by simpa using continues⟩, past⟩
  | quits stages state article msgid past =>
    obtain ⟨rfl, empty⟩ := only_stage found stages
    obtain ⟨closed, articles, msgids⟩ := Completions.close_rests operations.connection outcome
    refine .rests ?_ (articles.trans article) (msgids.trans msgid) (fun ready => by cases closed.symm.trans ready) ?_
    · simpa [perform, run, Operations.stages, Call.handler?] using empty
    · simp only [perform, run, note_past past]
      exact past

theorem engaged_rests (engaged : Engaged heap operations) (free : operations.stages = []) :
    operations.connection.article = none ∧ operations.connection.msgid = [] ∧
      (operations.connection.state = .connectedAndAuthenticated → operations.connection.sockOpen = true) ∧
      ∀ exchange ∈ operations.exchanges, Concluded heap exchange := by
  cases engaged with
  | rests stages article msgid sockOpen past => exact ⟨article, msgid, sockOpen, past⟩
  | connects stages goes past => simp [free] at stages
  | conducts stages goes fits staying latest past => simp [free] at stages
  | quits stages state article msgid past => simp [free] at stages

/-- A handler of the owner that runs changes nothing of the connection. -/
theorem callback_engaged (engaged : Engaged heap operations) {place : Nat} {handler : Handler α}
    (found : operations.pending[place]? = some handler) (callback : stage? handler = none) :
    Engaged heap { operations with pending := operations.pending.eraseIdx place } := by
  obtain ⟨first, rest, split, erased⟩ := stages_eraseIdx found
  have same : Operations.stages { operations with pending := operations.pending.eraseIdx place } = operations.stages := by
    rw [split, callback]
    simpa [Operations.stages] using erased
  cases engaged with
  | rests stages article msgid sockOpen past => exact .rests (same.trans stages) article msgid sockOpen past
  | connects stages goes past => exact .connects (same.trans stages) goes past
  | conducts stages goes fits staying latest past => exact .conducts (same.trans stages) goes fits staying latest past
  | quits stages state article msgid past => exact .quits (same.trans stages) state article msgid past

/-- An accepted operation is queued, and the connection holds it. -/
theorem ask_ready (ready : operations.connection.state = .connectedAndAuthenticated) (operation : Operation α) :
    ∃ connection stage, operations.ask operation = (true, connection, [.post (.stage stage)]) ∧
      (operations.connection.article = none → operations.connection.msgid = [] → operations.connection.sockOpen = true →
        Conducts heap operation connection (.stage stage) [] ∧ Fits connection (.stage stage) ∧
          owns (.stage stage : Handler α) = true) := by
  cases operation with
  | post message =>
    refine ⟨{ operations.connection with article := some message }, .doPost, by simp [ask, asyncPost, ready], ?_⟩
    intro article msgid sockOpen
    exact ⟨⟨.accepted, fun _ _ => rfl, fun callback => absurd rfl (callback _), msgid, sockOpen⟩, ⟨ready, rfl⟩, rfl⟩
  | stat mid =>
    refine ⟨{ operations.connection with msgid := mid }, .doStat, by simp [ask, asyncStat, ready], ?_⟩
    intro article msgid sockOpen
    exact ⟨⟨.accepted, fun _ _ => rfl, fun callback => absurd rfl (callback _), article, sockOpen⟩,
      ⟨ready, by simp [article, posting]⟩, rfl⟩

theorem ask_refused (ready : operations.connection.state ≠ .connectedAndAuthenticated) (operation : Operation α) :
    operations.ask operation = (false, operations.connection, []) := by
  cases operation <;> simp [ask, asyncPost, asyncStat, ready]

theorem entry_ready {stage : Stage} (ready : entry stage = .connectedAndAuthenticated) :
    stage = .doPost ∨ stage = .doStat := by
  cases stage with
  | doPost => exact .inl rfl
  | doStat => exact .inr rfl
  | _ => cases ready

/-- A connection is ready while nothing of it is queued, or what was accepted has not run. -/
theorem engaged_ready (engaged : Engaged heap operations) (ready : operations.connection.state = .connectedAndAuthenticated) :
    operations.stages = [] ∨ .doPost ∈ operations.stages ∨ .doStat ∈ operations.stages := by
  have entered {stage : Stage} (stages : operations.stages = [stage]) (state : operations.connection.state = entry stage) :
      .doPost ∈ operations.stages ∨ .doStat ∈ operations.stages := by
    rw [stages]
    rcases entry_ready (state.symm.trans ready) with rfl | rfl
    · exact .inl (List.mem_singleton_self _)
    · exact .inr (List.mem_singleton_self _)
  cases engaged with
  | rests stages article msgid sockOpen past => exact .inl stages
  | connects stages goes past => exact .inr (entered stages (goes.state _ rfl))
  | conducts stages goes fits staying latest past => exact .inr (entered stages fits.1)
  | quits stages state article msgid past => cases state.symm.trans ready

theorem perform_nothing (past : ∀ exchange ∈ operations.exchanges, Concluded heap exchange) (connection : Connection α) :
    operations.perform [] (connection, []) = { operations with connection } := by
  simp [perform, note_past past]

theorem connect_engaged (engaged : Engaged heap operations) (free : operations.stages = []) :
    Engaged heap (operations.perform [] operations.connection.asyncConnect) := by
  obtain ⟨article, msgid, sockOpen, past⟩ := engaged_rests engaged free
  by_cases disconnected : operations.connection.state = .disconnected
  · rw [asyncConnect, if_pos disconnected, perform_one rfl, note_past past]
    refine .connects (by rw [stages_append]; exact congrArg (· ++ [_]) free) (Connects.midway .accepted rfl disconnected ?_ article msgid) past
    intro late
    cases late
  · rw [asyncConnect, if_neg disconnected, perform_nothing past]
    exact .rests free article msgid sockOpen past

theorem disconnect_engaged (engaged : Engaged heap operations) (free : operations.stages = []) :
    Engaged heap (operations.perform [] operations.connection.asyncGracefulDisconnect.2) := by
  obtain ⟨article, msgid, sockOpen, past⟩ := engaged_rests engaged free
  by_cases ready : operations.connection.state = .connectedAndAuthenticated
  · rw [asyncGracefulDisconnect, if_neg (not_not.mpr ready), perform_one (handlers_timeout ..), note_past past]
    exact .quits (by rw [stages_append]; exact congrArg (· ++ [_]) free) rfl article msgid past
  · rw [asyncGracefulDisconnect, if_pos ready, perform_nothing past]
    exact .rests free article msgid sockOpen past

theorem close_engaged (engaged : Engaged heap operations) (free : operations.stages = []) (outcome : Outcome) :
    Engaged heap { operations with connection := operations.connection.close outcome } := by
  obtain ⟨article, msgid, sockOpen, past⟩ := engaged_rests engaged free
  obtain ⟨closed, articles, msgids⟩ := Completions.close_rests operations.connection outcome
  exact .rests free (articles.trans article) (msgids.trans msgid) (fun ready => by cases closed.symm.trans ready) past

theorem patient_kept (engaged : Engaged heap operations) {event : Event α} (patient : Patient operations event)
    (taken : step heap operations event = some after) : Engaged heap after := by
  cases event with
  | asyncConnect =>
    obtain ⟨free, same⟩ := Option.ite_none_right_eq_some.mp taken
    cases same
    exact connect_engaged engaged free
  | asyncGracefulDisconnect =>
    obtain ⟨free, same⟩ := Option.ite_none_right_eq_some.mp taken
    cases same
    exact disconnect_engaged engaged free
  | close outcome =>
    obtain ⟨free, same⟩ := Option.ite_none_right_eq_some.mp taken
    cases same
    exact close_engaged engaged free outcome
  | ask operation =>
    simp only [step] at taken
    by_cases ready : operations.connection.state = .connectedAndAuthenticated
    · have free : operations.stages = [] :=
        (engaged_ready engaged ready).resolve_right (not_or.mpr patient)
      obtain ⟨article, msgid, sockOpen, past⟩ := engaged_rests engaged free
      obtain ⟨connection, stage, accepted, begins⟩ := @ask_ready α heap operations ready operation
      obtain ⟨goes, fits, staying⟩ := begins article msgid (sockOpen ready)
      rw [accepted] at taken
      cases taken
      exact .conducts (by rw [show [Call.post (.stage stage)].filterMap Call.handler? = [.stage stage] from rfl, stages_append]; exact congrArg (· ++ [_]) free) goes fits staying rfl past
    · rw [ask_refused ready] at taken
      cases taken
      simpa using engaged
  | complete place outcome =>
    simp only [step] at taken
    cases found : operations.pending[place]? with
    | none => simp [found] at taken
    | some handler =>
      cases handler with
      | stage stage =>
        simp only [found] at taken
        cases taken
        exact complete_engaged engaged outcome found
      | _ =>
        simp only [found] at taken
        cases taken
        exact callback_engaged engaged found rfl

/-- An impatient call is accepted, and the operation before it has no result. -/
theorem impatient_breaks (engaged : Engaged heap operations) {event : Event α} (impatient : ¬ Patient operations event)
    (taken : step heap operations event = some after) : ¬ Exclusive heap after := by
  cases event with
  | ask operation =>
    have waiting : .doPost ∈ operations.stages ∨ .doStat ∈ operations.stages := by
      by_contra absent
      exact impatient (not_or.mp absent)
    cases engaged with
    | rests stages article msgid sockOpen past => simp [stages] at waiting
    | quits stages state article msgid past => simp [stages] at waiting
    | connects stages goes past =>
      simp only [stages, List.mem_singleton] at waiting
      rcases waiting with rfl | rfl
      · cases goes.script
      · cases goes.script
    | conducts stages goes fits staying latest past =>
      simp only [stages, List.mem_singleton] at waiting
      have ready : operations.connection.state = .connectedAndAuthenticated := by
        rcases waiting with rfl | rfl
        · exact fits.1
        · exact fits.1
      obtain ⟨connection, stage, accepted, -⟩ := @ask_ready α heap operations ready operation
      simp only [step, accepted, ite_true, latest] at taken
      cases taken
      rintro ⟨alone, -, -⟩
      cases alone _ (List.mem_cons_self ..)
  | _ => exact absurd trivial impatient

/-- In every run of a connection, operations are one at a time when, and only when, each is
asked for while no function that was accepted has yet to run. -/
theorem exclusive_iff_patient (heap : α → Article) (conninfo : ConnectionInfo) (timeout : Int) (events : List (Event α)) :
    Machine.Holds (step heap) (Exclusive heap) (make conninfo timeout) events ↔
      Machine.Meets (step heap) Patient (make conninfo timeout) events := by
  have starts : Engaged heap (make conninfo timeout) :=
    .rests rfl rfl rfl (fun ready => by cases ready) (List.forall_mem_nil _)
  refine Machine.holds_iff_meets (Engaged heap) (Exclusive heap) ⟨starts, engaged_exclusive starts⟩ ?_ ?_ events
  · intro before event after engaged _ taken patient
    have kept := patient_kept engaged patient taken
    exact ⟨kept, engaged_exclusive kept⟩
  · exact fun before event after engaged _ taken impatient => impatient_breaks engaged impatient taken

/-- The connection logs in, and is asked to post twice before `do_post` has run. -/
private def hastyRun : List (Event Nat) :=
  .asyncConnect :: ["", "", "", "200 ready\r\n", "", "281 welcome\r\n"].map (fun line => .complete 0 (arriving line)) ++
    [.ask (.post 1), .ask (.post 2)]

private def sampleHeap (message : Nat) : Article := ⟨⟨ascii "poster", [], ascii "subject", ascii "<j>", []⟩, [[UInt8.ofNat message]]⟩

theorem hasty_overwrites :
    ∃ operations, Machine.run (step sampleHeap) (make plainServer 0) hastyRun = some operations ∧
      operations.exchanges = [⟨.post 2, [], none⟩, ⟨.post 1, [], none⟩] ∧ operations.connection.article = some 2 ∧
      ¬ Exclusive sampleHeap operations := by
  have computed : (Machine.run (step sampleHeap) (make plainServer 0) hastyRun).map
      (fun operations => (operations.exchanges, operations.connection.article)) =
        some ([⟨.post 2, [], none⟩, ⟨.post 1, [], none⟩], some 2) := by decide +kernel
  obtain ⟨operations, reached, seen⟩ := Option.map_eq_some_iff.mp computed
  obtain ⟨exchanges, article⟩ := Prod.mk.inj seen
  refine ⟨operations, reached, exchanges, article, ?_⟩
  rintro ⟨alone, -, -⟩
  rw [exchanges] at alone
  cases alone _ (List.mem_cons_self ..)

end Post2Usenet.Proofs.OperationOrder
