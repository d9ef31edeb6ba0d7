import Post2Usenet.Overlap
import Post2Usenet.Proofs.PoolAccounting
import Post2Usenet.Proofs.PoolAttempts
import Post2Usenet.Proofs.PoolCommands
import Post2Usenet.Proofs.PoolLifetimes

/-! What becomes of the articles and of the connections when io threads overlap. -/

namespace Post2Usenet.Proofs.Overlaps
open Connection Overlap ConnectionSteps PoolSteps PoolOwnership PoolAccounting PoolCommands Tally

variable {α : Type} {overlap after : Overlap α} {usenet : Usenet (Option α)} {connit : ConnectionHandle}

/-- The pool after a reset. -/
def resetting (usenet : Usenet (Option α)) (late : Late) (connection : Connection (Option α)) : Usenet (Option α) :=
  { usenet with connections := Function.update usenet.connections late.connit (some (late.reset.apply connection)) }

theorem step_pool {event : Usenet.Event (Option α)} (taken : overlap.step (.pool event) = some after) :
    (∀ late ∈ overlap.late, thread? event ≠ some late.thread) ∧ overlap.usenet.step event = some after.usenet ∧
      after.late = overlap.late ++ (late? overlap.usenet event).toList := by
  simp only [step] at taken
  split at taken
  · cases taken
  next free =>
    rw [not_or] at free
    obtain ⟨usenet, stepped, rfl⟩ := Option.map_eq_some_iff.mp taken
    exact ⟨by simpa using free.1, stepped, rfl⟩

theorem step_reset {index : Nat} (taken : overlap.step (.reset index) = some after) :
    ∃ late connection, overlap.late[index]? = some late ∧ overlap.usenet.connections late.connit = some connection ∧
      after = ⟨resetting overlap.usenet late connection, overlap.late.eraseIdx index⟩ := by
  obtain ⟨late, found, rest⟩ := Option.bind_eq_some_iff.mp taken
  obtain ⟨connection, present, rfl⟩ := Option.map_eq_some_iff.mp rest
  exact ⟨late, connection, found, present, rfl⟩

section Reset

variable {late : Late} {connection : Connection (Option α)}

theorem apply_state (reset : Reset) : (reset.apply connection).state = connection.state := by
  cases reset <;> rfl

/-- A null pointer stands in the place of the article. -/
theorem apply_isSome (reset : Reset) : (reset.apply connection).article.isSome = connection.article.isSome := by
  cases reset with
  | article => exact Option.isSome_map
  | msgid => rfl

theorem apply_none (reset : Reset) (empty : connection.article = none) : (reset.apply connection).article = none := by
  rw [← Option.not_isSome_iff_eq_none, apply_isSome, empty]
  exact Bool.false_ne_true

theorem apply_idle (reset : Reset) (idle : Idle connection) : Idle (reset.apply connection) :=
  ⟨(apply_state reset).trans idle.state, apply_none reset idle.article⟩

theorem apply_fits (reset : Reset) {handler : Handler (Option α)} (fits : Fits connection handler) :
    Fits (reset.apply connection) handler := by
  cases handler with
  | stage stage => exact ⟨(apply_state reset).trans fits.1, (apply_isSome reset).trans fits.2⟩
  | timer => trivial
  | connectHandler result =>
    cases result with
    | connectSuccess => exact apply_idle reset fits
    | _ => exact apply_none reset fits
  | _ => exact apply_idle reset fits

theorem apply_taskFits (reset : Reset) {task : Task (Option α)} (fits : TaskFits connection task) :
    TaskFits (reset.apply connection) task := by
  cases task with
  | onConnBecomesReady connit => exact apply_idle reset fits
  | _ => exact apply_none reset fits

/-- A reset changes nobody's connection, and nothing that its owner relies on. -/
theorem resetting_owned (owned : Owned [] usenet) (present : usenet.connections late.connit = some connection) :
    Owned [] (resetting usenet late connection) := by
  have changed {other : ConnectionHandle} {found : Connection (Option α)}
      (isPresent : (resetting usenet late connection).connections other = some found) :
      ∃ earlier, usenet.connections other = some earlier ∧ (found = earlier ∨ found = late.reset.apply earlier) := by
    by_cases same : other = late.connit
    · subst same
      have equal : late.reset.apply connection = found := by simpa [resetting] using isPresent
      exact ⟨connection, present, .inr equal.symm⟩
    · exact ⟨found, by simpa [resetting, Function.update_of_ne same] using isPresent, .inl rfl⟩
  have kept {motive : Connection (Option α) → Prop} (reset : ∀ earlier, motive earlier → motive (late.reset.apply earlier))
      {other : ConnectionHandle} (before : ∀ earlier, usenet.connections other = some earlier → motive earlier) :
      ∀ found, (resetting usenet late connection).connections other = some found → motive found := by
    intro found isPresent
    obtain ⟨earlier, known, rfl | rfl⟩ := changed isPresent
    · exact before _ known
    · exact reset earlier (before earlier known)
  refine ⟨owned.distinct, ?_, owned.known, ?_, owned.single, ?_, ?_, ?_⟩
  · intro other
    by_cases same : other = late.connit
    · subst same
      simpa [resetting, present] using owned.alive late.connit
    · simpa [resetting, Function.update_of_ne same] using owned.alive other
  · exact fun other inside => kept (fun _ => apply_idle late.reset) (owned.idle other inside)
  · exact fun other handler inside owning => kept (fun _ => apply_fits late.reset) (owned.handlers other handler inside owning)
  · exact fun thread inside task within other uses =>
      kept (fun _ => apply_taskFits late.reset) (owned.tasks thread inside task within other uses)
  · intro other inside
    obtain ⟨known, gone⟩ := owned.parted other inside
    have different : other ≠ late.connit := by
      rintro rfl
      cases gone.symm.trans present
    exact ⟨known, by simpa [resetting, Function.update_of_ne different] using gone⟩

end Reset

theorem step_owned {event : Event α} (owned : Owned [] overlap.usenet) (taken : overlap.step event = some after) :
    Owned [] after.usenet := by
  cases event with
  | pool event => exact PoolOwnership.step_owned owned (step_pool taken).2.1
  | reset index =>
    obtain ⟨late, connection, -, present, rfl⟩ := step_reset taken
    exact resetting_owned owned present

/-- The commands of threads that overlap, too, reach connections that have nothing to do. -/
theorem commands_available {eraseRule : EraseRule} {iothreads maxQueueSize : Nat} {articles : Option α → Article}
    (reached : Machine.Reachable step (Overlap.make eraseRule iothreads maxQueueSize articles) overlap) :
    (∀ connit ∈ overlap.usenet.ready, Available overlap.usenet connit ∧ Unattended overlap.usenet connit) ∧
      (∀ event after, overlap.step (.pool event) = some after →
        (∀ connit ∈ commanded overlap.usenet event, Available overlap.usenet connit) ∧
          Starts overlap.usenet after.usenet (commanded overlap.usenet event)) ∧
      ∀ connit, .refused connit ∉ overlap.usenet.trace := by
  have inv : Owned [] overlap.usenet ∧ ∀ entry ∈ overlap.usenet.trace, ¬ PoolTrace.Refusal entry := by
    refine reached.invariant (fun overlap => Owned [] overlap.usenet ∧ ∀ entry ∈ overlap.usenet.trace, ¬ PoolTrace.Refusal entry)
      ⟨owned_make .., fun entry member => absurd member List.not_mem_nil⟩ ?_
    rintro before event after ⟨owned, obeyed⟩ taken
    refine ⟨step_owned owned taken, fun entry member => ?_⟩
    cases event with
    | pool event => exact ((step_obeys owned (step_pool taken).2.1).fresh member).elim (obeyed entry) id
    | reset index =>
      obtain ⟨late, connection, -, -, rfl⟩ := step_reset taken
      exact obeyed entry member
  refine ⟨fun connit => ready_available inv.1, fun event after taken => ?_, fun connit member => inv.2 _ member trivial⟩
  exact ⟨commanded_available inv.1 event, step_starts inv.1 (step_pool taken).2.1⟩

section Articles

variable [DecidableEq α]

/-- A reset that finds an article, which the connection was given after the handler was posted. -/
def Wipes (overlap : Overlap α) : Event α → Prop
  | .pool _ => False
  | .reset index => ∃ late connection msg, overlap.late[index]? = some late ∧ late.reset = .article ∧
      overlap.usenet.connections late.connit = some connection ∧ connection.article = some (some msg)

theorem resetting_placed (owned : Owned [] usenet) {late : Late} {connection : Connection (Option α)}
    (present : usenet.connections late.connit = some connection) (msg : Option α) :
    placed msg (resetting usenet late connection) + heldOf msg (some connection) =
      placed msg usenet + heldOf msg (some (late.reset.apply connection)) := by
  have inside := (owned.alive late.connit).mpr (by simp [present])
  have change := held_update msg usenet.connections (owned.known late.connit inside) (some (late.reset.apply connection))
  rw [present] at change
  simp only [placed, queued, inHand, onTasks, resetting]
  omega

/-- What is known of a run as long as no article is lost. -/
structure Tracked (overlap : Overlap α) : Prop where
  owned : Owned [] overlap.usenet
  outside : ∀ thread ∈ overlap.usenet.threads, Outside thread
  settled : ∀ (msg : α) success, Settled (some msg) success overlap.usenet
  balanced : ∀ msg : α, PoolAccounting.Balanced (some msg) overlap.usenet

theorem step_tracked {event : Event α} (tracked : Tracked overlap) (unwiped : ¬ Wipes overlap event)
    (taken : overlap.step event = some after) : Tracked after := by
  have owned := step_owned tracked.owned taken
  cases event with
  | pool event =>
    obtain ⟨-, stepped, -⟩ := step_pool taken
    exact ⟨owned, step_outside tracked.outside stepped,
      fun msg success => step_settled (some msg) success (tracked.settled msg success) stepped,
      fun msg => step_balanced (some msg) tracked.owned (tracked.balanced msg) stepped⟩
  | reset index =>
    obtain ⟨late, connection, found, present, rfl⟩ := step_reset taken
    refine ⟨owned, tracked.outside, tracked.settled, fun msg => ?_⟩
    have placed := resetting_placed tracked.owned present (some msg)
    have same : (late.reset.apply connection).article = connection.article := by
      cases kind : late.reset with
      | msgid => rfl
      | article =>
        cases held : connection.article with
        | none => simp [Reset.apply, held]
        | some article =>
          cases article with
          | none => simp [Reset.apply, held]
          | some other => exact absurd ⟨late, connection, other, found, kind, present, held⟩ unwiped
    rw [heldOf_some, heldOf_some, same, Nat.add_right_cancel_iff] at placed
    have balanced := tracked.balanced msg
    rw [PoolAccounting.Balanced, ← placed] at balanced
    exact balanced

/-- A post that has passed its wait is somewhere precisely when no reset finds an article. -/
theorem accounted_iff_unwiped (eraseRule : EraseRule) (iothreads maxQueueSize : Nat) (articles : Option α → Article)
    (events : List (Event α)) :
    Machine.Holds step (fun overlap => ∀ msg : α, Accounted (some msg) overlap.usenet)
        (Overlap.make eraseRule iothreads maxQueueSize articles) events ↔
      Machine.Meets step (fun overlap event => ¬ Wipes overlap event)
        (Overlap.make eraseRule iothreads maxQueueSize articles) events := by
  have somewhere {overlap : Overlap α} (tracked : Tracked overlap) (msg : α) : Accounted (some msg) overlap.usenet :=
    accounted (some msg) tracked.owned (tracked.balanced msg) (tracked.settled msg) tracked.outside
  apply Machine.holds_iff_meets Tracked
  · have tracked : Tracked (Overlap.make eraseRule iothreads maxQueueSize articles) :=
      ⟨owned_make .., (fun _ member => by cases member), fun _ _ => rfl, fun _ => rfl⟩
    exact ⟨tracked, somewhere tracked⟩
  · intro before event after tracked _ taken unwiped
    have later := step_tracked tracked unwiped taken
    exact ⟨later, somewhere later⟩
  · intro before event after tracked _ taken wipes still
    rw [not_not] at wipes
    cases event with
    | pool event => exact wipes.elim
    | reset index =>
      obtain ⟨late, connection, msg, found, kind, present, held⟩ := wipes
      obtain ⟨other, same, here, isPresent, rfl⟩ := step_reset taken
      cases found.symm.trans here
      cases present.symm.trans isPresent
      have placed := resetting_placed tracked.owned present (some msg)
      have fewer : heldOf (some msg) (some connection) = 1 ∧ heldOf (some msg) (some (late.reset.apply connection)) = 0 := by
        simp [heldOf, held, kind, Reset.apply]
      have earlier := tracked.balanced msg
      have later := Accounted.balanced (some msg) (still msg) (resetting_owned tracked.owned present)
      simp only [PoolAccounting.Balanced] at earlier later
      have passes : passed (some msg) (resetting before.usenet late connection) = passed (some msg) before.usenet := rfl
      have concludes : concluded (some msg) (resetting before.usenet late connection) = concluded (some msg) before.usenet := rfl
      omega

end Articles

section Connections

/-- Whatever will run for a connection, or is still in a function of it, finds it in one of
the lists. -/
structure HandlersOwned (overlap : Overlap α) : Prop where
  pool : PoolLifetimes.HandlersOwned overlap.usenet
  late : ∀ late ∈ overlap.late, late.connit ∈ overlap.usenet.ready ++ overlap.usenet.busy

/-- The steps that discard a connection while a thread is still in a function of it. -/
def DiscardsLate (overlap : Overlap α) : Usenet.Event (Option α) → Prop
  | .proceed index _ => ∃ late ∈ overlap.late, headTask overlap.usenet index = some (.discardConnection late.connit)
  | _ => False

/-- The steps that leave a handler, or a thread, without its connection. -/
def Orphans (overlap : Overlap α) : Event α → Prop
  | .pool event => PoolLifetimes.Orphans overlap.usenet event ∨ DiscardsLate overlap event
  | .reset _ => False

/-- A thread that is left in a function has its connection. -/
theorem late_alive {event : Usenet.Event (Option α)} {late : Late} (left : late? usenet event = some late)
    {after : Usenet (Option α)} (taken : usenet.step event = some after) : PoolLifetimes.Alive late.connit after := by
  cases event with
  | take thread place outcome =>
    obtain ⟨⟨connit, reset⟩, leaves', rfl⟩ := Option.map_eq_some_iff.mp left
    apply PoolLifetimes.step_alive _ _ (fun _ _ same => by cases same) taken
    · simp only [leaves] at leaves'
      split at leaves'
      next found =>
        obtain ⟨connection, present, rest⟩ := Option.bind_eq_some_iff.mp leaves'
        obtain ⟨reset, -, same⟩ := Option.map_eq_some_iff.mp rest
        cases same
        rw [PoolLifetimes.Alive, present]
        rfl
      · cases leaves'
    · exact fun down => down.elim
  | _ => cases left

theorem pool_late {event : Usenet.Event (Option α)} (owned : Owned [] overlap.usenet) (holds : HandlersOwned overlap)
    (kept : ¬ Orphans overlap (.pool event)) (taken : overlap.step (.pool event) = some after) :
    ∀ late ∈ after.late, late.connit ∈ after.usenet.ready ++ after.usenet.busy := by
  obtain ⟨-, stepped, later⟩ := step_pool taken
  obtain ⟨orphans, undiscarded⟩ := not_or.mp kept
  have afterOwned := PoolOwnership.step_owned owned stepped
  intro late member
  rw [afterOwned.alive]
  rw [later] at member
  rcases List.mem_append.mp member with earlier | new
  · have alive : PoolLifetimes.Alive late.connit overlap.usenet := (owned.alive _).mp (holds.late late earlier)
    refine PoolLifetimes.step_alive alive (fun down => orphans (.inl down)) ?_ stepped
    rintro index choice rfl head
    exact undiscarded ⟨late, earlier, head⟩
  · exact late_alive (Option.mem_toList.mp new) stepped

/-- Every handler finds its connection, and every thread that is in a function of one,
precisely when no step of the run orphans one. -/
theorem handlersOwned_iff_kept (eraseRule : EraseRule) (iothreads maxQueueSize : Nat) (articles : Option α → Article)
    (events : List (Event α)) :
    Machine.Holds step HandlersOwned (Overlap.make eraseRule iothreads maxQueueSize articles) events ↔
      Machine.Meets step (fun overlap event => ¬ Orphans overlap event)
        (Overlap.make eraseRule iothreads maxQueueSize articles) events := by
  apply Machine.holds_iff_meets (fun overlap => Owned [] overlap.usenet)
  · have owned := owned_make eraseRule iothreads maxQueueSize articles
    refine ⟨owned, (PoolLifetimes.handlersOwned_iff owned).mpr ?_, ?_⟩
    · exact fun connit handler member => by cases member
    · exact fun late member => by cases member
  · intro before event after owned holds taken kept
    have afterOwned := step_owned owned taken
    refine ⟨afterOwned, ?_⟩
    cases event with
    | pool event =>
      obtain ⟨-, stepped, -⟩ := step_pool taken
      have live := (PoolLifetimes.handlersOwned_iff owned).mp holds.pool
      have later := PoolLifetimes.step_live owned live (fun orphans => kept (.inl orphans)) stepped
      exact ⟨(PoolLifetimes.handlersOwned_iff afterOwned).mpr later, pool_late owned holds kept taken⟩
    | reset index =>
      obtain ⟨late, connection, -, -, rfl⟩ := step_reset taken
      exact ⟨⟨holds.pool.pending, holds.pool.tasks⟩, fun late member => holds.late late (List.mem_of_mem_eraseIdx member)⟩
  · intro before event after owned holds taken orphans still
    rw [not_not] at orphans
    have afterOwned := step_owned owned taken
    cases event with
    | reset index => exact orphans.elim
    | pool event =>
      obtain ⟨-, stepped, later⟩ := step_pool taken
      rcases orphans with orphans | discards
      · exact PoolLifetimes.step_orphans owned orphans stepped ((PoolLifetimes.handlersOwned_iff afterOwned).mp still.pool)
      · cases event with
        | proceed index choice =>
          obtain ⟨late, member, head⟩ := discards
          have present := (afterOwned.alive _).mp (still.late late (later ▸ List.mem_append_left _ member))
          rw [(PoolLifetimes.discards_gone head stepped).1] at present
          cases present
        | _ => exact discards.elim

end Connections

section Alone

theorem pushTasks_kinds (usenet : Usenet (Option α)) (index : Nat) (tasks : List (Task (Option α))) :
    (usenet.pushTasks index tasks).threads.map Thread.io = usenet.threads.map Thread.io := by
  apply List.ext_getElem?
  intro place
  simp only [Usenet.pushTasks, List.getElem?_map, List.getElem?_modify]
  cases usenet.threads[place]? <;> by_cases same : index = place <;> simp [same]

theorem set_kinds {threads : List (Thread (Option α))} {index : Nat} {io : Bool} {tasks : List (Task (Option α))}
    (found : threads[index]? = some ⟨io, tasks⟩) (others : List (Task (Option α))) :
    (threads.set index ⟨io, others⟩).map Thread.io = threads.map Thread.io := by
  apply List.ext_getElem?
  intro place
  rw [List.getElem?_map, List.getElem?_map, List.getElem?_set]
  by_cases same : index = place
  · subst same
    obtain ⟨inside, here⟩ := List.getElem?_eq_some_iff.mp found
    simp [inside, here]
  · rw [if_neg same]

/-- Threads come and never change sides. -/
theorem step_kinds {event : Usenet.Event (Option α)} {after : Usenet (Option α)} (taken : usenet.step event = some after) :
    usenet.threads.map Thread.io <+: after.threads.map Thread.io := by
  cases event with
  | addConnections conninfo numConnections =>
    cases taken
    rw [addConnections_threads]
  | start =>
    cases taken
    rw [Usenet.start, List.map_append]
    exact List.prefix_append ..
  | spawn =>
    cases taken
    rw [List.map_append]
    exact List.prefix_append ..
  | call index request =>
    obtain ⟨-, rfl⟩ := PoolSteps.step_call taken
    rw [pushTasks_kinds]
  | take index place outcome =>
    obtain ⟨connit, handler, -, -, rfl⟩ := PoolSteps.step_take taken
    rw [pushTasks_kinds, (deliver_apart ..).threads]
  | expire connit =>
    obtain ⟨-, -, rfl⟩ := PoolSteps.step_expire taken
    exact List.prefix_refl _
  | proceed index choice =>
    obtain ⟨io, task, tasks, result, found, proceeded, rfl⟩ := PoolSteps.step_proceed taken
    obtain ⟨notified, woken, same⟩ := proceed_threads proceeded
    rw [pushTasks_kinds, same, ← set_kinds found tasks]
    rcases woken with rfl | ⟨place, kind, command, rest, at', rfl⟩
    · exact List.prefix_refl _
    · rw [set_kinds at']
  | _ =>
    cases taken
    exact List.prefix_refl _

/-- Only taking a handler removes it. -/
theorem step_pending {event : Usenet.Event (Option α)} {after : Usenet (Option α)} (owned : Owned [] usenet)
    (taken : usenet.step event = some after) (other : ∀ thread place outcome, event ≠ .take thread place outcome) :
    ∀ entry ∈ usenet.pending, entry ∈ after.pending := by
  intro entry member
  cases event with
  | addConnections conninfo numConnections =>
    cases taken
    obtain ⟨new, pending, -⟩ := (PoolAttempts.addConnections_undisturbed owned conninfo numConnections).pending
    rw [pending]
    exact List.mem_append_left _ member
  | call index request =>
    obtain ⟨-, rfl⟩ := PoolSteps.step_call taken
    exact member
  | take thread place outcome => exact absurd rfl (other thread place outcome)
  | expire connit =>
    obtain ⟨-, -, rfl⟩ := PoolSteps.step_expire taken
    exact List.mem_append_left _ member
  | proceed index choice =>
    obtain ⟨io, task, tasks, result, found, proceeded, rfl⟩ := PoolSteps.step_proceed taken
    obtain ⟨new, pending, -⟩ :=
      (PoolAttempts.proceed_undisturbed (popTask_owned owned found) (popTask_fits owned found) proceeded).pending
    rw [Usenet.pushTasks, pending]
    exact List.mem_append_left _ member
  | _ =>
    cases taken
    exact member

/-- A callback that was posted and has not run. -/
def Posted (usenet : Usenet (Option α)) (connit : ConnectionHandle) : Prop :=
  (∃ msg result, (connit, .postHandler msg result) ∈ usenet.pending) ∨
    ∃ msgid result, (connit, .statHandler msgid result) ∈ usenet.pending

theorem posted_idle (owned : Owned [] usenet) (posted : Posted usenet connit) :
    ∃ handler, (connit, handler) ∈ usenet.pending ∧ owns handler = true ∧
      ∀ connection, usenet.connections connit = some connection → Idle connection := by
  rcases posted with ⟨msg, result, member⟩ | ⟨msgid, result, member⟩
  · exact ⟨_, member, rfl, owned.handlers connit _ member rfl⟩
  · exact ⟨_, member, rfl, owned.handlers connit _ member rfl⟩

/-- With one io thread, nobody runs a callback before the thread that posted it is done. -/
structure Alone (overlap : Overlap α) : Prop where
  owned : Owned [] overlap.usenet
  worker : ∀ late ∈ overlap.late, (overlap.usenet.threads.map Thread.io)[late.thread]? = some true
  posted : ∀ late ∈ overlap.late, Posted overlap.usenet late.connit

theorem only_place {kinds : List Bool} (single : kinds.count true ≤ 1) {first second : Nat}
    (here : kinds[first]? = some true) (there : kinds[second]? = some true) : first = second := by
  by_contra different
  obtain ⟨inside, found⟩ := List.getElem?_eq_some_iff.mp here
  obtain ⟨within, other⟩ := List.getElem?_eq_some_iff.mp there
  have twice : List.Duplicate true kinds := by
    rw [List.duplicate_iff_exists_distinct_get]
    rcases Nat.lt_or_gt_of_ne different with before | before
    · exact ⟨⟨first, inside⟩, ⟨second, within⟩, before, found.symm, other.symm⟩
    · exact ⟨⟨second, within⟩, ⟨first, inside⟩, before, other.symm, found.symm⟩
  have two := List.duplicate_iff_two_le_count.mp twice
  omega

/-- The handler of a function that posts a callback leaves it behind. -/
theorem late_posted {thread place : Nat} {outcome : Outcome} {late : Late}
    (left : late? usenet (.take thread place outcome) = some late) {after : Usenet (Option α)}
    (taken : usenet.step (.take thread place outcome) = some after) : late.thread = thread ∧ Posted after late.connit := by
  obtain ⟨⟨connit, reset⟩, leaves', rfl⟩ := Option.map_eq_some_iff.mp left
  refine ⟨rfl, ?_⟩
  obtain ⟨other, handler, -, found, rfl⟩ := PoolSteps.step_take taken
  simp only [leaves, found] at leaves'
  split at leaves'
  next stage same =>
    cases same
    obtain ⟨connection, present, rest⟩ := Option.bind_eq_some_iff.mp leaves'
    obtain ⟨reset, first, same⟩ := Option.map_eq_some_iff.mp rest
    cases same
    obtain ⟨call, member, posts⟩ := List.exists_of_findSome?_eq_some first
    have left (handler : Handler (Option α)) (same : call = .post handler) : (connit, handler) ∈
        ({ usenet with pending := usenet.pending.eraseIdx place }.deliver connit (.stage stage) outcome).1.pending := by
      simp only [Usenet.deliver, present, Usenet.perform, List.mem_append, List.mem_map, List.mem_filterMap]
      exact .inr ⟨handler, ⟨call, member, by rw [same]; rfl⟩, rfl⟩
    cases call with
    | post handler =>
      cases handler with
      | postHandler msg result => exact .inl ⟨msg, result, left _ rfl⟩
      | statHandler msgid result => exact .inr ⟨msgid, result, left _ rfl⟩
      | _ => cases posts
    | _ => cases posts
  · cases leaves'

theorem step_alone {event : Event α} (alone : Alone overlap)
    (single : (overlap.usenet.threads.map Thread.io).count true ≤ 1) (taken : overlap.step event = some after) :
    Alone after := by
  have owned := step_owned alone.owned taken
  cases event with
  | reset index =>
    obtain ⟨late, connection, -, -, rfl⟩ := step_reset taken
    exact ⟨owned, fun late member => alone.worker late (List.mem_of_mem_eraseIdx member),
      fun late member => alone.posted late (List.mem_of_mem_eraseIdx member)⟩
  | pool event =>
    obtain ⟨free, stepped, later⟩ := step_pool taken
    have worker : ∀ late ∈ overlap.late, (after.usenet.threads.map Thread.io)[late.thread]? = some true := by
      intro late member
      have here := alone.worker late member
      obtain ⟨more, same⟩ := step_kinds stepped
      rw [← same, List.getElem?_append_left (List.getElem?_eq_some_iff.mp here).1]
      exact here
    by_cases takes : ∃ thread place outcome, event = .take thread place outcome
    · obtain ⟨thread, place, outcome, rfl⟩ := takes
      obtain ⟨-, -, idle, -, -⟩ := PoolSteps.step_take stepped
      have io : (overlap.usenet.threads.map Thread.io)[thread]? = some true := by simp [idle]
      -- The thread that takes the handler would be the one that is in a function.
      have nobody : overlap.late = [] := by
        refine List.eq_nil_iff_forall_not_mem.mpr (fun late member => ?_)
        exact free late member (congrArg some (only_place single io (alone.worker late member)))
      rw [nobody, List.nil_append] at later
      have new {late : Late} (member : late ∈ after.late) : late.thread = thread ∧ Posted after.usenet late.connit :=
        late_posted (Option.mem_toList.mp (later ▸ member)) stepped
      refine ⟨owned, fun late member => ?_, fun late member => (new member).2⟩
      obtain ⟨more, same⟩ := step_kinds stepped
      rw [(new member).1, ← same, List.getElem?_append_left (List.getElem?_eq_some_iff.mp io).1]
      exact io
    · have stays : ∀ thread place outcome, event ≠ .take thread place outcome :=
        fun thread place outcome same => takes ⟨thread, place, outcome, same⟩
      have none : late? overlap.usenet event = none := by
        cases event with
        | take thread place outcome => exact absurd rfl (stays thread place outcome)
        | _ => rfl
      rw [none, Option.toList_none, List.append_nil] at later
      have kept := step_pending alone.owned stepped stays
      rw [← later] at worker
      refine ⟨owned, worker, fun late member => ?_⟩
      rcases alone.posted late (later ▸ member) with ⟨msg, result, inside⟩ | ⟨msgid, result, inside⟩
      · exact .inl ⟨msg, result, kept _ inside⟩
      · exact .inr ⟨msgid, result, kept _ inside⟩

/-- A reset that is late finds nothing, and a connection that is discarded is nobody else's. -/
theorem alone_harmless (alone : Alone overlap) (event : Event α) :
    ¬ Wipes overlap event ∧ ∀ pool, event = .pool pool → ¬ DiscardsLate overlap pool := by
  refine ⟨fun wipes => ?_, fun pool same discards => ?_⟩
  · cases event with
    | pool event => exact wipes.elim
    | reset index =>
      obtain ⟨late, connection, msg, found, -, present, held⟩ := wipes
      obtain ⟨-, -, -, idle⟩ := posted_idle alone.owned (alone.posted late (List.mem_of_getElem? found))
      cases (idle connection present).article.symm.trans held
  · cases pool with
    | proceed index choice =>
      obtain ⟨late, member, head⟩ := discards
      obtain ⟨handler, inside, owning, -⟩ := posted_idle alone.owned (alone.posted late member)
      obtain ⟨io, tasks, found⟩ := headTask_cases head
      exact handler_elsewhere (owned_in_hand (popTask_owned alone.owned found)).2.2.2 inside owning rfl
    | _ => exact discards.elim

/-- With one io thread a thread that is late changes nothing. -/
theorem single_harmless (eraseRule : EraseRule) (iothreads maxQueueSize : Nat) (articles : Option α → Article)
    {events : List (Event α)}
    (single : Machine.Holds step (fun overlap => (overlap.usenet.threads.map Thread.io).count true ≤ 1)
      (Overlap.make eraseRule iothreads maxQueueSize articles) events) :
    Machine.Meets step
      (fun overlap event => ¬ Wipes overlap event ∧ ∀ pool, event = .pool pool → ¬ DiscardsLate overlap pool)
      (Overlap.make eraseRule iothreads maxQueueSize articles) events := by
  have meets : Machine.Meets step (fun overlap _ => (overlap.usenet.threads.map Thread.io).count true ≤ 1)
      (Overlap.make eraseRule iothreads maxQueueSize articles) events :=
    Machine.meets_of_holds (fun _ _ single => single) single
  have start : Alone (Overlap.make eraseRule iothreads maxQueueSize articles) :=
    ⟨owned_make .., (fun late member => by cases member), fun late member => by cases member⟩
  have alone := Machine.holds_of_meets Alone Alone start (fun _ alone => alone)
    (fun _ _ _ alone single taken => step_alone alone single taken) meets
  exact Machine.meets_of_holds (fun _ event alone => alone_harmless alone event) alone

end Alone

private def pools (events : List (Usenet.Event (Option Nat))) : List (Event Nat) := events.map .pool

/-- The only connection is ready, and is given an article. -/
private def given : List (Usenet.Event (Option Nat)) :=
  [.spawn, .addConnections sampleConninfo 1, .start] ++ takes 1 [(0, "")] ++ connects 1 0 0 ++ [.proceed 1 goOn] ++
    posts (some 7)

/-- It may not post. It is gone already, and its article is not yet back. -/
def refusedPostRun : List (Event Nat) :=
  pools (given ++ takes 1 [(0, ""), (0, ""), (0, "480 not here\r\n")]) ++ [.reset 0] ++
    pools (takes 1 [(0, "")] ++ [.proceed 1 goOn])

/-- The second io thread gives the connection its next article before the first one resets
the pointer to the one before. -/
def overtakenRun : List (Event Nat) :=
  pools (given ++ posts (some 8) ++ takes 1 [(0, ""), (0, ""), (0, "340 send it\r\n"), (0, ""), (0, "240 received\r\n")] ++
    takes 2 [(0, "")] ++ [.proceed 2 goOn]) ++ [.reset 0]

private def places (msg : Nat) (overlap : Overlap Nat) : Nat × Nat × Nat × Nat × Nat :=
  (passed (some msg) overlap.usenet, queued (some msg) overlap.usenet, held (some msg) overlap.usenet,
    inHand (some msg) overlap.usenet, concluded (some msg) overlap.usenet)

theorem post_nowhere :
    (¬ ∀ overlap : Overlap Nat,
      Machine.Reachable step (Overlap.make .holder 1 5 (fun _ => sampleArticles 0)) overlap → ∀ msg : Nat,
        passed (some msg) overlap.usenet =
          queued (some msg) overlap.usenet + held (some msg) overlap.usenet + concluded (some msg) overlap.usenet) ∧
      ¬ Machine.Holds step (fun overlap => ∀ msg : Nat, Accounted (some msg) overlap.usenet)
        (Overlap.make .holder 2 5 (fun _ => sampleArticles 0)) overtakenRun := by
  refine ⟨fun three => ?_, fun holds => ?_⟩
  · have computed : (Machine.run step (Overlap.make .holder 1 5 (fun _ => sampleArticles 0)) refusedPostRun).map (places 7) =
        some (1, 0, 0, 1, 0) := by decide +kernel
    obtain ⟨overlap, reached, seen⟩ := Option.map_eq_some_iff.mp computed
    simp only [places, Prod.mk.injEq] at seen
    have counted := three overlap ⟨refusedPostRun, reached⟩ 7
    omega
  · have computed : (Machine.run step (Overlap.make .holder 2 5 (fun _ => sampleArticles 0)) overtakenRun).map (places 8) =
        some (1, 0, 0, 0, 0) := by decide +kernel
    obtain ⟨overlap, reached, seen⟩ := Option.map_eq_some_iff.mp computed
    simp only [places, Prod.mk.injEq] at seen
    have balance := (Machine.holds_last holds reached 8).balance
    omega

/-- A pool with one connection posts one article and stops. -/
def quitRun : List (Event Nat) :=
  pools (given ++ [.stop] ++ takes 1 [(0, ""), (0, ""), (0, "340 send it\r\n"), (0, ""), (0, "240 received\r\n")]) ++
    [.reset 0] ++ pools (takes 1 [(0, "")] ++ [.proceed 1 goOn])

theorem quit_outlives :
    ¬ Machine.Holds step HandlersOwned (Overlap.make .named 1 5 (fun _ => sampleArticles 0)) quitRun := by
  intro holds
  have computed : (Machine.run step (Overlap.make .named 1 5 (fun _ => sampleArticles 0)) quitRun).map
      (fun overlap => (overlap.usenet.pending, overlap.usenet.ready ++ overlap.usenet.busy)) =
        some ([(0, .stage .quitWritten)], []) := by decide +kernel
  obtain ⟨overlap, reached, seen⟩ := Option.map_eq_some_iff.mp computed
  simp only [Prod.mk.injEq] at seen
  have inside := (Machine.holds_last holds reached).pool.pending 0 (.stage .quitWritten) (by simp [seen.1])
  simp [seen.2] at inside

end Post2Usenet.Proofs.Overlaps
