import Post2Usenet.Lib.Machine
import Post2Usenet.Proofs.ConnectionSteps
import Post2Usenet.Proofs.PoolSteps

/-! Every connection in the busy list has exactly one owner: one handler that is
pending, or one thread that is inside one of its callbacks. Connections in the
ready list have none, and are idle. -/

namespace Post2Usenet.Proofs.PoolOwnership
open Connection ConnectionSteps PoolSteps Usenet Tally

variable {α : Type}

/-- The connection a task will use. -/
def connit? : Task α → Option ConnectionHandle
  | .onConnBecomesReady connit | .discardConnection connit | .requeueStat connit _ => some connit
  | _ => none

def TaskFits (connection : Connection α) : Task α → Prop
  | .onConnBecomesReady _ => Idle connection
  | _ => connection.article = none

def handlerOf (connit : ConnectionHandle) (entry : ConnectionHandle × Handler α) : Nat :=
  if entry.1 = connit ∧ owns entry.2 = true then 1 else 0

def taskOf (connit : ConnectionHandle) (task : Task α) : Nat := if connit? task = some connit then 1 else 0

def owners (usenet : Usenet α) (connit : ConnectionHandle) : Nat :=
  total (handlerOf connit) usenet.pending + onTasks (taskOf connit) usenet

/-- What holds between steps, and within one for the connections that its thread
has in hand. -/
structure Owned (hand : List ConnectionHandle) (usenet : Usenet α) : Prop where
  distinct : (usenet.ready ++ usenet.busy).Nodup
  alive : ∀ connit, connit ∈ usenet.ready ++ usenet.busy ↔ (usenet.connections connit).isSome = true
  known : ∀ connit ∈ usenet.ready ++ usenet.busy, connit < usenet.nextHandle
  idle : ∀ connit ∈ usenet.ready, ∀ connection, usenet.connections connit = some connection → Idle connection
  single : ∀ connit, owners usenet connit + hand.count connit = usenet.busy.count connit
  handlers : ∀ connit handler, (connit, handler) ∈ usenet.pending → owns handler = true →
    ∀ connection, usenet.connections connit = some connection → Fits connection handler
  tasks : ∀ thread ∈ usenet.threads, ∀ task ∈ thread.tasks, ∀ connit, connit? task = some connit →
    ∀ connection, usenet.connections connit = some connection → TaskFits connection task
  parted : ∀ connit, (connit, .stage .quitWritten) ∈ usenet.pending →
    connit < usenet.nextHandle ∧ usenet.connections connit = none

variable {hand : List ConnectionHandle} {usenet : Usenet α} {connit : ConnectionHandle}

theorem owned_in_hand (owned : Owned (connit :: hand) usenet) :
    connit ∈ usenet.busy ∧ connit ∉ usenet.ready ∧ connit ∉ hand ∧ owners usenet connit = 0 := by
  have single := owned.single connit
  have once := List.nodup_iff_count_le_one.mp (List.nodup_append'.mp owned.distinct).2.1 connit
  rw [List.count_cons_self] at single
  have member : connit ∈ usenet.busy := List.count_pos_iff.mp (by omega)
  refine ⟨member, ?_, ?_, by omega⟩
  · exact fun inside => (List.nodup_append'.mp owned.distinct).2.2 inside member
  · exact fun inside => by have := List.count_pos_iff.mpr inside; omega

theorem handler_elsewhere (none : owners usenet connit = 0) {other : ConnectionHandle} {handler : Handler α}
    (member : (other, handler) ∈ usenet.pending) (owning : owns handler = true) : other ≠ connit := by
  rintro rfl
  have weight := weight_le_total (handlerOf other) member
  simp only [handlerOf, owning, and_self, ite_true] at weight
  simp only [owners] at none
  omega

theorem task_elsewhere (none : owners usenet connit = 0) {thread : Thread α} {task : Task α}
    {other : ConnectionHandle} (member : thread ∈ usenet.threads) (inside : task ∈ thread.tasks)
    (uses : connit? task = some other) : other ≠ connit := by
  rintro rfl
  have weight := weight_le_total (taskOf other) inside
  have bound := weight_le_total (fun thread : Thread α => total (taskOf other) thread.tasks) member
  simp only [taskOf, uses, ite_true] at weight bound
  simp only [owners, onTasks] at none
  omega

theorem owner_of_handler (owned : Owned hand usenet) {handler : Handler α} (member : (connit, handler) ∈ usenet.pending)
    (owning : owns handler = true) : connit ∈ usenet.busy := by
  have single := owned.single connit
  have some' : owners usenet connit ≠ 0 := fun none => handler_elsewhere none member owning rfl
  exact List.count_pos_iff.mp (by omega)

theorem owner_of_task (owned : Owned hand usenet) {thread : Thread α} {task : Task α} (member : thread ∈ usenet.threads)
    (inside : task ∈ thread.tasks) (uses : connit? task = some connit) : connit ∈ usenet.busy := by
  have single := owned.single connit
  have some' : owners usenet connit ≠ 0 := fun none => task_elsewhere none member inside uses rfl
  exact List.count_pos_iff.mp (by omega)

/-- Nothing else of the pool matters here. -/
theorem Owned.frame (owned : Owned hand usenet) {after : Usenet α} (ready : after.ready = usenet.ready)
    (busy : after.busy = usenet.busy) (connections : after.connections = usenet.connections)
    (nextHandle : after.nextHandle = usenet.nextHandle) (pending : after.pending = usenet.pending)
    (threads : after.threads = usenet.threads) : Owned hand after := by
  obtain ⟨distinct, alive, known, idle, single, handlers, tasks, parted⟩ := owned
  simp only [owners, onTasks] at single
  constructor <;> simp only [owners, onTasks, ready, busy, connections, nextHandle, pending, threads] <;> assumption

theorem setConnection_owned (owned : Owned (connit :: hand) usenet) (connection : Connection α) :
    Owned (connit :: hand)
      { usenet with connections := Function.update usenet.connections connit (some connection) } := by
  obtain ⟨member, notReady, notHand, none⟩ := owned_in_hand owned
  refine ⟨owned.distinct, ?_, owned.known, ?_, owned.single, ?_, ?_, ?_⟩
  · intro other
    by_cases same : other = connit
    · subst same
      simp [member]
    · simpa [Function.update_of_ne same] using owned.alive other
  · intro other inside found present
    have different : other ≠ connit := ne_of_mem_of_not_mem inside notReady
    exact owned.idle other inside found (by simpa [Function.update_of_ne different] using present)
  · intro other handler inside owning found present
    have different := handler_elsewhere none inside owning
    exact owned.handlers other handler inside owning found (by simpa [Function.update_of_ne different] using present)
  · intro thread inside task within other uses found present
    have different := task_elsewhere none inside within uses
    exact owned.tasks thread inside task within other uses found
      (by simpa [Function.update_of_ne different] using present)
  · intro other inside
    obtain ⟨known, gone⟩ := owned.parted other inside
    have different : other ≠ connit := by
      rintro rfl
      have present := (owned.alive other).mp (List.mem_append_right _ member)
      simp [gone] at present
    exact ⟨known, by simpa [Function.update_of_ne different] using gone⟩

theorem addHandler_owned (owned : Owned (connit :: hand) usenet) {connection : Connection α} {handler : Handler α}
    (present : usenet.connections connit = some connection) (fits : Fits connection handler)
    (owning : owns handler = true) :
    Owned hand { usenet with pending := usenet.pending ++ [(connit, handler)] } := by
  refine ⟨owned.distinct, owned.alive, owned.known, owned.idle, ?_, ?_, owned.tasks, ?_⟩
  · intro other
    have single := owned.single other
    simp only [owners, onTasks, total_append, total_cons, total_nil, handlerOf, owning, and_true] at single ⊢
    by_cases same : connit = other
    · subst same
      simp only [List.count_cons_self, ite_true] at single ⊢
      omega
    · simp only [List.count_cons_of_ne same, if_neg same] at single ⊢
      exact single
  · intro other found inside owningFound connected isPresent
    rcases List.mem_append.mp inside with earlier | last
    · exact owned.handlers other found earlier owningFound connected isPresent
    · cases List.mem_singleton.mp last
      rw [present] at isPresent
      cases isPresent
      exact fits
  · intro other inside
    rcases List.mem_append.mp inside with earlier | last
    · exact owned.parted other earlier
    · cases List.mem_singleton.mp last
      cases owning

/-- Whatever is pending beside the owners changes nothing. -/
theorem addStale_owned (owned : Owned hand usenet) {handler : Handler α} (stale : owns handler = false)
    (gone : handler = .stage .quitWritten → connit < usenet.nextHandle ∧ usenet.connections connit = none) :
    Owned hand { usenet with pending := usenet.pending ++ [(connit, handler)] } := by
  refine ⟨owned.distinct, owned.alive, owned.known, owned.idle, ?_, ?_, owned.tasks, ?_⟩
  · intro counted
    simpa [owners, onTasks, handlerOf, stale] using owned.single counted
  · intro named found inside owningFound connected isPresent
    rcases List.mem_append.mp inside with earlier | last
    · exact owned.handlers named found earlier owningFound connected isPresent
    · cases List.mem_singleton.mp last
      rw [stale] at owningFound
      cases owningFound
  · intro other inside
    rcases List.mem_append.mp inside with earlier | last
    · exact owned.parted other earlier
    · cases List.mem_singleton.mp last
      exact gone rfl

/-- The connection in hand is handed to what it leaves pending. -/
theorem perform_owned (owned : Owned (connit :: hand) usenet) {act : Act α} {held : List α}
    (handsOver : HandsOver held act) : Owned hand (usenet.perform connit act) := by
  obtain ⟨handler, one, owning, fits, -⟩ := handsOver
  have added := addHandler_owned (setConnection_owned owned act.1) (Function.update_self ..) fits owning
  exact added.frame rfl rfl rfl rfl (by simp [perform, one]) rfl

theorem perform_silent_owned (owned : Owned (connit :: hand) usenet) (connection : Connection α) :
    Owned (connit :: hand) (usenet.perform connit (connection, [])) :=
  (setConnection_owned owned connection).frame rfl rfl rfl rfl (by simp [perform]) rfl

theorem takePending_owned (owned : Owned hand usenet) {place : Nat} {handler : Handler α}
    (found : usenet.pending[place]? = some (connit, handler)) (owning : owns handler = true) :
    Owned (connit :: hand) { usenet with pending := usenet.pending.eraseIdx place } := by
  refine ⟨owned.distinct, owned.alive, owned.known, owned.idle, ?_, ?_, owned.tasks,
    fun other inside => owned.parted other (List.mem_of_mem_eraseIdx inside)⟩
  · intro other
    have single := owned.single other
    have change := total_eraseIdx (handlerOf other) found
    simp only [owners, onTasks, handlerOf, owning, and_true, List.count_cons, beq_iff_eq] at single change ⊢
    omega
  · exact fun other earlier inside => owned.handlers other earlier (List.mem_of_mem_eraseIdx inside)

theorem dropStale_owned (owned : Owned hand usenet) {place : Nat} {handler : Handler α}
    (found : usenet.pending[place]? = some (connit, handler)) (stale : owns handler = false) :
    Owned hand { usenet with pending := usenet.pending.eraseIdx place } := by
  refine ⟨owned.distinct, owned.alive, owned.known, owned.idle, ?_, ?_, owned.tasks,
    fun other inside => owned.parted other (List.mem_of_mem_eraseIdx inside)⟩
  · intro other
    have single := owned.single other
    have change := total_eraseIdx (handlerOf other) found
    simp only [owners, onTasks, handlerOf, stale, Bool.false_eq_true, and_false, ite_false] at single change ⊢
    omega
  · exact fun other earlier inside => owned.handlers other earlier (List.mem_of_mem_eraseIdx inside)

theorem popTask_owned (owned : Owned hand usenet) {index : Nat} {io : Bool} {task : Task α} {tasks : List (Task α)}
    (found : usenet.threads[index]? = some ⟨io, task :: tasks⟩) :
    Owned ((connit? task).toList ++ hand) { usenet with threads := usenet.threads.set index ⟨io, tasks⟩ } := by
  refine ⟨owned.distinct, owned.alive, owned.known, owned.idle, ?_, owned.handlers, ?_, owned.parted⟩
  · intro other
    have single := owned.single other
    have change := onTasks_pop (taskOf other) found
    have counted : (connit? task).toList.count other = taskOf other task := by
      cases uses : connit? task with
      | none => simp [taskOf, uses]
      | some used => simp [taskOf, uses, List.count_singleton]
    simp only [owners, List.count_append, counted] at single ⊢
    omega
  · intro thread inside entry within
    rcases List.mem_or_eq_of_mem_set inside with earlier | rfl
    · exact owned.tasks thread earlier entry within
    · exact owned.tasks _ (List.mem_of_getElem? found) entry (List.mem_cons_of_mem _ within)

/-- The connection that the next task of a thread uses is as the task expects it. -/
theorem popTask_fits (owned : Owned hand usenet) {index : Nat} {io : Bool} {task : Task α} {tasks : List (Task α)}
    (found : usenet.threads[index]? = some ⟨io, task :: tasks⟩) :
    ∀ connit, connit? task = some connit →
      ∀ connection, usenet.connections connit = some connection → TaskFits connection task :=
  owned.tasks _ (List.mem_of_getElem? found) task (List.mem_cons_self ..)

theorem pushTasks_owned {index : Nat} {tasks : List (Task α)}
    (owned : Owned (tasks.filterMap connit? ++ hand) usenet) (inside : index < usenet.threads.length)
    (fits : ∀ task ∈ tasks, ∀ connit, connit? task = some connit →
      ∀ connection, usenet.connections connit = some connection → TaskFits connection task) :
    Owned hand (usenet.pushTasks index tasks) := by
  refine ⟨owned.distinct, owned.alive, owned.known, owned.idle, ?_, owned.handlers, ?_, owned.parted⟩
  · intro other
    have single := owned.single other
    have change := onTasks_pushTasks (taskOf other) inside tasks
    have counted : (tasks.filterMap connit?).count other = total (taskOf other) tasks := by
      clear owned single change fits
      induction tasks with
      | nil => rfl
      | cons task tasks ih =>
        cases uses : connit? task with
        | none => simp [taskOf, uses, ih]
        | some used => simp [taskOf, uses, ih, List.count_cons, Nat.add_comm]
    have pending : (usenet.pushTasks index tasks).pending = usenet.pending := rfl
    have busy : (usenet.pushTasks index tasks).busy = usenet.busy := rfl
    simp only [owners, List.count_append, counted, pending, busy, change] at single ⊢
    omega
  · intro thread member task within used uses connection present
    obtain ⟨place, found⟩ := List.mem_iff_getElem?.mp member
    simp only [pushTasks, List.getElem?_modify] at found
    obtain ⟨before, at', rfl⟩ := Option.map_eq_some_iff.mp found
    have earlier := List.mem_of_getElem? at'
    split at within
    · rcases List.mem_append.mp within with new | old
      · exact fits task new used uses connection present
      · exact owned.tasks before earlier task old used uses connection present
    · exact owned.tasks before earlier task within used uses connection present

theorem takeReady_owned (owned : Owned hand usenet) {after : Usenet α}
    (taken : usenet.takeReady = some (connit, after)) :
    Owned (connit :: hand) after ∧ ∀ connection, after.connections connit = some connection → Idle connection := by
  rw [takeReady] at taken
  split at taken
  · cases taken
  next head ready first =>
    cases taken
    have idle := owned.idle connit (by simp [first])
    refine ⟨⟨?_, ?_, ?_, ?_, ?_, owned.handlers, owned.tasks, owned.parted⟩, idle⟩
    · have moved : (connit :: ready ++ usenet.busy).Perm (ready ++ connit :: usenet.busy) := List.perm_middle.symm
      exact moved.nodup_iff.mp (first ▸ owned.distinct)
    · intro other
      simpa [first, or_left_comm, or_assoc] using owned.alive other
    · intro other inside
      exact owned.known other (by simpa [first, or_left_comm, or_assoc] using inside)
    · exact fun other inside => owned.idle other (by simp [first, inside])
    · intro other
      have single := owned.single other
      simp only [owners, onTasks, List.count_cons] at single ⊢
      omega

theorem becomeReady_owned (owned : Owned (connit :: hand) usenet)
    (idle : ∀ connection, usenet.connections connit = some connection → Idle connection) :
    Owned hand (usenet.becomeReady connit) := by
  obtain ⟨member, notReady, notHand, -⟩ := owned_in_hand owned
  have ready : (usenet.becomeReady connit).ready = usenet.ready ++ [connit] := by
    simp [becomeReady, List.erase_of_not_mem notReady]
  have moved : (usenet.ready ++ usenet.busy).Perm (usenet.ready ++ [connit] ++ usenet.busy.erase connit) := by
    rw [List.append_assoc]
    exact (List.perm_cons_erase member).append_left usenet.ready
  have busy : (usenet.becomeReady connit).busy = usenet.busy.erase connit := rfl
  refine ⟨?_, ?_, ?_, ?_, ?_, owned.handlers, owned.tasks, owned.parted⟩
  · rw [ready, busy]
    exact moved.nodup_iff.mp owned.distinct
  · intro other
    rw [ready, busy, ← moved.mem_iff]
    exact owned.alive other
  · intro other inside
    rw [ready, busy, ← moved.mem_iff] at inside
    exact owned.known other inside
  · intro other inside
    rw [ready, List.mem_append, List.mem_singleton] at inside
    rcases inside with earlier | rfl
    · exact owned.idle other earlier
    · exact idle
  · intro other
    have single := owned.single other
    have same : owners (usenet.becomeReady connit) other = owners usenet other := rfl
    rw [same, busy, List.count_erase]
    simp only [List.count_cons, beq_iff_eq] at single ⊢
    split at single <;> simp_all
    omega

private theorem erase_owned {left : List ConnectionHandle} (owned : Owned hand usenet) (named : Side)
    (none : owners usenet connit = 0)
    (single : ∀ other, owners usenet other + left.count other = (usenet.busy.erase connit).count other) :
    Owned left (usenet.erase named connit) := by
  have distinct := List.nodup_append'.mp owned.distinct
  have members (other : ConnectionHandle) : other ∈ usenet.ready.erase connit ++ usenet.busy.erase connit ↔
      other ≠ connit ∧ other ∈ usenet.ready ++ usenet.busy := by
    rw [List.mem_append, List.mem_append, distinct.1.mem_erase_iff, distinct.2.1.mem_erase_iff]
    tauto
  refine ⟨?_, ?_, ?_, ?_, single, ?_, ?_, ?_⟩
  · exact owned.distinct.sublist (List.erase_sublist.append List.erase_sublist)
  · intro other
    rw [erase, members]
    by_cases same : other = connit
    · subst same
      simp
    · simpa [same, Function.update_of_ne same] using owned.alive other
  · intro other inside
    exact owned.known other ((members other).mp inside).2
  · intro other inside connection present
    have both := distinct.1.mem_erase_iff.mp inside
    exact owned.idle other both.2 connection (by simpa [erase, Function.update_of_ne both.1] using present)
  · intro other handler inside owning connection present
    have different := handler_elsewhere none inside owning
    exact owned.handlers other handler inside owning connection
      (by simpa [erase, Function.update_of_ne different] using present)
  · intro thread inside task within other uses connection present
    have different := task_elsewhere none inside within uses
    exact owned.tasks thread inside task within other uses connection
      (by simpa [erase, Function.update_of_ne different] using present)
  · intro other inside
    obtain ⟨known, gone⟩ := owned.parted other inside
    refine ⟨known, ?_⟩
    by_cases same : other = connit
    · simp [erase, same]
    · simpa [erase, Function.update_of_ne same] using gone

theorem eraseBusy_owned (owned : Owned (connit :: hand) usenet) (named : Side) :
    Owned hand (usenet.erase named connit) := by
  obtain ⟨member, -, notHand, none⟩ := owned_in_hand owned
  refine erase_owned owned named none (fun other => ?_)
  have single := owned.single other
  rw [List.count_erase]
  simp only [List.count_cons, beq_iff_eq] at single ⊢
  omega

theorem ready_unowned (owned : Owned hand usenet) (member : connit ∈ usenet.ready) :
    connit ∉ usenet.busy ∧ owners usenet connit = 0 ∧ connit ∉ hand := by
  have absent : connit ∉ usenet.busy := (List.nodup_append'.mp owned.distinct).2.2 member
  have single := owned.single connit
  rw [List.count_eq_zero_of_not_mem absent] at single
  exact ⟨absent, by omega, fun inside => by have := List.count_pos_iff.mpr inside; omega⟩

theorem eraseReady_owned (owned : Owned hand usenet) (member : connit ∈ usenet.ready) (named : Side) :
    Owned hand (usenet.erase named connit) := by
  obtain ⟨absent, none, -⟩ := ready_unowned owned member
  refine erase_owned owned named none (fun other => ?_)
  rw [List.erase_of_not_mem absent]
  exact owned.single other

theorem run_idle {connection : Connection α} (present : usenet.connections connit = some connection)
    (idle : Idle connection) (command : Command α) :
    ∃ act, usenet.run connit command = some (usenet.perform connit act) ∧
      HandsOver (match command with | .startAsyncPost msg => [msg] | .startAsyncStat _ => []) act := by
  cases command with
  | startAsyncPost msg =>
    obtain ⟨accepted, handsOver⟩ := asyncPost_idle idle msg
    exact ⟨_, by simp [Usenet.run, startAsyncPost, present, performAccepted, accepted], handsOver⟩
  | startAsyncStat msgid =>
    obtain ⟨accepted, handsOver⟩ := asyncStat_idle idle msgid
    exact ⟨_, by simp [Usenet.run, startAsyncStat, present, performAccepted, accepted], handsOver⟩

theorem present_of_mem (owned : Owned hand usenet) (member : connit ∈ usenet.ready ++ usenet.busy) :
    ∃ connection, usenet.connections connit = some connection :=
  Option.isSome_iff_exists.mp ((owned.alive connit).mp member)

theorem present_in_hand (owned : Owned (connit :: hand) usenet) :
    ∃ connection, usenet.connections connit = some connection :=
  present_of_mem owned (List.mem_append_right _ (owned_in_hand owned).1)

theorem run_owned (owned : Owned (connit :: hand) usenet)
    (idle : ∀ connection, usenet.connections connit = some connection → Idle connection) {command : Command α}
    {after : Usenet α} (taken : usenet.run connit command = some after) : Owned hand after := by
  obtain ⟨connection, present⟩ := present_in_hand owned
  obtain ⟨act, performed, handsOver⟩ := run_idle present (idle connection present) command
  rw [performed] at taken
  cases taken
  exact perform_owned owned handsOver

theorem dispatch_owned (owned : Owned hand usenet) {command : Command α} {after : Usenet α}
    (taken : usenet.dispatch command = some after) : Owned hand after := by
  obtain ⟨⟨connit, moved⟩, head, run⟩ := Option.bind_eq_some_iff.mp taken
  obtain ⟨movedOwned, idle⟩ := takeReady_owned owned head
  exact run_owned movedOwned idle run

theorem record_owned (owned : Owned hand usenet) (entry : Entry α) : Owned hand (usenet.record entry) :=
  owned.frame rfl rfl rfl rfl rfl rfl

theorem pushBack_owned (owned : Owned hand usenet) (command : Command α) : Owned hand (usenet.pushBack command) :=
  owned.frame rfl rfl rfl rfl rfl rfl

theorem notified_owned (owned : Owned hand usenet) {after : Usenet α} (woken : Notified usenet after) :
    Owned hand after := by
  have counted (other : ConnectionHandle) := @onTasks_notified _ _ _ (taskOf other) (fun _ => rfl) woken
  rcases woken with rfl | ⟨index, io, command, tasks, found, rfl⟩
  · exact owned
  · refine ⟨owned.distinct, owned.alive, owned.known, owned.idle, ?_, owned.handlers, ?_, owned.parted⟩
    · intro other
      have single := owned.single other
      simp only [owners, counted] at single ⊢
      exact single
    · intro thread inside task within other uses
      rcases List.mem_or_eq_of_mem_set inside with earlier | rfl
      · exact owned.tasks thread earlier task within other uses
      · rcases List.mem_cons.mp within with rfl | later
        · cases uses
        · exact owned.tasks _ (List.mem_of_getElem? found) task (List.mem_cons_of_mem _ later) other uses

/-- The connection that is told to quit is gone at once, and its last handler is stale. -/
theorem gracefulDisconnect_owned (owned : Owned hand usenet) (member : connit ∈ usenet.ready) {named : Side}
    {after : Usenet α} (taken : usenet.gracefulDisconnect named connit = some after) :
    Owned hand after ∧ after.ready = usenet.ready.erase connit ∧ after.busy = usenet.busy ∧
      after.pending = usenet.pending ++ [(connit, .stage .quitWritten)] := by
  obtain ⟨absent, -, -⟩ := ready_unowned owned member
  obtain ⟨connection, present, rfl⟩ := Option.map_eq_some_iff.mp taken
  have idle := owned.idle connit member connection present
  have quit : connection.asyncGracefulDisconnect.1 = true ∧
      connection.asyncGracefulDisconnect.2.2.filterMap Call.handler? = [.stage .quitWritten] := by
    simp only [asyncGracefulDisconnect, idle.state, ne_eq, not_true, ite_false, write, handlers_timeout]
    exact ⟨trivial, rfl⟩
  have known := owned.known connit (List.mem_append_left _ member)
  have stale : owns (.stage .quitWritten : Handler α) = false := rfl
  have left := addStale_owned (eraseReady_owned owned member named) stale
    (fun _ => ⟨known, Function.update_self ..⟩)
  rw [performAccepted, if_pos quit.1]
  refine ⟨?_, rfl, List.erase_of_not_mem absent, by simp [record, erase, perform, quit.2]⟩
  apply left.frame <;> simp [record, erase, perform, quit.2, Function.update_idem]

/-- What the disconnection of an idle connection keeps, a shutdown keeps. -/
theorem shutdown_owned_keeps {motive : Usenet α → Prop}
    (keeps : ∀ before named connit after, Owned hand before → connit ∈ before.ready → motive before →
      before.gracefulDisconnect named connit = some after → motive after)
    (owned : Owned hand usenet) (member : connit ∈ usenet.ready) (start : motive usenet) {after : Usenet α}
    (taken : usenet.shutdown connit = some after) : Owned hand after ∧ after.ready = [] ∧ motive after := by
  obtain ⟨next, disconnected, taken⟩ := Option.bind_eq_some_iff.mp taken
  have first : Owned hand next ∧ motive next :=
    ⟨(gracefulDisconnect_owned owned member disconnected).1, keeps usenet .busy connit next owned member start disconnected⟩
  have rest : ∀ before connit after, Owned hand before ∧ motive before → connit ∈ before.ready →
      before.gracefulDisconnect .ready connit = some after → Owned hand after ∧ motive after :=
    fun before connit after earlier inside disconnected =>
      ⟨(gracefulDisconnect_owned earlier.1 inside disconnected).1,
        keeps before .ready connit after earlier.1 inside earlier.2 disconnected⟩
  obtain ⟨⟨afterOwned, kept⟩, ready⟩ := disconnectReady_keeps rest rfl first taken
  exact ⟨afterOwned, ready, kept⟩

theorem shutdown_owned (owned : Owned hand usenet) (member : connit ∈ usenet.ready) {after : Usenet α}
    (taken : usenet.shutdown connit = some after) : Owned hand after ∧ after.ready = [] ∧ after.busy = usenet.busy := by
  refine shutdown_owned_keeps (motive := fun next => next.busy = usenet.busy) ?_ owned member rfl taken
  intro before named connit after earlier inside same disconnected
  obtain ⟨-, -, busy, -⟩ := gracefulDisconnect_owned earlier inside disconnected
  exact busy.trans same

theorem onConnBecomesReady_owned (owned : Owned (connit :: hand) usenet)
    (idle : ∀ connection, usenet.connections connit = some connection → Idle connection) {wake : Option Nat}
    {after : Usenet α} (taken : usenet.onConnBecomesReady connit wake = some after) : Owned hand after := by
  have becomes := becomeReady_owned owned idle
  rcases onConnBecomesReady_cases taken with ⟨_, queue, notified, -, woken, run⟩ | ⟨-, -, rfl⟩ | ⟨-, -, down⟩
  · have same : notified.connections = usenet.connections := by
      rcases woken with rfl | ⟨_, _, _, _, _, rfl⟩ <;> rfl
    have popped : Owned (connit :: hand) { notified with queue } :=
      (notified_owned owned woken).frame rfl rfl rfl rfl rfl rfl
    exact run_owned popped (by rw [same]; exact idle) run
  · exact becomes
  · exact (shutdown_owned becomes (by simp [becomeReady]) down).1

/-- A thread that got this far may go on with these tasks. -/
structure Resumes (hand : List ConnectionHandle) (result : Usenet α × List (Task α)) : Prop where
  owned : Owned (result.2.filterMap connit? ++ hand) result.1
  fits : ∀ task ∈ result.2, ∀ connit, connit? task = some connit →
    ∀ connection, result.1.connections connit = some connection → TaskFits connection task

theorem resumes_nil (owned : Owned hand usenet) : Resumes hand (usenet, []) :=
  ⟨owned, fun _ inside => by cases inside⟩

theorem resumes_none (owned : Owned hand usenet) {tasks : List (Task α)} (none : tasks.filterMap connit? = []) :
    Resumes hand (usenet, tasks) := by
  refine ⟨by simpa [none] using owned, fun task inside connit uses => ?_⟩
  have := List.filterMap_eq_nil_iff.mp none task inside
  rw [uses] at this
  cases this

theorem resumes_one (owned : Owned (connit :: hand) usenet) {connection : Connection α}
    (present : usenet.connections connit = some connection) {tasks : List (Task α)}
    (one : tasks.filterMap connit? = [connit]) (fits : ∀ task ∈ tasks, connit? task ≠ none → TaskFits connection task) :
    Resumes hand (usenet, tasks) := by
  refine ⟨by simpa [one] using owned, fun task inside other uses found isPresent => ?_⟩
  have named : other ∈ tasks.filterMap connit? := List.mem_filterMap.mpr ⟨task, inside, uses⟩
  rw [one, List.mem_singleton] at named
  subst named
  cases present.symm.trans isPresent
  exact fits task inside (by simp [uses])

theorem close_article (connection : Connection α) (outcome : Outcome) :
    (connection.close outcome).article = connection.article := by
  rw [close]
  split <;> rfl

theorem onPostFinished_resumes (owned : Owned (connit :: hand) usenet) {connection : Connection α}
    (present : usenet.connections connit = some connection) (idle : Idle connection) (msg : α) (result : PostResult)
    (outcome : Outcome) : Resumes hand (usenet.onPostFinished connit connection msg result outcome) := by
  have recorded := record_owned owned (.posted connit msg result)
  cases result with
  | postingNotPermitted =>
    apply resumes_one (perform_silent_owned recorded _) (Function.update_self ..) rfl
    simp [TaskFits, connit?, close_article, idle.article]
  | postFailure =>
    apply resumes_one recorded present rfl
    simp [TaskFits, connit?, idle]
  | postFailureConnectionError =>
    exact resumes_none (perform_owned recorded (asyncConnect_close_continues outcome idle.article)) rfl
  | postSuccess =>
    apply resumes_one recorded present rfl
    simp [TaskFits, connit?, idle]

theorem onConnected_resumes (owned : Owned (connit :: hand) usenet) {connection : Connection α}
    (present : usenet.connections connit = some connection) {result : ConnectResult}
    (fits : Fits connection (.connectHandler result)) : Resumes hand (usenet.onConnected connit result) := by
  have recorded := record_owned owned (.connected connit result)
  cases result with
  | fatalConnectError =>
    refine resumes_one recorded present rfl (fun task inside _ => ?_)
    cases List.mem_singleton.mp inside
    exact fits
  | invalidCredentials =>
    refine resumes_one recorded present rfl (fun task inside _ => ?_)
    cases List.mem_singleton.mp inside
    exact fits
  | connectSuccess =>
    refine resumes_one recorded present rfl (fun task inside _ => ?_)
    cases List.mem_singleton.mp inside
    exact fits

theorem onStatFinished_resumes (owned : Owned (connit :: hand) usenet) {connection : Connection α}
    (present : usenet.connections connit = some connection) (idle : Idle connection) (msgid : Bytes)
    (result : StatResult) : Resumes hand (usenet.onStatFinished connit msgid result) := by
  have recorded := record_owned owned (.stated connit msgid result)
  cases result with
  | articleExists =>
    apply resumes_one recorded present rfl
    simp [TaskFits, connit?, idle]
  | invalidArticle =>
    apply resumes_one recorded present rfl
    simp [TaskFits, connit?, idle]
  | connectionError =>
    apply resumes_one recorded present rfl
    simp [TaskFits, connit?, idle.article]

theorem deliver_resumes (owned : Owned (connit :: hand) usenet) {handler : Handler α} (owning : owns handler = true)
    (fits : ∀ connection, usenet.connections connit = some connection → Fits connection handler) (outcome : Outcome) :
    Resumes hand (usenet.deliver connit handler outcome) := by
  obtain ⟨connection, present⟩ := present_in_hand owned
  have fits := fits connection present
  simp only [deliver, present]
  cases handler with
  | stage stage => exact resumes_nil (perform_owned owned (run_continues usenet.articles outcome fits owning))
  | timer => cases owning
  | connectHandler result => exact onConnected_resumes owned present fits
  | postHandler msg result => exact onPostFinished_resumes owned present fits msg result outcome
  | statHandler msgid result => exact onStatFinished_resumes owned present fits msgid result

private theorem request_calls (calls : List (Request α)) :
    (calls.map Task.request).filterMap connit? = ([] : List ConnectionHandle) := by
  simp [List.filterMap_eq_nil_iff, connit?]

theorem proceed_resumes {choice : Choice α} {task : Task α} (owned : Owned ((connit? task).toList ++ hand) usenet)
    (fits : ∀ connit, connit? task = some connit →
      ∀ connection, usenet.connections connit = some connection → TaskFits connection task)
    {result : Usenet α × List (Task α)} (taken : usenet.proceed choice task = some result) : Resumes hand result := by
  cases proceed_executes taken with
  | dispatches idle dispatched => exact resumes_nil (dispatch_owned (record_owned owned _) dispatched)
  | waits => exact resumes_none owned rfl
  | defers => exact resumes_nil (pushBack_owned (record_owned owned _) _)
  | resumes => exact resumes_nil (pushBack_owned (record_owned owned _) _)
  | sleeps => exact resumes_none owned rfl
  | @becomesReady connit after became => exact resumes_nil (onConnBecomesReady_owned owned (fits connit rfl) became)
  | discards => exact resumes_nil ((eraseBusy_owned owned .busy).frame rfl rfl rfl rfl rfl rfl)
  | redispatches idle dispatched => exact resumes_nil (dispatch_owned owned dispatched)
  | requeues => exact resumes_nil (pushBack_owned owned _)
  | @reconnects connit msgid connection present =>
    have closed := asyncConnect_close_continues choice.outcome (fits connit rfl connection present)
    exact resumes_nil (perform_owned (pushBack_owned owned (.startAsyncStat msgid)) closed)
  | observes slot =>
    cases task <;> cases slot <;> exact resumes_none (record_owned owned _) (request_calls choice.calls)

theorem addConnection_owned (owned : Owned hand usenet) (conninfo : ConnectionInfo) :
    Owned hand (usenet.addConnection conninfo) := by
  have fresh : usenet.nextHandle ∉ usenet.ready ++ usenet.busy := fun inside =>
    Nat.lt_irrefl _ (owned.known _ inside)
  have unowned : owners usenet usenet.nextHandle = 0 := by
    have single := owned.single usenet.nextHandle
    rw [List.count_eq_zero_of_not_mem (fun inside => fresh (List.mem_append_right _ inside))] at single
    omega
  have made : Owned (usenet.nextHandle :: hand) { usenet with
      busy := usenet.busy ++ [usenet.nextHandle]
      nextHandle := usenet.nextHandle + 1
      connections := Function.update usenet.connections usenet.nextHandle (some (.make conninfo usenet.optimeout)) } := by
    refine ⟨?_, ?_, ?_, ?_, ?_, ?_, ?_, ?_⟩
    · rw [← List.append_assoc, List.nodup_append_comm]
      exact List.nodup_cons.mpr ⟨fresh, owned.distinct⟩
    · intro other
      by_cases same : other = usenet.nextHandle
      · subst same
        simp
      · simpa [same, Function.update_of_ne same] using owned.alive other
    · intro other inside
      rw [← List.append_assoc, List.mem_append, List.mem_singleton] at inside
      rcases inside with earlier | rfl
      · exact Nat.lt_succ_of_lt (owned.known other earlier)
      · exact Nat.lt_succ_self _
    · intro other inside connection present
      have different : other ≠ usenet.nextHandle := by
        rintro rfl
        exact fresh (List.mem_append_left _ inside)
      exact owned.idle other inside connection (by simpa [Function.update_of_ne different] using present)
    · intro other
      have single := owned.single other
      simp only [owners, onTasks, List.count_cons, List.count_append, List.count_nil] at single ⊢
      omega
    · intro other handler inside owning connection present
      have different := handler_elsewhere unowned inside owning
      exact owned.handlers other handler inside owning connection
        (by simpa [Function.update_of_ne different] using present)
    · intro thread inside task within other uses connection present
      have different := task_elsewhere unowned inside within uses
      exact owned.tasks thread inside task within other uses connection
        (by simpa [Function.update_of_ne different] using present)
    · intro other inside
      obtain ⟨known, gone⟩ := owned.parted other inside
      exact ⟨Nat.lt_succ_of_lt known, by simpa [Function.update_of_ne (Nat.ne_of_lt known)] using gone⟩
  have handsOver : HandsOver [] (asyncConnect (.make conninfo usenet.optimeout : Connection α)) :=
    ⟨.stage .doConnect, rfl, rfl, ⟨rfl, rfl⟩, rfl⟩
  apply (perform_owned made handsOver).frame <;> simp [addConnection, perform, Function.update_idem]

theorem addConnections_owned (owned : Owned hand usenet) (conninfo : ConnectionInfo) (numConnections : Nat) :
    Owned hand (usenet.addConnections conninfo numConnections) :=
  addConnections_keeps (motive := Owned hand) (fun _ owned => addConnection_owned owned conninfo) owned numConnections

theorem deliver_stale {handler : Handler α} (stale : owns handler = false)
    (gone : handler = .stage .quitWritten → usenet.connections connit = none) (outcome : Outcome) :
    usenet.deliver connit handler outcome = (usenet, []) := by
  rw [deliver]
  cases present : usenet.connections connit with
  | none => rfl
  | some connection =>
    cases handler with
    | stage stage =>
      cases stage with
      | quitWritten => cases present.symm.trans (gone rfl)
      | _ => cases stale
    | timer => rfl
    | _ => cases stale

/-- A handler that was taken has its connection to itself, or nothing to do. -/
theorem takePending_cases (owned : Owned [] usenet) {place : Nat} {handler : Handler α}
    (found : usenet.pending[place]? = some (connit, handler)) (outcome : Outcome) :
    (owns handler = true ∧ Owned [connit] { usenet with pending := usenet.pending.eraseIdx place } ∧
      ∀ connection, usenet.connections connit = some connection → Fits connection handler) ∨
    (owns handler = false ∧
      { usenet with pending := usenet.pending.eraseIdx place }.deliver connit handler outcome =
        ({ usenet with pending := usenet.pending.eraseIdx place }, [])) := by
  have member := List.mem_of_getElem? found
  cases owning : owns handler with
  | true => exact .inl ⟨rfl, takePending_owned owned found owning, owned.handlers connit handler member owning⟩
  | false =>
    refine .inr ⟨rfl, deliver_stale owning ?_ outcome⟩
    rintro rfl
    exact (owned.parted connit member).2

theorem owned_make (eraseRule : EraseRule) (iothreads maxQueueSize : Nat) (articles : α → Article) :
    Owned [] (Usenet.make eraseRule iothreads maxQueueSize articles) := by
  constructor <;> simp [Usenet.make, owners, onTasks]

theorem addThreads_owned (owned : Owned hand usenet) (io : Bool) (count : Nat) :
    Owned hand { usenet with threads := usenet.threads ++ List.replicate count ⟨io, []⟩ } := by
  refine ⟨owned.distinct, owned.alive, owned.known, owned.idle, ?_, owned.handlers, ?_, owned.parted⟩
  · intro other
    have single := owned.single other
    simp only [owners, onTasks_idle] at single ⊢
    exact single
  · intro thread inside task within
    rcases List.mem_append.mp inside with earlier | new
    · exact owned.tasks thread earlier task within
    · rw [List.eq_of_mem_replicate new] at within
      cases within

theorem step_owned {event : Event α} {after : Usenet α} (owned : Owned [] usenet)
    (taken : usenet.step event = some after) : Owned [] after := by
  cases event with
  | setOperationTimeout seconds =>
    cases taken
    exact owned.frame rfl rfl rfl rfl rfl rfl
  | addConnections conninfo numConnections =>
    cases taken
    exact addConnections_owned owned conninfo numConnections
  | start =>
    cases taken
    exact (addThreads_owned owned true usenet.numthreads).frame rfl rfl rfl rfl rfl rfl
  | stop =>
    cases taken
    exact owned.frame rfl rfl rfl rfl rfl rfl
  | spawn =>
    cases taken
    exact addThreads_owned owned false 1
  | call index request =>
    obtain ⟨found, rfl⟩ := step_call taken
    refine pushTasks_owned owned (List.getElem?_eq_some_iff.mp found).1 (fun task inside other uses => ?_)
    cases List.mem_singleton.mp inside
    cases uses
  | take index place outcome =>
    obtain ⟨connit, handler, idle, found, rfl⟩ := step_take taken
    have inside := (List.getElem?_eq_some_iff.mp idle).1
    rcases takePending_cases owned found outcome with ⟨owning, taken, fits⟩ | ⟨stale, nothing⟩
    · have resumes := deliver_resumes taken owning fits outcome
      exact pushTasks_owned resumes.owned (by rw [(deliver_apart ..).threads]; exact inside) resumes.fits
    · rw [nothing]
      exact pushTasks_owned (dropStale_owned owned found stale) inside nofun
  | expire connit =>
    obtain ⟨-, -, rfl⟩ := step_expire taken
    exact (addStale_owned owned (show owns (.timer : Handler α) = false from rfl) nofun).frame rfl rfl rfl rfl rfl rfl
  | proceed index choice =>
    obtain ⟨io, task, tasks, result, found, proceeded, rfl⟩ := step_proceed taken
    have resumes := proceed_resumes (popTask_owned owned found) (popTask_fits owned found) proceeded
    exact pushTasks_owned resumes.owned (proceed_inside found proceeded) resumes.fits
  | rewrite articles =>
    cases taken
    exact owned.frame rfl rfl rfl rfl rfl rfl

/-- The invariant of every run. -/
theorem reachable_owned {eraseRule : EraseRule} {iothreads maxQueueSize : Nat} {articles : α → Article}
    (reached : Machine.Reachable step (Usenet.make eraseRule iothreads maxQueueSize articles) usenet) : Owned [] usenet :=
  reached.invariant (Owned []) (owned_make ..) (fun _ _ _ owned taken => step_owned owned taken)

end Post2Usenet.Proofs.PoolOwnership
