import Post2Usenet.Lib.Simulation
import Post2Usenet.Poster
import Post2Usenet.Proofs.NzbSoundness
import Post2Usenet.Proofs.Retries

/-! The program against what posting is about. Whatever the pool, the network and the
threads do, the callbacks of a run are a run of the poster, and the exit status tells how it ends. -/

namespace Post2Usenet.Proofs.Posters
open Connection Main MainRun MainSteps PoolSteps PoolAccounting PoolRequests PoolAttempts Retries Poster Tally

section Poster

variable {κ : Type} [DecidableEq κ] {poster after : Poster κ} {history : List (Deed κ)} {deed : Deed κ}

@[simp] theorem put_self (key : κ) (status : Status) : (poster.put key status).status key = status :=
  Function.update_self ..

theorem put_of_ne {key other : κ} (different : other ≠ key) (status : Status) :
    (poster.put key status).status other = poster.status other := Function.update_of_ne different ..

@[simp] theorem put_abandoned (key : κ) (status : Status) : (poster.put key status).abandoned = poster.abandoned := rfl

/-- What a step of the poster can be. -/
inductive Posts (poster : Poster κ) : Deed κ → Poster κ → Prop
  | makes {key : κ} (unmade : poster.status key = .unmade) : Posts poster (.make key) (poster.put key (.waiting 0))
  | fails {key : κ} {failures : Nat} (waiting : poster.status key = .waiting failures) :
      Posts poster (.fail key) { poster.put key (.waiting (failures + 1)) with abandoned := failures + 1 = limit }
  | succeeds {key : κ} {failures : Nat} (waiting : poster.status key = .waiting failures) :
      Posts poster (.succeed key) (poster.put key (.posted failures))

theorem step_posts (taken : poster.step deed = some after) : poster.abandoned = false ∧ Posts poster deed after := by
  simp only [Poster.step] at taken
  split at taken
  · cases taken
  next going =>
    refine ⟨Bool.eq_false_of_not_eq_true going, ?_⟩
    split at taken
    · split at taken
      next unmade =>
        cases taken
        exact .makes unmade
      · cases taken
    · split at taken
      next failures waiting =>
        cases taken
        exact .fails waiting
      · cases taken
    · split at taken
      next failures waiting =>
        cases taken
        exact .succeeds waiting
      · cases taken

theorem Remembers.other {key : κ} {status : Status} (remembers : Remembers history key status) (other : deed.key ≠ key) :
    Remembers (history ++ [deed]) key status := by
  have made : deed ≠ .make key := by rintro rfl; exact other rfl
  have failed : deed ≠ .fail key := by rintro rfl; exact other rfl
  have posted : deed ≠ .succeed key := by rintro rfl; exact other rfl
  cases status <;> simpa [Remembers, made, failed, posted] using remembers

/-- A deed changes the status of its piece, and nobody else's. -/
theorem put_kept (deed : Deed κ) (kept : Kept history poster) (going : poster.abandoned = false) {status : Status} {abandoned : Bool}
    (remembers : Remembers (history ++ [deed]) deed.key status) (allowed : Allowed status)
    (abandons : abandoned = true ↔ status = .waiting limit) :
    Kept (history ++ [deed]) { poster.put deed.key status with abandoned } := by
  refine ⟨fun key => ?_, fun key => ?_, ?_⟩
  · by_cases same : key = deed.key
    · rw [same, put_self]
      exact remembers
    · rw [put_of_ne same]
      exact Remembers.other (kept.remembers key) (Ne.symm same)
  · by_cases same : key = deed.key
    · rw [same, put_self]
      exact allowed
    · rw [put_of_ne same]
      exact kept.allowed key
  · rw [abandons]
    constructor
    · intro last
      exact ⟨deed.key, by rw [put_self, last]⟩
    · rintro ⟨key, given⟩
      by_cases same : key = deed.key
      · rwa [same, put_self] at given
      · rw [put_of_ne same] at given
        cases going.symm.trans (kept.abandons.mpr ⟨key, given⟩)

theorem step_kept (kept : Kept history poster) (taken : poster.step deed = some after) :
    Kept (history ++ [deed]) after := by
  obtain ⟨going, posts⟩ := step_posts taken
  have few {key : κ} {failures : Nat} (waiting : poster.status key = .waiting failures) : failures < limit := by
    have allowed := kept.allowed key
    rw [waiting] at allowed
    refine lt_of_le_of_ne allowed ?_
    rintro rfl
    cases going.symm.trans (kept.abandons.mpr ⟨key, waiting⟩)
  cases posts with
  | @makes key unmade =>
    have before := kept.remembers key
    rw [unmade] at before
    exact put_kept (.make key) kept going (by simpa [Remembers, Deed.key] using before) (Nat.zero_le _) (by simp [going, limit])
  | @fails key failures waiting =>
    have before := kept.remembers key
    rw [waiting] at before
    exact put_kept (.fail key) kept going (by simpa [Remembers, Deed.key] using before) (few waiting) (by simp)
  | @succeeds key failures waiting =>
    have before := kept.remembers key
    rw [waiting] at before
    exact put_kept (.succeed key) kept going (by simpa [Remembers, Deed.key] using before) (few waiting) (by simp [going])

theorem run_kept (kept : Kept history poster) {deeds : List (Deed κ)} (reached : Machine.run Poster.step poster deeds = some after) :
    Kept (history ++ deeds) after := by
  induction deeds generalizing history poster with
  | nil =>
    cases reached
    simpa using kept
  | cons deed deeds ih =>
    obtain ⟨next, taken, reached⟩ := Option.bind_eq_some_iff.mp reached
    simpa using ih (step_kept kept taken) reached

theorem idle_kept : Kept [] (idle : Poster κ) := by
  refine ⟨fun key => by simp [idle, Remembers], fun _ => trivial, ?_⟩
  simp [idle]

end Poster

section Main

variable {eraseRule : EraseRule} {crc32 : Bytes → UInt32} {launch : Launch} {main after : Main} {event : Main.Event}
  {key : FilepieceKey}

/-- Where the maps and callbacks of the program have a piece. -/
def status (main : Main) (key : FilepieceKey) : Status :=
  if made main key = 0 then .unmade
  else if callbacks key true main.usenet = 0 then .waiting (failed main key)
  else .posted (failed main key)

def poster (main : Main) : Poster FilepieceKey := ⟨status main, decide (main.position = .exited)⟩

/-- What a step of the program does to a piece. -/
def deeds (crc32 : Bytes → UInt32) (main : Main) : Main.Event → List (Deed FilepieceKey)
  | .advance =>
    match main.position with
    | .posting fileIndex pieceIndex =>
      if pieceIndex < (main.postitems.getNumPieces fileIndex).getD 0 ∧
          (main.postitems.getChunk crc32 fileIndex pieceIndex).isSome then [.make ⟨fileIndex, pieceIndex⟩]
      else []
    | _ => []
  | .proceed thread _ _ _ =>
    match headTask main.usenet thread with
    | some (.slotPostFailed key) => [.fail key]
    | some (.slotFinishPost key) => [.succeed key]
    | _ => []
  | _ => []

theorem poster_ext {first second : Poster FilepieceKey} (statuses : ∀ key, first.status key = second.status key)
    (abandoned : first.abandoned = second.abandoned) : first = second := by
  obtain ⟨status, _⟩ := first
  obtain ⟨_, _⟩ := second
  cases funext statuses
  cases abandoned
  rfl

theorem status_congr (made' : made after key = made main key)
    (finished : callbacks key true after.usenet = callbacks key true main.usenet)
    (retries : failed after key = failed main key) : status after key = status main key := by
  rw [status, made', finished, retries]
  rfl

theorem posted_status {failures : Nat} (exists' : 0 < made main key) (posted : 0 < callbacks key true main.usenet)
    (often : failed main key = failures) : status main key = .posted failures := by
  rw [status, if_neg (Nat.pos_iff_ne_zero.mp exists'), if_neg (Nat.pos_iff_ne_zero.mp posted), often]

/-- What a step says of the other pieces stays as it was. -/
theorem poster_put {status' : Status} {abandoned : Bool} (own : status after key = status')
    (exits : abandoned = decide (after.position = .exited))
    (others : ∀ other, other ≠ key → made after other = made main other ∧
      callbacks other true after.usenet = callbacks other true main.usenet ∧ failed after other = failed main other) :
    { (poster main).put key status' with abandoned } = poster after := by
  refine poster_ext (fun other => ?_) exits
  by_cases same : other = key
  · rw [same]
    exact (put_self ..).trans own.symm
  · obtain ⟨made', finished, retries⟩ := others other same
    exact (put_of_ne same _).trans (status_congr made' finished retries).symm

theorem waiting_status {failures : Nat} (exists' : 0 < made main key) (unposted : callbacks key true main.usenet = 0)
    (often : failed main key = failures) : status main key = .waiting failures := by
  rw [status, if_neg (Nat.pos_iff_ne_zero.mp exists'), if_pos unposted, often]

/-- A piece whose callback is about to run was made and not posted. -/
theorem waiting_of_inHand (sound : Sound eraseRule launch main) {thread : Nat} {task : Task FilepieceKey}
    (head : headTask main.usenet thread = some task) (concludes : inHandOf key task = 1) :
    0 < made main key ∧ callbacks key true main.usenet = 0 ∧ status main key = .waiting (failed main key) := by
  have inHand : 1 ≤ inHand key main.usenet := by
    have weighs := headTask_weighs (inHandOf key) head
    rwa [concludes] at weighs
  have once := sound.once key
  have bound := made_le main key
  have exists' : 0 < made main key := by omega
  have unposted : callbacks key true main.usenet = 0 := by omega
  exact ⟨exists', unposted, waiting_status exists' unposted rfl⟩

theorem step_one {poster next : Poster FilepieceKey} {deed : Deed FilepieceKey} (taken : poster.step deed = some next) :
    Machine.run Poster.step poster [deed] = some next := (Machine.run_singleton ..).trans taken

theorem step_fail {poster : Poster FilepieceKey} {failures : Nat} (going : poster.abandoned = false)
    (waiting : poster.status key = .waiting failures) :
    poster.step (.fail key) =
      some { poster.put key (.waiting (failures + 1)) with abandoned := failures + 1 = limit } := by
  simp [Poster.step, going, waiting]

theorem going_poster (going : main.position.ended = false) : (poster main).abandoned = false :=
  decide_eq_false (going_ongoing going)

/-- The callback of a failed post is one failure of its piece, and gives it up in time. -/
theorem retried_deed (persistent : Persistent eraseRule launch main) (going : main.position.ended = false) {thread : Nat}
    (head : headTask main.usenet thread = some (.slotPostFailed key))
    {nonces : RetryNonces} (retried : Retried launch main key thread nonces after) : (poster main).step (.fail key) = some (poster after) := by
  obtain ⟨sound, tried, -⟩ := persistent
  obtain ⟨exists', unposted, waiting⟩ := waiting_of_inHand sound head (if_pos rfl)
  have counted := tried.counted (going_ongoing going) key
  have twice := tried.twice key
  have bound := made_le main key
  rw [step_fail (going_poster going) waiting]
  cases retried with
  | exits often =>
    have last : failed main key + 1 = limit := by
      rw [limit]
      omega
    refine congrArg some (poster_put ?_ (by simp [gaveUp, last]) (fun other different => ?_))
    · exact waiting_status exists' unposted (by simp [failed, gaveUp])
    · exact ⟨rfl, rfl, by simp [failed, gaveUp, different]⟩
  | @requeues outcome wake usenet seldom taken =>
    have few : failed main key + 1 ≠ limit := by
      rw [limit]
      omega
    have finished (other : FilepieceKey) : callbacks other true usenet = callbacks other true main.usenet :=
      ((proceed_counts other taken head).2 true).trans (by simp [concludingOf]; rfl)
    refine congrArg some (poster_put ?_ (by simp [going_ongoing going, few]) (fun other different => ?_))
    · exact waiting_status exists' ((finished key).trans unposted) (by simp [failed])
    · exact ⟨rfl, finished other, by simp [failed, different]⟩

theorem finished_deed (sound : Sound eraseRule launch main) (going : main.position.ended = false) {thread : Nat}
    {outcome : Outcome} {wake : Option Nat} {usenet : Usenet FilepieceKey}
    (head : headTask main.usenet thread = some (.slotFinishPost key))
    (taken : main.usenet.step (.proceed thread ⟨outcome, wake, []⟩) = some usenet) :
    (poster main).step (.succeed key) = some (poster { main.postFinished key with usenet }) := by
  obtain ⟨exists', unposted, waiting⟩ := waiting_of_inHand sound head (if_pos rfl)
  have finished (other : FilepieceKey) : callbacks other true usenet =
      callbacks other true main.usenet + if key = other then 1 else 0 :=
    ((proceed_counts other taken head).2 true).trans (by simp [concludingOf])
  have waits : (poster main).status key = .waiting (failed main key) := waiting
  have steps : (poster main).step (.succeed key) = some ((poster main).put key (.posted (failed main key))) := by
    simp [Poster.step, going_poster going, waits]
  rw [steps]
  refine congrArg some (poster_put ?_ rfl (fun other different => ?_))
  · have now : callbacks key true usenet = 1 := by rw [finished, unposted, if_pos rfl]
    exact posted_status exists' (now ▸ Nat.one_pos) rfl
  · refine ⟨rfl, ?_, rfl⟩
    exact (finished other).trans (by rw [if_neg (Ne.symm different), Nat.add_zero])

/-- The loop has not made the piece that it is at. -/
theorem unmade_here (sound : Sound eraseRule launch main) {fileIndex pieceIndex : Nat}
    (position : main.position = .posting fileIndex pieceIndex) : made main ⟨fileIndex, pieceIndex⟩ = 0 := by
  by_contra some'
  have behind := sound.ahead fileIndex pieceIndex position _ (by_contra fun none => some' (if_neg none))
  rw [position] at behind
  simp [Behind] at behind

theorem made_deed (persistent : Persistent eraseRule launch main) (going : main.position.ended = false)
    {fileIndex pieceIndex size : Nat} {article : Article} {postitems : Fileset} {usenet : Usenet FilepieceKey}
    (position : main.position = .posting fileIndex pieceIndex)
    (taken : { main.usenet with
      articles := Function.update main.usenet.articles ⟨fileIndex, pieceIndex⟩ article }.step
        (.call 0 (.enqueuePost ⟨fileIndex, pieceIndex⟩ false)) = some usenet) :
    (poster main).step (.make ⟨fileIndex, pieceIndex⟩) = some (poster { main with
      usenet
      postitems
      position := .posting fileIndex (pieceIndex + 1)
      pieceSizes := Function.update main.pieceSizes ⟨fileIndex, pieceIndex⟩ (some size) }) := by
  obtain ⟨sound, tried, -⟩ := persistent
  obtain ⟨-, rfl⟩ := step_call taken
  have absent := unmade_here sound position
  have once := sound.once ⟨fileIndex, pieceIndex⟩
  have twice := tried.twice ⟨fileIndex, pieceIndex⟩
  have counted := tried.counted (going_ongoing going) ⟨fileIndex, pieceIndex⟩
  have unmade : (poster main).status ⟨fileIndex, pieceIndex⟩ = .unmade := if_pos absent
  have steps : (poster main).step (.make ⟨fileIndex, pieceIndex⟩) =
      some ((poster main).put ⟨fileIndex, pieceIndex⟩ (.waiting 0)) := by
    simp [Poster.step, going_poster going, unmade]
  rw [steps]
  refine congrArg some (poster_put ?_ (by simp [poster, position]) (fun other different => ?_))
  · refine waiting_status (by simp [made]) ?_ ?_
    · show callbacks ⟨fileIndex, pieceIndex⟩ true main.usenet = 0
      omega
    · show failed main ⟨fileIndex, pieceIndex⟩ = 0
      omega
  · exact ⟨by simp [made, different], rfl, rfl⟩

/-- A step of the pool that runs no callback for a post that succeeded. -/
theorem quiet_callbacks {event : Usenet.Event FilepieceKey} {usenet : Usenet FilepieceKey}
    (taken : main.usenet.step event = some usenet)
    (other : ∀ task, PoolRequests.runs main.usenet event = some task → ∀ key, concludingOf key true task = 0)
    (key : FilepieceKey) : callbacks key true usenet = callbacks key true main.usenet := by
  have moved := step_callbacks key true taken
  cases run : PoolRequests.runs main.usenet event with
  | none => simpa [run] using moved
  | some task => simpa [run, other task run key] using moved

/-- A step that makes nothing and runs no callback of a post is none of the poster. -/
theorem quiet_poster {usenet : Usenet FilepieceKey} {position : Position} (going : main.position.ended = false)
    (ongoing : position ≠ .exited) (quiet : ∀ key, callbacks key true usenet = callbacks key true main.usenet) :
    poster { main with usenet, position } = poster main :=
  poster_ext (fun key => status_congr rfl (quiet key) rfl) (by simp [poster, going_ongoing going, ongoing])

theorem advance_deeds (persistent : Persistent eraseRule launch main) (going : main.position.ended = false)
    (advances : Advances crc32 launch main after) :
    Machine.run Poster.step (poster main) (deeds crc32 main .advance) = some (poster after) := by
  have past_ongoing {position : Position} (later : past position = true) : position ≠ .exited := by
    rintro rfl
    cases later
  have past_deeds (before : past main.position = true) : deeds crc32 main .advance = [] := by
    simp only [deeds]
    split
    next position => rw [position] at before; cases before
    · rfl
  cases advances with
  | posts position found inside served built taken =>
    rw [deeds, position]
    simp only [found, Option.getD_some, inside, served, Option.isSome_some, and_self, if_true]
    exact step_one (made_deed persistent going position taken)
  | nextFile position found outside =>
    rw [deeds, position]
    simp only [found, Option.getD_some, outside, false_and, if_false]
    exact congrArg some (quiet_poster going (by rintro ⟨⟩) (fun _ => rfl)).symm
  | @postsNoMore fileIndex pieceIndex next position last later unwritten =>
    have none' : main.postitems.getNumPieces fileIndex = none := by
      rw [persistent.sound.files, Fileset.getNumPieces, List.getElem?_eq_none (Nat.le_of_not_lt last)]
      rfl
    rw [deeds, position]
    simp only [none', Option.getD_none, Nat.not_lt_zero, false_and, if_false]
    exact congrArg some (quiet_poster going (past_ongoing later) (fun _ => rfl)).symm
  | @calls event usenet position before asks taken later unwritten =>
    rw [past_deeds before]
    have quiet : PoolRequests.runs main.usenet event = none := by rcases asks with rfl | ⟨msgid, rfl⟩ <;> rfl
    have same := quiet_callbacks taken (fun task run => by cases quiet.symm.trans run)
    exact congrArg some (quiet_poster going (past_ongoing later) same).symm
  | passes before later unwritten =>
    rw [past_deeds before]
    exact congrArg some (quiet_poster going (past_ongoing later) (fun _ => rfl)).symm
  | joins position between joined empty =>
    rw [past_deeds (by rw [position]; rfl)]
    exact congrArg some (quiet_poster going (by rintro ⟨⟩) (fun _ => rfl)).symm
  | throws position unserved =>
    rw [deeds, position]
    simp only [unserved, Option.isSome_none, Bool.false_eq_true, and_false, if_false]
    exact congrArg some (quiet_poster going (by rintro ⟨⟩) (fun _ => rfl)).symm

/-- The program steps as the poster does. -/
theorem step_deeds (persistent : Persistent eraseRule launch main) (taken : main.step crc32 launch event = some after) :
    Machine.run Poster.step (poster main) (deeds crc32 main event) = some (poster after) := by
  have going := step_going taken
  have ongoing := going_ongoing going
  cases step_cases taken with
  | advance advances => exact advance_deeds persistent going advances
  | take stepped => exact congrArg some (quiet_poster going ongoing (quiet_callbacks stepped nofun)).symm
  | throws thrown => exact congrArg some (quiet_poster going (by rintro ⟨⟩) (fun _ => rfl)).symm
  | expire stepped => exact congrArg some (quiet_poster going ongoing (quiet_callbacks stepped nofun)).symm
  | write position =>
    refine congrArg some (poster_ext (fun _ => rfl) ?_)
    simp [poster, position]
  | @proceed thread outcome wake nonces after proceeds =>
    have retried (key : FilepieceKey) (head : headTask main.usenet thread = some (.slotPostFailed key)) :
        Machine.run Poster.step (poster main) (deeds crc32 main (.proceed thread outcome wake nonces)) = some (poster after) := by
      rw [deeds, head]
      exact step_one (retried_deed persistent going head (step_retried persistent.sound head taken))
    cases proceeds with
    | exits head => exact retried _ head
    | requeues head => exact retried _ head
    | finishes head stepped =>
      rw [deeds, head]
      exact step_one (finished_deed persistent.sound going head stepped)
    | @plain usenet unfailed unfinished stepped =>
      have nothing : deeds crc32 main (.proceed thread outcome wake nonces) = [] := by simp only [deeds]
      rw [nothing]
      refine congrArg some (quiet_poster going ongoing (quiet_callbacks stepped (fun task head key => ?_))).symm
      cases task with
      | slotPostFailed msg => exact absurd head (unfailed msg)
      | slotFinishPost msg => exact absurd head (unfinished msg)
      | _ => rfl

/-- How often pieces were posted, each with a weight of its own. -/
def postedTotal (launch : Launch) (main : Main) (weight : FilepieceKey → Nat) : Nat :=
  total (fun key => callbacks key true main.usenet * weight key) (pieces launch.postitems)

/-- What the callback for a post that succeeded has counted. -/
structure Accounted (launch : Launch) (main : Main) : Prop where
  count : main.numPosted = sizeT (postedTotal launch main (fun _ => 1))
  bytes : main.bytesPosted = sizeT (postedTotal launch main (fun key => (main.pieceSizes key).getD 0))

theorem postedTotal_finishes (sound : Sound eraseRule launch main) {thread : Nat} {outcome : Outcome} {wake : Option Nat}
    {usenet : Usenet FilepieceKey} (head : headTask main.usenet thread = some (.slotFinishPost key))
    (taken : main.usenet.step (.proceed thread ⟨outcome, wake, []⟩) = some usenet) (weight : FilepieceKey → Nat) :
    postedTotal launch { main.postFinished key with usenet } weight = postedTotal launch main weight + weight key := by
  obtain ⟨exists', unposted, -⟩ := waiting_of_inHand sound head (if_pos rfl)
  obtain ⟨size, -, piece⟩ := sound.known exists'
  have finished (other : FilepieceKey) : callbacks other true usenet =
      callbacks other true main.usenet + if key = other then 1 else 0 :=
    ((proceed_counts other taken head).2 true).trans (by simp [concludingOf])
  have changed : (fun other => callbacks other true usenet * weight other) =
      Function.update (fun other => callbacks other true main.usenet * weight other) key (weight key) := by
    funext other
    by_cases same : other = key
    · subst same
      simp [finished, unposted]
    · simp [finished, same, Ne.symm same]
  have summed := total_update (fun other => callbacks other true main.usenet * weight other)
    (pieces_nodup launch.postitems) (mem_pieces.mpr piece) (weight key)
  rw [unposted, Nat.zero_mul, Nat.add_zero, ← changed] at summed
  exact summed

theorem Accounted.frame (accounted : Accounted launch main)
    (count : after.numPosted = main.numPosted) (bytes : after.bytesPosted = main.bytesPosted)
    (sizes : ∀ key, callbacks key true after.usenet * (after.pieceSizes key).getD 0 =
      callbacks key true main.usenet * (main.pieceSizes key).getD 0)
    (finished : ∀ key, callbacks key true after.usenet = callbacks key true main.usenet) : Accounted launch after := by
  refine ⟨?_, ?_⟩
  · rw [count, accounted.count]
    simp only [postedTotal, finished]
  · rw [bytes, accounted.bytes]
    simp only [postedTotal, sizes]

theorem step_accounted (persistent : Persistent eraseRule launch main) (accounted : Accounted launch main)
    (taken : main.step crc32 launch event = some after) : Accounted launch after := by
  have sound := persistent.sound
  have quiet {event : Usenet.Event FilepieceKey} {usenet : Usenet FilepieceKey} {position : Position}
      (taken : main.usenet.step event = some usenet) (runs : PoolRequests.runs main.usenet event = none) :
      Accounted launch { main with usenet, position } := by
    have same := quiet_callbacks taken (fun task run => by cases runs.symm.trans run)
    exact accounted.frame rfl rfl (fun key => by rw [same]) same
  cases step_cases taken with
  | advance advances =>
    cases advances with
    | @posts fileIndex pieceIndex numPieces chunk chunked postitems article usenet position found inside served built called =>
      obtain ⟨-, rfl⟩ := step_call called
      refine accounted.frame rfl rfl (fun key => ?_) (fun _ => rfl)
      show callbacks key true main.usenet * _ = _
      by_cases new : key = ⟨fileIndex, pieceIndex⟩
      · have unmade := unmade_here sound position
        rw [← new] at unmade
        have once := sound.once key
        rw [show callbacks key true main.usenet = 0 by omega, Nat.zero_mul, Nat.zero_mul]
      · simp [new]
    | @calls event usenet position before asks called later unwritten =>
      exact quiet called (by rcases asks with rfl | ⟨msgid, rfl⟩ <;> rfl)
    | nextFile | postsNoMore | passes | joins | throws => exact accounted.frame rfl rfl (fun _ => rfl) (fun _ => rfl)
  | take stepped => exact quiet stepped rfl
  | throws thrown => exact accounted.frame rfl rfl (fun _ => rfl) (fun _ => rfl)
  | expire stepped => exact quiet stepped rfl
  | write position => exact accounted.frame rfl rfl (fun _ => rfl) (fun _ => rfl)
  | @proceed thread outcome wake nonces after proceeds =>
    cases proceeds with
    | exits head => exact accounted.frame rfl rfl (fun _ => rfl) (fun _ => rfl)
    | @requeues msg key usenet head named seldom requeued =>
      have same (other : FilepieceKey) : callbacks other true usenet = callbacks other true main.usenet :=
        ((proceed_counts other requeued head).2 true).trans (by simp [concludingOf]; rfl)
      exact accounted.frame rfl rfl (fun other => by rw [same]) same
    | @finishes msg usenet head stepped =>
      obtain ⟨exists', -, -⟩ := waiting_of_inHand sound head (if_pos rfl)
      obtain ⟨size, sized, -⟩ := sound.known exists'
      have payload : (main.usenet.articles msg).getPayloadSize = (main.pieceSizes msg).getD 0 := by
        rw [sized, Option.getD_some, ← (sound.described msg size sized).payload, Article.getPayloadSize, List.length_flatten]
      refine ⟨?_, ?_⟩
      · rw [postedTotal_finishes sound head stepped]
        simp only [postFinished, accounted.count, sizeT, Nat.mod_add_mod]
      · rw [show ({ main.postFinished msg with usenet } : Main).pieceSizes = main.pieceSizes from rfl,
          postedTotal_finishes sound head stepped]
        simp only [postFinished, accounted.bytes, sizeT, Nat.mod_add_mod, payload]
    | @plain usenet unfailed unfinished stepped =>
      have same := quiet_callbacks stepped (fun task head key => by
        cases task with
        | slotFinishPost msg => exact absurd head (unfinished msg)
        | _ => simp [concludingOf])
      exact accounted.frame rfl rfl (fun key => by rw [same]) same

/-- The deeds of a run. -/
def history (crc32 : Bytes → UInt32) (eraseRule : EraseRule) (launch : Launch) (events : List Main.Event) :
    List (Deed FilepieceKey) :=
  Machine.history (Main.step crc32 launch) (deeds crc32) (launch.begin eraseRule) events

theorem begin_poster (eraseRule : EraseRule) (launch : Launch) : poster (launch.begin eraseRule) = idle :=
  poster_ext (fun _ => rfl) rfl

theorem begin_accounted (eraseRule : EraseRule) (launch : Launch) : Accounted launch (launch.begin eraseRule) := by
  obtain ⟨-, trace, -⟩ := launch_runs eraseRule launch
  have none (weight : FilepieceKey → Nat) : postedTotal launch (launch.begin eraseRule) weight = 0 := by
    simp [postedTotal, total, callbacks, Launch.begin, trace]
  exact ⟨by rw [none]; rfl, by rw [none]; rfl⟩

theorem run_poster {events : List Main.Event}
    (reached : Machine.run (Main.step crc32 launch) (launch.begin eraseRule) events = some main) :
    Machine.run Poster.step idle (history crc32 eraseRule launch events) = some (poster main) := by
  have simulates : Machine.Simulates (Main.step crc32 launch) Poster.step (deeds crc32)
      (fun main upper => Persistent eraseRule launch main ∧ upper = poster main) :=
    Machine.simulates_of_map (fun _ _ _ persistent taken => step_persistent persistent taken)
      (fun _ _ _ persistent taken => step_deeds persistent taken)
  obtain ⟨final, followed, -, rfl⟩ :=
    simulates.run ⟨begin_persistent eraseRule launch, (begin_poster eraseRule launch).symm⟩ reached
  exact followed

theorem run_accounted {events : List Main.Event}
    (reached : Machine.run (Main.step crc32 launch) (launch.begin eraseRule) events = some main) : Accounted launch main :=
  (Machine.Reachable.invariant (fun main => Persistent eraseRule launch main ∧ Accounted launch main) ⟨events, reached⟩
    ⟨begin_persistent eraseRule launch, begin_accounted eraseRule launch⟩
    (fun _ _ _ ⟨persistent, accounted⟩ taken =>
      ⟨step_persistent persistent taken, step_accounted persistent accounted taken⟩)).2

theorem advance_returns {code : Nat} (taken : main.advance crc32 launch = some after) (position : after.position = .returned code) :
    code = 1 ∧ after.usenet = main.usenet ∧ main.usenet.queue ≠ [] := by
  cases advance_goes taken with
  | leaves before joined left =>
    cases position
    exact ⟨rfl, rfl, left⟩
  | allPosted before =>
    dsimp only at position
    split at position <;> cases position
  | _ => cases position

/-- How the main thread comes to its end: a join that left something in the queue, or the writing of the file. -/
inductive Returns (main after : Main) : Nat → Prop
  | leaves (same : after.usenet = main.usenet) (left : main.usenet.queue ≠ []) : Returns main after 1
  | writes (same : after.usenet = main.usenet) (sizes : after.pieceSizes = main.pieceSizes) (position : main.position = .writing) :
      Returns main after 0

theorem step_returns {code : Nat} (taken : main.step crc32 launch event = some after) (position : after.position = .returned code) :
    Returns main after code := by
  have going := step_going taken
  have moved : after.position ≠ main.position := by
    intro same
    rw [← same, position] at going
    cases going
  cases event with
  | advance =>
    simp only [Main.step, going, Bool.false_eq_true, ite_false] at taken
    obtain ⟨rfl, same, left⟩ := advance_returns taken position
    exact .leaves same left
  | take =>
    cases step_cases taken with
    | take => exact absurd rfl moved
    | throws => cases position
  | expire =>
    cases step_cases taken with
    | expire => exact absurd rfl moved
  | proceed =>
    cases step_cases taken with
    | proceed proceeds =>
      cases proceeds with
      | exits => cases position
      | requeues | finishes | plain => exact absurd rfl moved
  | write =>
    cases step_cases taken with
    | write writing =>
      cases position
      exact .writes rfl rfl writing

/-- A piece that was posted was posted once, with the article it still has and under the id
that the program has for it. -/
structure Addressed (launch : Launch) (main : Main) (key : FilepieceKey) : Prop where
  once : reports key true main.usenet = 1
  sent : ∀ connit earlier, (.posted connit key .postSuccess :: earlier) <:+ main.usenet.trace →
    lastWritten connit earlier = some ((main.usenet.articles key).wire, .articleWritten)
  msgid : (main.usenet.articles key).header.msgid = currentId launch main key

/-- What a run comes to: what happened to every piece, what the program counted, how it ends and
what its NZB file says. -/
structure Outcome (launch : Launch) (history : List (Deed FilepieceKey)) (main : Main) : Prop where
  follows : Machine.run Poster.step idle history = some (poster main)
  kept : Kept history (poster main)
  pieces : ∀ key, (poster main).status key ≠ .unmade → Piece launch.postitems key
  whole : main.position = .writing ∨ main.position = .returned 0 → ∀ key, Piece launch.postitems key →
    ∃ failures, (poster main).status key = .posted failures
  left : main.position = .returned 1 → (∃ key failures, (poster main).status key = .waiting failures) ∨
    ∃ msgid, .startAsyncStat msgid ∈ main.usenet.queue
  gaveUp : main.position = .exited ↔ ∃ key, (poster main).status key = .waiting limit
  counted : main.numPosted = ((MainRun.pieces launch.postitems).filter (fun key => isPosted ((poster main).status key))).length
  bytes : main.bytesPosted = sizeT (total (fun key => (main.pieceSizes key).getD 0)
    ((MainRun.pieces launch.postitems).filter (fun key => isPosted ((poster main).status key))))
  addressed : ∀ key failures, (poster main).status key = .posted failures → Addressed launch main key
  printed : 60 ∉ launch.cfg.msgiddomain → 62 ∉ launch.cfg.msgiddomain → ∀ nzb, main.nzb = some nzb →
    main.position = .returned 0 ∧ ∃ epochTime, NzbSoundness.Prints launch main epochTime nzb

/-- Pieces are posted once. -/
theorem postedTotal_filter (sound : Sound eraseRule launch main) (weight : FilepieceKey → Nat) :
    postedTotal launch main weight = total weight ((pieces launch.postitems).filter (fun key => isPosted (status main key))) := by
  rw [postedTotal]
  generalize pieces launch.postitems = keys
  induction keys with
  | nil => rfl
  | cons key keys ih =>
    have once := sound.once key
    have bound := made_le main key
    rw [total_cons, ih]
    by_cases posted : 0 < callbacks key true main.usenet
    · have one : callbacks key true main.usenet = 1 := by omega
      have counts : isPosted (status main key) = true := by
        rw [posted_status (by omega) posted rfl]
        rfl
      rw [List.filter_cons, if_pos counts, total_cons, one, Nat.one_mul]
    · have zero : callbacks key true main.usenet = 0 := by omega
      have counts : ¬ isPosted (status main key) = true := by
        by_cases absent : made main key = 0
        · rw [status, if_pos absent]
          exact Bool.false_ne_true
        · rw [waiting_status (Nat.pos_of_ne_zero absent) zero rfl]
          exact Bool.false_ne_true
      rw [List.filter_cons, if_neg counts, zero, Nat.zero_mul, Nat.zero_add]

theorem posted_of_finished (exists' : 0 < made main key) (finished : callbacks key true main.usenet = made main key) :
    ∃ failures, (poster main).status key = .posted failures :=
  ⟨_, posted_status exists' (by omega) rfl⟩

theorem writing_made (sound : Sound eraseRule launch main) (writing : main.position = .writing)
    (piece : Piece launch.postitems key) : 0 < made main key := by
  rw [made, if_pos (sound.behind key piece (by rw [writing]; trivial))]
  exact Nat.one_pos

/-- A run that ends well has posted every piece. -/
theorem whole_posted (reached : Machine.Reachable (Main.step crc32 launch) (launch.begin eraseRule) main)
    (ends : main.position = .writing ∨ main.position = .returned 0) (piece : Piece launch.postitems key) :
    ∃ failures, (poster main).status key = .posted failures := by
  rcases ends with position | position
  · obtain ⟨_, begun⟩ := reached
    obtain ⟨sound, -, -⟩ := run_persistent begun
    exact posted_of_finished (writing_made sound position piece) (sound.finished position key)
  · rcases reached.last with rfl | ⟨before, event, ⟨_, begun⟩, taken⟩
    · cases position
    · cases step_returns taken position with
      | writes same sizes writing =>
        obtain ⟨sound, -, -⟩ := run_persistent begun
        have made' : made main key = made before key := by rw [made, sizes, made]
        exact posted_of_finished (made' ▸ writing_made sound writing piece)
          (by rw [same, made']; exact sound.finished writing key)

/-- The counter has not wrapped around. -/
theorem numPosted_pieces (sound : Sound eraseRule launch main) (accounted : Accounted launch main) :
    main.numPosted = ((pieces launch.postitems).filter (fun key => isPosted (status main key))).length := by
  have fits : (pieces launch.postitems).length < 2 ^ 64 := by
    rw [pieces_length launch.pieces_fit, Fileset.getTotalPieces]
    exact Nat.mod_lt _ (by decide)
  have ones : postedTotal launch main (fun _ => 1) =
      ((pieces launch.postitems).filter (fun key => isPosted (status main key))).length := by
    rw [postedTotal_filter sound]
    simp [total]
  rw [accounted.count, ones]
  exact sizeT_eq ((List.length_filter_le ..).trans_lt fits)

theorem posted_addressed (sound : Sound eraseRule launch main) {failures : Nat}
    (posted : (poster main).status key = .posted failures) : Addressed launch main key := by
  have exists' : 0 < made main key := by
    refine Nat.pos_of_ne_zero (fun absent => ?_)
    have unmade : (poster main).status key = .unmade := if_pos absent
    cases unmade.symm.trans posted
  have finished : 0 < callbacks key true main.usenet := by
    refine Nat.pos_of_ne_zero (fun none => ?_)
    cases (waiting_status exists' none rfl).symm.trans posted
  obtain ⟨size, found, -⟩ := sound.known exists'
  refine ⟨?_, fun connit earlier ends => sound.runs.attested connit _ earlier ends, (sound.described key size found).msgid⟩
  have once := sound.once key
  have bound := made_le main key
  have settled : reports key true main.usenet = concluding key true main.usenet + callbacks key true main.usenet :=
    sound.runs.settled key true
  have atMost := concluding_inHand key main.usenet
  omega

/-- What is left in the queue is a piece that waits, or a question about one. -/
theorem left_waiting (sound : Sound eraseRule launch main) (left : main.usenet.queue ≠ []) :
    (∃ key failures, (poster main).status key = .waiting failures) ∨ ∃ msgid, .startAsyncStat msgid ∈ main.usenet.queue := by
  obtain ⟨command, member⟩ := List.exists_mem_of_ne_nil _ left
  cases command with
  | startAsyncStat msgid => exact .inr ⟨msgid, member⟩
  | startAsyncPost key =>
    have queues : 0 < queued key main.usenet := by
      have weighs := weight_le_total (queuedOf key) member
      rwa [queuedOf, if_pos rfl] at weighs
    have once := sound.once key
    have bound := made_le main key
    exact .inl ⟨key, _, waiting_status (by omega) (by omega) rfl⟩

end Main

/-- The only piece is refused once, and the main thread writes its file. -/
def refusedThenPostedRun : List Main.Event := NzbSoundness.refusedOnceRun ++ [.write true 7]

end Post2Usenet.Proofs.Posters
