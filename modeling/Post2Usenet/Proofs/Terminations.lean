import Post2Usenet.Proofs.Posters
import Post2Usenet.Proofs.PoolEnergy

/-! The program comes to its end. A run is no longer than its files and connections allow, unless
servers break connections while they are asked for articles, or waits end for no reason. -/

namespace Post2Usenet.Proofs.Terminations
open Connection Main MainRun MainSteps PoolSteps PoolOwnership PoolEfforts PoolEnergy Retries Posters Tally

variable {eraseRule : EraseRule} {crc32 : Bytes → UInt32} {launch : Launch} {main after : Main} {event : Main.Event}

def pieceCounts (postitems : Fileset) : List Nat := postitems.items.map (fun item => item.handle.numParts)

/-- The rest of a loop over all pieces, when a turn costs so much. -/
def loopCost (each : Nat) (counts : List Nat) (fileIndex pieceIndex : Nat) : Nat :=
  match counts.drop fileIndex with
  | [] => 0
  | numPieces :: rest => each * (numPieces - pieceIndex) + 1 + total (fun count => each * count + 1) rest

def positionCost (counts : List Nat) : Position → Nat
  | .posting fileIndex pieceIndex => loopCost 8 counts fileIndex pieceIndex + loopCost 21 counts 0 0 + 5
  | .validating fileIndex pieceIndex => loopCost 21 counts fileIndex pieceIndex + 4
  | .stopping => 3
  | .joining => 2
  | .writing => 1
  | .returned _ | .exited | .terminated => 0

/-- The commands to post that a run can still send. -/
def unsent (launch : Launch) (main : Main) : Nat :=
  3 * launch.postitems.getTotalPieces + numConnections launch - started main.usenet

def potential (launch : Launch) (main : Main) : Nat :=
  positionCost (pieceCounts launch.postitems) main.position + energy main.usenet + startCost * unsent launch main

/-- A thread asks again for an article, over a connection that broke when it asked. -/
def asksAgain (main : Main) : Main.Event → Bool
  | .proceed thread _ _ _ =>
    match headTask main.usenet thread with
    | some (.requeueStat _ _) => true
    | _ => false
  | _ => false

/-- A thread that waits goes on although nobody has notified it. -/
def wakesEarly (main : Main) : Main.Event → Bool
  | .proceed thread _ _ _ =>
    match headTask main.usenet thread with
    | some (.wait _ false) => true
    | _ => false
  | _ => false

def grant (main : Main) (event : Main.Event) : Nat :=
  (if asksAgain main event then 53 else 0) + if wakesEarly main event then 1 else 0

theorem loopCost_turn (each : Nat) {fileIndex pieceIndex numPieces : Nat} {counts : List Nat} (found : counts[fileIndex]? = some numPieces)
    (inside : pieceIndex < numPieces) :
    loopCost each counts fileIndex (pieceIndex + 1) + each = loopCost each counts fileIndex pieceIndex := by
  obtain ⟨within, rfl⟩ := List.getElem?_eq_some_iff.mp found
  have left : counts[fileIndex] - pieceIndex = counts[fileIndex] - (pieceIndex + 1) + 1 := by omega
  simp only [loopCost, List.drop_eq_getElem_cons within, left, Nat.mul_add, Nat.mul_one]
  omega

theorem loopCost_next (each pieceIndex : Nat) {fileIndex numPieces : Nat} {counts : List Nat} (found : counts[fileIndex]? = some numPieces) :
    loopCost each counts (fileIndex + 1) 0 + 1 ≤ loopCost each counts fileIndex pieceIndex := by
  obtain ⟨within, rfl⟩ := List.getElem?_eq_some_iff.mp found
  simp only [loopCost, List.drop_eq_getElem_cons within]
  cases rest : counts.drop (fileIndex + 1) with
  | nil => simp
  | cons numPieces rest =>
    simp only [total_cons, Nat.sub_zero]
    omega

theorem loopCost_all (each : Nat) (counts : List Nat) : loopCost each counts 0 0 = each * counts.sum + counts.length := by
  rw [loopCost, List.drop_zero]
  cases counts with
  | nil => rfl
  | cons numPieces rest =>
    have summed : total (fun count => each * count + 1) rest = each * rest.sum + rest.length := by
      induction rest with
      | nil => rfl
      | cons count rest ih =>
        rw [total_cons, ih, List.sum_cons, List.length_cons, Nat.mul_add]
        omega
    simp only [summed, List.sum_cons, List.length_cons, Nat.mul_add, Nat.sub_zero]
    omega

/-- The pool has paid, and the main thread has paid for what it gave to the pool. -/
theorem pool_falls {given : Nat} (granted : Nat) (bound : started after.usenet ≤ 3 * launch.postitems.getTotalPieces + numConnections launch)
    (pays : Pays main.usenet after.usenet given)
    (position : positionCost (pieceCounts launch.postitems) after.position + given ≤
      positionCost (pieceCounts launch.postitems) main.position + granted)
    (grows : started main.usenet ≤ started after.usenet) :
    potential launch after + 1 ≤ potential launch main + granted := by
  simp only [Pays, potential, unsent, startCost] at pays ⊢
  omega

theorem position_falls (same : after.usenet = main.usenet)
    (position : positionCost (pieceCounts launch.postitems) after.position + 1 ≤
      positionCost (pieceCounts launch.postitems) main.position) :
    potential launch after + 1 ≤ potential launch main := by
  simp only [potential, unsent, same]
  omega

theorem step_grows {usenet next : Usenet FilepieceKey} {event : Usenet.Event FilepieceKey}
    (taken : usenet.step event = some next) : started usenet ≤ started next := by
  obtain ⟨new, trace, -⟩ := PoolTrace.step_written taken
  exact started_grows ⟨new, trace⟩

/-- The articles cost the pool nothing. -/
theorem rewritten_pays {usenet next : Usenet FilepieceKey} {articles : FilepieceKey → Article} {event : Usenet.Event FilepieceKey}
    (owned : Owned [] usenet) (taken : { usenet with articles }.step event = some next) :
    Pays usenet next (supplied usenet event) ∧ started usenet ≤ started next := by
  have rewritten : Owned [] { usenet with articles } := owned.frame rfl rfl rfl rfl rfl rfl
  have pays : Pays { usenet with articles } next (supplied { usenet with articles } event) := step_pays rewritten taken
  have grows : started { usenet with articles } ≤ started next := step_grows taken
  exact ⟨pays, grows⟩

theorem counted_piece (sound : Sound eraseRule launch main) {fileIndex numPieces : Nat}
    (found : main.postitems.getNumPieces fileIndex = some numPieces) :
    (pieceCounts launch.postitems)[fileIndex]? = some numPieces := by
  rw [sound.files, Fileset.getNumPieces] at found
  rw [pieceCounts, List.getElem?_map]
  exact found

theorem advance_falls (persistent : Persistent eraseRule launch main) (going : Goes crc32 launch main after)
    (bound : started after.usenet ≤ 3 * launch.postitems.getTotalPieces + numConnections launch) :
    potential launch after + 1 ≤ potential launch main := by
  have owned := persistent.sound.runs.owned
  cases going with
  | posts position found inside taken =>
    have turn := loopCost_turn 8 (counted_piece persistent.sound found) inside
    obtain ⟨pays, grows⟩ := rewritten_pays owned taken
    refine pool_falls 0 bound pays ?_ grows
    simp only [position, positionCost, supplied, requestCost, Request.command, commandCost]
    omega
  | @nextPosted _ pieceIndex _ position found outside =>
    have next := loopCost_next 8 pieceIndex (counted_piece persistent.sound found)
    refine position_falls rfl ?_
    simp only [position, positionCost]
    omega
  | allPosted position =>
    refine position_falls rfl ?_
    simp only [position]
    split
    · simp only [positionCost]
      omega
    · simp only [positionCost]
      omega
  | validates position found inside taken =>
    have turn := loopCost_turn 21 (counted_piece persistent.sound found) inside
    refine pool_falls 0 bound (step_pays owned taken) ?_ (step_grows taken)
    simp only [position, positionCost, supplied, requestCost, Request.command, commandCost]
    omega
  | @nextValidated _ pieceIndex _ position found outside =>
    have next := loopCost_next 21 pieceIndex (counted_piece persistent.sound found)
    refine position_falls rfl ?_
    simp only [position, positionCost]
    omega
  | allValidated position =>
    refine position_falls rfl ?_
    simp only [position, positionCost]
    omega
  | stops position taken =>
    refine pool_falls 0 bound (step_pays owned taken) ?_ (step_grows taken)
    simp only [position, positionCost, supplied, Nat.le_refl]
  | finds position => exact position_falls rfl (by simp only [position, positionCost, Nat.le_refl])
  | leaves position => exact position_falls rfl (by simp only [position, positionCost]; omega)
  | throws position => exact position_falls rfl (by simp only [position, positionCost]; omega)

/-- A thread that goes on is given no more than what the two exceptions grant. -/
theorem plain_given (main : Main) (thread : Nat) (outcome : Outcome) (wake : Option Nat)
    (nonces : { nonces : RetryNonces // nonces.Drawn }) :
    supplied main.usenet (.proceed thread ⟨outcome, wake, []⟩) ≤ grant main (.proceed thread outcome wake nonces) := by
  cases head : headTask main.usenet thread with
  | none => simp [supplied, head]
  | some task =>
    cases task with
    | wait command notified => cases notified <;> simp [supplied, grant, asksAgain, wakesEarly, head, given]
    | _ => simp [supplied, grant, asksAgain, wakesEarly, head, given]

theorem going_positive {counts : List Nat} {position : Position} (going : position.ended = false) :
    1 ≤ positionCost counts position := by
  cases position with
  | returned | exited | terminated => cases going
  | _ => simp [positionCost]

theorem proceed_falls {thread : Nat} {outcome : Outcome} {wake : Option Nat} {nonces : { nonces : RetryNonces // nonces.Drawn }}
    (sound : Sound eraseRule launch main) (going : main.position.ended = false)
    (bound : started after.usenet ≤ 3 * launch.postitems.getTotalPieces + numConnections launch)
    (proceeds : Proceeds launch main thread outcome wake nonces after) :
    potential launch after + 1 ≤ potential launch main + grant main (.proceed thread outcome wake nonces) := by
  have owned := sound.runs.owned
  have plain := plain_given main thread outcome wake nonces
  cases proceeds with
  | exits => exact Nat.le_add_right_of_le (position_falls rfl (going_positive going))
  | @requeues msg _ _ head named seldom taken =>
    obtain ⟨pays, grows⟩ := rewritten_pays owned taken
    have free : supplied main.usenet (.proceed thread ⟨outcome, wake, [.enqueuePost msg true]⟩) = 0 := by
      simp [supplied, head, given, requestCost, Request.command, commandCost]
    exact pool_falls _ bound pays (Nat.add_le_add_left (free ▸ Nat.zero_le _) _) grows
  | finishes head taken => exact pool_falls _ bound (step_pays owned taken) (Nat.add_le_add_left plain _) (step_grows taken)
  | plain unfailed unfinished taken =>
    exact pool_falls _ bound (step_pays owned taken) (Nat.add_le_add_left plain _) (step_grows taken)

/-- The potential falls with every step that is granted nothing. -/
theorem step_falls (persistent : Persistent eraseRule launch main) (taken : main.step crc32 launch event = some after) :
    potential launch after + 1 ≤ potential launch main + grant main event := by
  have owned := persistent.sound.runs.owned
  have going := step_going taken
  have bound := started_bounded (step_persistent persistent taken)
  have stepped := step_cases taken
  cases stepped with
  | advance =>
    simp only [Main.step, going, Bool.false_eq_true, if_false] at taken
    exact advance_falls persistent (advance_goes taken) bound
  | take stepped => exact pool_falls 0 bound (step_pays owned stepped) (Nat.le_refl _) (step_grows stepped)
  | throws => exact position_falls rfl (going_positive going)
  | expire stepped => exact pool_falls 0 bound (step_pays owned stepped) (Nat.le_refl _) (step_grows stepped)
  | proceed proceeds => exact proceed_falls persistent.sound going bound proceeds
  | write position =>
    refine position_falls rfl ?_
    simp only [position, positionCost, Nat.le_refl]

/-- The pool starts with the connections it was given. -/
theorem launch_energy (eraseRule : EraseRule) (launch : Launch) : energy (launch.usenet eraseRule) ≤ 37 * numConnections launch := by
  have connects (servers : List (ConnectionInfo × Int)) (usenet : Usenet FilepieceKey) :
      energy (servers.foldl (fun usenet server => usenet.addConnections server.1 (server.2 % 2 ^ 64).toNat) usenet) ≤
        energy usenet + 37 * total (fun server => (server.2 % 2 ^ 64).toNat) servers := by
    induction servers generalizing usenet with
    | nil => exact Nat.le_refl _
    | cons server servers ih =>
      have first := addConnections_energy usenet server.1 (server.2 % 2 ^ 64).toNat
      have rest := ih (usenet.addConnections server.1 (server.2 % 2 ^ 64).toNat)
      rw [List.foldl_cons, total_cons]
      omega
  exact (idle_energy _ true _).trans_le ((connects launch.cfg.servers _).trans (Nat.le_of_eq (Nat.zero_add _)))

/-- How many steps a run can have that is granted nothing. -/
def limit (launch : Launch) : Nat :=
  197 * launch.postitems.getTotalPieces + 93 * numConnections launch + 2 * launch.postitems.getNumFiles + 5

theorem begin_potential (eraseRule : EraseRule) (launch : Launch) : potential launch (launch.begin eraseRule) ≤ limit launch := by
  have pool := launch_energy eraseRule launch
  have pieces : (pieceCounts launch.postitems).sum = launch.postitems.getTotalPieces := (sizeT_eq launch.pieces_fit).symm
  have files : (pieceCounts launch.postitems).length = launch.postitems.getNumFiles := List.length_map ..
  simp only [potential, limit, Launch.begin, positionCost, loopCost_all, pieces, files, unsent, startCost] at pool ⊢
  omega

/-- A run ends, if its environment lets it. -/
theorem run_bounded {events : List Main.Event}
    (reached : Machine.run (Main.step crc32 launch) (launch.begin eraseRule) events = some main) :
    events.length ≤ limit launch + 53 * Machine.tally (Main.step crc32 launch) asksAgain (launch.begin eraseRule) events +
      Machine.tally (Main.step crc32 launch) wakesEarly (launch.begin eraseRule) events := by
  have bound : potential launch main + events.length ≤ potential launch (launch.begin eraseRule) +
      Machine.granted (Main.step crc32 launch) grant (launch.begin eraseRule) events :=
    Machine.length_le_granted (fun _ _ _ persistent taken => step_persistent persistent taken)
      (fun _ _ _ persistent taken => step_falls persistent taken) (begin_persistent eraseRule launch) reached
  have spent : Machine.granted (Main.step crc32 launch) grant (launch.begin eraseRule) events =
      53 * Machine.tally (Main.step crc32 launch) asksAgain (launch.begin eraseRule) events +
        Machine.tally (Main.step crc32 launch) wakesEarly (launch.begin eraseRule) events :=
    Machine.granted_tally asksAgain wakesEarly 53 (launch.begin eraseRule) events
  have start := begin_potential eraseRule launch
  omega

def validatingLaunch : Launch :=
  { sampleLaunch with cfg := { sampleLaunch.cfg with validatePosts := true }, single := rfl }

/-- The connection breaks when it asks for the article, and asks again when it is back. -/
def brokenStatRun : List Main.Event :=
  logsIn ++ [.advance, goesOn 0] ++ answersPost "240 posted\r\n" ++ [goesOn 1, goesOn 1] ++ List.replicate 3 .advance ++
    [goesOn 0, hears "", .take 1 0 ⟨true, [], false⟩, hears "", goesOn 1] ++ logsIn ++
    ["", "", "223 here\r\n", ""].map hears ++ [goesOn 1, goesOn 1] ++ List.replicate 4 .advance ++ [.write false 0]

theorem brokenStat_bounded : ∃ main,
    Machine.run (Main.step Yencgenerator.crc32Type validatingLaunch) (validatingLaunch.begin .named) brokenStatRun = some main ∧
      main.position = .returned 0 ∧
      Machine.tally (Main.step Yencgenerator.crc32Type validatingLaunch) asksAgain (validatingLaunch.begin .named)
        brokenStatRun = 1 ∧
      brokenStatRun.length ≤ limit validatingLaunch +
        53 * Machine.tally (Main.step Yencgenerator.crc32Type validatingLaunch) asksAgain (validatingLaunch.begin .named)
          brokenStatRun +
        Machine.tally (Main.step Yencgenerator.crc32Type validatingLaunch) wakesEarly (validatingLaunch.begin .named)
          brokenStatRun := by
  have computed :
      (Machine.run (Main.step Yencgenerator.crc32Type validatingLaunch) (validatingLaunch.begin .named) brokenStatRun).map
        Main.position = some (.returned 0) := by decide +kernel
  obtain ⟨main, reached, returned⟩ := Option.map_eq_some_iff.mp computed
  exact ⟨main, reached, returned, by decide +kernel, run_bounded reached⟩

end Post2Usenet.Proofs.Terminations
