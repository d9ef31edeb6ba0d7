import Post2Usenet.Main
import Post2Usenet.Proofs.PoolSteps

/-! What a step of the program comes to: the test of a loop, a call of the pool, or a
critical section of the pool with the callback that runs in it. -/

namespace Post2Usenet.Proofs.MainSteps
open Connection PoolSteps Main

variable {crc32 : Bytes → UInt32} {launch : Launch} {main after : Main}

theorem onPool_some {event : Usenet.Event FilepieceKey} (taken : main.onPool event = some after) :
    ∃ usenet, main.usenet.step event = some usenet ∧ after = { main with usenet } := by
  obtain ⟨usenet, stepped, rfl⟩ := Option.map_eq_some_iff.mp taken
  exact ⟨usenet, stepped, rfl⟩

/-- Where the posting loop is over and the main thread goes on. -/
def past : Position → Bool
  | .posting _ _ | .exited | .terminated => false
  | _ => true

/-- Where nothing is made any more and nothing is written yet. -/
def beyond : Position → Bool
  | .posting _ _ | .writing => false
  | _ => true

/-- What the main thread calls when the posting loop is over. -/
def Asks (event : Usenet.Event FilepieceKey) : Prop := event = .stop ∨ ∃ msgid, event = .call 0 (.enqueueStat msgid)

/-- What the main thread does before its next call, with that call. -/
inductive Advances (crc32 : Bytes → UInt32) (launch : Launch) (main : Main) : Main → Prop
  | posts {fileIndex pieceIndex numPieces : Nat} {chunk : Bytes} {chunked postitems : Fileset} {article : Article}
      {usenet : Usenet FilepieceKey} (position : main.position = .posting fileIndex pieceIndex)
      (found : main.postitems.getNumPieces fileIndex = some numPieces) (inside : pieceIndex < numPieces)
      (served : main.postitems.getChunk crc32 fileIndex pieceIndex = some (chunk, chunked))
      (built : makeArticle crc32 launch.cfg launch.runNonce main.postitems fileIndex pieceIndex = some (article, postitems))
      (taken : { main.usenet with
        articles := Function.update main.usenet.articles ⟨fileIndex, pieceIndex⟩ article }.step
          (.call 0 (.enqueuePost ⟨fileIndex, pieceIndex⟩ false)) = some usenet) :
      Advances crc32 launch main { main with
        usenet
        postitems
        position := .posting fileIndex (pieceIndex + 1)
        pieceSizes := Function.update main.pieceSizes ⟨fileIndex, pieceIndex⟩ (some chunk.length) }
  | nextFile {fileIndex pieceIndex numPieces : Nat} (position : main.position = .posting fileIndex pieceIndex)
      (found : main.postitems.getNumPieces fileIndex = some numPieces) (outside : ¬ pieceIndex < numPieces) :
      Advances crc32 launch main { main with position := .posting (fileIndex + 1) 0 }
  | postsNoMore {fileIndex pieceIndex : Nat} {position : Position} (before : main.position = .posting fileIndex pieceIndex)
      (last : ¬ fileIndex < launch.postitems.getNumFiles) (later : past position = true) (unwritten : beyond position = true) :
      Advances crc32 launch main { main with position }
  | calls {event : Usenet.Event FilepieceKey} {usenet : Usenet FilepieceKey} {position : Position}
      (before : past main.position = true) (asks : Asks event) (taken : main.usenet.step event = some usenet)
      (later : past position = true) (unwritten : beyond position = true) :
      Advances crc32 launch main { main with usenet, position }
  | passes {position : Position} (before : past main.position = true) (later : past position = true)
      (unwritten : beyond position = true) : Advances crc32 launch main { main with position }
  | joins (position : main.position = .joining) (between : main.between = true) (joined : main.usenet.Joined)
      (empty : main.usenet.queue = []) : Advances crc32 launch main { main with position := .writing }
  | throws {fileIndex pieceIndex : Nat} (position : main.position = .posting fileIndex pieceIndex)
      (unserved : main.postitems.getChunk crc32 fileIndex pieceIndex = none) :
      Advances crc32 launch main { main with position := .terminated }

/-- The posting loop goes on with the article of its piece, or is left for want of a chunk. -/
theorem post_some {fileIndex pieceIndex : Nat} (taken : main.post crc32 launch fileIndex pieceIndex = some after) :
    (∃ chunk chunked article postitems usenet,
      main.postitems.getChunk crc32 fileIndex pieceIndex = some (chunk, chunked) ∧
      makeArticle crc32 launch.cfg launch.runNonce main.postitems fileIndex pieceIndex = some (article, postitems) ∧
      { main.usenet with
        articles := Function.update main.usenet.articles ⟨fileIndex, pieceIndex⟩ article }.step
          (.call 0 (.enqueuePost ⟨fileIndex, pieceIndex⟩ false)) = some usenet ∧
      after = { main with
        usenet
        postitems
        position := .posting fileIndex (pieceIndex + 1)
        pieceSizes := Function.update main.pieceSizes ⟨fileIndex, pieceIndex⟩ (some chunk.length) }) ∨
      main.postitems.getChunk crc32 fileIndex pieceIndex = none ∧ after = { main with position := .terminated } := by
  simp only [Main.post] at taken
  split at taken
  next chunk chunked article postitems served built =>
    obtain ⟨written, rewrites, taken⟩ := Option.bind_eq_some_iff.mp taken
    obtain ⟨called, calls, taken⟩ := Option.bind_eq_some_iff.mp taken
    obtain ⟨usenet, rewritten, rfl⟩ := onPool_some rewrites
    cases rewritten
    obtain ⟨usenet, stepped, rfl⟩ := onPool_some calls
    cases taken
    exact .inl ⟨chunk, chunked, article, postitems, usenet, served, built, stepped, rfl⟩
  next unbuilt =>
    cases taken
    refine .inr ⟨?_, rfl⟩
    by_contra served
    obtain ⟨⟨chunk, chunked⟩, served⟩ := Option.ne_none_iff_exists'.mp served
    obtain ⟨article, built⟩ := makeArticle_of_getChunk crc32 launch.cfg launch.runNonce served
    exact unbuilt _ _ _ _ served built

theorem post_cases {fileIndex pieceIndex numPieces : Nat} (position : main.position = .posting fileIndex pieceIndex)
    (found : main.postitems.getNumPieces fileIndex = some numPieces) (inside : pieceIndex < numPieces)
    (taken : main.post crc32 launch fileIndex pieceIndex = some after) : Advances crc32 launch main after := by
  obtain ⟨chunk, chunked, article, postitems, usenet, served, built, stepped, rfl⟩ | ⟨unserved, rfl⟩ := post_some taken
  · exact .posts position found inside served built stepped
  · exact .throws position unserved

theorem advance_cases (taken : main.advance crc32 launch = some after) : Advances crc32 launch main after := by
  simp only [Main.advance] at taken
  split at taken
  next between =>
    split at taken
    next fileIndex pieceIndex position =>
      split at taken
      · obtain ⟨numPieces, found, taken⟩ := Option.bind_eq_some_iff.mp taken
        split at taken
        next inside => exact post_cases position found inside taken
        next outside =>
          cases taken
          exact .nextFile position found outside
      next last =>
        cases taken
        refine .postsNoMore position last ?_ ?_
        · split <;> rfl
        · split <;> rfl
    next fileIndex pieceIndex position =>
      have before : past main.position = true := by rw [position]; rfl
      split at taken
      · obtain ⟨numPieces, -, taken⟩ := Option.bind_eq_some_iff.mp taken
        split at taken
        · obtain ⟨called, calls, taken⟩ := Option.bind_eq_some_iff.mp taken
          obtain ⟨usenet, stepped, rfl⟩ := onPool_some calls
          cases taken
          exact .calls before (.inr ⟨_, rfl⟩) stepped rfl rfl
        · cases taken
          exact .passes before rfl rfl
      · cases taken
        exact .passes before rfl rfl
    next position =>
      have before : past main.position = true := by rw [position]; rfl
      obtain ⟨stopped, stops, rfl⟩ := Option.map_eq_some_iff.mp taken
      obtain ⟨usenet, stepped, rfl⟩ := onPool_some stops
      exact .calls before (.inl rfl) stepped rfl rfl
    next position =>
      have before : past main.position = true := by rw [position]; rfl
      split at taken
      next joined =>
        cases taken
        split
        next empty => exact .joins position between joined (List.length_eq_zero_iff.mp empty)
        next left => exact .passes before rfl rfl
      · cases taken
    · cases taken
    · cases taken
    · cases taken
    · cases taken
  · cases taken

/-- What a thread of the pool does with its first task, and with the callback that this
task may be. -/
inductive Proceeds (launch : Launch) (main : Main) (thread : Nat) (outcome : Outcome) (wake : Option Nat)
    (nonces : RetryNonces) : Main → Prop
  | exits {msg key : FilepieceKey} (head : headTask main.usenet thread = some (.slotPostFailed msg))
      (named : Fileset.getKeyFromMessageId (main.usenet.articles msg).header.msgid = some key)
      (often : 3 ≤ (main.msgidRetries key).elim 1 (· + 1)) :
      Proceeds launch main thread outcome wake nonces { main with
        msgidRetries := Function.update main.msgidRetries key (some ((main.msgidRetries key).elim 1 (· + 1)))
        position := .exited
        dump := dumpfile (main.usenet.articles msg) }
  | requeues {msg key : FilepieceKey} {usenet : Usenet FilepieceKey}
      (head : headTask main.usenet thread = some (.slotPostFailed msg))
      (named : Fileset.getKeyFromMessageId (main.usenet.articles msg).header.msgid = some key)
      (seldom : (main.msgidRetries key).elim 1 (· + 1) < 3)
      (taken : { main.usenet with
        articles := Function.update main.usenet.articles msg
          ((main.usenet.articles msg).retry launch.cfg key nonces) }.step
          (.proceed thread ⟨outcome, wake, [.enqueuePost msg true]⟩) = some usenet) :
      Proceeds launch main thread outcome wake nonces { main with
        usenet
        msgidRetries := Function.update main.msgidRetries key (some ((main.msgidRetries key).elim 1 (· + 1)))
        msgidExceptions := Function.update main.msgidExceptions key (some nonces.messageNonce) }
  | finishes {msg : FilepieceKey} {usenet : Usenet FilepieceKey}
      (head : headTask main.usenet thread = some (.slotFinishPost msg))
      (taken : main.usenet.step (.proceed thread ⟨outcome, wake, []⟩) = some usenet) :
      Proceeds launch main thread outcome wake nonces { main.postFinished msg with usenet }
  | plain {usenet : Usenet FilepieceKey}
      (unfailed : ∀ msg, headTask main.usenet thread ≠ some (.slotPostFailed msg))
      (unfinished : ∀ msg, headTask main.usenet thread ≠ some (.slotFinishPost msg))
      (taken : main.usenet.step (.proceed thread ⟨outcome, wake, []⟩) = some usenet) :
      Proceeds launch main thread outcome wake nonces { main with usenet }

theorem proceed_cases {thread : Nat} {outcome : Outcome} {wake : Option Nat} {nonces : RetryNonces}
    (going : main.position ≠ .exited) (taken : main.proceed launch thread outcome wake nonces = some after) :
    Proceeds launch main thread outcome wake nonces after := by
  simp only [Main.proceed] at taken
  split at taken
  next io msg rest found =>
    obtain ⟨⟨marked, requests⟩, failed, taken⟩ := Option.bind_eq_some_iff.mp taken
    obtain ⟨key, named, failed⟩ := Option.bind_eq_some_iff.mp failed
    dsimp only at failed taken
    split at failed
    next often =>
      cases failed
      cases taken
      exact .exits (headTask_found found) named often
    next seldom =>
      obtain ⟨rewritten, stepped, failed⟩ := Option.bind_eq_some_iff.mp failed
      obtain ⟨usenet, written, rfl⟩ := onPool_some stepped
      cases written
      cases failed
      rw [if_neg going] at taken
      obtain ⟨usenet, requeued, rfl⟩ := onPool_some taken
      exact .requeues (headTask_found found) named (Nat.lt_of_not_le seldom) requeued
  next io msg rest found =>
    obtain ⟨usenet, stepped, rfl⟩ := onPool_some taken
    exact .finishes (headTask_found found) stepped
  next _ notFailed notFinished =>
    obtain ⟨usenet, stepped, rfl⟩ := onPool_some taken
    refine .plain (fun msg head => ?_) (fun msg head => ?_) stepped
    · obtain ⟨io, tasks, found⟩ := headTask_cases head
      exact notFailed io msg tasks found
    · obtain ⟨io, tasks, found⟩ := headTask_cases head
      exact notFinished io msg tasks found

theorem step_going {event : Main.Event} (taken : main.step crc32 launch event = some after) : main.position.ended = false := by
  simp only [Main.step] at taken
  split at taken
  · cases taken
  next going => simpa using going

theorem going_ongoing (going : main.position.ended = false) : main.position ≠ .exited := by
  intro exited
  rw [exited] at going
  cases going

/-- What a step of the program can be. -/
inductive Stepped (crc32 : Bytes → UInt32) (launch : Launch) (main : Main) : Main.Event → Main → Prop
  | advance {after : Main} (advances : Advances crc32 launch main after) : Stepped crc32 launch main .advance after
  | take {thread index : Nat} {outcome : Outcome} {usenet : Usenet FilepieceKey}
      (taken : main.usenet.step (.take thread index outcome) = some usenet) :
      Stepped crc32 launch main (.take thread index outcome) { main with usenet }
  | throws {thread index : Nat} {outcome : Outcome} (thrown : main.usenet.throws thread index = true) :
      Stepped crc32 launch main (.take thread index outcome) { main with position := .terminated }
  | expire {connit : ConnectionHandle} {usenet : Usenet FilepieceKey}
      (taken : main.usenet.step (.expire connit) = some usenet) :
      Stepped crc32 launch main (.expire connit) { main with usenet }
  | proceed {thread : Nat} {outcome : Outcome} {wake : Option Nat} {nonces : { nonces : RetryNonces // nonces.Drawn }}
      {after : Main} (proceeds : Proceeds launch main thread outcome wake nonces after) :
      Stepped crc32 launch main (.proceed thread outcome wake nonces) after
  | write {opened : Bool} {epochTime : Nat} {nzb : Option Bytes} (position : main.position = .writing) :
      Stepped crc32 launch main (.write opened epochTime) { main with nzb, position := .returned 0 }

theorem step_cases {event : Main.Event} (taken : main.step crc32 launch event = some after) :
    Stepped crc32 launch main event after := by
  have going := step_going taken
  simp only [Main.step, going, Bool.false_eq_true, ite_false] at taken
  cases event with
  | advance => exact .advance (advance_cases taken)
  | take thread index outcome =>
    dsimp only at taken
    split at taken
    next thrown =>
      cases taken
      exact .throws thrown
    next =>
      obtain ⟨usenet, stepped, rfl⟩ := onPool_some taken
      exact .take stepped
  | expire connit =>
    obtain ⟨usenet, stepped, rfl⟩ := onPool_some taken
    exact .expire stepped
  | proceed thread outcome wake nonces => exact .proceed (proceed_cases (going_ongoing going) taken)
  | write opened epochTime =>
    dsimp only at taken
    split at taken
    next position =>
      split at taken
      · obtain ⟨nzb, -, rfl⟩ := Option.map_eq_some_iff.mp taken
        exact .write position
      · cases taken
        exact .write position
    · cases taken

/-- Where the main thread comes from and where it goes, one constructor for each way. -/
inductive Goes (crc32 : Bytes → UInt32) (launch : Launch) (main : Main) : Main → Prop
  | posts {fileIndex pieceIndex numPieces size : Nat} {postitems : Fileset} {article : Article} {usenet : Usenet FilepieceKey}
      (position : main.position = .posting fileIndex pieceIndex)
      (found : main.postitems.getNumPieces fileIndex = some numPieces) (inside : pieceIndex < numPieces)
      (taken : { main.usenet with
        articles := Function.update main.usenet.articles ⟨fileIndex, pieceIndex⟩ article }.step
          (.call 0 (.enqueuePost ⟨fileIndex, pieceIndex⟩ false)) = some usenet) :
      Goes crc32 launch main { main with
        usenet
        postitems
        position := .posting fileIndex (pieceIndex + 1)
        pieceSizes := Function.update main.pieceSizes ⟨fileIndex, pieceIndex⟩ (some size) }
  | nextPosted {fileIndex pieceIndex numPieces : Nat} (position : main.position = .posting fileIndex pieceIndex)
      (found : main.postitems.getNumPieces fileIndex = some numPieces) (outside : ¬ pieceIndex < numPieces) :
      Goes crc32 launch main { main with position := .posting (fileIndex + 1) 0 }
  | allPosted {fileIndex pieceIndex : Nat} (position : main.position = .posting fileIndex pieceIndex) :
      Goes crc32 launch main { main with position := if launch.cfg.validatePosts then .validating 0 0 else .stopping }
  | validates {fileIndex pieceIndex numPieces : Nat} {usenet : Usenet FilepieceKey} {msgid : Bytes}
      (position : main.position = .validating fileIndex pieceIndex)
      (found : main.postitems.getNumPieces fileIndex = some numPieces) (inside : pieceIndex < numPieces)
      (taken : main.usenet.step (.call 0 (.enqueueStat msgid)) = some usenet) :
      Goes crc32 launch main { main with usenet, position := .validating fileIndex (pieceIndex + 1) }
  | nextValidated {fileIndex pieceIndex numPieces : Nat} (position : main.position = .validating fileIndex pieceIndex)
      (found : main.postitems.getNumPieces fileIndex = some numPieces) (outside : ¬ pieceIndex < numPieces) :
      Goes crc32 launch main { main with position := .validating (fileIndex + 1) 0 }
  | allValidated {fileIndex pieceIndex : Nat} (position : main.position = .validating fileIndex pieceIndex) :
      Goes crc32 launch main { main with position := .stopping }
  | stops {usenet : Usenet FilepieceKey} (position : main.position = .stopping) (taken : main.usenet.step .stop = some usenet) :
      Goes crc32 launch main { main with usenet, position := .joining }
  | finds (position : main.position = .joining) (joined : main.usenet.Joined) (empty : main.usenet.queue = []) :
      Goes crc32 launch main { main with position := .writing }
  | leaves (position : main.position = .joining) (joined : main.usenet.Joined) (left : main.usenet.queue ≠ []) :
      Goes crc32 launch main { main with position := .returned 1 }
  | throws {fileIndex pieceIndex : Nat} (position : main.position = .posting fileIndex pieceIndex)
      (unserved : main.postitems.getChunk crc32 fileIndex pieceIndex = none) :
      Goes crc32 launch main { main with position := .terminated }

theorem advance_goes (taken : main.advance crc32 launch = some after) : Goes crc32 launch main after := by
  simp only [Main.advance] at taken
  split at taken
  next between =>
    split at taken
    next fileIndex pieceIndex position =>
      split at taken
      · obtain ⟨numPieces, found, taken⟩ := Option.bind_eq_some_iff.mp taken
        split at taken
        next inside =>
          obtain ⟨chunk, chunked, article, postitems, usenet, -, -, stepped, rfl⟩ | ⟨unserved, rfl⟩ := post_some taken
          · exact .posts position found inside stepped
          · exact .throws position unserved
        next outside =>
          cases taken
          exact .nextPosted position found outside
      · cases taken
        exact .allPosted position
    next fileIndex pieceIndex position =>
      split at taken
      · obtain ⟨numPieces, found, taken⟩ := Option.bind_eq_some_iff.mp taken
        split at taken
        next inside =>
          obtain ⟨called, calls, taken⟩ := Option.bind_eq_some_iff.mp taken
          obtain ⟨usenet, stepped, rfl⟩ := onPool_some calls
          cases taken
          exact .validates position found inside stepped
        next outside =>
          cases taken
          exact .nextValidated position found outside
      · cases taken
        exact .allValidated position
    next position =>
      obtain ⟨stopped, stops, rfl⟩ := Option.map_eq_some_iff.mp taken
      obtain ⟨usenet, stepped, rfl⟩ := onPool_some stops
      exact .stops position stepped
    next position =>
      split at taken
      next joined =>
        cases taken
        split
        next empty => exact .finds position joined (List.length_eq_zero_iff.mp empty)
        next left => exact .leaves position joined (fun empty => left (List.length_eq_zero_iff.mpr empty))
      · cases taken
    · cases taken
    · cases taken
    · cases taken
    · cases taken
  · cases taken

-- Fixed inputs, for the runs that other modules end with. Thread 0 is the main thread, thread 1 the io thread.

/-- One file of one piece, and one connection. -/
def sampleLaunch : Launch where
  cfg := {
    from' := ascii "poster"
    servers := [(sampleConninfo, 1)]
    subject := ascii "sample"
    msgiddomain := ascii "example"
    articleSize := 2
    ioThreads := 1
    queueSize := 5
    operationTimeout := 0
    validatePosts := false
    groups := [ascii "alt.test"]
    nzboutput := ascii "a.nzb" }
  postitems := Fileset.addFile ⟨2, []⟩ ⟨ascii "a.bin", [4, 19], by decide⟩
  runNonce := ascii "abcdefghij123456"
  single := rfl
  drawn := by decide
  files_fit := by decide
  pieces_fit := by decide

def sampleNonces : { nonces : RetryNonces // nonces.Drawn } :=
  ⟨⟨ascii "abcdefghij", ascii "abcde", ascii "654321jihgfedcba"⟩, by decide, by decide, by decide⟩

def hears (line : String) : Main.Event := .take 1 0 (answer line)

def goesOn (thread : Nat) : Main.Event := .proceed thread (answer "") none sampleNonces

/-- The only connection, from the start to its first command. -/
def logsIn : List Main.Event := ["", "", "", "200 ready\r\n", "", "281 welcome\r\n", ""].map hears ++ [goesOn 1]

/-- A post, from its command to its report. -/
def answersPost (line : String) : List Main.Event := ["", "", "340 go on\r\n", "", line, ""].map hears

/-- The server refuses the first piece three times. -/
def refusedThriceRun : List Main.Event :=
  logsIn ++ [.advance, goesOn 0] ++
    (List.replicate 2 (answersPost "441 refused\r\n" ++ [goesOn 1, goesOn 1, goesOn 1])).flatten ++
    answersPost "441 refused\r\n" ++ [goesOn 1]

end Post2Usenet.Proofs.MainSteps
