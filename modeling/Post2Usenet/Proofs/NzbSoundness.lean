import Post2Usenet.Lib.Collect
import Post2Usenet.Lib.Simulation
import Post2Usenet.Proofs.PieceArticles

/-! The file that `write_nzb` prints speaks of the posts that succeeded, and of all
of them. -/

namespace Post2Usenet.Proofs.NzbSoundness
open Connection PoolSteps PoolAccounting PoolRequests PoolAttempts MainSteps MainRun PieceArticles Tally Main

variable {eraseRule : EraseRule} {crc32 : Bytes → UInt32} {launch : Launch} {main after : Main}

/-- The callbacks for posts that succeeded, over all pieces. -/
def finishedPieces (launch : Launch) (main : Main) : Nat :=
  total (fun key => callbacks key true main.usenet) (pieces launch.postitems)

theorem finishedPieces_le (sound : Sound eraseRule launch main) :
    finishedPieces launch main ≤ launch.postitems.getTotalPieces := by
  have atMost : ∀ count ∈ (pieces launch.postitems).map (fun key => callbacks key true main.usenet), count ≤ 1 := by
    intro count member
    obtain ⟨key, -, rfl⟩ := List.mem_map.mp member
    have once := sound.once key
    have bound := made_le main key
    omega
  have bound := List.sum_le_card_nsmul _ 1 atMost
  rw [← pieces_length launch.pieces_fit]
  simpa [finishedPieces, total] using bound

/-- Every success is counted when its callback runs, and nothing else is. -/
def Counted (launch : Launch) (main : Main) : Prop := main.numPosted = finishedPieces launch main

theorem turn_counted (sound : Sound eraseRule launch main) (counted : Counted launch main) (turn : Turn launch main after) :
    Counted launch after := by
  have later := turn_sound sound turn
  have same {usenet : Usenet FilepieceKey}
      (callbacksSame : ∀ key, callbacks key true usenet = callbacks key true main.usenet) :
      main.numPosted = total (fun key => callbacks key true usenet) (pieces launch.postitems) := by
    simp only [callbacksSame]
    exact counted
  cases turn with
  | moves => exact counted
  | joins => exact counted
  | pool taken silent =>
    apply same
    intro key
    rw [step_callbacks key true taken, silent.concludes key true, Nat.add_zero]
  | posts position piece payload msgid files taken =>
    exact same (fun key => step_callbacks key true taken)
  | @fails thread msg other nonces outcome wake usenet head drawn named taken msgidRetries =>
    apply same
    intro key
    have concludes : callbacks key true usenet =
        callbacks key true main.usenet + concludingOf key true (.slotPostFailed msg) :=
      (proceed_counts key taken head).2 true
    simpa [concludingOf] using concludes
  | @finishes thread msg outcome wake usenet head taken =>
    obtain ⟨size, -, piece⟩ : ∃ size, main.pieceSizes msg = some size ∧ Piece launch.postitems msg := by
      apply sound.known
      have once := sound.once msg
      have inHand : 1 ≤ inHand msg main.usenet := by
        have weighs := headTask_weighs (inHandOf msg) head
        simpa [inHandOf, inHand] using weighs
      omega
    have finishes : (fun key => callbacks key true usenet) =
        Function.update (fun key => callbacks key true main.usenet) msg (callbacks msg true main.usenet + 1) := by
      funext key
      rw [(proceed_counts key taken head).2 true]
      by_cases new : key = msg
      · subst new
        simp [concludingOf]
      · simp [concludingOf, Function.update_of_ne new, Ne.symm new]
    have change := total_update (fun key => callbacks key true main.usenet) (pieces_nodup launch.postitems)
      (mem_pieces.mpr piece) (callbacks msg true main.usenet + 1)
    have bound := finishedPieces_le later
    have fits : launch.postitems.getTotalPieces < 2 ^ 64 := Nat.mod_lt _ (by decide)
    have before : main.numPosted = finishedPieces launch main := counted
    simp only [finishedPieces, finishes] at bound before
    show sizeT (main.numPosted + 1) = total (fun key => callbacks key true usenet) (pieces launch.postitems)
    rw [finishes, sizeT_eq (by omega)]
    omega

theorem run_counted {events : List Main.Event}
    (reached : Machine.run (Main.step crc32 launch) (launch.begin eraseRule) events = some main) :
    Sound eraseRule launch main ∧ Counted launch main := by
  apply Machine.Reachable.invariant (fun main => Sound eraseRule launch main ∧ Counted launch main) ⟨events, reached⟩
  · refine ⟨begin_sound eraseRule launch, ?_⟩
    obtain ⟨-, trace, -⟩ := launch_runs eraseRule launch
    have nothing (key : FilepieceKey) : callbacks key true (launch.usenet eraseRule) = 0 := by simp [callbacks, trace]
    show 0 = total (fun key => callbacks key true (launch.usenet eraseRule)) _
    simp [nothing, total]
  · intro before event after both taken
    have turn := step_turn both.1.files taken
    exact ⟨turn_sound both.1 turn, turn_counted both.1 both.2 turn⟩

/-- What a segment says of a piece is true of the attempt that was reported to have
succeeded, the only one there is. -/
structure Published (main : Main) (key : FilepieceKey) (segment : Segment) : Prop where
  once : reports key true main.usenet = 1
  sent : ∀ connit earlier, (.posted connit key .postSuccess :: earlier) <:+ main.usenet.trace →
    lastWritten connit earlier = some ((main.usenet.articles key).wire, .articleWritten)
  msgid : (main.usenet.articles key).header.msgid = ascii "<" ++ segment.msgid ++ ascii ">"
  bytes : (main.usenet.articles key).payload.flatten.length = segment.bytes

theorem replaceAll_absent {pattern : UInt8} {str : Bytes} (text : Bytes) (absent : pattern ∉ str) :
    replaceAll pattern text str = str := by
  induction str with
  | nil => rfl
  | cons byte str ih =>
    have other : byte ≠ pattern := by
      rintro rfl
      exact absent (List.mem_cons_self ..)
    have rest := ih (fun member => absent (List.mem_cons_of_mem _ member))
    simp only [replaceAll, List.flatMap_cons, if_neg other] at rest ⊢
    rw [rest]
    rfl

/-- Without its angle brackets, a text is what stands between them. -/
theorem replaceAll_brackets {text : Bytes} (opening : 60 ∉ text) (closing : 62 ∉ text) :
    replaceAll 62 [] (replaceAll 60 [] (ascii "<" ++ text ++ ascii ">")) = text := by
  have append (pattern : UInt8) (first rest : Bytes) :
      replaceAll pattern [] (first ++ rest) = replaceAll pattern [] first ++ replaceAll pattern [] rest :=
    List.flatMap_append ..
  simp only [append, replaceAll_absent [] opening, replaceAll_absent [] closing]
  exact List.append_nil text

theorem stripped_messageId {nonce domain : Bytes} {length : Nat} (drawn : RunNonce length nonce)
    (opening : 60 ∉ domain) (closing : 62 ∉ domain) (fileIndex pieceIndex : Nat) :
    Fileset.getUsenetMessageId nonce domain fileIndex pieceIndex =
      ascii "<" ++ replaceAll 62 [] (replaceAll 60 []
        (Fileset.getUsenetMessageId nonce domain fileIndex pieceIndex)) ++ ascii ">" := by
  have inside {byte : UInt8} (notDrawn : byte ∉ choices) (notDigit : Numeral.isDigit 10 byte = false)
      (notMark : byte ∉ ascii "." ∧ byte ∉ ascii "@") (notDomain : byte ∉ domain) :
      byte ∉ nonce ++ ascii "." ++ decimal fileIndex ++ ascii "." ++ decimal pieceIndex ++ ascii "@" ++ domain := by
    simp only [List.mem_append, not_or]
    exact ⟨⟨⟨⟨⟨⟨drawn.not_mem notDrawn, notMark.1⟩, MessageIds.not_mem_decimal notDigit _⟩, notMark.1⟩,
      MessageIds.not_mem_decimal notDigit _⟩, notMark.2⟩, notDomain⟩
  have shape : Fileset.getUsenetMessageId nonce domain fileIndex pieceIndex =
      ascii "<" ++ (nonce ++ ascii "." ++ decimal fileIndex ++ ascii "." ++ decimal pieceIndex ++ ascii "@" ++ domain) ++
        ascii ">" := by
    simp only [Fileset.getUsenetMessageId, List.append_assoc]
  rw [shape, replaceAll_brackets (inside (by decide) rfl (by decide) opening) (inside (by decide) rfl (by decide) closing)]

/-- The id that is printed is the one that the article has. -/
theorem described_messageId (sound : Sound eraseRule launch main) (opening : 60 ∉ launch.cfg.msgiddomain)
    (closing : 62 ∉ launch.cfg.msgiddomain) (key : FilepieceKey) :
    currentId launch main key =
      ascii "<" ++ replaceAll 62 [] (replaceAll 60 [] (currentId launch main key)) ++ ascii ">" := by
  rw [currentId]
  cases exception : main.msgidExceptions key with
  | none => exact stripped_messageId launch.drawn opening closing ..
  | some nonce => exact stripped_messageId (sound.drawn key nonce exception) opening closing ..

/-- At the end every piece was posted once. -/
theorem posted_once (sound : Sound eraseRule launch main) (writing : main.position = .writing) {key : FilepieceKey}
    (piece : Piece launch.postitems key) : callbacks key true main.usenet = 1 ∧ reports key true main.usenet = 1 := by
  have isSome := sound.behind key piece (by rw [writing]; trivial)
  have finished := sound.finished writing key
  have one : made main key = 1 := if_pos isSome
  have once := sound.once key
  have settled := sound.runs.settled key true
  have atMost := concluding_inHand key main.usenet
  omega

theorem segment_published (sound : Sound eraseRule launch main) (opening : 60 ∉ launch.cfg.msgiddomain)
    (closing : 62 ∉ launch.cfg.msgiddomain) (writing : main.position = .writing) {fileIndex pieceIndex : Nat}
    (piece : Piece launch.postitems ⟨fileIndex, pieceIndex⟩) :
    ∃ segment, main.segment launch fileIndex pieceIndex = some segment ∧ segment.number = pieceIndex + 1 ∧
      Published main ⟨fileIndex, pieceIndex⟩ segment := by
  have isSome := sound.behind _ piece (by rw [writing]; trivial)
  obtain ⟨size, found⟩ := Option.isSome_iff_exists.mp isSome
  have described := sound.described _ size found
  refine ⟨_, by rw [Main.segment, found]; rfl, sizeT_eq (piece_fits piece).2, (posted_once sound writing piece).2,
    ?_, ?_, ?_⟩
  · exact fun connit earlier ends => sound.runs.attested connit _ earlier ends
  · rw [described.msgid]
    exact described_messageId sound opening closing _
  · exact described.payload

/-- Only the writer makes the text of the file. -/
theorem step_nzb {after : Main} {event : Main.Event} (taken : main.step crc32 launch event = some after) :
    after.nzb = main.nzb ∨ after.position = .returned 0 ∧ main.position = .writing ∧ after.usenet = main.usenet ∧
      ∃ epochTime, main.writeNzb launch epochTime = after.nzb := by
  cases event with
  | write opened epochTime =>
    have going := step_going taken
    simp only [Main.step, going, Bool.false_eq_true, ite_false] at taken
    split at taken
    next writing =>
      split at taken
      · obtain ⟨nzb, made, rfl⟩ := Option.map_eq_some_iff.mp taken
        exact .inr ⟨rfl, writing, rfl, epochTime, made⟩
      · cases taken
        exact .inl rfl
    · cases taken
  | advance =>
    cases step_cases taken with
    | advance advances => cases advances <;> exact .inl rfl
  | take =>
    cases step_cases taken with
    | take | throws => exact .inl rfl
  | expire =>
    cases step_cases taken with
    | expire => exact .inl rfl
  | proceed =>
    cases step_cases taken with
    | proceed proceeds => cases proceeds <;> exact .inl rfl

/-- The program goes on until the text of the file is there. -/
theorem unwritten_before {before : Main} (reached : Machine.Reachable (Main.step crc32 launch) (launch.begin eraseRule) before)
    (going : before.position.ended = false) : before.nzb = none := by
  have inv : before.position.ended = true ∨ before.nzb = none := by
    apply reached.invariant (fun main => main.position.ended = true ∨ main.nzb = none) (.inr rfl)
    intro main event after earlier taken
    rcases step_nzb taken with same | ⟨returned, -⟩
    · rcases earlier with ended | nothing
      · cases (step_going taken).symm.trans ended
      · exact .inr (same.trans nothing)
    · left
      rw [returned]
      rfl
  exact inv.resolve_left (by simp [going])

/-- A text that is there was made in the last step. -/
theorem written_last {events : List Main.Event} {nzb : Bytes}
    (reached : Machine.run (Main.step crc32 launch) (launch.begin eraseRule) events = some main) (written : main.nzb = some nzb) :
    ∃ before epochTime, Machine.Reachable (Main.step crc32 launch) (launch.begin eraseRule) before ∧
      before.position = .writing ∧ before.writeNzb launch epochTime = some nzb ∧ before.usenet = main.usenet ∧
      main.position = .returned 0 := by
  rcases Machine.Reachable.last ⟨events, reached⟩ with rfl | ⟨before, event, earlier, taken⟩
  · cases written
  · rcases step_nzb taken with same | ⟨returned, writing, usenet, epochTime, made⟩
    · cases (unwritten_before earlier (step_going taken)).symm.trans (same.symm.trans written)
    · exact ⟨before, epochTime, earlier, writing, made.trans written, usenet.symm, returned⟩

/-- The line of a piece tells of the only post of it that succeeded. -/
def PrintsPiece (main : Main) (fileIndex pieceIndex : Nat) (line : Bytes) : Prop :=
  ∃ segment, Published main ⟨fileIndex, pieceIndex⟩ segment ∧
    line = ascii "<segment bytes=\"" ++ decimal segment.bytes ++ ascii "\" number=\"" ++ decimal (pieceIndex + 1) ++ ascii "\">"
      ++ segment.msgid ++ ascii "</segment>\n"

/-- The element of a file has a line for each of its pieces. -/
def PrintsFile (launch : Launch) (main : Main) (epochTime fileIndex : Nat) (element : Bytes) : Prop :=
  ∃ (subject : Bytes) (lines : List Bytes), launch.postitems.getUsenetSubject launch.cfg.subject fileIndex 0 = some subject ∧
    launch.postitems.getNumPieces fileIndex = some lines.length ∧
    (∀ pieceIndex line, lines[pieceIndex]? = some line → PrintsPiece main fileIndex pieceIndex line) ∧
    element = fileOpening launch.cfg.from' launch.cfg.groups epochTime subject ++ lines.flatten ++ fileClosing

/-- An NZB file has an element for each file. -/
def Prints (launch : Launch) (main : Main) (epochTime : Nat) (nzb : Bytes) : Prop :=
  ∃ elements : List Bytes, elements.length = launch.postitems.getNumFiles ∧
    (∀ fileIndex element, elements[fileIndex]? = some element → PrintsFile launch main epochTime fileIndex element) ∧
    nzb = nzbOpening ++ elements.flatten ++ nzbClosing

theorem Published.frame {key : FilepieceKey} {segment : Segment} (published : Published main key segment)
    (same : main.usenet = after.usenet) : Published after key segment :=
  ⟨same ▸ published.once, same ▸ published.sent, same ▸ published.msgid, same ▸ published.bytes⟩

/-- A text tells of the posts, and of nothing else that a step can change. -/
theorem Prints.frame {epochTime : Nat} {nzb : Bytes} (prints : Prints launch main epochTime nzb)
    (same : main.usenet = after.usenet) : Prints launch after epochTime nzb := by
  obtain ⟨elements, length, each, rfl⟩ := prints
  refine ⟨elements, length, fun fileIndex element present => ?_, rfl⟩
  obtain ⟨subject, lines, titled, found, pieces, text⟩ := each fileIndex element present
  refine ⟨subject, lines, titled, found, fun pieceIndex line here => ?_, text⟩
  obtain ⟨segment, published, printed⟩ := pieces pieceIndex line here
  exact ⟨segment, published.frame same, printed⟩

theorem segments_printed (sound : Sound eraseRule launch main) (opening : 60 ∉ launch.cfg.msgiddomain)
    (closing : 62 ∉ launch.cfg.msgiddomain) (writing : main.position = .writing) {fileIndex numPieces : Nat}
    (found : launch.postitems.getNumPieces fileIndex = some numPieces) :
    ∃ segments, main.segments launch fileIndex = some segments ∧ segments.length = numPieces ∧
      ∀ pieceIndex segment, segments[pieceIndex]? = some segment →
        segment.number = pieceIndex + 1 ∧ Published main ⟨fileIndex, pieceIndex⟩ segment := by
  have each : ∀ pieceIndex ∈ List.range numPieces, ∃ segment, main.segment launch fileIndex pieceIndex = some segment := by
    intro pieceIndex within
    obtain ⟨segment, printed, -⟩ :=
      segment_published sound opening closing writing ⟨numPieces, found, List.mem_range.mp within⟩
    exact ⟨segment, printed⟩
  obtain ⟨segments, printed⟩ := Collect.mapM_of_forall each
  have listed := Collect.mapM_eq_some_iff.mp printed
  have length : segments.length = numPieces := by simpa using congrArg List.length listed.symm
  refine ⟨segments, ?_, length, ?_⟩
  · rw [Main.segments, sound.files, found]
    exact printed
  · intro pieceIndex segment present
    have within : pieceIndex < numPieces := length ▸ (List.getElem?_eq_some_iff.mp present).1
    obtain ⟨other, same, number, published⟩ :=
      segment_published sound opening closing writing ⟨numPieces, found, within⟩
    have made : main.segment launch fileIndex pieceIndex = some segment := by
      simpa [present, within] using congrArg (·[pieceIndex]?) listed
    cases made.symm.trans same
    exact ⟨number, published⟩

theorem fileElement_prints (sound : Sound eraseRule launch main) (same : SameFiles main.postitems launch.postitems)
    (opening : 60 ∉ launch.cfg.msgiddomain)
    (closing : 62 ∉ launch.cfg.msgiddomain) (writing : main.position = .writing) (epochTime : Nat) {fileIndex : Nat}
    (inside : fileIndex < launch.postitems.getNumFiles) :
    ∃ element, main.fileElement launch epochTime fileIndex = some element ∧
      PrintsFile launch main epochTime fileIndex element := by
  obtain ⟨item, present⟩ : ∃ item, launch.postitems.items[fileIndex]? = some item :=
    ⟨_, List.getElem?_eq_getElem inside⟩
  have found : launch.postitems.getNumPieces fileIndex = some item.handle.numParts := congrArg (Option.map _) present
  have named : launch.postitems.getFileName fileIndex = some item.file.name := congrArg (Option.map _) present
  obtain ⟨segments, printed, length, each⟩ := segments_printed sound opening closing writing found
  obtain ⟨subject, titled⟩ : ∃ subject, launch.postitems.getUsenetSubject launch.cfg.subject fileIndex 0 = some subject := by
    simp [Fileset.getUsenetSubject, found, named]
  refine ⟨_, ?_, subject, segments.map segmentLine, titled, ?_, ?_, rfl⟩
  · simp only [fileElement, same.getUsenetSubject, titled, printed, Option.bind_eq_bind, Option.bind_some, List.flatMap_def]
    rfl
  · rw [found, List.length_map, length]
  · intro pieceIndex line present
    rw [List.getElem?_map] at present
    obtain ⟨segment, here, rfl⟩ := Option.map_eq_some_iff.mp present
    obtain ⟨number, published⟩ := each pieceIndex segment here
    exact ⟨segment, published, by rw [segmentLine, number]⟩

/-- What the writer prints of the posts of a run. -/
theorem writeNzb_prints (sound : Sound eraseRule launch main) (same : SameFiles main.postitems launch.postitems)
    (opening : 60 ∉ launch.cfg.msgiddomain) (closing : 62 ∉ launch.cfg.msgiddomain) (writing : main.position = .writing)
    (epochTime : Nat) : ∃ nzb, main.writeNzb launch epochTime = some nzb ∧ Prints launch main epochTime nzb := by
  have each : ∀ fileIndex ∈ List.range launch.postitems.getNumFiles, ∃ element,
      main.fileElement launch epochTime fileIndex = some element := fun fileIndex within =>
    (fileElement_prints sound same opening closing writing epochTime (List.mem_range.mp within)).imp (fun _ => And.left)
  obtain ⟨elements, printed⟩ := Collect.mapM_of_forall each
  have listed := Collect.mapM_eq_some_iff.mp printed
  have length : elements.length = launch.postitems.getNumFiles := by simpa using congrArg List.length listed.symm
  refine ⟨_, by rw [writeNzb, same.getNumFiles, printed]; rfl, elements, length, ?_, rfl⟩
  intro fileIndex element present
  have within : fileIndex < launch.postitems.getNumFiles := length ▸ (List.getElem?_eq_some_iff.mp present).1
  obtain ⟨other, made, prints⟩ := fileElement_prints sound same opening closing writing epochTime within
  have here : main.fileElement launch epochTime fileIndex = some element := by
    simpa [present, within] using congrArg (·[fileIndex]?) listed
  cases here.symm.trans made
  exact prints

/-- A run that reaches the writer has posted every piece once, and its text says which
posts these were. -/
theorem nzb_sound {events : List Main.Event} (opening : 60 ∉ launch.cfg.msgiddomain)
    (closing : 62 ∉ launch.cfg.msgiddomain)
    (reached : Machine.run (Main.step crc32 launch) (launch.begin eraseRule) events = some main)
    (writing : main.position = .writing) :
    (∀ epochTime, ∃ nzb, main.writeNzb launch epochTime = some nzb ∧ Prints launch main epochTime nzb ∧
      (launch.cfg.nzboutput ≠ [] → ∃ after,
        main.step crc32 launch (.write true epochTime) = some after ∧ after.nzb = some nzb)) ∧
      main.numPosted = launch.postitems.getTotalPieces ∧
      Machine.Holds (Main.step crc32 launch) (fun main => main.numPosted ≤ launch.postitems.getTotalPieces)
        (launch.begin eraseRule) events := by
  obtain ⟨sound, counted⟩ := run_counted reached
  refine ⟨?_, ?_, ?_⟩
  · intro epochTime
    obtain ⟨nzb, written, prints⟩ :=
      writeNzb_prints sound (run_sameFiles reached) opening closing writing epochTime
    refine ⟨nzb, written, prints, fun wanted => ⟨{ main with nzb := some nzb, position := .returned 0 }, ?_, rfl⟩⟩
    simp [Main.step, writing, Position.ended, wanted, written]
  · have once : ∀ key ∈ pieces launch.postitems, callbacks key true main.usenet = 1 :=
      fun key member => (posted_once sound writing (mem_pieces.mp member)).1
    rw [counted, finishedPieces, total_congr once, ← pieces_length launch.pieces_fit]
    simp [total]
  · apply Machine.holds_of_reachable
    rintro state ⟨earlier, before⟩
    obtain ⟨sound, counted⟩ := run_counted before
    rw [counted]
    exact finishedPieces_le sound

/-- An id leads back to its piece, whatever the domain, and two attempts have one id only
when they are for one piece and with one nonce. -/
theorem messageIds_identify :
    (∀ domain nonce fileIndex pieceIndex, RunNonce nonce.length nonce → fileIndex < 2 ^ 64 → pieceIndex < 2 ^ 64 →
      Fileset.getKeyFromMessageId (Fileset.getUsenetMessageId nonce domain fileIndex pieceIndex) =
        some ⟨fileIndex, pieceIndex⟩) ∧
      (∀ domain nonce other fileIndex pieceIndex otherFile otherPiece, RunNonce nonce.length nonce →
        RunNonce other.length other → fileIndex < 2 ^ 64 → pieceIndex < 2 ^ 64 → otherFile < 2 ^ 64 → otherPiece < 2 ^ 64 →
        Fileset.getUsenetMessageId nonce domain fileIndex pieceIndex =
          Fileset.getUsenetMessageId other domain otherFile otherPiece →
        nonce = other ∧ fileIndex = otherFile ∧ pieceIndex = otherPiece) ∧
      ∀ (crc32 : Bytes → UInt32) (eraseRule : EraseRule) (launch : Launch) (events : List Main.Event) (main : Main),
        Machine.run (Main.step crc32 launch) (launch.begin eraseRule) events = some main →
        ∀ key other, 0 < made main key → 0 < made main other →
          (main.usenet.articles key).header.msgid = (main.usenet.articles other).header.msgid → key = other := by
  refine ⟨?_, ?_, ?_⟩
  · intro domain nonce fileIndex pieceIndex drawn fileFits pieceFits
    exact MessageIds.getKeyFromMessageId_getUsenetMessageId drawn fileFits pieceFits domain
  · intro domain nonce other fileIndex pieceIndex otherFile otherPiece drawn otherDrawn file piece file' piece' same
    exact MessageIds.getUsenetMessageId_injective drawn otherDrawn file piece file' piece' same
  · intro crc32 eraseRule launch events main reached key other exists' otherExists same
    obtain ⟨sound, -⟩ := run_counted reached
    have named := sound.named exists'
    have otherNamed := sound.named otherExists
    rw [same] at named
    exact Option.some.inj (named.symm.trans otherNamed)

/-- The server refuses the only piece once. -/
def refusedOnceRun : List Main.Event :=
  logsIn ++ [.advance, goesOn 0] ++ answersPost "441 refused\r\n" ++ [goesOn 1, goesOn 1, goesOn 1] ++
    answersPost "240 posted\r\n" ++ [goesOn 1, goesOn 1] ++ List.replicate 4 .advance

/-- The id is the one of the second attempt. -/
def refusedOnceNzb : Bytes :=
  nzbOpening ++ fileOpening (ascii "poster") [ascii "alt.test"] 9 (ascii "sample [1/1] - \"a.bin\" yEnc (1/1)")
    ++ ascii "<segment bytes=\"116\" number=\"1\">654321jihgfedcba.0.0@example</segment>\n" ++ fileClosing ++ nzbClosing

theorem refusedOnce_sound : ∃ main after,
    Machine.run (Main.step Yencgenerator.crc32Type sampleLaunch) (sampleLaunch.begin .holder) refusedOnceRun = some main ∧
      main.step Yencgenerator.crc32Type sampleLaunch (.write true 9) = some after ∧ after.nzb = some refusedOnceNzb ∧
      Prints sampleLaunch main 9 refusedOnceNzb ∧ main.numPosted = 1 := by
  have computed :
      (Machine.run (Main.step Yencgenerator.crc32Type sampleLaunch) (sampleLaunch.begin .holder) refusedOnceRun).map
        (fun main => (main.position, main.writeNzb sampleLaunch 9)) = some (.writing, some refusedOnceNzb) := by
    decide +kernel
  obtain ⟨main, reached, seen⟩ := Option.map_eq_some_iff.mp computed
  obtain ⟨writing, text⟩ := Prod.mk.inj seen
  obtain ⟨printed, posted, -⟩ := nzb_sound (by decide) (by decide) reached writing
  obtain ⟨nzb, written, prints, taken⟩ := printed 9
  cases text.symm.trans written
  obtain ⟨after, stepped, kept⟩ := taken (by decide)
  exact ⟨main, after, reached, stepped, kept, prints, posted⟩

private def pairLaunch : Launch :=
  { sampleLaunch with
    postitems := Fileset.addFile (Fileset.addFile ⟨2, []⟩ ⟨ascii "d.bin", [7], by decide⟩) ⟨ascii "e.bin", [8], by decide⟩
    files_fit := by decide
    pieces_fit := by decide }

/-- The posting loop up to the second file. -/
def pairRun : List Main.Event := [.advance, goesOn 0, .advance, .advance, goesOn 0]

theorem pair_identified :
    Fileset.getKeyFromMessageId (Fileset.getUsenetMessageId (ascii "ab12") (ascii "1.2@3.4") 7 (2 ^ 64 - 1)) =
        some ⟨7, 2 ^ 64 - 1⟩ ∧
      Fileset.getUsenetMessageId (ascii "ab12") (ascii "1.2@3.4") 7 1 ≠
        Fileset.getUsenetMessageId (ascii "ab1") (ascii "1.2@3.4") 27 1 ∧
      ∃ main, Machine.run (Main.step Yencgenerator.crc32Type pairLaunch) (pairLaunch.begin .named) pairRun = some main ∧
        (main.usenet.articles ⟨0, 0⟩).header.msgid ≠ (main.usenet.articles ⟨1, 0⟩).header.msgid := by
  obtain ⟨leads, identify, distinct⟩ := messageIds_identify
  refine ⟨leads _ _ _ _ (by decide) (by decide) (by decide), fun same => ?_, ?_⟩
  · obtain ⟨nonces, -, -⟩ := identify _ _ _ _ _ _ _ (by decide) (by decide) (by decide) (by decide) (by decide) (by decide) same
    revert nonces
    decide
  · have computed :
        (Machine.run (Main.step Yencgenerator.crc32Type pairLaunch) (pairLaunch.begin .named) pairRun).map
          (fun main => (made main ⟨0, 0⟩, made main ⟨1, 0⟩)) = some (1, 1) := by decide +kernel
    obtain ⟨main, reached, seen⟩ := Option.map_eq_some_iff.mp computed
    obtain ⟨first, second⟩ := Prod.mk.inj seen
    refine ⟨main, reached, fun same => ?_⟩
    cases distinct _ _ _ _ main reached ⟨0, 0⟩ ⟨1, 0⟩ (by omega) (by omega) same

end Post2Usenet.Proofs.NzbSoundness
