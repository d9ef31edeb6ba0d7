import Post2Usenet.Proofs.MainSteps
import Post2Usenet.Proofs.MessageIds
import Post2Usenet.Proofs.PoolAttempts

/-! Runs of the program. Every piece that was made has one article, which is called
for, in the pool or posted, and never twice; its header is the one that the maps of
the program speak of. -/

namespace Post2Usenet.Proofs.MainRun
open Connection PoolSteps PoolOwnership PoolAccounting PoolRequests PoolAttempts MainSteps Tally Main

/-- The pieces of all files, in the order of the loops. -/
def pieces (postitems : Fileset) : List FilepieceKey :=
  (List.range postitems.getNumFiles).flatMap (fun fileIndex =>
    (List.range ((postitems.getNumPieces fileIndex).getD 0)).map (fun pieceIndex => ⟨fileIndex, pieceIndex⟩))

def Piece (postitems : Fileset) (key : FilepieceKey) : Prop :=
  ∃ numPieces, postitems.getNumPieces key.fileIndex = some numPieces ∧ key.pieceIndex < numPieces

theorem mem_pieces {postitems : Fileset} {key : FilepieceKey} : key ∈ pieces postitems ↔ Piece postitems key := by
  simp only [pieces, Piece, List.mem_flatMap, List.mem_range, List.mem_map]
  constructor
  · rintro ⟨fileIndex, file, pieceIndex, piece, rfl⟩
    cases found : postitems.getNumPieces fileIndex with
    | none => simp [found] at piece
    | some numPieces => exact ⟨numPieces, rfl, by simpa [found] using piece⟩
  · rintro ⟨numPieces, found, piece⟩
    refine ⟨key.fileIndex, ?_, key.pieceIndex, by simpa [found] using piece, rfl⟩
    obtain ⟨item, at', -⟩ := Option.map_eq_some_iff.mp found
    exact (List.getElem?_eq_some_iff.mp at').1

theorem pieces_nodup (postitems : Fileset) : (pieces postitems).Nodup := by
  rw [pieces, List.nodup_flatMap]
  constructor
  · intro fileIndex _
    exact List.nodup_range.map (fun _ _ same => (FilepieceKey.mk.inj same).2)
  · apply List.nodup_range.imp
    intro first second different key one other
    obtain ⟨_, -, rfl⟩ := List.mem_map.mp one
    obtain ⟨_, -, same⟩ := List.mem_map.mp other
    exact different (FilepieceKey.mk.inj same).1.symm

theorem pieces_length {postitems : Fileset}
    (fits : (postitems.items.map (fun item => item.handle.numParts)).sum < 2 ^ 64) :
    (pieces postitems).length = postitems.getTotalPieces := by
  have counts : (List.range postitems.getNumFiles).map (fun fileIndex => (postitems.getNumPieces fileIndex).getD 0) =
      postitems.items.map (fun item => item.handle.numParts) := by
    apply List.ext_getElem (by simp [Fileset.getNumFiles])
    intro place inside _
    have within : place < postitems.items.length := by simpa [Fileset.getNumFiles] using inside
    simp [Fileset.getNumPieces, within]
  rw [Fileset.getTotalPieces, sizeT_eq fits, ← counts, pieces, List.length_flatMap]
  simp

theorem piece_fits {launch : Launch} {key : FilepieceKey} (piece : Piece launch.postitems key) :
    key.fileIndex < 2 ^ 64 ∧ key.pieceIndex + 1 < 2 ^ 64 := by
  obtain ⟨numPieces, found, inside⟩ := piece
  obtain ⟨item, at', rfl⟩ := Option.map_eq_some_iff.mp found
  have file : key.fileIndex < launch.postitems.getNumFiles := (List.getElem?_eq_some_iff.mp at').1
  have summed : item.handle.numParts ≤ (launch.postitems.items.map (fun item => item.handle.numParts)).sum :=
    weight_le_total (fun item => item.handle.numParts) (List.mem_of_getElem? at')
  exact ⟨file.trans launch.files_fit, (Nat.succ_le_of_lt inside).trans_lt (summed.trans_lt launch.pieces_fit)⟩

/-- What holds of the pool in any run of the program. -/
structure Runs (eraseRule : EraseRule) (launch : Launch) (usenet : Usenet FilepieceKey) : Prop where
  reached : ∃ heap, Machine.Reachable Usenet.step
    (.make eraseRule launch.cfg.ioThreads launch.cfg.queueSize heap) usenet
  attended : Attended usenet
  attested : Attested usenet

section Runs

variable {eraseRule : EraseRule} {launch : Launch} {usenet after : Usenet FilepieceKey}

theorem Runs.owned (runs : Runs eraseRule launch usenet) : Owned [] usenet := by
  obtain ⟨heap, reached⟩ := runs.reached
  exact reachable_owned reached

/-- A post that was called for is in the pool, or was concluded. -/
theorem Runs.balance (runs : Runs eraseRule launch usenet) (key : FilepieceKey) :
    passed key usenet = queued key usenet + held key usenet + inHand key usenet +
      (callbacks key false usenet + callbacks key true usenet) := by
  obtain ⟨heap, reached⟩ := runs.reached
  have balanced := reachable_balanced key reached
  rw [PoolAccounting.Balanced, placed] at balanced
  rw [← concluded_callbacks, held_placed key runs.owned]
  omega

theorem Runs.settled (runs : Runs eraseRule launch usenet) (key : FilepieceKey) (success : Bool) :
    reports key success usenet = concluding key success usenet + callbacks key success usenet := by
  obtain ⟨heap, reached⟩ := runs.reached
  exact reachable_settled key success reached

theorem Runs.step {event : Usenet.Event FilepieceKey} (runs : Runs eraseRule launch usenet)
    (same : ∀ articles, event = .rewrite articles → articles = usenet.articles)
    (taken : usenet.step event = some after) : Runs eraseRule launch after := by
  obtain ⟨heap, reached⟩ := runs.reached
  exact ⟨⟨heap, reached.next taken⟩, step_attended runs.owned runs.attended same taken,
    step_attested runs.owned runs.attended runs.attested same taken⟩

/-- An article that no connection holds and that was not posted may be written. -/
theorem Runs.rewrite (runs : Runs eraseRule launch usenet) {key : FilepieceKey} (free : held key usenet = 0)
    (unposted : reports key true usenet = 0) (article : Article) :
    Runs eraseRule launch { usenet with articles := Function.update usenet.articles key article } := by
  obtain ⟨heap, reached⟩ := runs.reached
  have others (other : FilepieceKey) (different : other ≠ key) :
      Function.update usenet.articles key article other = usenet.articles other := Function.update_of_ne different ..
  refine ⟨⟨heap, reached.next (show usenet.step (.rewrite _) = some _ from rfl)⟩,
    rewrite_attended runs.owned runs.attended ?_, rewrite_attested runs.attested ?_⟩
  · rintro other some'
    exact others other (by rintro rfl; omega)
  · rintro other some'
    exact others other (by rintro rfl; omega)

end Runs

/-- The pieces that the posting loop has surely been at. -/
def Behind : Position → FilepieceKey → Prop
  | .posting fileIndex pieceIndex, key =>
    key.fileIndex < fileIndex ∨ key.fileIndex = fileIndex ∧ key.pieceIndex < pieceIndex
  | .exited, _ | .terminated, _ => False
  | _, _ => True

theorem behind_next {fileIndex pieceIndex : Nat} {key : FilepieceKey} :
    Behind (.posting fileIndex (pieceIndex + 1)) key ↔
      key = ⟨fileIndex, pieceIndex⟩ ∨ Behind (.posting fileIndex pieceIndex) key := by
  obtain ⟨file, piece⟩ := key
  simp only [Behind, FilepieceKey.mk.injEq]
  omega

theorem sized_update {sizes : FilepieceKey → Option Nat} {new key : FilepieceKey} {size : Nat} :
    (Function.update sizes new (some size) key).isSome = true ↔ key = new ∨ (sizes key).isSome = true := by
  by_cases same : key = new
  · simp [same]
  · simp [same]

/-- The main thread goes on without making an article. -/
structure Onward (postitems : Fileset) (before after : Position) : Prop where
  behind : ∀ key, Piece postitems key → Behind after key → Behind before key
  ahead : ∀ fileIndex pieceIndex, after = .posting fileIndex pieceIndex →
    (∃ earlier piece, before = .posting earlier piece) ∧ ∀ key, Behind before key → Behind after key
  writing : after = .writing → before = .writing

/-- A step of the pool that calls for no post and concludes none. -/
structure Silent (usenet : Usenet FilepieceKey) (event : Usenet.Event FilepieceKey) : Prop where
  articles : ∀ articles, event = .rewrite articles → articles = usenet.articles
  calls : ∀ key, asked key (calls usenet event) = 0
  concludes : ∀ key success, total (concludingOf key success) (PoolRequests.runs usenet event).toList = 0

/-- What a step of the program can be. -/
inductive Turn (launch : Launch) (main : Main) : Main → Prop
  | moves {position : Position} (onward : Onward launch.postitems main.position position)
      (msgidRetries : FilepieceKey → Option Nat) (nzb : Option Bytes) (dump : Option (Bytes × Bytes)) :
      Turn launch main { main with position, msgidRetries, nzb, dump }
  | pool {event : Usenet.Event FilepieceKey} {usenet : Usenet FilepieceKey} {position : Position}
      (taken : main.usenet.step event = some usenet) (silent : Silent main.usenet event)
      (onward : Onward launch.postitems main.position position) :
      Turn launch main { main with usenet, position }
  | joins (position : main.position = .joining) (between : main.between = true) (joined : main.usenet.Joined)
      (empty : main.usenet.queue = []) :
      Turn launch main { main with position := .writing }
  | posts {fileIndex pieceIndex : Nat} {chunk : Bytes} {article : Article} {postitems : Fileset}
      {usenet : Usenet FilepieceKey} (position : main.position = .posting fileIndex pieceIndex)
      (piece : Piece launch.postitems ⟨fileIndex, pieceIndex⟩) (payload : article.payload = [chunk])
      (msgid : article.header.msgid =
        Fileset.getUsenetMessageId launch.runNonce launch.cfg.msgiddomain fileIndex pieceIndex)
      (files : ∀ index, postitems.getNumPieces index = main.postitems.getNumPieces index)
      (taken : { main.usenet with
        articles := Function.update main.usenet.articles ⟨fileIndex, pieceIndex⟩ article }.step
          (.call 0 (.enqueuePost ⟨fileIndex, pieceIndex⟩ false)) = some usenet) :
      Turn launch main { main with
        usenet
        postitems
        position := .posting fileIndex (pieceIndex + 1)
        pieceSizes := Function.update main.pieceSizes ⟨fileIndex, pieceIndex⟩ (some chunk.length) }
  | fails {thread : Nat} {msg key : FilepieceKey} {nonces : RetryNonces} {outcome : Outcome} {wake : Option Nat}
      {usenet : Usenet FilepieceKey} (head : headTask main.usenet thread = some (.slotPostFailed msg))
      (drawn : nonces.Drawn)
      (named : Fileset.getKeyFromMessageId (main.usenet.articles msg).header.msgid = some key)
      (taken : { main.usenet with
        articles := Function.update main.usenet.articles msg
          ((main.usenet.articles msg).retry launch.cfg key nonces) }.step
          (.proceed thread ⟨outcome, wake, [.enqueuePost msg true]⟩) = some usenet)
      (msgidRetries : FilepieceKey → Option Nat) :
      Turn launch main { main with
        usenet
        msgidRetries
        msgidExceptions := Function.update main.msgidExceptions key (some nonces.messageNonce) }
  | finishes {thread : Nat} {msg : FilepieceKey} {outcome : Outcome} {wake : Option Nat} {usenet : Usenet FilepieceKey}
      (head : headTask main.usenet thread = some (.slotFinishPost msg))
      (taken : main.usenet.step (.proceed thread ⟨outcome, wake, []⟩) = some usenet) :
      Turn launch main { main.postFinished msg with usenet }

section Turn

variable {crc32 : Bytes → UInt32} {launch : Launch} {main after : Main}

theorem onward_refl (postitems : Fileset) (position : Position) : Onward postitems position position :=
  ⟨fun _ _ => id, fun fileIndex pieceIndex same => ⟨⟨fileIndex, pieceIndex, same⟩, fun _ => id⟩, id⟩

theorem onward_beyond (postitems : Fileset) {before : Position} (after : Position) (later : beyond after = true)
    (behind : ∀ key, Piece postitems key → Behind after key → Behind before key) : Onward postitems before after := by
  refine ⟨behind, fun fileIndex pieceIndex same => ?_, fun same => ?_⟩
  · rw [same] at later
    cases later
  · rw [same] at later
    cases later

/-- The steps that concern no article. -/
def plainly : Usenet.Event FilepieceKey → Bool
  | .stop | .take _ _ _ | .expire _ | .call _ (.enqueueStat _) => true
  | _ => false

theorem silent_plain {usenet : Usenet FilepieceKey} {event : Usenet.Event FilepieceKey} (plain : plainly event = true) :
    Silent usenet event := by
  cases event with
  | stop => exact ⟨fun _ same => (by cases same), fun _ => rfl, fun _ _ => rfl⟩
  | take thread index outcome => exact ⟨fun _ same => (by cases same), fun _ => rfl, fun _ _ => rfl⟩
  | expire connit => exact ⟨fun _ same => (by cases same), fun _ => rfl, fun _ _ => rfl⟩
  | call thread request =>
    cases request with
    | enqueueStat msgid => exact ⟨fun _ same => (by cases same), fun _ => rfl, fun _ _ => rfl⟩
    | enqueuePost msg bypassWait => cases plain
  | _ => cases plain

theorem silent_proceed {usenet : Usenet FilepieceKey} {thread : Nat} {outcome : Outcome} {wake : Option Nat}
    (concludes : ∀ task, headTask usenet thread = some task → ∀ key success, concludingOf key success task = 0) :
    Silent usenet (.proceed thread ⟨outcome, wake, []⟩) := by
  refine ⟨nofun, fun key => ?_, fun key success => ?_⟩
  · cases head : headTask usenet thread with
    | none => simp [calls, asked, head]
    | some task => cases task <;> simp [calls, asked, head, observed]
  · cases head : headTask usenet thread with
    | none => simp [PoolRequests.runs, head]
    | some task => simp [PoolRequests.runs, head, concludes task head]

theorem proceed_turn {thread : Nat} {outcome : Outcome} {wake : Option Nat} {nonces : RetryNonces} (drawn : nonces.Drawn)
    (proceeds : Proceeds launch main thread outcome wake nonces after) : Turn launch main after := by
  cases proceeds with
  | exits head named often => exact .moves (onward_beyond _ .exited rfl (fun _ _ behind => behind.elim)) _ main.nzb _
  | requeues head named seldom taken => exact .fails head drawn named taken _
  | finishes head taken => exact .finishes head taken
  | plain unfailed unfinished taken =>
    refine .pool taken (silent_proceed ?_) (onward_refl ..)
    intro task head key success
    cases task with
    | slotPostFailed msg => exact absurd head (unfailed msg)
    | slotFinishPost msg => exact absurd head (unfinished msg)
    | _ => rfl

/-- The posting loop goes on to the next file when all pieces of this one were made. -/
theorem onward_next_file {postitems : Fileset} {fileIndex pieceIndex numPieces : Nat}
    (found : postitems.getNumPieces fileIndex = some numPieces) (outside : ¬ pieceIndex < numPieces) :
    Onward postitems (.posting fileIndex pieceIndex) (.posting (fileIndex + 1) 0) := by
  refine ⟨?_, ?_, fun same => by cases same⟩
  · rintro key ⟨count, other, inside⟩ behind
    simp only [Behind] at behind ⊢
    rcases behind with earlier | ⟨-, impossible⟩
    · rcases Nat.lt_succ_iff_lt_or_eq.mp earlier with before | rfl
      · exact .inl before
      · cases found.symm.trans other
        exact .inr ⟨rfl, by omega⟩
    · cases impossible
  · intro later piece same
    cases same
    refine ⟨⟨_, _, rfl⟩, fun key behind => ?_⟩
    simp only [Behind] at behind ⊢
    omega

theorem piece_before_end {postitems : Fileset} {fileIndex : Nat} (beyond : ¬ fileIndex < postitems.getNumFiles)
    {key : FilepieceKey} (piece : Piece postitems key) : key.fileIndex < fileIndex := by
  obtain ⟨numPieces, found, -⟩ := piece
  obtain ⟨item, at', -⟩ := Option.map_eq_some_iff.mp found
  exact Nat.lt_of_lt_of_le (List.getElem?_eq_some_iff.mp at').1 (Nat.le_of_not_lt beyond)

theorem behind_past {position : Position} (past : past position = true) (key : FilepieceKey) : Behind position key := by
  cases position with
  | posting fileIndex pieceIndex => cases past
  | exited => cases past
  | terminated => cases past
  | _ => trivial

theorem silent_asks {usenet : Usenet FilepieceKey} {event : Usenet.Event FilepieceKey} (asks : Asks event) :
    Silent usenet event := by
  rcases asks with rfl | ⟨msgid, rfl⟩
  · exact silent_plain rfl
  · exact silent_plain rfl

/-- Where an exception leaves the program, nothing is known of the loop. -/
theorem terminated_turn : Turn launch main { main with position := .terminated } :=
  .moves (onward_beyond _ .terminated rfl (fun _ _ behind => behind.elim)) main.msgidRetries main.nzb main.dump

theorem advance_turn (files : ∀ index, main.postitems.getNumPieces index = launch.postitems.getNumPieces index)
    (advances : Advances crc32 launch main after) : Turn launch main after := by
  cases advances with
  | posts position found inside served built taken =>
    rw [files] at found
    obtain ⟨item, subject, part, -, -, -, rfl, chunked⟩ := makeArticle_some crc32 built
    cases served.symm.trans chunked
    exact .posts position ⟨_, found, inside⟩ rfl rfl (Fileset.getNumPieces_getChunk crc32 chunked) taken
  | nextFile position found outside =>
    rw [files] at found
    exact .moves (position ▸ onward_next_file found outside) main.msgidRetries main.nzb main.dump
  | postsNoMore position last later unwritten =>
    refine .moves (onward_beyond _ _ unwritten (fun key piece _ => ?_)) main.msgidRetries main.nzb main.dump
    rw [position]
    exact .inl (piece_before_end last piece)
  | calls before asks taken later unwritten =>
    exact .pool taken (silent_asks asks) (onward_beyond _ _ unwritten (fun key _ _ => behind_past before key))
  | passes before later unwritten =>
    exact .moves (onward_beyond _ _ unwritten (fun key _ _ => behind_past before key)) main.msgidRetries main.nzb main.dump
  | joins position between joined empty => exact .joins position between joined empty
  | throws position unserved => exact terminated_turn

theorem step_turn {event : Main.Event}
    (files : ∀ index, main.postitems.getNumPieces index = launch.postitems.getNumPieces index)
    (taken : main.step crc32 launch event = some after) : Turn launch main after := by
  cases step_cases taken with
  | advance advances => exact advance_turn files advances
  | take stepped => exact .pool stepped (silent_plain rfl) (onward_refl ..)
  | throws thrown => exact terminated_turn
  | expire stepped => exact .pool stepped (silent_plain rfl) (onward_refl ..)
  | @proceed thread outcome wake nonces after proceeds => exact proceed_turn nonces.property proceeds
  | @write opened epochTime nzb position =>
    refine .moves (onward_beyond _ _ rfl (fun key _ _ => behind_past ?_ key)) main.msgidRetries nzb main.dump
    rw [position]
    rfl

theorem asks_trace {usenet after : Usenet FilepieceKey} {event : Usenet.Event FilepieceKey} (asks : Asks event)
    (taken : usenet.step event = some after) : after.trace = usenet.trace := by
  rcases asks with rfl | ⟨msgid, rfl⟩
  · cases taken
    rfl
  · obtain ⟨-, rfl⟩ := step_call taken
    rfl

theorem advance_trace (advances : Advances crc32 launch main after) : after.usenet.trace = main.usenet.trace := by
  cases advances with
  | posts position found inside served built taken =>
    obtain ⟨-, rfl⟩ := step_call taken
    rfl
  | calls before asks taken later unwritten => exact asks_trace asks taken
  | nextFile | postsNoMore | passes | joins | throws => rfl

/-- What is written in a step of the program, other than the last command of a
connection, is written by the function that the step has run. -/
def WrittenIn (main : Main) (event : Main.Event) : Entry FilepieceKey → Prop
  | .wrote connit buffers handler => handler = .quitWritten ∨ ∃ thread place outcome stage connection,
      event = .take thread place outcome ∧ main.usenet.pending[place]? = some (connit, .stage stage) ∧
        main.usenet.connections connit = some connection ∧
        .asyncWrite buffers handler ∈ (connection.run main.usenet.articles stage outcome).2
  | _ => True

theorem proceed_written {usenet after : Usenet FilepieceKey} {thread : Nat} {choice : Usenet.Choice FilepieceKey}
    (event : Main.Event) (taken : usenet.step (.proceed thread choice) = some after)
    (same : usenet.trace = main.usenet.trace) : PoolTrace.Adds (WrittenIn main event) main.usenet after := by
  obtain ⟨new, trace, written⟩ := PoolTrace.step_written taken
  refine ⟨new, same ▸ trace, fun entry member => ?_⟩
  have written := written entry member
  cases entry with
  | wrote connit buffers handler =>
    refine .inl (written.resolve_right ?_)
    rintro ⟨_, _, _, _, _, other, -⟩
    cases other
  | _ => trivial

theorem step_written {event : Main.Event} (taken : main.step crc32 launch event = some after) :
    PoolTrace.Adds (WrittenIn main event) main.usenet after.usenet := by
  cases step_cases taken with
  | advance advances => exact .still (advance_trace advances)
  | @take thread index outcome usenet stepped =>
    apply (PoolTrace.step_written stepped).weaken
    intro entry written
    cases entry with
    | wrote connit buffers handler =>
      refine written.imp_right ?_
      rintro ⟨_, _, _, stage, connection, same, rest⟩
      cases same
      exact ⟨thread, index, outcome, stage, connection, rfl, rest⟩
    | _ => trivial
  | throws thrown => exact .still rfl
  | expire stepped =>
    obtain ⟨-, -, rfl⟩ := step_expire stepped
    exact .still rfl
  | proceed proceeds =>
    cases proceeds with
    | exits head named often => exact .still rfl
    | requeues head named seldom requeued => exact proceed_written _ requeued rfl
    | finishes head stepped => exact proceed_written _ stepped rfl
    | plain unfailed unfinished stepped => exact proceed_written _ stepped rfl
  | write position => exact .still rfl

end Turn

/-- The articles that were made for a piece. -/
def made (main : Main) (key : FilepieceKey) : Nat := if (main.pieceSizes key).isSome then 1 else 0

/-- The message id of a piece, as `write_nzb` finds it. -/
def currentId (launch : Launch) (main : Main) (key : FilepieceKey) : Bytes :=
  Fileset.getUsenetMessageId ((main.msgidExceptions key).getD launch.runNonce) launch.cfg.msgiddomain
    key.fileIndex key.pieceIndex

structure Described (launch : Launch) (main : Main) (key : FilepieceKey) (size : Nat) : Prop where
  msgid : (main.usenet.articles key).header.msgid = currentId launch main key
  payload : (main.usenet.articles key).payload.flatten.length = size

theorem Described.frame {launch : Launch} {main after : Main} {key : FilepieceKey} {size : Nat}
    (described : Described launch main key size) (article : after.usenet.articles key = main.usenet.articles key)
    (exception : after.msgidExceptions key = main.msgidExceptions key) : Described launch after key size := by
  refine ⟨?_, ?_⟩
  · rw [article, currentId, exception]
    exact described.msgid
  · rw [article]
    exact described.payload

/-- The invariant of every run. -/
structure Sound (eraseRule : EraseRule) (launch : Launch) (main : Main) : Prop where
  runs : Runs eraseRule launch main.usenet
  files : ∀ index, main.postitems.getNumPieces index = launch.postitems.getNumPieces index
  piece : ∀ key, (main.pieceSizes key).isSome = true → Piece launch.postitems key
  behind : ∀ key, Piece launch.postitems key → Behind main.position key → (main.pieceSizes key).isSome = true
  ahead : ∀ fileIndex pieceIndex, main.position = .posting fileIndex pieceIndex →
    ∀ key, (main.pieceSizes key).isSome = true → Behind main.position key
  asked : ∀ key, called key main.usenet + passed key main.usenet = made main key + callbacks key false main.usenet
  described : ∀ key size, main.pieceSizes key = some size → Described launch main key size
  drawn : ∀ key nonce, main.msgidExceptions key = some nonce → RunNonce nonceLength nonce
  excepted : ∀ key, (main.msgidExceptions key).isSome = true → (main.pieceSizes key).isSome = true
  finished : main.position = .writing → ∀ key, callbacks key true main.usenet = made main key

section Sound

variable {eraseRule : EraseRule} {crc32 : Bytes → UInt32} {launch : Launch} {main after : Main}

/-- An article is in one place, from the call that its piece was made for to the callback
that it was posted. -/
theorem Sound.once (sound : Sound eraseRule launch main) (key : FilepieceKey) :
    called key main.usenet + queued key main.usenet + held key main.usenet + inHand key main.usenet +
      callbacks key true main.usenet = made main key := by
  have asked := sound.asked key
  have balance := sound.runs.balance key
  omega

theorem made_le (main : Main) (key : FilepieceKey) : made main key ≤ 1 := by
  rw [made]
  split <;> omega

theorem Sound.known (sound : Sound eraseRule launch main) {key : FilepieceKey} (some' : 0 < made main key) :
    ∃ size, main.pieceSizes key = some size ∧ Piece launch.postitems key := by
  rw [made] at some'
  split at some'
  next isSome =>
    obtain ⟨size, found⟩ := Option.isSome_iff_exists.mp isSome
    exact ⟨size, found, sound.piece key isSome⟩
  · omega

/-- The id of a piece leads back to it, whichever nonce it has by now. -/
theorem Sound.named (sound : Sound eraseRule launch main) {key : FilepieceKey} (some' : 0 < made main key) :
    Fileset.getKeyFromMessageId (main.usenet.articles key).header.msgid = some key := by
  obtain ⟨size, found, piece⟩ := sound.known some'
  have file := (piece_fits piece).1
  have within := Nat.lt_of_succ_lt (piece_fits piece).2
  rw [(sound.described key size found).msgid, currentId]
  cases exception : main.msgidExceptions key with
  | none => exact MessageIds.getKeyFromMessageId_getUsenetMessageId launch.drawn file within _
  | some nonce => exact MessageIds.getKeyFromMessageId_getUsenetMessageId (sound.drawn key nonce exception) file within _

/-- The task that runs a callback has the article in hand. -/
theorem headTask_weighs (weight : Task FilepieceKey → Nat) {usenet : Usenet FilepieceKey} {thread : Nat}
    {task : Task FilepieceKey} (head : headTask usenet thread = some task) : weight task ≤ onTasks weight usenet := by
  obtain ⟨⟨io, tasks⟩, found, first⟩ := Option.bind_eq_some_iff.mp head
  obtain ⟨rest, rfl⟩ := List.head?_eq_some_iff.mp first
  rw [onTasks_pop weight found]
  omega

/-- While the post-failed callback runs, its article is nowhere else. -/
theorem Sound.failing (sound : Sound eraseRule launch main) {thread : Nat} {msg : FilepieceKey}
    (head : headTask main.usenet thread = some (.slotPostFailed msg)) :
    0 < made main msg ∧ held msg main.usenet = 0 ∧ reports msg true main.usenet = 0 := by
  have once := sound.once msg
  have bound := made_le main msg
  have settled := sound.runs.settled msg true
  have atMost := concluding_inHand msg main.usenet
  have inHand : 1 ≤ concluding msg false main.usenet := by
    have weighs := headTask_weighs (concludingOf msg false) head
    simpa [concludingOf, concluding] using weighs
  omega

theorem pool_sound (sound : Sound eraseRule launch main) {event : Usenet.Event FilepieceKey}
    {usenet : Usenet FilepieceKey} {position : Position} (taken : main.usenet.step event = some usenet)
    (silent : Silent main.usenet event) (onward : Onward launch.postitems main.position position) :
    Sound eraseRule launch { main with usenet, position } := by
  have articles := step_articles sound.runs.owned taken silent.articles
  have same (key : FilepieceKey) (success : Bool) : callbacks key success usenet = callbacks key success main.usenet := by
    rw [step_callbacks key success taken, silent.concludes key success, Nat.add_zero]
  refine ⟨sound.runs.step silent.articles taken, sound.files, sound.piece, ?_, ?_, ?_, ?_, sound.drawn, sound.excepted, ?_⟩
  · exact fun key piece behind => sound.behind key piece (onward.behind key piece behind)
  · intro fileIndex pieceIndex posting key isSome
    obtain ⟨⟨earlier, before, from'⟩, ahead⟩ := onward.ahead fileIndex pieceIndex posting
    exact ahead key (sound.ahead earlier before from' key isSome)
  · intro key
    have moved := step_called key taken
    rw [silent.calls key] at moved
    rw [moved, same key false]
    exact sound.asked key
  · intro key size found
    exact (sound.described key size found).frame (congrFun articles key) rfl
  · intro writing key
    rw [same key true]
    exact sound.finished (onward.writing writing) key

theorem moves_sound (sound : Sound eraseRule launch main) {position : Position}
    (onward : Onward launch.postitems main.position position) (msgidRetries : FilepieceKey → Option Nat)
    (nzb : Option Bytes) (dump : Option (Bytes × Bytes)) :
    Sound eraseRule launch { main with position, msgidRetries, nzb, dump } := by
  refine ⟨sound.runs, sound.files, sound.piece, ?_, ?_, sound.asked, ?_, sound.drawn, sound.excepted, ?_⟩
  · exact fun key piece behind => sound.behind key piece (onward.behind key piece behind)
  · intro fileIndex pieceIndex posting key isSome
    obtain ⟨⟨earlier, before, from'⟩, ahead⟩ := onward.ahead fileIndex pieceIndex posting
    exact ahead key (sound.ahead earlier before from' key isSome)
  · exact fun key size found => (sound.described key size found).frame rfl rfl
  · exact fun writing key => sound.finished (onward.writing writing) key

/-- A pool with nothing pending and no thread at work has no busy connection. -/
theorem busy_of_joined {usenet : Usenet FilepieceKey} (owned : Owned [] usenet) (joined : usenet.Joined)
    (noTask : ∀ weight, onTasks weight usenet = 0) : usenet.busy = [] := by
  rw [List.eq_nil_iff_forall_not_mem]
  intro connit member
  have single := owned.single connit
  have some' := List.count_pos_iff.mpr member
  rw [owners, joined.delivered, noTask] at single
  simp only [total_nil, List.count_nil] at single
  omega

/-- When the pool was joined and nothing is queued, every article was posted. -/
theorem joins_sound (sound : Sound eraseRule launch main) (position : main.position = .joining)
    (between : main.between = true) (joined : main.usenet.Joined) (empty : main.usenet.queue = []) :
    Sound eraseRule launch { main with position := .writing } := by
  have resting : ∀ thread ∈ main.usenet.threads, thread.tasks = [] := by
    intro thread member
    cases worker : thread.io with
    | true => exact joined.idle thread member worker
    | false =>
      have client := List.all_eq_true.mp between thread member
      simpa [worker] using client
  have noTask (weight : Task FilepieceKey → Nat) : onTasks weight main.usenet = 0 := by
    rw [onTasks, total, List.sum_eq_zero]
    intro sum summed
    obtain ⟨thread, member, rfl⟩ := List.mem_map.mp summed
    rw [resting thread member]
    rfl
  refine ⟨sound.runs, sound.files, sound.piece, ?_, (fun _ _ same => by cases same), sound.asked, ?_, sound.drawn, sound.excepted, ?_⟩
  · intro key piece _
    exact sound.behind key piece (by rw [position]; trivial)
  · exact fun key size found => (sound.described key size found).frame rfl rfl
  · intro _ key
    have once := sound.once key
    have nothingCalled : called key main.usenet = 0 := noTask _
    have nothingInHand : inHand key main.usenet = 0 := noTask _
    have nothingQueued : queued key main.usenet = 0 := by rw [queued, empty]; rfl
    have nothingHeld : held key main.usenet = 0 := by
      rw [held, busy_of_joined sound.runs.owned joined noTask]
      rfl
    show callbacks key true main.usenet = made main key
    omega

theorem posts_sound (sound : Sound eraseRule launch main) {fileIndex pieceIndex : Nat} {chunk : Bytes}
    {article : Article} {postitems : Fileset} {usenet : Usenet FilepieceKey}
    (position : main.position = .posting fileIndex pieceIndex)
    (piece : Piece launch.postitems ⟨fileIndex, pieceIndex⟩) (payload : article.payload = [chunk])
    (msgid : article.header.msgid =
      Fileset.getUsenetMessageId launch.runNonce launch.cfg.msgiddomain fileIndex pieceIndex)
    (files : ∀ index, postitems.getNumPieces index = main.postitems.getNumPieces index)
    (taken : { main.usenet with
      articles := Function.update main.usenet.articles ⟨fileIndex, pieceIndex⟩ article }.step
        (.call 0 (.enqueuePost ⟨fileIndex, pieceIndex⟩ false)) = some usenet) :
    Sound eraseRule launch { main with
      usenet
      postitems
      position := .posting fileIndex (pieceIndex + 1)
      pieceSizes := Function.update main.pieceSizes ⟨fileIndex, pieceIndex⟩ (some chunk.length) } := by
  have fresh : main.pieceSizes ⟨fileIndex, pieceIndex⟩ = none := by
    by_contra some'
    have behind := sound.ahead fileIndex pieceIndex position ⟨fileIndex, pieceIndex⟩ (Option.isSome_iff_ne_none.mpr some')
    rw [position] at behind
    simp [Behind] at behind
  have original : main.msgidExceptions ⟨fileIndex, pieceIndex⟩ = none := by
    by_contra some'
    have found := sound.excepted _ (Option.isSome_iff_ne_none.mpr some')
    simp [fresh] at found
  have unmade : made main ⟨fileIndex, pieceIndex⟩ = 0 := by simp [made, fresh]
  have once := sound.once ⟨fileIndex, pieceIndex⟩
  have settled := sound.runs.settled ⟨fileIndex, pieceIndex⟩ true
  have atMost := concluding_inHand ⟨fileIndex, pieceIndex⟩ main.usenet
  have rewritten := sound.runs.rewrite (show held ⟨fileIndex, pieceIndex⟩ main.usenet = 0 by omega) (by omega) article
  have articles (key : FilepieceKey) :
      usenet.articles key = Function.update main.usenet.articles ⟨fileIndex, pieceIndex⟩ article key :=
    congrFun (step_articles rewritten.owned taken nofun) key
  refine ⟨rewritten.step (fun _ same => by cases same) taken, fun index => (files index).trans (sound.files index),
    ?_, ?_, ?_, ?_, ?_, sound.drawn, ?_, fun writing => by cases writing⟩
  · intro key isSome
    rcases sized_update.mp isSome with rfl | earlier
    · exact piece
    · exact sound.piece key earlier
  · intro key inside behind
    apply sized_update.mpr
    exact (behind_next.mp behind).imp_right (fun earlier => sound.behind key inside (by rw [position]; exact earlier))
  · intro _ _ _ key isSome
    apply behind_next.mpr
    refine (sized_update.mp isSome).imp_right (fun earlier => ?_)
    exact position ▸ sound.ahead fileIndex pieceIndex position key earlier
  · intro key
    have moved := step_called key taken
    have before := sound.asked key
    have unchanged : callbacks key false usenet = callbacks key false main.usenet := step_callbacks key false taken
    simp only [calls, asked, total_cons, total_nil, Request.command, queuedOf] at moved
    by_cases new : key = ⟨fileIndex, pieceIndex⟩
    · subst new
      rw [if_pos rfl] at moved
      simp only [made, Function.update_self, Option.isSome_some, ite_true]
      have sums := moved.trans (congrArg (· + (1 + 0)) before)
      omega
    · rw [if_neg (Ne.symm new)] at moved
      simp only [made, Function.update_of_ne new] at before ⊢
      rw [unchanged]
      exact moved.trans before
  · intro key size found
    by_cases new : key = ⟨fileIndex, pieceIndex⟩
    · subst new
      simp only [Function.update_self, Option.some.injEq] at found
      subst found
      refine ⟨?_, ?_⟩
      · simp only [articles, Function.update_self, currentId, original, Option.getD_none]
        exact msgid
      · simp [articles, payload]
    · have earlier : main.pieceSizes key = some size := (Function.update_of_ne new ..).symm.trans found
      exact (sound.described key size earlier).frame ((articles key).trans (Function.update_of_ne new ..)) rfl
  · exact fun key isSome => sized_update.mpr (.inr (sound.excepted key isSome))

theorem fails_sound (sound : Sound eraseRule launch main) {thread : Nat} {msg key : FilepieceKey} {nonces : RetryNonces}
    {outcome : Outcome} {wake : Option Nat} {usenet : Usenet FilepieceKey}
    (head : headTask main.usenet thread = some (.slotPostFailed msg)) (drawn : nonces.Drawn)
    (named : Fileset.getKeyFromMessageId (main.usenet.articles msg).header.msgid = some key)
    (taken : { main.usenet with
      articles := Function.update main.usenet.articles msg
        ((main.usenet.articles msg).retry launch.cfg key nonces) }.step
        (.proceed thread ⟨outcome, wake, [.enqueuePost msg true]⟩) = some usenet)
    (msgidRetries : FilepieceKey → Option Nat) :
    Sound eraseRule launch { main with
      usenet
      msgidRetries
      msgidExceptions := Function.update main.msgidExceptions key (some nonces.messageNonce) } := by
  obtain ⟨some', free, unposted⟩ := sound.failing head
  cases (sound.named some').symm.trans named
  obtain ⟨size, sized, -⟩ := sound.known some'
  have rewritten := sound.runs.rewrite free unposted ((main.usenet.articles msg).retry launch.cfg msg nonces)
  have articles := step_articles rewritten.owned taken (fun _ same => by cases same)
  have counts (other : FilepieceKey) :
      called other usenet + passed other usenet =
          called other main.usenet + passed other main.usenet + asked other [.enqueuePost msg true] ∧
        ∀ success, callbacks other success usenet =
          callbacks other success main.usenet + concludingOf other success (.slotPostFailed msg) :=
    proceed_counts other taken head
  refine ⟨rewritten.step (fun _ same => by cases same) taken, sound.files, sound.piece, sound.behind, sound.ahead, ?_, ?_,
    ?_, ?_, ?_⟩
  · intro other
    obtain ⟨moved, concludes⟩ := counts other
    have before := sound.asked other
    have failed := concludes false
    have sameWeight : asked other [.enqueuePost msg true] = concludingOf other false (.slotPostFailed msg) := by
      simp [asked, Request.command, queuedOf, concludingOf]
    show called other usenet + passed other usenet = made main other + callbacks other false usenet
    omega
  · intro other size found
    have before := sound.described other size found
    by_cases same : other = msg
    · subst same
      refine ⟨?_, ?_⟩
      · simp only [articles, Function.update_self, currentId, Option.getD_some]
        rfl
      · simp only [articles, Function.update_self]
        exact before.payload
    · exact before.frame ((congrFun articles other).trans (Function.update_of_ne same ..)) (Function.update_of_ne same ..)
  · intro other nonce found
    by_cases same : other = msg
    · subst same
      simp only [Function.update_self, Option.some.injEq] at found
      exact found ▸ drawn.messageNonce
    · exact sound.drawn other nonce (by simpa [Function.update_of_ne same] using found)
  · intro other found
    by_cases same : other = msg
    · subst same
      simp [sized]
    · exact sound.excepted other (by simpa [Function.update_of_ne same] using found)
  · intro writing other
    have finished := (counts other).2 true
    simp only [concludingOf, Bool.true_eq_false, and_false, ite_false, Nat.add_zero] at finished
    exact finished.trans (sound.finished writing other)

theorem finishes_sound (sound : Sound eraseRule launch main) {thread : Nat} {msg : FilepieceKey} {outcome : Outcome}
    {wake : Option Nat} {usenet : Usenet FilepieceKey}
    (head : headTask main.usenet thread = some (.slotFinishPost msg))
    (taken : main.usenet.step (.proceed thread ⟨outcome, wake, []⟩) = some usenet) :
    Sound eraseRule launch { main.postFinished msg with usenet } := by
  have articles := step_articles sound.runs.owned taken (fun _ same => by cases same)
  refine ⟨sound.runs.step (fun _ same => by cases same) taken, sound.files, sound.piece, sound.behind, sound.ahead, ?_, ?_,
    sound.drawn, sound.excepted, ?_⟩
  · intro other
    obtain ⟨moved, concludes⟩ := proceed_counts other taken head
    have before := sound.asked other
    have failed := concludes false
    have nothing : asked other ([] : List (Request FilepieceKey)) = 0 := rfl
    simp only [observed, nothing] at moved
    simp only [concludingOf, Bool.false_eq_true, and_false, ite_false] at failed
    show called other usenet + passed other usenet = made main other + callbacks other false usenet
    omega
  · intro other size found
    exact (sound.described other size found).frame (congrFun articles other) rfl
  · intro writing other
    have once := sound.once msg
    have finished := sound.finished writing msg
    have inHand : 1 ≤ inHand msg main.usenet := by
      have weighs := headTask_weighs (inHandOf msg) head
      simpa [inHandOf, inHand] using weighs
    omega

theorem turn_sound (sound : Sound eraseRule launch main) (turn : Turn launch main after) :
    Sound eraseRule launch after := by
  cases turn with
  | moves onward msgidRetries nzb dump => exact moves_sound sound onward msgidRetries nzb dump
  | pool taken silent onward => exact pool_sound sound taken silent onward
  | joins position between joined empty => exact joins_sound sound position between joined empty
  | posts position piece payload msgid files taken => exact posts_sound sound position piece payload msgid files taken
  | fails head drawn named taken msgidRetries => exact fails_sound sound head drawn named taken msgidRetries
  | finishes head taken => exact finishes_sound sound head taken

private theorem connected_runs (servers : List (ConnectionInfo × Int)) {usenet : Usenet FilepieceKey}
    (runs : Runs eraseRule launch usenet) :
    let connected := servers.foldl (fun usenet server => usenet.addConnections server.1 (server.2 % 2 ^ 64).toNat) usenet
    Runs eraseRule launch connected ∧ connected.trace = usenet.trace ∧ connected.threads = usenet.threads := by
  induction servers generalizing usenet with
  | nil => exact ⟨runs, rfl, rfl⟩
  | cons server servers ih =>
    have added : usenet.step (.addConnections server.1 (server.2 % 2 ^ 64).toNat) =
      some (usenet.addConnections server.1 (server.2 % 2 ^ 64).toNat) := rfl
    obtain ⟨rest, trace, threads⟩ := ih (runs.step (fun _ same => by cases same) added)
    exact ⟨rest, trace.trans (PoolTrace.addConnections_trace ..), threads.trans (addConnections_threads ..)⟩

theorem launch_runs (eraseRule : EraseRule) (launch : Launch) :
    Runs eraseRule launch (launch.usenet eraseRule) ∧ (launch.usenet eraseRule).trace = [] ∧
      ∀ thread ∈ (launch.usenet eraseRule).threads, thread.tasks = [] := by
  have made : Runs eraseRule launch (.make eraseRule launch.cfg.ioThreads launch.cfg.queueSize
      (fun _ => ⟨⟨[], [], [], [], []⟩, []⟩)) :=
    ⟨⟨_, .refl _⟩, nofun, fun _ _ _ ends => by cases List.suffix_nil.mp ends⟩
  have spawned := made.step (fun _ same => by cases same) (show Usenet.step _ .spawn = some _ from rfl)
  have configured := spawned.step (fun _ same => by cases same)
    (show Usenet.step _ (.setOperationTimeout launch.cfg.operationTimeout) = some _ from rfl)
  obtain ⟨connected, trace, threads⟩ := connected_runs launch.cfg.servers configured
  refine ⟨connected.step (fun _ same => by cases same) (show Usenet.step _ .start = some _ from rfl), trace, ?_⟩
  intro thread member
  rcases List.mem_append.mp member with client | worker
  · have first : thread ∈ [(⟨false, []⟩ : Thread FilepieceKey)] := (congrArg (thread ∈ ·) threads).mp client
    rw [List.mem_singleton.mp first]
  · rw [List.eq_of_mem_replicate worker]

theorem begin_sound (eraseRule : EraseRule) (launch : Launch) : Sound eraseRule launch (launch.begin eraseRule) := by
  obtain ⟨runs, trace, idle⟩ := launch_runs eraseRule launch
  refine ⟨runs, fun _ => rfl, nofun, ?_, nofun, ?_, nofun, nofun, nofun, fun writing => by cases writing⟩
  · intro key _ behind
    simp [Launch.begin, Behind] at behind
  · intro key
    have nothing : called key (launch.usenet eraseRule) = 0 := by
      rw [called, onTasks, total, List.sum_eq_zero]
      intro sum summed
      obtain ⟨thread, member, rfl⟩ := List.mem_map.mp summed
      rw [idle thread member]
      rfl
    show called key (launch.usenet eraseRule) + passed key (launch.usenet eraseRule) = 0 + callbacks key false _
    rw [nothing, passed, callbacks]
    simp [Launch.begin, trace]

end Sound

end Post2Usenet.Proofs.MainRun
