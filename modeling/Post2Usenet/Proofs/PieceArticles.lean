import Post2Usenet.Proofs.ArticleFraming
import Post2Usenet.Proofs.MainRun

/-! What the articles of a run are made of. The posting loop asks for the pieces of a file
in order and reads each once, so every article has its slice of the file, and a callback
that writes a new header leaves it there. -/

namespace Post2Usenet.Proofs.PieceArticles
open Connection PoolSteps PoolAttempts MainSteps MainRun Main Yencgenerator YencRoundTrip ArticleFraming

/-- Reading changes streams, and nothing else of a set of files. -/
structure SameFiles (first second : Fileset) : Prop where
  articlesize : first.articlesize = second.articlesize
  files : first.items.map Postitem.file = second.items.map Postitem.file

theorem numParts_postitem {articlesize : Nat} (item : Postitem articlesize) :
    item.handle.numParts = (make item.file articlesize 128).numParts := by
  rw [← item.made]
  rfl

section SameFiles

variable {first second : Fileset} (same : SameFiles first second)

include same

theorem SameFiles.item {index : Nat} {item : Postitem first.articlesize} (found : first.items[index]? = some item) :
    ∃ other, second.items[index]? = some other ∧ other.file = item.file := by
  have file := congrArg (fun files => files[index]?) same.files
  simp only [List.getElem?_map, found, Option.map_some] at file
  exact Option.map_eq_some_iff.mp file.symm

theorem SameFiles.getNumFiles : first.getNumFiles = second.getNumFiles := by
  simpa [Fileset.getNumFiles] using congrArg List.length same.files

theorem SameFiles.getFileName (index : Nat) : first.getFileName index = second.getFileName index := by
  have named := congrArg (fun files => (files[index]?).map File.name) same.files
  simpa [Fileset.getFileName, Function.comp_def] using named

theorem SameFiles.getNumPieces (index : Nat) : first.getNumPieces index = second.getNumPieces index := by
  have counted := congrArg (fun files => (files[index]?).map (fun file => (make file first.articlesize 128).numParts)) same.files
  simp only [List.getElem?_map, Option.map_map, Function.comp_def] at counted
  simp only [Fileset.getNumPieces, numParts_postitem]
  exact counted.trans (by simp only [same.articlesize])

theorem SameFiles.getUsenetSubject (subject : Bytes) (fileIndex pieceIndex : Nat) :
    first.getUsenetSubject subject fileIndex pieceIndex = second.getUsenetSubject subject fileIndex pieceIndex := by
  simp only [Fileset.getUsenetSubject, same.getFileName, same.getNumPieces, same.getNumFiles]

end SameFiles

theorem sameFiles_refl (files : Fileset) : SameFiles files files := ⟨rfl, rfl⟩

variable {crc32 : Bytes → UInt32} {eraseRule : EraseRule} {launch : Launch} {main after : Main}

theorem sameFiles_getChunk {files later : Fileset} {fileIndex pieceIndex : Nat} {chunk : Bytes}
    (taken : files.getChunk crc32 fileIndex pieceIndex = some (chunk, later)) : SameFiles later files := by
  obtain ⟨item, found, -, rfl⟩ := Fileset.getChunk_some crc32 taken
  obtain ⟨inside, same⟩ := List.getElem?_eq_some_iff.mp found
  have bound : fileIndex < (files.items.map Postitem.file).length := by simpa using inside
  have file : (files.items.map Postitem.file)[fileIndex] = item.file := by simp [same]
  refine ⟨rfl, ?_⟩
  rw [List.map_set]
  show (files.items.map Postitem.file).set fileIndex item.file = _
  rw [← file, List.set_getElem_self]

theorem SameFiles.trans {first second third : Fileset} (same : SameFiles first second) (other : SameFiles second third) :
    SameFiles first third := ⟨same.articlesize.trans other.articlesize, same.files.trans other.files⟩

theorem step_sameFiles (same : SameFiles main.postitems launch.postitems) {event : Main.Event}
    (taken : main.step crc32 launch event = some after) : SameFiles after.postitems launch.postitems := by
  cases step_cases taken with
  | advance advances =>
    cases advances with
    | posts position found inside served built =>
      obtain ⟨_, _, _, -, -, -, -, read⟩ := makeArticle_some crc32 built
      exact (sameFiles_getChunk read).trans same
    | _ => exact same
  | proceed proceeds =>
    cases proceeds with
    | _ => exact same
  | _ => exact same

theorem run_sameFiles {events : List Main.Event}
    (reached : Machine.run (Main.step crc32 launch) (launch.begin eraseRule) events = some main) :
    SameFiles main.postitems launch.postitems :=
  Machine.Reachable.invariant (fun main => SameFiles main.postitems launch.postitems) ⟨events, reached⟩
    (sameFiles_refl _) (fun _ _ _ same taken => step_sameFiles same taken)

/-- The streams of the files that are still to be read are good. -/
structure Streams (launch : Launch) (main : Main) : Prop where
  same : SameFiles main.postitems launch.postitems
  content : ∀ item ∈ main.postitems.items, item.handle.file.content = item.file.content
  good : ∀ fileIndex pieceIndex, main.position = .posting fileIndex pieceIndex →
    ∀ index item, main.postitems.items[index]? = some item →
      (fileIndex < index ∨ fileIndex = index ∧ pieceIndex < item.handle.numParts) → Good item.handle

/-- A position of the loops, or none. -/
theorem Streams.frame (streams : Streams launch main) (postitems : after.postitems = main.postitems)
    (position : after.position = main.position ∨ ∀ fileIndex pieceIndex, after.position ≠ .posting fileIndex pieceIndex) :
    Streams launch after := by
  rcases main with ⟨usenet, files, before⟩
  rcases after with ⟨later, same, position'⟩
  cases postitems
  refine ⟨streams.same, streams.content, ?_⟩
  intro fileIndex pieceIndex posting
  rcases position with kept | other
  · exact streams.good fileIndex pieceIndex (kept.symm.trans posting)
  · exact absurd posting (other fileIndex pieceIndex)

/-- The text of a piece of a file that nothing was lost from. -/
def pieceText (crc32 : Bytes → UInt32) (file : File) (articlesize pieceIndex : Nat) : Bytes :=
  partText crc32 (make file articlesize 128) pieceIndex (pieceIndex * articlesize)
    (Slices.slice file.content articlesize pieceIndex)

theorem serves_postitem {articlesize : Nat} (item : Postitem articlesize)
    (content : item.handle.file.content = item.file.content) : Serves item.file articlesize 128 item.handle :=
  ⟨by rw [← item.made], content⟩

/-- The piece at the position of the loop is served, and the streams are as good as before. -/
theorem posts_streams (streams : Streams launch main) (positive : 0 < launch.postitems.articlesize)
    {fileIndex pieceIndex numPieces : Nat} {chunk : Bytes} {postitems : Fileset}
    (position : main.position = .posting fileIndex pieceIndex)
    (found : main.postitems.getNumPieces fileIndex = some numPieces) (inside : pieceIndex < numPieces)
    (served : main.postitems.getChunk crc32 fileIndex pieceIndex = some (chunk, postitems)) :
    (∃ item, launch.postitems.items[fileIndex]? = some item ∧
      chunk = pieceText crc32 item.file launch.postitems.articlesize pieceIndex) ∧
      Streams launch { main with postitems, position := .posting fileIndex (pieceIndex + 1) } := by
  have sameAfter := (sameFiles_getChunk served).trans streams.same
  obtain ⟨item, here, part, rfl⟩ := Fileset.getChunk_some crc32 served
  have counted : item.handle.numParts = numPieces := by
    simpa [Fileset.getNumPieces, here] using found
  have serves := serves_postitem item (streams.content item (List.mem_of_getElem? here))
  have good := streams.good fileIndex pieceIndex position fileIndex item here (.inr ⟨rfl, counted.symm ▸ inside⟩)
  have size := streams.same.articlesize
  have parts : item.handle.numParts = Slices.count item.file.content.length main.postitems.articlesize := by
    rw [numParts_postitem, numParts_make]
  have reserved : main.postitems.articlesize ≤ largestArticle := by
    rw [← show item.handle.articlesize = main.postitems.articlesize by rw [serves.settings]; rfl]
    exact (getPart_text crc32 part).1
  obtain ⟨text, laterServes, laterGood⟩ := getPart_serves crc32 serves good (size ▸ positive) reserved
    (show pieceIndex < Slices.count item.file.content.length main.postitems.articlesize by omega)
  refine ⟨?_, sameAfter, ?_, ?_⟩
  · obtain ⟨other, there, file⟩ := streams.same.item here
    rw [text, Option.some_inj] at part
    exact ⟨other, there, by simp only [← part, file, pieceText, size]⟩
  · intro changed member
    rcases List.mem_or_eq_of_mem_set member with earlier | rfl
    · exact streams.content changed earlier
    · exact laterServes.content
  · rintro _ _ same index changed present unread
    cases same
    rcases Nat.lt_or_ge fileIndex index with later | within
    · have kept : main.postitems.items[index]? = some changed := by
        rwa [List.getElem?_set_ne (by omega)] at present
      exact streams.good fileIndex pieceIndex position index changed kept (.inl later)
    · obtain ⟨rfl, more⟩ : fileIndex = index ∧ pieceIndex + 1 < changed.handle.numParts := by omega
      obtain ⟨bound, -⟩ := List.getElem?_eq_some_iff.mp here
      rw [List.getElem?_set_self bound] at present
      cases present
      exact laterGood (Nat.lt_of_lt_of_eq more parts)

/-- How the article of a piece came to be. -/
structure Stems (crc32 : Bytes → UInt32) (launch : Launch) (key : FilepieceKey) (article : Article) : Prop where
  built : ∃ postitems after original retries,
    makeArticle crc32 launch.cfg launch.runNonce postitems key.fileIndex key.pieceIndex = some (original, after) ∧
      SameFiles postitems launch.postitems ∧ (∀ retry ∈ retries, retry.2.Drawn) ∧
      article = retried launch.cfg original retries
  payload : ∃ item, launch.postitems.items[key.fileIndex]? = some item ∧
    article.payload = [pieceText crc32 item.file launch.postitems.articlesize key.pieceIndex]

theorem Stems.retry {key named : FilepieceKey} {article : Article} (stems : Stems crc32 launch key article)
    {nonces : RetryNonces} (drawn : nonces.Drawn) : Stems crc32 launch key (article.retry launch.cfg named nonces) := by
  obtain ⟨⟨files, after, original, retries, built, same, each, rfl⟩, payload⟩ := stems
  refine ⟨⟨files, after, original, retries ++ [(named, nonces)], built, same, ?_, ?_⟩, payload⟩
  · exact List.forall_mem_append.mpr ⟨each, List.forall_mem_singleton.mpr drawn⟩
  · rw [retried, retried, List.foldl_append]
    rfl

/-- The invariant of the runs that start with unread files. -/
structure Pieced (crc32 : Bytes → UInt32) (eraseRule : EraseRule) (launch : Launch) (main : Main) : Prop where
  sound : Sound eraseRule launch main
  streams : Streams launch main
  stems : ∀ key, (main.pieceSizes key).isSome = true → Stems crc32 launch key (main.usenet.articles key)

theorem posts_stems (pieced : Pieced crc32 eraseRule launch main) (positive : 0 < launch.postitems.articlesize)
    {fileIndex pieceIndex numPieces : Nat} {chunk : Bytes} {chunked postitems : Fileset} {article : Article}
    (position : main.position = .posting fileIndex pieceIndex)
    (found : main.postitems.getNumPieces fileIndex = some numPieces) (inside : pieceIndex < numPieces)
    (served : main.postitems.getChunk crc32 fileIndex pieceIndex = some (chunk, chunked))
    (built : makeArticle crc32 launch.cfg launch.runNonce main.postitems fileIndex pieceIndex = some (article, postitems)) :
    Stems crc32 launch ⟨fileIndex, pieceIndex⟩ article := by
  obtain ⟨⟨item, there, text⟩, -⟩ := posts_streams pieced.streams positive position found inside served
  obtain ⟨other, subject, made, here, -, -, article', chunk'⟩ := makeArticle_some crc32 built
  cases served.symm.trans chunk'
  refine ⟨⟨main.postitems, _, article, [], built, pieced.streams.same, List.forall_mem_nil _, rfl⟩,
    item, there, ?_⟩
  rw [article', ← text]

private theorem past_unposting {position : Position} (later : past position = true) (fileIndex pieceIndex : Nat) :
    position ≠ .posting fileIndex pieceIndex := by
  rintro rfl
  cases later

theorem advance_pieced (pieced : Pieced crc32 eraseRule launch main) (positive : 0 < launch.postitems.articlesize)
    (sound : Sound eraseRule launch after) (advances : Advances crc32 launch main after) :
    Pieced crc32 eraseRule launch after := by
  cases advances with
  | @posts fileIndex pieceIndex numPieces chunk chunked postitems article usenet position found inside served built taken =>
    have articles : usenet.articles = Function.update main.usenet.articles ⟨fileIndex, pieceIndex⟩ article := by
      obtain ⟨-, rfl⟩ := step_call taken
      rfl
    obtain ⟨item, subject, made, -, -, -, -, chunk'⟩ := makeArticle_some crc32 built
    have stems := posts_stems pieced positive position found inside served built
    cases served.symm.trans chunk'
    obtain ⟨-, streams⟩ := posts_streams pieced.streams positive position found inside served
    refine ⟨sound, ⟨streams.same, streams.content, streams.good⟩, ?_⟩
    intro key isSome
    by_cases new : key = ⟨fileIndex, pieceIndex⟩
    · subst new
      simp only [articles, Function.update_self]
      exact stems
    · simp only [articles, Function.update_of_ne new] at isSome ⊢
      exact pieced.stems key isSome
  | nextFile position found outside =>
    refine ⟨sound, ⟨pieced.streams.same, pieced.streams.content, ?_⟩, pieced.stems⟩
    rintro _ _ same index item present unread
    cases same
    exact pieced.streams.good _ _ position index item present (.inl (by omega))
  | postsNoMore position last later unwritten =>
    exact ⟨sound, pieced.streams.frame rfl (.inr (past_unposting later)), pieced.stems⟩
  | calls before asks taken later unwritten =>
    have articles := step_articles pieced.sound.runs.owned taken (silent_asks asks).articles
    refine ⟨sound, pieced.streams.frame rfl (.inr (past_unposting later)), ?_⟩
    simp only [articles]
    exact pieced.stems
  | passes before later unwritten =>
    exact ⟨sound, pieced.streams.frame rfl (.inr (past_unposting later)), pieced.stems⟩
  | throws position unserved =>
    exact ⟨sound, pieced.streams.frame rfl (.inr nofun), pieced.stems⟩
  | joins position between joined empty =>
    exact ⟨sound, pieced.streams.frame rfl (.inr nofun), pieced.stems⟩

theorem proceed_pieced (pieced : Pieced crc32 eraseRule launch main) (sound : Sound eraseRule launch after) {thread : Nat}
    {outcome : Outcome} {wake : Option Nat} {nonces : RetryNonces} (drawn : nonces.Drawn)
    (proceeds : Proceeds launch main thread outcome wake nonces after) : Pieced crc32 eraseRule launch after := by
  cases proceeds with
  | exits head named often => exact ⟨sound, pieced.streams.frame rfl (.inr nofun), pieced.stems⟩
  | @requeues msg key usenet head named seldom taken =>
    obtain ⟨some', free, unposted⟩ := pieced.sound.failing head
    have rewritten := pieced.sound.runs.rewrite free unposted ((main.usenet.articles msg).retry launch.cfg key nonces)
    have articles := step_articles rewritten.owned taken nofun
    refine ⟨sound, pieced.streams.frame rfl (.inl rfl), ?_⟩
    intro other isSome
    by_cases same : other = msg
    · subst same
      simp only [articles, Function.update_self]
      exact (pieced.stems other isSome).retry drawn
    · simp only [articles, Function.update_of_ne same]
      exact pieced.stems other isSome
  | finishes head taken =>
    have articles := step_articles pieced.sound.runs.owned taken nofun
    refine ⟨sound, pieced.streams.frame rfl (.inl rfl), ?_⟩
    simp only [articles]
    exact pieced.stems
  | plain unfailed unfinished taken =>
    have articles := step_articles pieced.sound.runs.owned taken nofun
    refine ⟨sound, pieced.streams.frame rfl (.inl rfl), ?_⟩
    simp only [articles]
    exact pieced.stems

theorem step_pieced (pieced : Pieced crc32 eraseRule launch main) (positive : 0 < launch.postitems.articlesize)
    {event : Main.Event} (taken : main.step crc32 launch event = some after) : Pieced crc32 eraseRule launch after := by
  have sound := turn_sound pieced.sound (step_turn pieced.sound.files taken)
  cases step_cases taken with
  | advance advances => exact advance_pieced pieced positive sound advances
  | take stepped =>
    have articles := step_articles pieced.sound.runs.owned stepped nofun
    refine ⟨sound, pieced.streams.frame rfl (.inl rfl), ?_⟩
    simp only [articles]
    exact pieced.stems
  | expire stepped =>
    have articles := step_articles pieced.sound.runs.owned stepped nofun
    refine ⟨sound, pieced.streams.frame rfl (.inl rfl), ?_⟩
    simp only [articles]
    exact pieced.stems
  | @proceed thread outcome wake nonces after proceeds => exact proceed_pieced pieced sound nonces.property proceeds
  | throws | write => exact ⟨sound, pieced.streams.frame rfl (.inr nofun), pieced.stems⟩

/-- No file of the run was read before. -/
def Unread (files : Fileset) : Prop := ∀ item ∈ files.items, item.handle.file = .opened item.file.content

theorem unread_addFile {files : Fileset} (unread : Unread files) (file : File) : Unread (files.addFile file) := by
  intro item member
  rcases List.mem_append.mp member with earlier | last
  · exact unread item earlier
  · rw [List.mem_singleton.mp last]
    rfl

theorem run_pieced {events : List Main.Event} (positive : 0 < launch.postitems.articlesize) (unread : Unread launch.postitems)
    (reached : Machine.run (Main.step crc32 launch) (launch.begin eraseRule) events = some main) :
    Pieced crc32 eraseRule launch main := by
  apply Machine.Reachable.invariant (Pieced crc32 eraseRule launch) ⟨events, reached⟩
  · refine ⟨begin_sound eraseRule launch, ⟨sameFiles_refl _, ?_, ?_⟩, nofun⟩
    · intro item member
      rw [unread item member]
      rfl
    · intro _ _ _ index item present _
      rw [Good, unread item (List.mem_of_getElem? present)]
      exact ⟨rfl, rfl⟩
  · exact fun before event after pieced taken => step_pieced pieced positive taken

end Post2Usenet.Proofs.PieceArticles
