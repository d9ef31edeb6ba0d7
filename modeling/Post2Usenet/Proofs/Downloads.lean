import Post2Usenet.Lib.Simulation
import Post2Usenet.Proofs.HeaderFields
import Post2Usenet.Proofs.NzbDocument
import Post2Usenet.Proofs.PieceArticles

/-! From the files of a run to the files of a reader. Whoever has the NZB file and a server
that serves what was acknowledged gets every file back, whatever the network did meanwhile. -/

namespace Post2Usenet.Proofs.Downloads
open Connection Main MainRun Yenc Yencgenerator YencRoundTrip ArticleFraming HeaderFields Nntp Newsreader PieceArticles
  NzbDocument NzbSoundness PoolAttempts

theorem headerLines_fields {header : Header} (named : header.msgid ≠ []) :
    headerLines header = (fields header).map (fun field => headerLine field.1 field.2) := by
  simp [headerLines, fields, named, Function.comp_def]

/-- A server keeps the lines of an article under the id in its header. -/
theorem keptArticle_wire {cfg : ProgConfig} {name : Bytes} {article : Article} {body : List Bytes}
    (clean : ArticleFraming.Clean article.header) (composed : Composed cfg name article.header)
    (payload : article.payload.flatten = Lines.join cr lf body) (plain : ∀ line ∈ body, Plain line) :
    keptArticle article.wire = some (article.header.msgid, body ++ [[]]) := by
  obtain ⟨wire, allPlain⟩ := wire_lines clean payload plain
  have received := receiveArticle_join allPlain []
  rw [List.append_nil, ← wire] at received
  have parted := headerAndBody_append (fun member => (headerLines_plain clean [] member).2 rfl) (body ++ [[]])
  have read : (headerLines article.header).mapM splitField = some (fields article.header) := by
    rw [headerLines_fields composed.named]
    apply Collect.mapM_map
    intro field member
    apply splitField_headerLine
    simp only [fields, List.mem_append, List.mem_cons, List.not_mem_nil, or_false, List.mem_map] at member
    rcases member with (rfl | rfl | rfl | rfl) | ⟨element, inside, rfl⟩
    · exact (by decide : 58 ∉ ascii "From")
    · exact (by decide : 58 ∉ ascii "Newsgroups")
    · exact (by decide : 58 ∉ ascii "Subject")
    · exact (by decide : 58 ∉ ascii "Message-ID")
    · exact (composed.additional element inside).1.2
  have found : (fields article.header).lookup (ascii "Message-ID") = some article.header.msgid := rfl
  simp only [keptArticle, received, parted, read, found, Option.bind_eq_bind, Option.bind_some]
  rfl

theorem decodeLines_blank (lines : List Bytes) : decodeLines (lines ++ [[]]) = decodeLines lines := by
  induction lines with
  | nil => rfl
  | cons line lines ih => rw [List.cons_append, decodeLines, decodeLines, ih]

/-- An empty line after a part is no part of it. -/
theorem decode_blank {lines : List Bytes} (clean : ∀ line ∈ lines, cr ∉ line) :
    decode (Lines.join cr lf (lines ++ [[]])) = decode (Lines.join cr lf lines) := by
  have split : Lines.split cr lf (Lines.join cr lf lines) = (lines, []) := Lines.split_join_all clean
  have longer : Lines.split cr lf (Lines.join cr lf (lines ++ [[]])) = (lines ++ [[]], []) :=
    Lines.split_join_all (List.forall_mem_append.mpr ⟨clean, List.forall_mem_singleton.mpr List.not_mem_nil⟩)
  have keywords : (lines ++ [[]]).filter isKeywordLine = lines.filter isKeywordLine := by simp [isKeywordLine, ascii]
  have data : (lines ++ [[]]).filter (fun line => !isKeywordLine line) = lines.filter (fun line => !isKeywordLine line) ++ [[]] := by
    simp [isKeywordLine, ascii]
  simp only [decode, split, longer, keywords, data, decodeLines_blank]

variable {crc32 : Bytes → UInt32} {file : File} {articlesize pieceIndex : Nat}

theorem decode_pieceText (positive : 0 < articlesize) (name : Inline file.name)
    (inside : pieceIndex < Slices.count file.content.length articlesize) :
    decode (pieceText crc32 file articlesize pieceIndex) = some (restored crc32 file articlesize 128 pieceIndex) := by
  obtain ⟨start, number⟩ := part_fits positive inside
  have fits := file.size_fits
  have length := Slices.slice_length file.content articlesize pieceIndex
  rw [pieceText, decode_partText crc32 _ _ _ _ (show Inline (make file articlesize 128).filename from name), sizeT_eq number,
    sizeT_eq (by omega), sizeT_eq (by omega)]
  rfl

/-- The numbers of a part agree with its bytes. -/
theorem intact_restored {segment : Segment} (number : segment.number = pieceIndex + 1) :
    intact crc32 segment (restored crc32 file articlesize 128 pieceIndex) = true := by
  simp [intact, restored, number, Nat.add_right_comm]

theorem contiguous_restored (positive : 0 < articlesize) (left pieceIndex : Nat)
    (total : pieceIndex + left = Slices.count file.content.length articlesize) :
    contiguous (pieceIndex * articlesize + 1)
      ((List.range' pieceIndex left).map (fun index => (restored crc32 file articlesize 128 index).range)) = true := by
  induction left generalizing pieceIndex with
  | zero => rfl
  | succ left ih =>
    simp only [List.range'_succ, List.map_cons, contiguous, restored, decide_true, Bool.true_and]
    cases left with
    | zero => rfl
    | succ left =>
      have next : pieceIndex + 1 < Slices.count file.content.length articlesize := by omega
      have full := Slices.slice_full positive next
      have later := ih (pieceIndex + 1) (by omega)
      rw [Nat.add_mul, Nat.one_mul] at later
      rw [full]
      exact later

/-- All parts of a file make the file. -/
theorem assemble_restored (positive : 0 < articlesize) :
    assemble ((List.range (Slices.count file.content.length articlesize)).map (restored crc32 file articlesize 128)) =
      some (if file.content = [] then none else some file.name, file.content) := by
  let parts := (List.range (Slices.count file.content.length articlesize)).map (restored crc32 file articlesize 128)
  have content : parts.flatMap Decoded.content = file.content := by
    rw [List.flatMap_map]
    exact Slices.slices_all file.content positive
  have counted : parts.length = (make file articlesize 128).numParts := by simp [parts, numParts_make]
  have opened : ∀ part ∈ parts, part.opening.name = file.name ∧ part.opening.size = file.content.length ∧
      part.opening.total = parts.length := by
    intro part member
    obtain ⟨index, -, rfl⟩ := List.mem_map.mp member
    exact ⟨rfl, rfl, counted.symm⟩
  have tiles : contiguous 1 ((List.range (Slices.count file.content.length articlesize)).map
      (fun index => (restored crc32 file articlesize 128 index).range)) = true := by
    have all := @contiguous_restored crc32 file articlesize positive _ 0 (Nat.zero_add (Slices.count file.content.length articlesize))
    rwa [Nat.zero_mul, Nat.zero_add, ← List.range_eq_range'] at all
  have ranged : contiguous 1 (parts.map Decoded.range) = true := by
    rw [List.map_map]
    exact tiles
  show assemble parts = _
  cases shape : parts with
  | nil =>
    rw [shape] at content
    rw [← content]
    rfl
  | cons first rest =>
    obtain ⟨⟨name, size, total⟩, -⟩ := List.forall_mem_cons.mp (shape ▸ opened)
    have whole : complete first.opening parts = true := by
      simp only [complete, ranged, content, name, size, Bool.and_eq_true, List.all_eq_true, decide_eq_true_eq, and_true, and_assoc]
      exact opened
    have filled : file.content ≠ [] := by
      intro empty
      have none' : parts.length = 0 := by simp [counted, numParts_make, empty, Slices.count]
      rw [shape] at none'
      cases none'
    rw [assemble, ← shape, whole, if_pos rfl, content, name, if_neg filled]

theorem inline_clean {bytes : Bytes} (clean : NzbAttributes.Clean bytes) : Inline bytes := by
  obtain ⟨text, rfl, plain⟩ := clean
  have absent (byte : UInt8) (control : byte = cr ∨ byte = lf) : byte ∉ Xml.utf8 text := by
    intro member
    obtain ⟨c, inside, member⟩ := List.mem_flatMap.mp member
    have small : byte < 128 := by rcases control with rfl | rfl <;> decide
    obtain ⟨-, value⟩ := Xml.mem_utf8EncodeChar member small
    have white : Xml.isWhite c = true := by rcases control with rfl | rfl <;> simp [Xml.isWhite, value, cr, lf]
    rw [(plain c inside).2.2 white] at value
    rcases control with rfl | rfl
    · exact absurd value (by decide)
    · exact absurd value (by decide)
  exact ⟨absent cr (.inl rfl), absent lf (.inr rfl)⟩

theorem shownTexts_inline {launch : Launch} (texts : ShownTexts launch) :
    ∀ item ∈ launch.postitems.items, InlineTexts launch.cfg item.file.name := fun item member =>
  { from' := inline_clean texts.from'
    groups := fun group member => inline_clean (texts.groups group member).1
    subject := inline_clean texts.subject
    msgiddomain := inline_clean texts.msgiddomain.1
    name := inline_clean (texts.names item member) }

/-- The server serves the articles that it acknowledged, as it received them. -/
def ServesNews (news : Bytes → Option (List Bytes)) (usenet : Usenet FilepieceKey) : Prop :=
  ∀ connit msg earlier stream stage msgid body, (.posted connit msg .postSuccess :: earlier) <:+ usenet.trace →
    lastWritten connit earlier = some (stream, stage) → keptArticle stream = some (msgid, body) → news msgid = some body

section Run

variable {eraseRule : EraseRule} {launch : Launch} {main : Main} {news : Bytes → Option (List Bytes)}
  {texts : ∀ item ∈ launch.postitems.items, InlineTexts launch.cfg item.file.name} {key : FilepieceKey} {article : Article}

/-- What a server keeps of the article of a piece, and what a reader makes of it. -/
theorem stems_kept (texts : ∀ item ∈ launch.postitems.items, InlineTexts launch.cfg item.file.name) (positive : 0 < launch.postitems.articlesize)
    (piece : Piece launch.postitems key) (stems : Stems crc32 launch key article) :
    ∃ item body, launch.postitems.items[key.fileIndex]? = some item ∧ keptArticle article.wire = some (article.header.msgid, body) ∧
      decode (Lines.join cr lf body) = some (restored crc32 item.file launch.postitems.articlesize 128 key.pieceIndex) := by
  obtain ⟨⟨files, after, original, retries, built, same, drawn, rfl⟩, item, present, payload⟩ := stems
  have named : files.getFileName key.fileIndex = some item.file.name := by
    rw [same.getFileName, Fileset.getFileName, present]
    rfl
  have inline := texts item (List.mem_of_getElem? present)
  obtain ⟨clean, body, text, plain⟩ := makeArticle_clean crc32 built named inline launch.drawn
  obtain ⟨sentClean, kept⟩ := retried_clean clean inline.msgiddomain drawn
  have composed := retried_composed (makeArticle_composed crc32 built named launch.drawn) drawn
  rw [← kept] at text
  refine ⟨item, body ++ [[]], present, keptArticle_wire sentClean composed text plain, ?_⟩
  rw [decode_blank (fun line member => (plain line member).1.1), ← text, payload, List.flatten_singleton]
  refine decode_pieceText positive inline.name ?_
  obtain ⟨numPieces, counted, inside⟩ := piece
  rw [Fileset.getNumPieces, present, Option.map_some, numParts_postitem, numParts_make] at counted
  cases counted
  exact inside

theorem reported_success {usenet : Usenet FilepieceKey} (some' : 0 < PoolAccounting.reports key true usenet) :
    ∃ connit earlier, (.posted connit key .postSuccess :: earlier) <:+ usenet.trace := by
  obtain ⟨entry, member, counts⟩ := Tally.exists_weight some'
  obtain ⟨later, earlier, split⟩ := List.append_of_mem member
  unfold PoolAccounting.reportOf at counts
  split at counts
  next connit other result =>
    split at counts
    next success =>
      obtain ⟨rfl, success⟩ := success
      cases result with
      | postSuccess => exact ⟨connit, earlier, later, split.symm⟩
      | _ => cases success
    · omega
  · omega

theorem fetch_published (texts : ∀ item ∈ launch.postitems.items, InlineTexts launch.cfg item.file.name) (positive : 0 < launch.postitems.articlesize)
    (serves : ServesNews news main.usenet) (piece : Piece launch.postitems key)
    (stems : Stems crc32 launch key (main.usenet.articles key)) {segment : Segment}
    (number : segment.number = key.pieceIndex + 1) (published : Published main key segment) :
    ∃ item, launch.postitems.items[key.fileIndex]? = some item ∧
      fetch crc32 news segment = some (restored crc32 item.file launch.postitems.articlesize 128 key.pieceIndex) := by
  obtain ⟨item, body, present, kept, decoded⟩ := stems_kept texts positive piece stems
  obtain ⟨connit, earlier, ends⟩ := reported_success (by rw [published.once]; exact Nat.one_pos)
  have served := serves connit key earlier _ _ _ _ ends (published.sent connit earlier ends) kept
  rw [published.msgid] at served
  refine ⟨item, present, ?_⟩
  simp only [fetch, served, decoded, intact_restored number, Option.bind_eq_bind, Option.bind_some, if_true]

/-- The segments of a file that a reader found in the document give the file. -/
theorem file_restored (texts : ∀ item ∈ launch.postitems.items, InlineTexts launch.cfg item.file.name) (pieced : Pieced crc32 eraseRule launch main)
    (positive : 0 < launch.postitems.articlesize) (writing : main.position = .writing)
    (serves : ServesNews news main.usenet) {epochTime fileIndex : Nat} {found : NzbFile}
    {item : Postitem launch.postitems.articlesize} (present : launch.postitems.items[fileIndex]? = some item)
    (tells : Tells launch main epochTime fileIndex found) :
    (found.segments.mapM (fetch crc32 news)).bind assemble =
      some (if item.file.content = [] then none else some item.file.name, item.file.content) := by
  have counted : found.segments.length = Slices.count item.file.content.length launch.postitems.articlesize := by
    have complete := tells.complete
    rw [Fileset.getNumPieces, present, Option.map_some, numParts_postitem, numParts_make] at complete
    exact (Option.some.inj complete).symm
  have each : found.segments.mapM (fetch crc32 news) =
      some ((List.range (Slices.count item.file.content.length launch.postitems.articlesize)).map
        (restored crc32 item.file launch.postitems.articlesize 128)) := by
    rw [Collect.mapM_eq_some_iff, ← counted]
    apply List.ext_getElem (by simp)
    intro pieceIndex inside _
    have within : pieceIndex < found.segments.length := by simpa using inside
    obtain ⟨number, published⟩ := tells.segments pieceIndex _ (List.getElem?_eq_getElem within)
    have piece : Piece launch.postitems ⟨fileIndex, pieceIndex⟩ := ⟨_, tells.complete, within⟩
    have made := pieced.sound.behind _ piece (by rw [writing]; trivial)
    obtain ⟨other, again, fetched⟩ := fetch_published texts positive serves piece (pieced.stems _ made) number published
    cases present.symm.trans again
    simpa using fetched
  rw [each, Option.bind_some, assemble_restored positive]

theorem foldl_addFile (files : List File) (start : Fileset) :
    (files.foldl Fileset.addFile start).articlesize = start.articlesize ∧
      (files.foldl Fileset.addFile start).items.map Postitem.file = start.items.map Postitem.file ++ files ∧
      (Unread start → Unread (files.foldl Fileset.addFile start)) := by
  induction files generalizing start with
  | nil => exact ⟨rfl, by simp, id⟩
  | cons file files ih =>
    obtain ⟨size, items, unread⟩ := ih (start.addFile file)
    refine ⟨size, ?_, fun before => unread (unread_addFile before file)⟩
    rw [List.foldl_cons, items]
    simp [Fileset.addFile]

/-- The whole way: what the program was started with is what a reader downloads. -/
theorem download_restores {files : List File} {size : Nat} {events : List Main.Event} {nzb : Bytes} (positive : 0 < size)
    (given : launch.postitems = files.foldl Fileset.addFile ⟨size, []⟩) (texts : ShownTexts launch)
    (reached : Machine.run (Main.step crc32 launch) (launch.begin eraseRule) events = some main)
    (written : main.nzb = some nzb) (serves : ServesNews news main.usenet) :
    download crc32 news nzb =
      some (files.map (fun file => (if file.content = [] then none else some file.name, file.content))) := by
  obtain ⟨before, epochTime, ⟨earlier, begun⟩, writing, text, same, -⟩ := written_last reached written
  obtain ⟨sized, listed, unread⟩ := foldl_addFile files ⟨size, []⟩
  rw [← given] at sized listed unread
  have positive' : 0 < launch.postitems.articlesize := sized ▸ positive
  have pieced := run_pieced positive' (unread nofun) begun
  obtain ⟨found, read, counted, tells⟩ := document_read texts pieced.sound (run_sameFiles begun) writing text
  rw [download, read]
  show found.mapM _ = _
  rw [Collect.mapM_eq_some_iff]
  have listed' : launch.postitems.items.length = files.length := by simpa using congrArg List.length listed
  have length : found.length = files.length := counted.trans listed'
  apply List.ext_getElem (by simpa using length)
  intro fileIndex inside _
  have within : fileIndex < found.length := by simpa using inside
  have bound : fileIndex < launch.postitems.items.length := by omega
  have restored := file_restored (shownTexts_inline texts) pieced positive' writing (same ▸ serves) (List.getElem?_eq_getElem bound)
    (tells fileIndex _ (List.getElem?_eq_getElem within))
  have file : launch.postitems.items[fileIndex].file = files[fileIndex] := by
    have same := congrArg (fun files => files[fileIndex]?) listed
    simpa [bound, length ▸ within] using same
  simpa [file] using restored

end Run

/-- What a server keeps that loses nothing it acknowledged. -/
def archive : List (Entry FilepieceKey) → List (Bytes × List Bytes)
  | [] => []
  | .posted connit _ .postSuccess :: earlier =>
    ((lastWritten connit earlier).bind (fun last => keptArticle last.1)).toList ++ archive earlier
  | _ :: earlier => archive earlier

theorem mem_archive {trace earlier : List (Entry FilepieceKey)} {connit : ConnectionHandle} {msg : FilepieceKey} {stream : Bytes}
    {stage : Stage} {kept : Bytes × List Bytes} (ends : (.posted connit msg .postSuccess :: earlier) <:+ trace)
    (last : lastWritten connit earlier = some (stream, stage)) (keeps : keptArticle stream = some kept) :
    kept ∈ archive trace := by
  induction trace with
  | nil => cases List.suffix_nil.mp ends
  | cons entry trace ih =>
    rcases List.suffix_cons_iff.mp ends with same | later
    · cases same
      rw [archive, last, Option.bind_some, keeps]
      exact List.mem_append_left _ (List.mem_singleton.mpr rfl)
    · have member := ih later
      unfold archive
      split
      next same => cases same
      next same =>
        cases same
        exact List.mem_append_right _ member
      next same =>
        cases same
        exact member

theorem servesNews_archive {usenet : Usenet FilepieceKey} (distinct : ((archive usenet.trace).map Prod.fst).Nodup) :
    ServesNews (fun msgid => (archive usenet.trace).lookup msgid) usenet := by
  intro connit msg earlier stream stage msgid body ends last keeps
  have member := mem_archive ends last keeps
  obtain ⟨before, after, split⟩ := List.append_of_mem member
  rw [List.lookup_eq_some_iff]
  refine ⟨before, after, split, fun entry inside => ?_⟩
  rw [split, List.map_append, List.map_cons, List.nodup_middle, List.nodup_cons] at distinct
  simp only [bne_iff_ne]
  rintro rfl
  exact distinct.1 (List.mem_append_left _ (List.mem_map.mpr ⟨entry, inside, rfl⟩))

end Post2Usenet.Proofs.Downloads
