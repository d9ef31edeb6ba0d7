import Post2Usenet.Newsreader
import Post2Usenet.Proofs.NzbAttributes
import Post2Usenet.Proofs.NzbSoundness
import Post2Usenet.Proofs.PieceArticles

/-! The NZB file as a document. A reader of XML finds in it the files of the run, each
with its groups and with the segments that the program has for it. -/

namespace Post2Usenet.Proofs.NzbDocument
open Main Xml Newsreader NzbAttributes MainSteps MainRun PieceArticles NzbSoundness

theorem value_clean {bytes : Bytes} (clean : Clean bytes) : value (ghettoXmlEscape bytes) = some bytes :=
  value_of_reads ((reads_escape_iff bytes).mpr clean)

theorem bare_escape (bytes : Bytes) : 34 ∉ ghettoXmlEscape bytes ∧ 60 ∉ ghettoXmlEscape bytes := by
  refine ⟨quote_escaped bytes, ?_⟩
  rw [ghettoXmlEscape_eq]
  intro member
  obtain ⟨byte, -, member⟩ := List.mem_flatMap.mp member
  unfold escapeByte at member
  split_ifs at member with quote apostrophe less
  · exact absurd member (by decide)
  · exact absurd member (by decide)
  · exact absurd member (by decide)
  · exact absurd member (by decide)
  · exact less (List.mem_singleton.mp member).symm

theorem clean_decimal (n : Nat) : Clean (decimal n) := by
  rw [← List.append_nil (decimal n)]
  exact (clean_plain_append (MessageIds.plain_decimal n) []).mpr clean_nil

theorem bare_decimal (n : Nat) : 34 ∉ decimal n ∧ 60 ∉ decimal n :=
  ⟨MessageIds.not_mem_decimal rfl n, MessageIds.not_mem_decimal rfl n⟩

theorem value_decimal (n : Nat) : value (decimal n) = some (decimal n) := by
  have unescaped : ghettoXmlEscape (decimal n) = decimal n := by
    have each : ∀ byte ∈ decimal n, escapeByte byte = [byte] := by
      intro byte member
      have bounds := MessageIds.digit_bounds (Numeral.print_digits (by decide) (by decide) n byte member)
      have others : byte ≠ 34 ∧ byte ≠ 39 ∧ byte ≠ 60 ∧ byte ≠ 62 := by
        refine ⟨?_, ?_, ?_, ?_⟩
        all_goals
          rintro rfl
          exact absurd bounds (by decide)
      simp [escapeByte, others]
    rw [ghettoXmlEscape_eq, List.flatMap_congr each, List.flatMap_singleton']
  rw [← value_clean (clean_decimal n), unescaped]

theorem characterData_clean {bytes : Bytes} (clean : Clean bytes) : characterData bytes = some bytes := by
  obtain ⟨text, rfl, plain⟩ := clean
  apply characterData_plain
  intro c member
  obtain ⟨valid, ampersand, white⟩ := plain c member
  refine ⟨valid, ampersand, fun carriageReturn => ?_⟩
  have space := white (by simp [isWhite, carriageReturn])
  rw [space] at carriageReturn
  exact absurd carriageReturn (by decide)

theorem readNumber_decimal (n : Nat) : readNumber (decimal n) = some n := by
  have back : Numeral.read 10 (decimal n) = some (n, []) := by
    simpa [decimal] using Numeral.read_print (by decide : 1 < 10) (by decide) n [] (by simp)
  rw [readNumber, back]

def groupElement (group : Bytes) : Element := .mk (ascii "group") [] group []

def segmentElement (segment : Segment) : Element :=
  .mk (ascii "segment") [(ascii "bytes", decimal segment.bytes), (ascii "number", decimal segment.number)] segment.msgid []

def fileTree (file : NzbFile) : Element :=
  .mk (ascii "file") [(ascii "poster", file.poster), (ascii "date", decimal file.date), (ascii "subject", file.subject)]
    [10] [.mk (ascii "groups") [] [10] (file.groups.map groupElement),
      .mk (ascii "segments") [] [10] (file.segments.map segmentElement)]

theorem readGroup_groupElement (group : Bytes) : readGroup (groupElement group) = some group := by simp [readGroup, groupElement]

theorem readSegment_segmentElement (segment : Segment) : readSegment (segmentElement segment) = some segment := by
  have differ : (ascii "number" == ascii "bytes") = false := by decide
  simp [readSegment, segmentElement, List.lookup_cons, differ, readNumber_decimal]

theorem readFile_fileTree (file : NzbFile) : readFile (fileTree file) = some file := by
  have date : (ascii "date" == ascii "poster") = false := by decide
  have subject : (ascii "subject" == ascii "poster") = false ∧ (ascii "subject" == ascii "date") = false := by decide
  have groups := Collect.mapM_map (fun group (_ : group ∈ file.groups) => readGroup_groupElement group)
  have segments := Collect.mapM_map (fun segment (_ : segment ∈ file.segments) => readSegment_segmentElement segment)
  simp [readFile, fileTree, List.lookup_cons, date, subject, readNumber_decimal, groups, segments]

/-- What stands between tags is read as it is written. -/
def Shown (data : Bytes) : Prop := Clean data ∧ 60 ∉ data

structure Printable (file : NzbFile) : Prop where
  poster : Clean file.poster
  subject : Clean file.subject
  groups : ∀ group ∈ file.groups, Shown group
  segments : ∀ segment ∈ file.segments, Shown segment.msgid

private theorem name_literal {text : Bytes} (some' : text.isEmpty = false)
    (letters : text.all (fun byte => 97 ≤ byte ∧ byte ≤ 122) = true) : Name text :=
  ⟨by simpa using some', fun byte member => of_decide_eq_true (List.all_eq_true.mp letters byte member)⟩

theorem written_group {group : Bytes} (shown : Shown group) :
    Written (ascii "<group>" ++ group ++ ascii "</group>\n") [groupElement group] := by
  have element := written_nil.element (ascii "group") [] (name_literal rfl rfl)
    (List.forall_mem_nil _) (List.forall_mem_nil _) rfl shown.2 (characterData_clean shown.1) (.inl rfl)
  simpa [groupElement, ascii, openTag] using element

theorem written_segment {segment : Segment} (shown : Shown segment.msgid) : Written (segmentLine segment) [segmentElement segment] := by
  let entries := [(ascii "bytes", decimal segment.bytes), (ascii "number", decimal segment.number)]
  have keys : ∀ entry ∈ entries, Name entry.1 :=
    List.forall_mem_cons.mpr ⟨name_literal rfl rfl, List.forall_mem_singleton.mpr (name_literal rfl rfl)⟩
  have bare : ∀ entry ∈ entries, 34 ∉ entry.2 ∧ 60 ∉ entry.2 :=
    List.forall_mem_cons.mpr ⟨bare_decimal _, List.forall_mem_singleton.mpr (bare_decimal _)⟩
  have means : entries.mapM entryValue = some entries := by simp [entries, entryValue, value_decimal]
  have element := written_nil.element (ascii "segment") entries (name_literal rfl rfl) keys bare means
    shown.2 (characterData_clean shown.1) (.inl rfl)
  simpa [segmentLine, segmentElement, entries, ascii, openTag, entryText] using element

/-- The text of a file, apart from where the program keeps it. -/
def fileText (file : NzbFile) : Bytes :=
  fileOpening file.poster file.groups file.date file.subject ++ file.segments.flatMap segmentLine ++ fileClosing

theorem written_file {file : NzbFile} (printable : Printable file) : Written (fileText file) [fileTree file] := by
  have blank : characterData [10] = some [10] := by decide
  have groups := (Written.flatMap (fun group member => written_group (printable.groups group member))).element
    (ascii "groups") [] (name_literal rfl rfl) (List.forall_mem_nil _) (List.forall_mem_nil _) rfl
    (by decide) blank (.inr (by decide))
  have segments := (Written.flatMap (fun segment member => written_segment (printable.segments segment member))).element
    (ascii "segments") [] (name_literal rfl rfl) (List.forall_mem_nil _) (List.forall_mem_nil _) rfl
    (by decide) blank (.inr (by decide))
  let entries := [(ascii "poster", ghettoXmlEscape file.poster), (ascii "date", decimal file.date),
    (ascii "subject", ghettoXmlEscape file.subject)]
  have keys : ∀ entry ∈ entries, Name entry.1 :=
    List.forall_mem_cons.mpr ⟨name_literal rfl rfl, List.forall_mem_cons.mpr ⟨name_literal rfl rfl,
      List.forall_mem_singleton.mpr (name_literal rfl rfl)⟩⟩
  have bare : ∀ entry ∈ entries, 34 ∉ entry.2 ∧ 60 ∉ entry.2 :=
    List.forall_mem_cons.mpr ⟨bare_escape _, List.forall_mem_cons.mpr ⟨bare_decimal _,
      List.forall_mem_singleton.mpr (bare_escape _)⟩⟩
  have means : entries.mapM entryValue =
      some [(ascii "poster", file.poster), (ascii "date", decimal file.date), (ascii "subject", file.subject)] := by
    simp [entries, entryValue, value_clean printable.poster, value_decimal, value_clean printable.subject]
  have element := (groups.append segments).element (ascii "file") entries (name_literal rfl rfl) keys bare means
    (by decide) blank (.inr (by decide))
  simpa [fileText, fileOpening, fileClosing, fileTree, entries, ascii, openTag, entryText] using element

section Run

variable (launch : Launch) (main : Main)

/-- What the program has to say of a file. -/
def described (epochTime fileIndex : Nat) : Option NzbFile := do
  let subject ← main.postitems.getUsenetSubject launch.cfg.subject fileIndex 0
  let segments ← main.segments launch fileIndex
  return { poster := launch.cfg.from', date := epochTime, subject, groups := launch.cfg.groups, segments }

theorem fileElement_eq (epochTime fileIndex : Nat) :
    main.fileElement launch epochTime fileIndex = (described launch main epochTime fileIndex).map fileText := by
  unfold fileElement described
  cases main.postitems.getUsenetSubject launch.cfg.subject fileIndex 0 with
  | none => rfl
  | some subject =>
    cases main.segments launch fileIndex with
    | none => rfl
    | some segments => rfl

/-- The document of all files. A reader finds them, when every text in them is shown as it is. -/
theorem readNzb_writeNzb {epochTime : Nat} {nzb : Bytes} (written : main.writeNzb launch epochTime = some nzb) :
    ∃ files, (List.range main.postitems.getNumFiles).mapM (described launch main epochTime) = some files ∧
      ((∀ file ∈ files, Printable file) → readNzb nzb = some files) := by
  obtain ⟨elements, mapped, same⟩ := Option.bind_eq_some_iff.mp written
  cases same
  obtain ⟨files, found, rfl⟩ : ∃ files, (List.range main.postitems.getNumFiles).mapM (described launch main epochTime) =
      some files ∧ elements = files.map fileText := by
    have each : main.fileElement launch epochTime = fun fileIndex => (described launch main epochTime fileIndex).map fileText :=
      funext (fileElement_eq launch main epochTime)
    rw [each, Collect.mapM_comp] at mapped
    obtain ⟨files, found, same⟩ := Option.map_eq_some_iff.mp mapped
    exact ⟨files, found, same.symm⟩
  refine ⟨files, found, fun printable => ?_⟩
  let prolog : List Bytes := [xmlDeclaration.tail, doctype.tail]
  let entries := [(ascii "xmlns", ascii "http://www.newzbin.com/DTD/2003/nzb")]
  have meant : entries.mapM entryValue = some entries := by decide +kernel
  have blank : characterData [10, 10] = some [10, 10] := by decide
  have content := (Written.flatMap (fun file member => written_file (printable file member))).element (ascii "nzb")
    entries (name_literal rfl rfl) (List.forall_mem_singleton.mpr (name_literal rfl rfl))
    (List.forall_mem_singleton.mpr (by decide)) meant (by decide) blank (.inr (by decide))
  have unopened : ∀ piece ∈ prolog, 60 ∉ piece := by decide
  have declares : prolog.mapM readPiece = some [(.declaration, [10]), (.declaration, [10])] := by decide +kernel
  have root := read_written unopened declares (by decide) content
  have opening : nzbOpening = prolog.flatMap (fun piece => 60 :: piece) ++ 60 :: (openTag (ascii "nzb") entries ++ 62 :: [10, 10]) := by
    decide +kernel
  have closing : nzbClosing = 60 :: 47 :: (ascii "nzb" ++ [62, 10]) := by decide
  rw [opening, closing, ← List.flatMap_def, List.append_assoc, List.append_assoc, ← List.append_assoc (60 :: _), readNzb, root]
  exact (if_pos rfl).trans (Collect.mapM_map (fun file _ => readFile_fileTree file))

end Run

/-- The texts of the run that its NZB file repeats. -/
structure ShownTexts (launch : Launch) : Prop where
  from' : Clean launch.cfg.from'
  subject : Clean launch.cfg.subject
  names : ∀ item ∈ launch.postitems.items, Clean item.file.name
  groups : ∀ group ∈ launch.cfg.groups, Shown group
  msgiddomain : Shown launch.cfg.msgiddomain
  closing : 62 ∉ launch.cfg.msgiddomain

private theorem plain_all {text : Bytes} (all : text.all (fun byte => MessageIds.PlainByte byte) = true) :
    ∀ byte ∈ text, MessageIds.PlainByte byte :=
  fun byte member => of_decide_eq_true (List.all_eq_true.mp all byte member)

theorem shown_messageId {nonce domain : Bytes} {length : Nat} (drawn : RunNonce length nonce) (shown : Shown domain)
    (closing : 62 ∉ domain) (fileIndex pieceIndex : Nat) :
    Shown (replaceAll 62 [] (replaceAll 60 [] (Fileset.getUsenetMessageId nonce domain fileIndex pieceIndex))) := by
  have stripped := stripped_messageId drawn shown.2 closing fileIndex pieceIndex
  generalize replaceAll 62 [] (replaceAll 60 [] (Fileset.getUsenetMessageId nonce domain fileIndex pieceIndex)) = inner at stripped ⊢
  let opening := nonce ++ ascii "." ++ decimal fileIndex ++ ascii "." ++ decimal pieceIndex ++ ascii "@"
  obtain rfl : inner = opening ++ domain := by
    refine List.append_cancel_right (show inner ++ ascii ">" = opening ++ domain ++ ascii ">" from ?_)
    simpa [Fileset.getUsenetMessageId, opening, ascii, eq_comm] using stripped
  have plain : ∀ byte ∈ opening, MessageIds.PlainByte byte := by
    have drawnPlain : ∀ byte ∈ nonce, MessageIds.PlainByte byte := fun byte member => plain_all rfl byte (drawn.2 byte member)
    simp only [opening, List.forall_mem_append]
    exact ⟨⟨⟨⟨⟨drawnPlain, plain_all rfl⟩, MessageIds.plain_decimal _⟩, plain_all rfl⟩, MessageIds.plain_decimal _⟩,
      plain_all rfl⟩
  refine ⟨(clean_plain_append plain domain).mpr shown.1, ?_⟩
  have unopened : 60 ∉ opening := by
    have marks : 60 ∉ ascii "." ∧ 60 ∉ ascii "@" := by decide
    simp only [opening, List.mem_append, not_or]
    exact ⟨⟨⟨⟨⟨drawn.not_mem (by decide), marks.1⟩, MessageIds.not_mem_decimal rfl _⟩, marks.1⟩,
      MessageIds.not_mem_decimal rfl _⟩, marks.2⟩
  exact fun member => (List.mem_append.mp member).elim unopened shown.2

section Reads

variable {crc32 : Bytes → UInt32} {eraseRule : EraseRule} {launch : Launch} {main : Main} (texts : ShownTexts launch)

include texts in
theorem described_printable (sound : Sound eraseRule launch main) (same : SameFiles main.postitems launch.postitems)
    {epochTime fileIndex : Nat} {file : NzbFile} (found : described launch main epochTime fileIndex = some file) :
    Printable file := by
  obtain ⟨subject, titled, found⟩ := Option.bind_eq_some_iff.mp found
  obtain ⟨segments, listed, found⟩ := Option.bind_eq_some_iff.mp found
  cases found
  refine ⟨texts.from', ?_, texts.groups, ?_⟩
  · obtain ⟨name, named, -⟩ := Option.bind_eq_some_iff.mp titled
    obtain ⟨item, present, rfl⟩ := Option.map_eq_some_iff.mp named
    obtain ⟨other, there, file⟩ := same.item present
    refine (clean_subject titled named).mpr ⟨texts.subject, ?_⟩
    rw [← file]
    exact texts.names other (List.mem_of_getElem? there)
  · intro segment member
    obtain ⟨numPieces, -, listed⟩ := Option.bind_eq_some_iff.mp listed
    have each := Collect.mapM_eq_some_iff.mp listed
    obtain ⟨pieceIndex, -, made⟩ := List.mem_map.mp (each ▸ List.mem_map_of_mem member)
    obtain ⟨bytes, -, rfl⟩ := Option.map_eq_some_iff.mp made
    cases exception : main.msgidExceptions ⟨fileIndex, pieceIndex⟩ with
    | none => exact shown_messageId launch.drawn texts.msgiddomain texts.closing ..
    | some nonce => exact shown_messageId (sound.drawn _ nonce exception) texts.msgiddomain texts.closing ..

/-- What a reader has to find about a file of the run. -/
structure Tells (launch : Launch) (main : Main) (epochTime fileIndex : Nat) (file : NzbFile) : Prop where
  poster : file.poster = launch.cfg.from'
  date : file.date = epochTime
  subject : launch.postitems.getUsenetSubject launch.cfg.subject fileIndex 0 = some file.subject
  groups : file.groups = launch.cfg.groups
  complete : launch.postitems.getNumPieces fileIndex = some file.segments.length
  segments : ∀ pieceIndex segment, file.segments[pieceIndex]? = some segment →
    segment.number = pieceIndex + 1 ∧ Published main ⟨fileIndex, pieceIndex⟩ segment

include texts in
theorem segments_published (sound : Sound eraseRule launch main) (writing : main.position = .writing)
    (same : SameFiles main.postitems launch.postitems) {fileIndex numPieces : Nat} {segments : List Segment}
    (listed : main.segments launch fileIndex = some segments)
    (counted : launch.postitems.getNumPieces fileIndex = some numPieces) :
    segments.length = numPieces ∧ ∀ pieceIndex segment, segments[pieceIndex]? = some segment →
      segment.number = pieceIndex + 1 ∧ Published main ⟨fileIndex, pieceIndex⟩ segment := by
  obtain ⟨again, found, listed⟩ := Option.bind_eq_some_iff.mp listed
  cases ((same.getNumPieces fileIndex).symm.trans found).symm.trans counted
  have each := Collect.mapM_eq_some_iff.mp listed
  have length : segments.length = numPieces := by simpa using congrArg List.length each.symm
  refine ⟨length, fun pieceIndex segment present => ?_⟩
  have within : pieceIndex < numPieces := length ▸ (List.getElem?_eq_some_iff.mp present).1
  obtain ⟨other, printed, number, published⟩ :=
    segment_published sound texts.msgiddomain.2 texts.closing writing ⟨numPieces, counted, within⟩
  have made : main.segment launch fileIndex pieceIndex = some segment := by
    simpa [present, within] using congrArg (·[pieceIndex]?) each
  cases made.symm.trans printed
  exact ⟨number, published⟩

include texts in
theorem document_read (sound : Sound eraseRule launch main) (same : SameFiles main.postitems launch.postitems)
    (writing : main.position = .writing) {epochTime : Nat} {nzb : Bytes} (written : main.writeNzb launch epochTime = some nzb) :
    ∃ files, readNzb nzb = some files ∧ files.length = launch.postitems.getNumFiles ∧
      ∀ fileIndex file, files[fileIndex]? = some file → Tells launch main epochTime fileIndex file := by
  obtain ⟨files, listed, reads⟩ := readNzb_writeNzb launch main written
  have each := Collect.mapM_eq_some_iff.mp listed
  have length : files.length = main.postitems.getNumFiles := by simpa using congrArg List.length each.symm
  refine ⟨files, reads ?_, length.trans same.getNumFiles, ?_⟩
  · intro file member
    obtain ⟨fileIndex, -, found⟩ := List.mem_map.mp (each ▸ List.mem_map_of_mem member)
    exact described_printable texts sound same found
  · intro fileIndex file present
    have inside : fileIndex < main.postitems.getNumFiles := length ▸ (List.getElem?_eq_some_iff.mp present).1
    have found : described launch main epochTime fileIndex = some file := by
      simpa [present, inside] using congrArg (·[fileIndex]?) each
    obtain ⟨subject, titled, found⟩ := Option.bind_eq_some_iff.mp found
    obtain ⟨segments, segmented, found⟩ := Option.bind_eq_some_iff.mp found
    cases found
    obtain ⟨numPieces, counted, -⟩ := Option.bind_eq_some_iff.mp segmented
    rw [same.getNumPieces] at counted
    obtain ⟨complete, all⟩ := segments_published texts sound writing same segmented counted
    exact ⟨rfl, rfl, same.getUsenetSubject .. ▸ titled, rfl, complete ▸ counted, all⟩

end Reads

def quotedLaunch : Launch :=
  { sampleLaunch with
    cfg := { sampleLaunch.cfg with
      from' := ascii "\"A\" <a'b@c>"
      subject := ascii "2 < 3"
      groups := [ascii "alt.test", ascii "alt.other"] }
    postitems := Fileset.addFile ⟨2, []⟩ ⟨ascii "it's.bin", [11, 25], by decide⟩
    single := rfl
    files_fit := by decide
    pieces_fit := by decide }

/-- The only piece is posted at once. -/
def quotedRun : List Main.Event :=
  [.advance, goesOn 0] ++ logsIn ++ answersPost "240 posted\r\n" ++ [goesOn 1, goesOn 1] ++ List.replicate 4 .advance

end Post2Usenet.Proofs.NzbDocument
