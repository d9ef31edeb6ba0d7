import Post2Usenet.Lib.Collect
import Post2Usenet.Proofs.ArticleFraming
import Post2Usenet.Proofs.MessageIds

/-! What a reader finds in the header of an article: the fields that are stored in
it, unless a line ends inside one of the texts that are written as they are. -/

namespace Post2Usenet.Proofs.HeaderFields
open Nntp ArticleFraming

def fields (header : Header) : List (Bytes × Bytes) :=
  [(ascii "From", header.from'),
   (ascii "Newsgroups", List.intercalate (ascii ",") header.newsgroups),
   (ascii "Subject", header.subject),
   (ascii "Message-ID", header.msgid)] ++
  header.additional.map (fun element => (element.field, element.value))

/-- A reader finds the fields that are stored and no others, in the text of the
header and in the article as it is sent. -/
def Unforged (article : Article) : Prop :=
  headerFields article.header.writeTo = some (fields article.header) ∧
    receivedFields article.wire = some (fields article.header)

instance (article : Article) : Decidable (Unforged article) := inferInstanceAs (Decidable (_ ∧ _))

theorem splitField_headerLine {field : Bytes} (noColon : 58 ∉ field) (value : Bytes) :
    splitField (headerLine field value) = some (field, value) := by
  induction field with
  | nil => rfl
  | cons byte field ih =>
    have different : byte ≠ 58 := fun same => noColon (by simp [same])
    have ih := ih (fun member => noColon (List.mem_cons_of_mem _ member))
    simp only [headerLine, List.cons_append, List.append_assoc] at ih ⊢
    simp [splitField, different, ih]

theorem splitField_some {line field value : Bytes} (found : splitField line = some (field, value)) :
    line = headerLine field value := by
  induction line generalizing field with
  | nil => cases found
  | cons byte rest ih =>
    unfold splitField at found
    split at found
    next mark =>
      obtain ⟨rfl, space⟩ := mark
      obtain ⟨value, rfl⟩ := List.head?_eq_some_iff.mp space
      cases found
      rfl
    next =>
      obtain ⟨⟨name, value⟩, later, same⟩ := Option.map_eq_some_iff.mp found
      cases same
      simp [ih later, headerLine]

/-- The lines of a header that was read are its fields, so none of them holds the end of a line. -/
theorem headerFields_some {text : Bytes} {found : List (Bytes × Bytes)} (read : headerFields text = some found) :
    ∀ field ∈ found, Lines.Whole cr lf (headerLine field.1 field.2) := by
  intro field member
  have whole := Lines.whole_of_split cr lf text
  simp only [headerFields] at read
  split at read
  · rw [Collect.map_of_mapM (fun _ _ => splitField_some) read] at whole
    exact whole _ (List.mem_map_of_mem member)
  · cases read

section Found

variable {found : List (Bytes × Bytes)} (noColon : ∀ field ∈ found, 58 ∉ field.1)
  (whole : ∀ field ∈ found, Lines.Whole cr lf (headerLine field.1 field.2))

include whole in
private theorem split_fields (rest : Bytes) :
    Lines.split cr lf (Lines.join cr lf (found.map (fun field => headerLine field.1 field.2)) ++ rest) =
      (found.map (fun field => headerLine field.1 field.2) ++ (Lines.split cr lf rest).1, (Lines.split cr lf rest).2) := by
  apply Lines.split_join_whole (by decide)
  intro line member
  obtain ⟨field, inside, rfl⟩ := List.mem_map.mp member
  exact whole field inside

include noColon whole

theorem headerFields_join :
    headerFields (Lines.join cr lf (found.map (fun field => headerLine field.1 field.2))) = some found := by
  have parted := split_fields whole []
  simp only [List.append_nil, Lines.split] at parted
  simp only [headerFields, parted, ite_true]
  exact Collect.mapM_map (fun field member => splitField_headerLine (noColon field member) field.2)

/-- No line of a field is empty, so the section ends where its empty line is written. -/
theorem receivedFields_join (rest : Bytes) :
    receivedFields (Lines.join cr lf (found.map (fun field => headerLine field.1 field.2)) ++ (crlf ++ rest)) =
      some found := by
  have filled : [] ∉ found.map (fun field => headerLine field.1 field.2) := by
    intro member
    obtain ⟨field, -, empty⟩ := List.mem_map.mp member
    simp [headerLine, ascii] at empty
  have emptyLine : Lines.split cr lf (crlf ++ rest) = ([] :: (Lines.split cr lf rest).1, (Lines.split cr lf rest).2) :=
    Lines.split_clean List.not_mem_nil rest
  have parted := headerAndBody_append filled (Lines.split cr lf rest).1
  simp only [List.append_assoc, List.singleton_append] at parted
  rw [receivedFields, split_fields whole, emptyLine, parted]
  exact Collect.mapM_map (fun field member => splitField_headerLine (noColon field member) field.2)

end Found

/-- A name that neither ends a line nor ends itself. -/
def Name (text : Bytes) : Prop := cr ∉ text ∧ 58 ∉ text

instance (text : Bytes) : Decidable (Name text) := inferInstanceAs (Decidable (_ ∧ _))

theorem whole_headerLine {field : Bytes} (name : Name field) (value : Bytes) :
    Lines.Whole cr lf (headerLine field value) ↔ Lines.Whole cr lf value := by
  refine Lines.whole_clean_append ?_ value
  rw [List.mem_append, not_or]
  exact ⟨name.1, by decide⟩

theorem writeTo_fields {header : Header} (named : header.msgid ≠ []) :
    header.writeTo = Lines.join cr lf ((fields header).map (fun field => headerLine field.1 field.2)) := by
  simp [writeTo_lines, headerLines, fields, named, Function.comp_def]

/-- The fields are found again when, and only when, no value holds the end of a line. -/
theorem unforged_iff {article : Article} (named : article.header.msgid ≠ [])
    (names : ∀ field ∈ fields article.header, Name field.1) :
    Unforged article ↔ ∀ field ∈ fields article.header, Lines.Whole cr lf field.2 := by
  rw [Unforged, Article.wire, writeTo_fields named]
  constructor
  · rintro ⟨read, -⟩ field member
    exact (whole_headerLine (names field member) field.2).mp (headerFields_some read field member)
  · intro whole
    have noColon : ∀ field ∈ fields article.header, 58 ∉ field.1 := fun field member => (names field member).2
    have wholeLines : ∀ field ∈ fields article.header, Lines.Whole cr lf (headerLine field.1 field.2) :=
      fun field member => (whole_headerLine (names field member) field.2).mpr (whole field member)
    refine ⟨headerFields_join noColon wholeLines, ?_⟩
    simp only [List.append_assoc]
    exact receivedFields_join noColon wholeLines _

/-- The texts of the run that go into the header of a file's articles. -/
structure WholeTexts (cfg : ProgConfig) (name : Bytes) : Prop where
  from' : Lines.Whole cr lf cfg.from'
  groups : ∀ group ∈ cfg.groups, Lines.Whole cr lf group
  subject : Lines.Whole cr lf cfg.subject
  msgiddomain : Lines.Whole cr lf cfg.msgiddomain
  name : Lines.Whole cr lf name

/-- A header that the program composes from those texts. What it adds of its own holds no end of a line. -/
structure Composed (cfg : ProgConfig) (name : Bytes) (header : Header) : Prop where
  from' : header.from' = cfg.from'
  newsgroups : header.newsgroups = cfg.groups
  subject : Lines.Whole cr lf header.subject ↔ Lines.Whole cr lf cfg.subject ∧ Lines.Whole cr lf name
  msgid : Lines.Whole cr lf header.msgid ↔ Lines.Whole cr lf cfg.msgiddomain
  named : header.msgid ≠ []
  additional : ∀ element ∈ header.additional, Name element.field ∧ Lines.Whole cr lf element.value

theorem whole_intercalate (groups : List Bytes) :
    Lines.Whole cr lf (List.intercalate (ascii ",") groups) ↔ ∀ group ∈ groups, Lines.Whole cr lf group := by
  induction groups with
  | nil => simp
  | cons group rest ih =>
    cases rest with
    | nil => simp
    | cons next rest =>
      have comma : ascii "," = [44] := rfl
      rw [List.intercalate_cons_cons, List.forall_mem_cons, ← ih, comma, List.append_assoc, List.singleton_append]
      exact Lines.whole_append_separator (by decide) (by decide) _

theorem whole_subject {postitems : Fileset} {opening subject name : Bytes} {fileIndex pieceIndex : Nat}
    (found : postitems.getUsenetSubject opening fileIndex pieceIndex = some subject)
    (named : postitems.getFileName fileIndex = some name) :
    Lines.Whole cr lf subject ↔ Lines.Whole cr lf opening ∧ Lines.Whole cr lf name := by
  obtain ⟨position, ending, positionPlain, endingPlain, rfl⟩ := MessageIds.getUsenetSubject_some found named
  have clean : ∀ text : Bytes, (∀ byte ∈ text, MessageIds.PlainByte byte) → cr ∉ text :=
    fun text plain member => absurd (plain cr member) (by decide)
  calc Lines.Whole cr lf (opening ++ 32 :: (position ++ (name ++ 34 :: ending)))
    _ ↔ Lines.Whole cr lf opening ∧ Lines.Whole cr lf (name ++ 34 :: ending) := by
      rw [Lines.whole_append_separator (by decide) (by decide), Lines.whole_clean_append (clean position positionPlain)]
    _ ↔ Lines.Whole cr lf opening ∧ Lines.Whole cr lf name := by
      rw [Lines.whole_append_separator (by decide) (by decide),
        and_iff_left (Lines.whole_clean (clean ending endingPlain))]

theorem whole_messageId {nonce : Bytes} {length : Nat} (drawn : RunNonce length nonce) (domain : Bytes)
    (fileIndex pieceIndex : Nat) :
    Lines.Whole cr lf (Fileset.getUsenetMessageId nonce domain fileIndex pieceIndex) ↔ Lines.Whole cr lf domain := by
  let opening := ascii "<" ++ nonce ++ ascii "." ++ decimal fileIndex ++ ascii "." ++ decimal pieceIndex ++ ascii "@"
  have openingInline : Inline opening := by
    simp only [opening, inline_append, inline_decimal, inline_nonce drawn, and_true]
    decide
  calc Lines.Whole cr lf (Fileset.getUsenetMessageId nonce domain fileIndex pieceIndex)
    _ ↔ Lines.Whole cr lf (opening ++ (domain ++ 62 :: [])) := by
      simp [Fileset.getUsenetMessageId, opening, ascii]
    _ ↔ Lines.Whole cr lf domain := by
      rw [Lines.whole_clean_append openingInline.1, Lines.whole_append_separator (by decide) (by decide),
        and_iff_left Lines.whole_nil]

theorem messageId_ne_nil (nonce domain : Bytes) (fileIndex pieceIndex : Nat) :
    Fileset.getUsenetMessageId nonce domain fileIndex pieceIndex ≠ [] := by
  simp [Fileset.getUsenetMessageId, ascii]

variable (crc32 : Bytes → UInt32)

theorem makeArticle_composed {cfg : ProgConfig} {runNonce name : Bytes} {postitems after : Fileset}
    {fileIndex pieceIndex : Nat} {article : Article}
    (built : makeArticle crc32 cfg runNonce postitems fileIndex pieceIndex = some (article, after))
    (named : postitems.getFileName fileIndex = some name) (drawn : RunNonce nonceLength runNonce) :
    Composed cfg name article.header := by
  obtain ⟨item, subject, chunk, -, -, titled, rfl, -⟩ := makeArticle_some crc32 built
  exact {
    from' := rfl
    newsgroups := rfl
    subject := whole_subject titled named
    msgid := whole_messageId drawn cfg.msgiddomain fileIndex pieceIndex
    named := messageId_ne_nil runNonce cfg.msgiddomain fileIndex pieceIndex
    additional := List.forall_mem_nil _ }

theorem Composed.retry {cfg : ProgConfig} {name : Bytes} {header : Header} (composed : Composed cfg name header)
    (key : FilepieceKey) {nonces : RetryNonces} (drawn : nonces.Drawn) :
    Composed cfg name (header.retry cfg key nonces) := by
  refine { composed with
    msgid := whole_messageId drawn.messageNonce cfg.msgiddomain key.fileIndex key.pieceIndex
    named := messageId_ne_nil nonces.messageNonce cfg.msgiddomain key.fileIndex key.pieceIndex
    additional := ?_ }
  intro element member
  rcases List.mem_append.mp member with earlier | added
  · exact composed.additional element earlier
  · rw [List.mem_singleton.mp added]
    refine ⟨⟨?_, ?_⟩, Lines.whole_clean (inline_nonce drawn.randomValue).1⟩
    · rw [List.mem_append, not_or]
      exact ⟨by decide, (inline_nonce drawn.randomKey).1⟩
    · rw [List.mem_append, not_or]
      exact ⟨by decide, drawn.randomKey.not_mem (by decide)⟩

theorem retried_composed {cfg : ProgConfig} {name : Bytes} {article : Article}
    {retries : List (FilepieceKey × RetryNonces)} (composed : Composed cfg name article.header)
    (drawn : ∀ retry ∈ retries, retry.2.Drawn) : Composed cfg name (retried cfg article retries).header := by
  induction retries generalizing article with
  | nil => exact composed
  | cons retry rest ih =>
    have once := composed.retry retry.1 (drawn retry (List.mem_cons_self ..))
    exact @ih (article.retry cfg retry.1 retry.2) once (fun other member => drawn other (List.mem_cons_of_mem _ member))

theorem Composed.unforged_iff {cfg : ProgConfig} {name : Bytes} {article : Article}
    (composed : Composed cfg name article.header) : Unforged article ↔ WholeTexts cfg name := by
  have names : ∀ field ∈ fields article.header, Name field.1 := by
    intro field member
    simp only [fields, List.mem_append, List.mem_cons, List.not_mem_nil, or_false, List.mem_map] at member
    rcases member with (rfl | rfl | rfl | rfl) | ⟨element, inside, rfl⟩
    · exact (by decide : Name (ascii "From"))
    · exact (by decide : Name (ascii "Newsgroups"))
    · exact (by decide : Name (ascii "Subject"))
    · exact (by decide : Name (ascii "Message-ID"))
    · exact (composed.additional element inside).1
  have additional : ∀ field ∈ article.header.additional.map (fun element => (element.field, element.value)),
      Lines.Whole cr lf field.2 := by
    intro field member
    obtain ⟨element, inside, rfl⟩ := List.mem_map.mp member
    exact (composed.additional element inside).2
  rw [HeaderFields.unforged_iff composed.named names, fields, List.forall_mem_append, and_iff_left additional]
  simp only [List.forall_mem_cons, composed.from', composed.newsgroups, whole_intercalate, composed.subject,
    composed.msgid, List.not_mem_nil, false_implies, implies_true, and_true]
  constructor
  · rintro ⟨from', groups, ⟨subject, name⟩, domain⟩
    exact ⟨from', groups, subject, domain, name⟩
  · rintro ⟨from', groups, subject, domain, name⟩
    exact ⟨from', groups, ⟨subject, name⟩, domain⟩

/-- A reader of an article's header finds the stored fields when, and only when, the
end of a line is in none of the texts that go into it. -/
theorem header_unforged_iff {cfg : ProgConfig} {runNonce name : Bytes} {postitems after : Fileset}
    {fileIndex pieceIndex : Nat} {article : Article}
    (built : makeArticle crc32 cfg runNonce postitems fileIndex pieceIndex = some (article, after))
    (named : postitems.getFileName fileIndex = some name) (drawn : RunNonce nonceLength runNonce)
    (retries : List (FilepieceKey × RetryNonces)) (retriesDrawn : ∀ retry ∈ retries, retry.2.Drawn) :
    Unforged (retried cfg article retries) ↔ WholeTexts cfg name :=
  (retried_composed (makeArticle_composed crc32 built named drawn) retriesDrawn).unforged_iff

private def fileNamed (name : Bytes) : Fileset := Fileset.addFile ⟨2, []⟩ ⟨name, [9, 23, 218, 232], by decide⟩

private def sampleBuilt : Article × Fileset :=
  (makeArticle Yencgenerator.crc32Type sampleConfig sampleNonce (fileNamed (ascii "f.bin")) 0 1).get (by decide +kernel)

private theorem sample_built : makeArticle Yencgenerator.crc32Type sampleConfig sampleNonce (fileNamed (ascii "f.bin")) 0 1 =
    some (sampleBuilt.1, sampleBuilt.2) :=
  (Option.some_get (by decide +kernel)).symm

theorem sample_unforged :
    Unforged (retried sampleConfig sampleBuilt.1 [sampleRetry]) ↔ WholeTexts sampleConfig (ascii "f.bin") :=
  header_unforged_iff Yencgenerator.crc32Type sample_built rfl (by decide) [sampleRetry]
    (List.forall_mem_singleton.mpr ⟨by decide, by decide, by decide⟩)

/-- A file name may hold any bytes but a slash and a zero. -/
private def forgingName : Bytes := ascii "g" ++ crlf ++ ascii "X-Forged: 1"

private def forged : Article × Fileset :=
  (makeArticle Yencgenerator.crc32Type sampleConfig sampleNonce (fileNamed forgingName) 0 1).get (by decide +kernel)

private theorem forged_built : makeArticle Yencgenerator.crc32Type sampleConfig sampleNonce (fileNamed forgingName) 0 1 =
    some (forged.1, forged.2) :=
  (Option.some_get (by decide +kernel)).symm

/-- The name ends the subject and puts a field of its own after it. -/
theorem name_forges :
    0 ∉ forgingName ∧ 47 ∉ forgingName ∧
      makeArticle Yencgenerator.crc32Type sampleConfig sampleNonce (fileNamed forgingName) 0 1 =
        some (forged.1, forged.2) ∧
      fields forged.1.header =
        [(ascii "From", ascii "poster <poster@example>"), (ascii "Newsgroups", ascii "alt.binaries.test,alt.test"),
         (ascii "Subject", ascii "sample [1/1] - \"" ++ forgingName ++ ascii "\" yEnc (2/2)"),
         (ascii "Message-ID", ascii "<abcdefghij123456.0.1@example>")] ∧
      headerFields forged.1.header.writeTo = some
        [(ascii "From", ascii "poster <poster@example>"), (ascii "Newsgroups", ascii "alt.binaries.test,alt.test"),
         (ascii "Subject", ascii "sample [1/1] - \"g"), (ascii "X-Forged", ascii "1\" yEnc (2/2)"),
         (ascii "Message-ID", ascii "<abcdefghij123456.0.1@example>")] ∧
      ¬ Unforged forged.1 := by
  have stored : fields forged.1.header =
      [(ascii "From", ascii "poster <poster@example>"), (ascii "Newsgroups", ascii "alt.binaries.test,alt.test"),
       (ascii "Subject", ascii "sample [1/1] - \"" ++ forgingName ++ ascii "\" yEnc (2/2)"),
       (ascii "Message-ID", ascii "<abcdefghij123456.0.1@example>")] := by decide +kernel
  have found : headerFields forged.1.header.writeTo = some
      [(ascii "From", ascii "poster <poster@example>"), (ascii "Newsgroups", ascii "alt.binaries.test,alt.test"),
       (ascii "Subject", ascii "sample [1/1] - \"g"), (ascii "X-Forged", ascii "1\" yEnc (2/2)"),
       (ascii "Message-ID", ascii "<abcdefghij123456.0.1@example>")] := by decide +kernel
  refine ⟨by decide, by decide, forged_built, stored, found, ?_⟩
  rintro ⟨same, -⟩
  rw [found, stored] at same
  exact absurd same (by decide)

end Post2Usenet.Proofs.HeaderFields
