import Post2Usenet.Connection
import Post2Usenet.Nntp
import Post2Usenet.Posting
import Post2Usenet.Proofs.YencRoundTrip

/-! An article needs no dot-stuffing: no line of it starts with a dot and none of
its parts breaks a line, so a receiver stops at its last byte and finds the
header and the payload as they were written. -/

namespace Post2Usenet.Proofs.ArticleFraming
open Nntp YencLines YencRoundTrip

/-- A line that passes a receiver unchanged. -/
def Plain (line : Bytes) : Prop := Inline line ∧ line.head? ≠ some 46

theorem receiveArticle_join {lines : List Bytes} (plain : ∀ line ∈ lines, Plain line) (rest : Bytes) :
    receiveArticle (Lines.join cr lf (lines ++ [terminator]) ++ rest) = some (lines, rest) := by
  have clean : ∀ line ∈ lines ++ [terminator], cr ∉ line := by
    intro line member
    rcases List.mem_append.mp member with inside | last
    · exact (plain line inside).1.1
    · rw [List.mem_singleton.mp last]
      decide
  have body : ∀ line ∈ lines, decide (line ≠ terminator) = true := by
    intro line member
    apply decide_eq_true
    intro same
    exact (plain line member).2 (by rw [same]; rfl)
  have unstuffed : lines.map unstuff = lines := by
    rw [List.map_congr_left (g := id), List.map_id]
    exact fun line member => by simp [unstuff, (plain line member).2]
  simp only [receiveArticle, Lines.split_join clean, List.append_assoc, List.dropWhile_append_of_pos body,
    List.takeWhile_append_of_pos body, List.cons_append, List.nil_append, List.dropWhile_cons, List.takeWhile_cons,
    ne_eq, not_true, decide_false, Bool.false_eq_true, ite_false, List.append_nil, unstuffed, Lines.join_split]

theorem headerAndBody_append {headers : List Bytes} (nonempty : [] ∉ headers) (body : List Bytes) :
    headerAndBody (headers ++ [[]] ++ body) = (headers, body) := by
  have filled : ∀ line ∈ headers, decide (line ≠ []) = true := by
    intro line member
    apply decide_eq_true
    rintro rfl
    exact nonempty member
  rw [headerAndBody, List.append_assoc, List.dropWhile_append_of_pos filled, List.takeWhile_append_of_pos filled]
  simp

theorem inline_nonce {nonce : Bytes} {length : Nat} (drawn : RunNonce length nonce) : Inline nonce :=
  ⟨drawn.not_mem (by decide), drawn.not_mem (by decide)⟩

theorem inline_messageId {nonce domain : Bytes} (nonceInline : Inline nonce) (domainInline : Inline domain)
    (fileIndex pieceIndex : Nat) : Inline (Fileset.getUsenetMessageId nonce domain fileIndex pieceIndex) := by
  simp only [Fileset.getUsenetMessageId, inline_append, inline_decimal, nonceInline, domainInline, and_true]
  decide

theorem inline_intercalate {separator : Bytes} {texts : List Bytes} (separatorInline : Inline separator)
    (inline : ∀ text ∈ texts, Inline text) : Inline (List.intercalate separator texts) := by
  induction texts with
  | nil => simp [Inline]
  | cons text rest ih =>
    have first := inline text (by simp)
    have later := ih (fun other member => inline other (by simp [member]))
    cases rest with
    | nil => simpa using first
    | cons next rest =>
      rw [List.intercalate_cons_cons, inline_append, inline_append]
      exact ⟨⟨first, separatorInline⟩, later⟩

def headerLine (field value : Bytes) : Bytes := field ++ ascii ": " ++ value

def headerLines (header : Header) : List Bytes :=
  [headerLine (ascii "From") header.from',
   headerLine (ascii "Newsgroups") (List.intercalate (ascii ",") header.newsgroups),
   headerLine (ascii "Subject") header.subject] ++
  (if header.msgid.length ≠ 0 then [headerLine (ascii "Message-ID") header.msgid] else []) ++
  header.additional.map (fun element => headerLine element.field element.value)

theorem writeTo_lines (header : Header) : header.writeTo = Lines.join cr lf (headerLines header) := by
  have additional : header.additional.flatMap (fun element => Header.fieldLine element.field element.value) =
      Lines.join cr lf (header.additional.map (fun element => headerLine element.field element.value)) := by
    simp only [Lines.join, List.flatMap_map]
    rfl
  rw [Header.writeTo, additional]
  by_cases named : header.msgid.length ≠ 0
  · simp [headerLines, named, headerLine, Header.fieldLine, crlf]
  · simp [headerLines, named, headerLine, Header.fieldLine, crlf]

/-- Every header that the program builds: nothing in it breaks a line, and the
fields it adds later start with a letter. -/
structure Clean (header : Header) : Prop where
  from' : Inline header.from'
  newsgroups : ∀ group ∈ header.newsgroups, Inline group
  subject : Inline header.subject
  msgid : Inline header.msgid
  additional : ∀ element ∈ header.additional,
    Inline element.field ∧ Inline element.value ∧ element.field.head? = some 88

theorem retry_clean {header : Header} (clean : Clean header) {cfg : ProgConfig} (domain : Inline cfg.msgiddomain)
    (key : FilepieceKey) {nonces : RetryNonces} (drawn : nonces.Drawn) : Clean (header.retry cfg key nonces) := by
  refine { clean with
    msgid := inline_messageId (inline_nonce drawn.messageNonce) domain key.fileIndex key.pieceIndex
    additional := ?_ }
  intro element member
  rcases List.mem_append.mp member with earlier | added
  · exact clean.additional element earlier
  · rw [List.mem_singleton.mp added]
    refine ⟨?_, inline_nonce drawn.randomValue, rfl⟩
    rw [inline_append]
    exact ⟨by decide, inline_nonce drawn.randomKey⟩

private theorem headerLine_plain {field value : Bytes} (fieldInline : Inline field) (valueInline : Inline value)
    {first : UInt8} (starts : field.head? = some first) (letter : first ≠ 46) :
    Plain (headerLine field value) ∧ headerLine field value ≠ [] := by
  obtain ⟨rest, rfl⟩ := List.head?_eq_some_iff.mp starts
  refine ⟨⟨?_, by simpa [headerLine] using letter⟩, by simp [headerLine]⟩
  simp only [headerLine, inline_append, fieldInline, valueInline, and_true, true_and]
  decide

theorem headerLines_plain {header : Header} (clean : Clean header) :
    ∀ line ∈ headerLines header, Plain line ∧ line ≠ [] := by
  intro line member
  simp only [headerLines, List.mem_append, List.mem_cons, List.not_mem_nil, or_false, List.mem_map] at member
  rcases member with ((rfl | rfl | rfl) | named) | ⟨element, inside, rfl⟩
  · exact headerLine_plain (by decide) clean.from' rfl (by decide)
  · exact headerLine_plain (by decide) (inline_intercalate (by decide) clean.newsgroups) rfl (by decide)
  · exact headerLine_plain (by decide) clean.subject rfl (by decide)
  · split at named
    · rw [List.mem_singleton.mp named]
      exact headerLine_plain (by decide) clean.msgid rfl (by decide)
    · cases named
  · obtain ⟨fieldInline, valueInline, starts⟩ := clean.additional element inside
    exact headerLine_plain fieldInline valueInline starts (by decide)

variable (crc32 : Bytes → UInt32)

/-- The payload of an article is a whole number of lines, none of them in need of a dot. -/
theorem partText_plain (generator : Yencgenerator) (partnumber partOffset : Nat) (buf : Bytes)
    (name : Inline generator.filename) :
    ∃ lines, partText crc32 generator partnumber partOffset buf = Lines.join cr lf lines ∧ ∀ line ∈ lines, Plain line := by
  obtain ⟨data, text, dataLines, _⟩ := partText_lines crc32 generator partnumber partOffset buf
  refine ⟨_, text, fun line member => ⟨partLines_inline crc32 _ _ _ _ name dataLines line member, ?_⟩⟩
  simp only [partLines, List.mem_append, List.mem_cons, List.not_mem_nil, or_false] at member
  rcases member with (rfl | rfl | inside) | rfl
  · simp [Yencgenerator.ybegin, ascii]
  · simp [Yencgenerator.ypart, ascii]
  · exact (dataLines line inside).undotted
  · simp [Yencgenerator.yend, ascii]

/-- The texts of the run that go into the articles of a file do not break lines. -/
structure InlineTexts (cfg : ProgConfig) (name : Bytes) : Prop where
  from' : Inline cfg.from'
  groups : ∀ group ∈ cfg.groups, Inline group
  subject : Inline cfg.subject
  msgiddomain : Inline cfg.msgiddomain
  name : Inline name

private theorem handle_filename {articlesize : Nat} (item : Postitem articlesize) :
    item.handle.filename = item.file.name :=
  congrArg Yencgenerator.filename item.made

theorem inline_subject {postitems : Fileset} {opening subject name : Bytes} {fileIndex pieceIndex : Nat}
    (found : postitems.getUsenetSubject opening fileIndex pieceIndex = some subject)
    (named : postitems.getFileName fileIndex = some name) (openingInline : Inline opening) (nameInline : Inline name) :
    Inline subject := by
  obtain ⟨name, here, rest⟩ := Option.bind_eq_some_iff.mp found
  obtain ⟨pieces, -, same⟩ := Option.bind_eq_some_iff.mp rest
  cases same
  cases named.symm.trans here
  simp only [inline_append, inline_decimal, openingInline, nameInline, and_true, true_and]
  decide

theorem makeArticle_clean {cfg : ProgConfig} {runNonce : Bytes} {postitems after : Fileset} {fileIndex pieceIndex : Nat}
    {article : Article} (built : makeArticle crc32 cfg runNonce postitems fileIndex pieceIndex = some (article, after))
    {name : Bytes} (named : postitems.getFileName fileIndex = some name) (texts : InlineTexts cfg name)
    (drawn : RunNonce nonceLength runNonce) :
    Clean article.header ∧ ∃ lines, article.payload.flatten = Lines.join cr lf lines ∧ ∀ line ∈ lines, Plain line := by
  obtain ⟨item, subject, chunk, found, served, titled, rfl, -⟩ := makeArticle_some crc32 built
  have called : item.handle.filename = name := by
    rw [Fileset.getFileName, found] at named
    rw [handle_filename]
    exact Option.some.inj named
  obtain ⟨-, buf, rfl⟩ := getPart_text crc32 served
  refine ⟨⟨texts.from', texts.groups, ?_, ?_, by simp⟩, ?_⟩
  · exact inline_subject titled named texts.subject texts.name
  · exact inline_messageId (inline_nonce drawn) texts.msgiddomain fileIndex pieceIndex
  · simp only [List.flatten_cons, List.flatten_nil, List.append_nil]
    exact partText_plain crc32 item.handle pieceIndex _ _ (called ▸ texts.name)

/-- The article after the callbacks of some failed posts. -/
def retried (cfg : ProgConfig) (article : Article) (retries : List (FilepieceKey × RetryNonces)) : Article :=
  retries.foldl (fun article retry => article.retry cfg retry.1 retry.2) article

theorem retried_clean {cfg : ProgConfig} {article : Article} {retries : List (FilepieceKey × RetryNonces)}
    (clean : Clean article.header) (domain : Inline cfg.msgiddomain) (drawn : ∀ retry ∈ retries, retry.2.Drawn) :
    Clean (retried cfg article retries).header ∧ (retried cfg article retries).payload = article.payload := by
  induction retries generalizing article with
  | nil => exact ⟨clean, rfl⟩
  | cons retry rest ih =>
    have once := retry_clean clean domain retry.1 (drawn retry (by simp))
    exact @ih (article.retry cfg retry.1 retry.2) once (fun other member => drawn other (by simp [member]))

theorem wire_lines {sent : Article} {body : List Bytes} (clean : Clean sent.header)
    (payload : sent.payload.flatten = Lines.join cr lf body) (bodyPlain : ∀ line ∈ body, Plain line) :
    sent.wire = Lines.join cr lf (headerLines sent.header ++ [[]] ++ (body ++ [[]]) ++ [terminator]) ∧
      ∀ line ∈ headerLines sent.header ++ [[]] ++ (body ++ [[]]), Plain line := by
  constructor
  · rw [Article.wire, writeTo_lines, payload]
    simp only [Lines.join_append, Lines.join_cons, Lines.join_nil, List.append_assoc]
    rfl
  · intro line member
    simp only [List.mem_append, List.mem_singleton] at member
    rcases member with (inside | rfl) | (inside | rfl)
    · exact (headerLines_plain clean line inside).1
    · exact ⟨by decide, by simp⟩
    · exact bodyPlain line inside
    · exact ⟨by decide, by simp⟩

/-- The receiver of an article, whatever follows it, stops at its last byte. It
removes no dot, its header is what the header writes, and its body is the payload
with one empty line at the end. -/
theorem article_framed {cfg : ProgConfig} {runNonce : Bytes} {postitems after : Fileset} {fileIndex pieceIndex : Nat}
    {article : Article} (built : makeArticle crc32 cfg runNonce postitems fileIndex pieceIndex = some (article, after))
    {name : Bytes} (named : postitems.getFileName fileIndex = some name) (texts : InlineTexts cfg name)
    (drawn : RunNonce nonceLength runNonce)
    (retries : List (FilepieceKey × RetryNonces)) (retriesDrawn : ∀ retry ∈ retries, retry.2.Drawn) (next : Bytes) :
    ∃ lines headers body,
      Lines.split cr lf (retried cfg article retries).wire = (lines ++ [terminator], []) ∧
      receiveArticle ((retried cfg article retries).wire ++ next) = some (lines, next) ∧
      headerAndBody lines = (headers, body ++ [[]]) ∧
      Lines.split cr lf (retried cfg article retries).header.writeTo = (headers, []) ∧
      Lines.split cr lf (retried cfg article retries).payload.flatten = (body, []) := by
  obtain ⟨clean, body, payload, bodyPlain⟩ := makeArticle_clean crc32 built named texts drawn
  obtain ⟨sentClean, kept⟩ := retried_clean clean texts.msgiddomain retriesDrawn
  have headersPlain := headerLines_plain sentClean
  generalize retried cfg article retries = sent at sentClean kept headersPlain ⊢
  obtain ⟨wire, plain⟩ := wire_lines sentClean (kept ▸ payload) bodyPlain
  refine ⟨headerLines sent.header ++ [[]] ++ (body ++ [[]]), headerLines sent.header, body, ?_, ?_, ?_, ?_, ?_⟩
  · rw [wire, Lines.split_join_all]
    intro line member
    rcases List.mem_append.mp member with inside | last
    · exact (plain line inside).1.1
    · rw [List.mem_singleton.mp last]
      decide
  · rw [wire]
    exact receiveArticle_join plain next
  · exact headerAndBody_append (fun member => (headersPlain [] member).2 rfl) (body ++ [[]])
  · rw [writeTo_lines]
    exact Lines.split_join_all (fun line member => (headersPlain line member).1.1.1)
  · rw [kept, payload]
    exact Lines.split_join_all (fun line member => (bodyPlain line member).1.1)

def sampleConfig : ProgConfig where
  from' := ascii "poster <poster@example>"
  servers := []
  subject := ascii "sample"
  msgiddomain := ascii "example"
  articleSize := 2
  ioThreads := 1
  queueSize := 5
  operationTimeout := 0
  validatePosts := false
  groups := [ascii "alt.binaries.test", ascii "alt.test"]
  nzboutput := []

private def sampleFiles : Fileset := Fileset.addFile ⟨2, []⟩ ⟨ascii "a.bin", [4, 19, 214, 61, 255], by decide⟩

def sampleNonce : Bytes := ascii "abcdefghij123456"

private def sampleBuilt : Article × Fileset :=
  (makeArticle Yencgenerator.crc32Type sampleConfig sampleNonce sampleFiles 0 1).get (by decide +kernel)

private theorem sample_built : makeArticle Yencgenerator.crc32Type sampleConfig sampleNonce sampleFiles 0 1 =
    some (sampleBuilt.1, sampleBuilt.2) :=
  (Option.some_get (by decide +kernel)).symm

def sampleRetry : FilepieceKey × RetryNonces := (⟨0, 1⟩, ⟨ascii "abcdefghij", ascii "abcde", sampleNonce⟩)

theorem sample_framed :
    ∃ lines headers body,
      Lines.split cr lf (retried sampleConfig sampleBuilt.1 [sampleRetry]).wire = (lines ++ [terminator], []) ∧
      receiveArticle ((retried sampleConfig sampleBuilt.1 [sampleRetry]).wire ++ Protocol.quit) =
        some (lines, Protocol.quit) ∧
      headerAndBody lines = (headers, body ++ [[]]) ∧
      Lines.split cr lf (retried sampleConfig sampleBuilt.1 [sampleRetry]).header.writeTo = (headers, []) ∧
      Lines.split cr lf (retried sampleConfig sampleBuilt.1 [sampleRetry]).payload.flatten = (body, []) :=
  article_framed Yencgenerator.crc32Type sample_built rfl
    ⟨by decide, by decide, by decide, by decide, by decide⟩ (by decide)
    [sampleRetry] (List.forall_mem_singleton.mpr ⟨by decide, by decide, by decide⟩) Protocol.quit

end Post2Usenet.Proofs.ArticleFraming
