import Post2Usenet.DummyServer
import Post2Usenet.Proofs.ArticleFraming
import Post2Usenet.Proofs.YencGrammar

/-! The dummy server stops its process at a null byte. No article of the program holds one. -/

namespace Post2Usenet.Proofs.NullBytes

/-- The texts of the run that go into the articles of a file hold no null byte. -/
structure NullFreeTexts (cfg : ProgConfig) (name : Bytes) : Prop where
  from' : 0 ∉ cfg.from'
  groups : ∀ group ∈ cfg.groups, 0 ∉ group
  subject : 0 ∉ cfg.subject
  msgiddomain : 0 ∉ cfg.msgiddomain
  name : 0 ∉ name

structure NullFreeHeader (header : Header) : Prop where
  from' : 0 ∉ header.from'
  newsgroups : ∀ group ∈ header.newsgroups, 0 ∉ group
  subject : 0 ∉ header.subject
  msgid : 0 ∉ header.msgid
  additional : ∀ element ∈ header.additional, 0 ∉ element.field ∧ 0 ∉ element.value

theorem decimal_nullFree (n : Nat) : 0 ∉ decimal n := Numeral.not_mem_print (by decide) (by decide) rfl n

theorem hex_nullFree (n : Nat) : 0 ∉ hex n := Numeral.not_mem_print (by decide) (by decide) rfl n

theorem fieldLine_nullFree {field value : Bytes} (fieldFree : 0 ∉ field) (valueFree : 0 ∉ value) :
    0 ∉ Header.fieldLine field value := by
  have colon : 0 ∉ ascii ": " := by decide
  have ending : 0 ∉ crlf := by decide
  simp only [Header.fieldLine, List.mem_append, fieldFree, colon, valueFree, ending, or_self, not_false_iff]

theorem intercalate_nullFree {separator : Bytes} {texts : List Bytes} (separatorFree : 0 ∉ separator)
    (free : ∀ text ∈ texts, 0 ∉ text) : 0 ∉ List.intercalate separator texts := by
  induction texts with
  | nil => simp
  | cons text rest ih =>
    have first := free text (List.mem_cons_self ..)
    have later := ih (fun other member => free other (List.mem_cons_of_mem _ member))
    cases rest with
    | nil => simpa using first
    | cons next rest =>
      rw [List.intercalate_cons_cons, List.mem_append, List.mem_append, not_or, not_or]
      exact ⟨⟨first, separatorFree⟩, later⟩

theorem writeTo_nullFree {header : Header} (free : NullFreeHeader header) : 0 ∉ header.writeTo := by
  have from' := fieldLine_nullFree (by decide : 0 ∉ ascii "From") free.from'
  have newsgroups := fieldLine_nullFree (by decide : 0 ∉ ascii "Newsgroups")
    (intercalate_nullFree (by decide : 0 ∉ ascii ",") free.newsgroups)
  have subject := fieldLine_nullFree (by decide : 0 ∉ ascii "Subject") free.subject
  have msgid : 0 ∉ (if header.msgid.length ≠ 0 then Header.fieldLine (ascii "Message-ID") header.msgid else []) := by
    split
    · exact fieldLine_nullFree (by decide) free.msgid
    · exact List.not_mem_nil
  have additional : 0 ∉ header.additional.flatMap (fun element => Header.fieldLine element.field element.value) := by
    intro member
    obtain ⟨element, inside, null⟩ := List.mem_flatMap.mp member
    exact fieldLine_nullFree (free.additional element inside).1 (free.additional element inside).2 null
  simp only [Header.writeTo, List.mem_append, from', newsgroups, subject, msgid, additional, or_self, not_false_iff]

theorem encodeBlock_nullFree (first : Bytes) (linelength : Nat) : 0 ∉ Yenc.encodeBlock first linelength := by
  obtain ⟨lines, block, free⟩ := YencLines.encodeBlock_induct (motive := fun _ lines => ∀ line ∈ lines, 0 ∉ line)
    linelength nofun
    (fun c rest lines later line member => by
      rcases List.mem_cons.mp member with rfl | inside
      · exact (YencGrammar.encodeColumns_grammatical linelength 0 (c :: rest)).clean.1
      · exact later line inside) first
  rw [block]
  intro member
  obtain ⟨line, inside, null⟩ := List.mem_flatMap.mp member
  rcases List.mem_append.mp null with text | ending
  · exact free line inside text
  · revert ending
    decide

theorem partText_nullFree (crc32 : Bytes → UInt32) (generator : Yencgenerator) (partnumber partOffset : Nat) (buf : Bytes)
    (name : 0 ∉ generator.filename) : 0 ∉ YencRoundTrip.partText crc32 generator partnumber partOffset buf := by
  have ending : 0 ∉ crlf := by decide
  have begins : 0 ∉ generator.ybegin partnumber := by
    simp only [Yencgenerator.ybegin, List.mem_append, decimal_nullFree, name, or_false]
    decide
  have range (partOffset bytesRead : Nat) : 0 ∉ Yencgenerator.ypart partOffset bytesRead := by
    simp only [Yencgenerator.ypart, List.mem_append, decimal_nullFree, or_false]
    decide
  have ends (bytesRead checksum : Nat) : 0 ∉ Yencgenerator.yend partnumber bytesRead checksum := by
    simp only [Yencgenerator.yend, List.mem_append, decimal_nullFree, hex_nullFree, or_false]
    decide
  simp only [YencRoundTrip.partText, List.mem_append, begins, ending, range, encodeBlock_nullFree, ends, or_self,
    not_false_iff]

theorem nonce_nullFree {length : Nat} {nonce : Bytes} (drawn : RunNonce length nonce) : 0 ∉ nonce :=
  drawn.not_mem (by decide)

theorem messageId_nullFree {nonce domain : Bytes} (nonceFree : 0 ∉ nonce) (domainFree : 0 ∉ domain)
    (fileIndex pieceIndex : Nat) : 0 ∉ Fileset.getUsenetMessageId nonce domain fileIndex pieceIndex := by
  simp only [Fileset.getUsenetMessageId, List.mem_append, decimal_nullFree, nonceFree, domainFree, or_false]
  decide

theorem subject_nullFree {postitems : Fileset} {opening subject name : Bytes} {fileIndex pieceIndex : Nat}
    (found : postitems.getUsenetSubject opening fileIndex pieceIndex = some subject)
    (named : postitems.getFileName fileIndex = some name) (openingFree : 0 ∉ opening) (nameFree : 0 ∉ name) : 0 ∉ subject := by
  obtain ⟨name, here, rest⟩ := Option.bind_eq_some_iff.mp found
  obtain ⟨pieces, -, same⟩ := Option.bind_eq_some_iff.mp rest
  cases same
  cases named.symm.trans here
  simp only [List.mem_append, decimal_nullFree, openingFree, nameFree, or_false, false_or]
  decide

theorem retry_nullFree {header : Header} (free : NullFreeHeader header) {cfg : ProgConfig}
    (domain : 0 ∉ cfg.msgiddomain) (key : FilepieceKey) {nonces : RetryNonces} (drawn : nonces.Drawn) :
    NullFreeHeader (header.retry cfg key nonces) := by
  refine { free with
    msgid := messageId_nullFree (nonce_nullFree drawn.messageNonce) domain key.fileIndex key.pieceIndex
    additional := ?_ }
  intro element member
  rcases List.mem_append.mp member with earlier | added
  · exact free.additional element earlier
  · rw [List.mem_singleton.mp added]
    refine ⟨?_, nonce_nullFree drawn.randomValue⟩
    rw [List.mem_append, not_or]
    exact ⟨by decide, nonce_nullFree drawn.randomKey⟩

theorem retries_nullFree {cfg : ProgConfig} {article : Article} {retries : List (FilepieceKey × RetryNonces)}
    (free : NullFreeHeader article.header) (domain : 0 ∉ cfg.msgiddomain) (drawn : ∀ retry ∈ retries, retry.2.Drawn) :
    NullFreeHeader (ArticleFraming.retried cfg article retries).header ∧
      (ArticleFraming.retried cfg article retries).payload = article.payload := by
  induction retries generalizing article with
  | nil => exact ⟨free, rfl⟩
  | cons retry rest ih =>
    have once := retry_nullFree free domain retry.1 (drawn retry (List.mem_cons_self ..))
    exact @ih (article.retry cfg retry.1 retry.2) once (fun other member => drawn other (List.mem_cons_of_mem _ member))

theorem wire_nullFree {sent : Article} (free : NullFreeHeader sent.header) (payload : 0 ∉ sent.payload.flatten) :
    0 ∉ sent.wire := by
  have ending : 0 ∉ crlf := by decide
  have term : 0 ∉ Protocol.messageTerm := by decide
  simp only [Article.wire, List.mem_append, writeTo_nullFree free, ending, payload, term, or_self, not_false_iff]

theorem makeArticle_nullFree (crc32 : Bytes → UInt32) {cfg : ProgConfig} {runNonce : Bytes} {postitems after : Fileset}
    {fileIndex pieceIndex : Nat} {article : Article}
    (built : makeArticle crc32 cfg runNonce postitems fileIndex pieceIndex = some (article, after))
    {name : Bytes} (named : postitems.getFileName fileIndex = some name) (texts : NullFreeTexts cfg name)
    (drawn : RunNonce nonceLength runNonce) :
    NullFreeHeader article.header ∧ 0 ∉ article.payload.flatten := by
  obtain ⟨item, subject, chunk, found, served, titled, rfl, -⟩ := makeArticle_some crc32 built
  have called : item.handle.filename = name := by
    rw [Fileset.getFileName, found] at named
    rw [show item.handle.filename = item.file.name from congrArg Yencgenerator.filename item.made]
    exact Option.some.inj named
  obtain ⟨-, buf, rfl⟩ := YencRoundTrip.getPart_text crc32 served
  refine ⟨⟨texts.from', texts.groups, ?_, ?_, fun _ member => by cases member⟩, ?_⟩
  · exact subject_nullFree titled named texts.subject texts.name
  · exact messageId_nullFree (nonce_nullFree drawn) texts.msgiddomain fileIndex pieceIndex
  · simp only [List.flatten_cons, List.flatten_nil, List.append_nil]
    exact partText_nullFree crc32 item.handle pieceIndex _ _ (called ▸ texts.name)

/-- What `main` sends, for the first time or again, of texts that break no lines and hold no
null byte. -/
inductive Composed (crc32 : Bytes → UInt32) : Article → Prop
  | sent {cfg : ProgConfig} {runNonce name : Bytes} {postitems after : Fileset} {fileIndex pieceIndex : Nat}
      {article : Article} {retries : List (FilepieceKey × RetryNonces)}
      (built : makeArticle crc32 cfg runNonce postitems fileIndex pieceIndex = some (article, after))
      (named : postitems.getFileName fileIndex = some name) (texts : ArticleFraming.InlineTexts cfg name)
      (nulls : NullFreeTexts cfg name) (drawn : RunNonce nonceLength runNonce)
      (retriesDrawn : ∀ retry ∈ retries, retry.2.Drawn) : Composed crc32 (ArticleFraming.retried cfg article retries)

/-- Every article that the program sends is framed. -/
theorem Composed.framed {crc32 : Bytes → UInt32} {article : Article} (composed : Composed crc32 article) :
    ∃ framed : Framed, framed.article = article := by
  obtain ⟨built, named, texts, -, drawn, retriesDrawn⟩ := composed
  obtain ⟨clean, body, payload, bodyPlain⟩ := ArticleFraming.makeArticle_clean crc32 built named texts drawn
  obtain ⟨sentClean, kept⟩ := ArticleFraming.retried_clean clean texts.msgiddomain retriesDrawn
  obtain ⟨wire, plain⟩ := ArticleFraming.wire_lines sentClean (kept ▸ payload) bodyPlain
  refine ⟨⟨_, _, wire, fun line member => ?_⟩, rfl⟩
  have undotted := plain line member
  exact ⟨undotted.1.1, fun same => undotted.2 (by rw [same]; rfl)⟩

/-- Every article that the program sends is one the server can stand, however often it was retried. -/
theorem Composed.nullFree {crc32 : Bytes → UInt32} {article : Article} (composed : Composed crc32 article) :
    ∃ sent : NullFree, sent.framed.article = article := by
  obtain ⟨framed, same⟩ := composed.framed
  obtain ⟨built, named, -, nulls, drawn, retriesDrawn⟩ := composed
  obtain ⟨header, payload⟩ := makeArticle_nullFree crc32 built named nulls drawn
  obtain ⟨sentHeader, kept⟩ := retries_nullFree header nulls.msgiddomain retriesDrawn
  refine ⟨⟨framed, ?_⟩, same⟩
  rw [same]
  exact wire_nullFree sentHeader (kept ▸ payload)

end Post2Usenet.Proofs.NullBytes
