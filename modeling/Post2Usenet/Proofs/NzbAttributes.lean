import Post2Usenet.Lib.Collect
import Post2Usenet.Lib.Xml
import Post2Usenet.Main
import Post2Usenet.Proofs.MessageIds

/-! The values of the attributes that the NZB file holds. The escape covers every
special character but the ampersand, so a value is read as it was posted when, and
only when, the text needs no other escape. -/

namespace Post2Usenet.Proofs.NzbAttributes
open Main Xml

/-- A character that is read as itself. -/
def Plain (c : Char) : Prop := isChar c = true ∧ c ≠ '&' ∧ (isWhite c = true → c = ' ')

instance (c : Char) : Decidable (Plain c) := inferInstanceAs (Decidable (_ ∧ _ ∧ _))

/-- The bytes of characters that are read as themselves. -/
def Clean (bytes : Bytes) : Prop := ∃ text, utf8 text = bytes ∧ ∀ c ∈ text, Plain c

def escapeByte (byte : UInt8) : Bytes :=
  if byte = 34 then ascii "&quot;" else if byte = 39 then ascii "&apos;"
  else if byte = 60 then ascii "&lt;" else if byte = 62 then ascii "&gt;" else [byte]

theorem replaceAll_flatMap (pattern : UInt8) (text bytes : Bytes) (f : UInt8 → Bytes) :
    replaceAll pattern text (bytes.flatMap f) = bytes.flatMap (fun byte => replaceAll pattern text (f byte)) := by
  simp [replaceAll, List.flatMap_assoc]

/-- No replacement finds anything in the text of an earlier one. -/
theorem ghettoXmlEscape_eq (bytes : Bytes) : ghettoXmlEscape bytes = bytes.flatMap escapeByte := by
  have first : replaceAll 34 (ascii "&quot;") bytes = bytes.flatMap (fun byte => if byte = 34 then ascii "&quot;" else [byte]) :=
    rfl
  rw [ghettoXmlEscape, first, replaceAll_flatMap, replaceAll_flatMap, replaceAll_flatMap, replaceAll_flatMap]
  congr 1
  funext byte
  unfold escapeByte
  split_ifs with quote apostrophe less greater
  · decide
  · subst apostrophe; decide
  · subst less; decide
  · subst greater; decide
  · simp [replaceAll, apostrophe, less, greater]

/-- The four special characters and what the program writes for them. -/
def escapes : List (Char × List Char) :=
  [(Char.ofNat 34, ['q', 'u', 'o', 't']), (Char.ofNat 39, ['a', 'p', 'o', 's']), ('<', ['l', 't']), ('>', ['g', 't'])]

def escapeChar (c : Char) : List Char :=
  match escapes.lookup c with
  | some name => '&' :: (name ++ [';'])
  | none => [c]

def escapeText (text : List Char) : List Char := text.flatMap escapeChar

/-- A special character and its name, or any other character. -/
theorem escape_cases (c : Char) :
    (∃ name, (c, name) ∈ escapes ∧ escapeChar c = '&' :: (name ++ [';'])) ∨
      (c ∉ escapes.map Prod.fst ∧ escapeChar c = [c]) := by
  unfold escapeChar
  cases found : escapes.lookup c with
  | none =>
    refine .inr ⟨fun member => ?_, rfl⟩
    obtain ⟨⟨c, name⟩, inside, rfl⟩ := List.mem_map.mp member
    have unlike := List.lookup_eq_none_iff.mp found _ inside
    simp at unlike
  | some name =>
    obtain ⟨before, after, entries, -⟩ := List.lookup_eq_some_iff.mp found
    exact .inl ⟨name, by rw [entries]; simp, rfl⟩

private theorem escape_encoded (c : Char) : (String.utf8EncodeChar c).flatMap escapeByte = utf8 (escapeChar c) := by
  rcases escape_cases c with ⟨name, special, written⟩ | ⟨other, written⟩
  · rw [written]
    have each : ∀ entry ∈ escapes, (String.utf8EncodeChar entry.1).flatMap escapeByte = utf8 ('&' :: (entry.2 ++ [';'])) := by
      decide
    exact each (c, name) special
  · have kept : ∀ byte ∈ String.utf8EncodeChar c, escapeByte byte = [byte] := by
      intro byte member
      have absent : byte ∉ escapes.map (fun entry => UInt8.ofNat entry.1.toNat) := by
        intro inside
        obtain ⟨entry, special, rfl⟩ := List.mem_map.mp inside
        have each : ∀ entry ∈ escapes, UInt8.ofNat entry.1.toNat < 128 ∧ (UInt8.ofNat entry.1.toNat).toNat = entry.1.toNat := by
          decide
        obtain ⟨small, same⟩ := each entry special
        obtain ⟨-, value⟩ := mem_utf8EncodeChar member small
        have equal : c = entry.1 := Char.ext (UInt32.toNat_inj.mp (value.trans same))
        exact other (equal ▸ List.mem_map_of_mem special)
      have listed : escapes.map (fun entry => UInt8.ofNat entry.1.toNat) = [34, 39, 60, 62] := by decide
      simp only [listed, List.mem_cons, List.not_mem_nil, or_false, not_or] at absent
      simp [escapeByte, absent]
    rw [written, List.flatMap_congr kept]
    simp

theorem ghettoXmlEscape_utf8 (text : List Char) : ghettoXmlEscape (utf8 text) = utf8 (escapeText text) := by
  rw [ghettoXmlEscape_eq, utf8, escapeText, utf8, List.flatMap_assoc, List.flatMap_assoc]
  exact List.flatMap_congr (fun c _ => escape_encoded c)

theorem decode_escapeText {text : List Char} (plain : ∀ c ∈ text, Plain c) :
    decode none (escapeText text) = some text := by
  induction text with
  | nil => rfl
  | cons c text ih =>
    obtain ⟨⟨valid, ampersand, white⟩, later⟩ := List.forall_mem_cons.mp plain
    have ih := ih later
    rw [escapeText, List.flatMap_cons, ← escapeText]
    rcases escape_cases c with ⟨name, special, written⟩ | ⟨other, written⟩
    · have each : ∀ entry ∈ escapes, ';' ∉ entry.2 ∧ reference entry.2 = some entry.1 := by decide
      obtain ⟨unfinished, means⟩ := each (c, name) special
      rw [written, List.cons_append, List.append_assoc, List.singleton_append, decode_reference unfinished means, ih]
      rfl
    · have unlike : c ≠ '<' ∧ c ≠ Char.ofNat 34 :=
        ⟨ne_of_mem_of_not_mem (by decide) other |>.symm, ne_of_mem_of_not_mem (by decide) other |>.symm⟩
      have itself : shown c = c := by
        unfold shown
        split
        next isWhite => exact (white isWhite).symm
        next => rfl
      rw [written, List.singleton_append, decode, if_neg ampersand, if_neg (by simp [unlike, valid]), ih, itself]
      rfl

/-- What the text holds as a reference. -/
def isSpecial (c : Char) : Bool := c = ';' || escapes.any (fun entry => entry.1 = c)

/-- What only a reference can mean, and the text holds none for it. -/
def isBare (c : Char) : Bool := c = '&' || (isWhite c && c ≠ ' ')

theorem special_not_bare (c : Char) (special : isSpecial c = true) : isBare c = false := by
  rcases Bool.or_eq_true _ _ |>.mp special with mark | listed
  · rw [of_decide_eq_true mark]
    decide
  · obtain ⟨entry, inside, same⟩ := List.any_eq_true.mp listed
    have each : ∀ entry ∈ escapes, isBare entry.1 = false := by decide
    rw [← of_decide_eq_true same]
    exact each entry inside

theorem countP_special_or_bare (text : List Char) :
    text.countP (fun c => isSpecial c || isBare c) = text.countP isSpecial + text.countP isBare := by
  induction text with
  | nil => rfl
  | cons c text ih =>
    rw [List.countP_cons, List.countP_cons, List.countP_cons, ih]
    have apart := special_not_bare c
    cases special : isSpecial c with
    | true => simp [apart special]; omega
    | false => simp; omega

theorem count_escapeText (text : List Char) : (escapeText text).count ';' = text.countP isSpecial := by
  induction text with
  | nil => rfl
  | cons c text ih =>
    rw [escapeText, List.flatMap_cons, List.count_append, ← escapeText, ih, List.countP_cons, Nat.add_comm]
    congr 1
    rcases escape_cases c with ⟨name, special, written⟩ | ⟨other, written⟩
    · have each : ∀ entry ∈ escapes, ('&' :: (entry.2 ++ [';'])).count ';' = if isSpecial entry.1 = true then 1 else 0 := by
        decide
      rw [written]
      exact each (c, name) special
    · have unlisted : escapes.any (fun entry => entry.1 = c) = false := by
        rw [List.any_eq_false]
        intro entry inside same
        exact other (of_decide_eq_true same ▸ List.mem_map_of_mem inside)
      rw [written, List.count_singleton, isSpecial, unlisted, Bool.or_false]
      simp

private theorem escape_part {c : Char} {name : List Char} (special : (c, name) ∈ escapes) :
    ∀ part ∈ '&' :: (name ++ [';']), part ∉ escapes.map Prod.fst ∧ part.toNat ≠ 13 := by
  have each : ∀ entry ∈ escapes, ('&' :: (entry.2 ++ [';'])).all
      (fun part => part ∉ escapes.map Prod.fst ∧ part.toNat ≠ 13) = true := by decide
  intro part member
  exact of_decide_eq_true (List.all_eq_true.mp (each (c, name) special) part member)

theorem mem_escapeText {text : List Char} : ∀ c ∈ escapeText text, c ∉ escapes.map Prod.fst := by
  intro c member
  obtain ⟨first, -, member⟩ := List.mem_flatMap.mp member
  rcases escape_cases first with ⟨name, special, written⟩ | ⟨other, written⟩
  · exact (escape_part special c (written ▸ member)).1
  · rw [written, List.mem_singleton] at member
    exact member ▸ other

theorem shown_special {c : Char} (unescaped : c ∉ escapes.map Prod.fst) (ampersand : c ≠ '&')
    (marked : (isSpecial (shown c) || isBare (shown c)) = true) : c = ';' := by
  unfold shown at marked
  split at marked
  · exact absurd marked (by decide)
  next visible =>
    have unlisted : escapes.any (fun entry => entry.1 = c) = false := by
      rw [List.any_eq_false]
      intro entry inside same
      exact unescaped (of_decide_eq_true same ▸ List.mem_map_of_mem inside)
    simpa [isSpecial, isBare, unlisted, ampersand, visible] using marked

theorem attributeValue_escapeText (text : List Char) :
    attributeValue (escapeText text) = some text ↔ ∀ c ∈ text, Plain c := by
  constructor
  · intro value
    have bounded : text.countP (fun c => isSpecial c || isBare c) ≤ (normalizeLines (escapeText text)).count ';' := by
      apply decode_count value
      intro c member ampersand marked
      rcases mem_normalizeLines c member with inside | lineFeed
      · exact shown_special (mem_escapeText c inside) ampersand marked
      · have same : c = Char.ofNat 10 := by rw [← lineFeed, Char.ofNat_toNat]
        rw [same] at marked
        exact absurd marked (by decide)
    rw [count_normalizeLines, count_escapeText, countP_special_or_bare] at bounded
    have none' : text.countP isBare = 0 := by omega
    intro c member
    have unmarked := List.countP_eq_zero.mp none' c member
    simp only [isBare, Bool.or_eq_true, Bool.and_eq_true, decide_eq_true_eq, not_or, not_and, not_not] at unmarked
    exact ⟨decode_isChar value c member, unmarked.1, unmarked.2⟩
  · intro plain
    rw [attributeValue, normalizeLines_of_clean, decode_escapeText plain]
    intro c member carriageReturn
    obtain ⟨first, inside, member⟩ := List.mem_flatMap.mp member
    rcases escape_cases first with ⟨name, special, written⟩ | ⟨other, written⟩
    · exact (escape_part special c (written ▸ member)).2 carriageReturn
    · rw [written, List.mem_singleton] at member
      have space := (plain first inside).2.2 (by simp [isWhite, ← member, carriageReturn])
      rw [member, space] at carriageReturn
      exact absurd carriageReturn (by decide)

/-- The escaped text is read as the text when, and only when, every character of it is plain. -/
theorem reads_escape_iff (bytes : Bytes) : Reads (ghettoXmlEscape bytes) bytes ↔ Clean bytes := by
  constructor
  · rintro ⟨text, found, written, value, rfl⟩
    rw [ghettoXmlEscape_utf8] at written
    obtain rfl := utf8_injective written
    exact ⟨found, rfl, (attributeValue_escapeText found).mp value⟩
  · rintro ⟨text, rfl, plain⟩
    exact ⟨escapeText text, text, (ghettoXmlEscape_utf8 text).symm, (attributeValue_escapeText text).mpr plain, rfl⟩

theorem plain_ascii {byte : UInt8} (plain : MessageIds.PlainByte byte) : Plain (Char.ofNat byte.toNat) := by
  obtain ⟨low, high, ampersand⟩ := plain
  have value := toNat_ascii (UInt8.lt_trans high (by decide))
  have low : 32 ≤ byte.toNat := low
  have high : byte.toNat < 127 := high
  refine ⟨?_, ?_, ?_⟩
  · simp only [isChar, value, Bool.or_eq_true, Bool.and_eq_true, decide_eq_true_eq]
    omega
  · intro same
    rw [same] at value
    exact ampersand (UInt8.toNat_inj.mp value.symm)
  · intro white
    simp only [isWhite, value, Bool.or_eq_true, decide_eq_true_eq] at white
    have space : byte.toNat = 32 := by omega
    rw [space]

theorem clean_append_plain {byte : UInt8} (plain : MessageIds.PlainByte byte) (first rest : Bytes) :
    Clean (first ++ byte :: rest) ↔ Clean first ∧ Clean rest := by
  have small : byte < 128 := UInt8.lt_of_lt_of_le plain.2.1 (by decide)
  constructor
  · rintro ⟨text, bytes, all⟩
    obtain ⟨before, c, after, rfl, rfl, -, rfl⟩ := utf8_append_ascii small bytes
    obtain ⟨beforePlain, afterPlain⟩ := List.forall_mem_append.mp all
    exact ⟨⟨before, rfl, beforePlain⟩, after, rfl, (List.forall_mem_cons.mp afterPlain).2⟩
  · rintro ⟨⟨before, rfl, beforePlain⟩, after, rfl, afterPlain⟩
    refine ⟨before ++ Char.ofNat byte.toNat :: after, by simp [utf8EncodeChar_ascii small], ?_⟩
    exact List.forall_mem_append.mpr ⟨beforePlain, List.forall_mem_cons.mpr ⟨plain_ascii plain, afterPlain⟩⟩

theorem clean_nil : Clean [] := ⟨[], rfl, List.forall_mem_nil _⟩

theorem clean_plain_append {first : Bytes} (plain : ∀ byte ∈ first, MessageIds.PlainByte byte) (rest : Bytes) :
    Clean (first ++ rest) ↔ Clean rest := by
  induction first with
  | nil => rfl
  | cons byte first ih =>
    obtain ⟨head, later⟩ := List.forall_mem_cons.mp plain
    have alone := clean_append_plain head [] (first ++ rest)
    rw [List.cons_append, ← ih later, ← and_iff_right clean_nil (b := Clean (first ++ rest))]
    exact alone

theorem clean_subject {postitems : Fileset} {opening subject name : Bytes} {fileIndex pieceIndex : Nat}
    (found : postitems.getUsenetSubject opening fileIndex pieceIndex = some subject)
    (named : postitems.getFileName fileIndex = some name) : Clean subject ↔ Clean opening ∧ Clean name := by
  obtain ⟨position, ending, positionPlain, endingPlain, rfl⟩ := MessageIds.getUsenetSubject_some found named
  have endingClean : Clean ending := by
    rw [← List.append_nil ending]
    exact (clean_plain_append endingPlain []).mpr clean_nil
  calc Clean (opening ++ 32 :: (position ++ (name ++ 34 :: ending)))
    _ ↔ Clean opening ∧ Clean (name ++ 34 :: ending) := by
      rw [clean_append_plain (by decide), clean_plain_append positionPlain]
    _ ↔ Clean opening ∧ Clean name := by
      rw [clean_append_plain (by decide), and_iff_left endingClean]

theorem quote_escaped (bytes : Bytes) : 34 ∉ ghettoXmlEscape bytes := by
  rw [ghettoXmlEscape_eq]
  intro member
  obtain ⟨byte, -, member⟩ := List.mem_flatMap.mp member
  unfold escapeByte at member
  split_ifs at member with quote
  · exact absurd member (by decide)
  · exact absurd member (by decide)
  · exact absurd member (by decide)
  · exact absurd member (by decide)
  · exact quote (List.mem_singleton.mp member).symm

def poster : Bytes := ascii "<file poster="

def subject : Bytes := ascii " subject="

/-- A reader of the element finds this value after these bytes. -/
def AttributeReads (element name value : Bytes) : Prop :=
  ∃ written, (attributes element).lookup name = some written ∧ Reads written value

section Element

variable {launch : Launch} {main : Main} {epochTime fileIndex : Nat} {element : Bytes}

theorem fileElement_attributes (made : main.fileElement launch epochTime fileIndex = some element) :
    ∃ title rest, main.postitems.getUsenetSubject launch.cfg.subject fileIndex 0 = some title ∧
      attributes element = (poster, ghettoXmlEscape launch.cfg.from') :: (ascii " date=", decimal epochTime) ::
        (subject, ghettoXmlEscape title) :: rest := by
  obtain ⟨title, named, rest⟩ := Option.bind_eq_some_iff.mp made
  obtain ⟨segments, -, same⟩ := Option.bind_eq_some_iff.mp rest
  cases same
  let content := ascii ">\n" ++ ascii "<groups>\n"
    ++ launch.cfg.groups.flatMap (fun group => ascii "<group>" ++ group ++ ascii "</group>\n")
    ++ ascii "</groups>\n"
    ++ ascii "<segments>\n" ++ segments.flatMap segmentLine ++ ascii "</segments>\n"
    ++ ascii "</file>\n"
  have dateUnquoted : 34 ∉ decimal epochTime := MessageIds.not_mem_decimal rfl epochTime
  refine ⟨title, attributes content, named, ?_⟩
  rw [← attributes_cons (by decide) (quote_escaped title), ← attributes_cons (by decide) dateUnquoted,
    ← attributes_cons (by decide) (quote_escaped launch.cfg.from')]
  simp [fileOpening, fileClosing, ascii, poster, subject, content]

theorem fileElement_reads (made : main.fileElement launch epochTime fileIndex = some element) {item : Postitem main.postitems.articlesize}
    (found : main.postitems.items[fileIndex]? = some item) :
    ∃ title, main.postitems.getUsenetSubject launch.cfg.subject fileIndex 0 = some title ∧
      (AttributeReads element poster launch.cfg.from' ↔ Clean launch.cfg.from') ∧
      (AttributeReads element subject title ↔ Clean launch.cfg.subject ∧ Clean item.file.name) := by
  obtain ⟨title, rest, named, found'⟩ := fileElement_attributes made
  have fileName : main.postitems.getFileName fileIndex = some item.file.name := congrArg (Option.map _) found
  have posterFound : (attributes element).lookup poster = some (ghettoXmlEscape launch.cfg.from') := by
    rw [found']
    rfl
  have subjectFound : (attributes element).lookup subject = some (ghettoXmlEscape title) := by
    rw [found']
    rfl
  refine ⟨title, named, ?_, ?_⟩
  · simp only [← reads_escape_iff, AttributeReads, posterFound, Option.some.injEq, exists_eq_left']
  · rw [← clean_subject named fileName]
    simp only [← reads_escape_iff, AttributeReads, subjectFound, Option.some.injEq, exists_eq_left']

end Element

/-- The elements of the file, one for each file of the run, and their attributes: all
are read as they were posted when, and only when, every text is clean. -/
theorem attributes_read_iff {launch : Launch} {main : Main} {epochTime : Nat} {nzb : Bytes}
    (written : main.writeNzb launch epochTime = some nzb) :
    ∃ (opening : Bytes) (elements : List Bytes), nzb = opening ++ elements.flatten ++ ascii "</nzb>\n" ∧
      elements.map some = (List.range main.postitems.getNumFiles).map (main.fileElement launch epochTime) ∧
      ((∀ fileIndex element, elements[fileIndex]? = some element →
          ∃ title, main.postitems.getUsenetSubject launch.cfg.subject fileIndex 0 = some title ∧
            AttributeReads element poster launch.cfg.from' ∧ AttributeReads element subject title) ↔
        ∀ item ∈ main.postitems.items, Clean launch.cfg.from' ∧ Clean launch.cfg.subject ∧ Clean item.file.name) := by
  obtain ⟨elements, mapped, same⟩ := Option.bind_eq_some_iff.mp written
  cases same
  have each := (Collect.mapM_eq_some_iff.mp mapped).symm
  refine ⟨_, elements, rfl, each, ?_⟩
  have placed : ∀ fileIndex element item, elements[fileIndex]? = some element →
      main.postitems.items[fileIndex]? = some item →
      ∃ title, main.postitems.getUsenetSubject launch.cfg.subject fileIndex 0 = some title ∧
        (AttributeReads element poster launch.cfg.from' ↔ Clean launch.cfg.from') ∧
        (AttributeReads element subject title ↔ Clean launch.cfg.subject ∧ Clean item.file.name) := by
    intro fileIndex element item inside found
    have same := congrArg (fun results => results[fileIndex]?) each
    have counted : fileIndex < main.postitems.getNumFiles := (List.getElem?_eq_some_iff.mp found).1
    have made : main.fileElement launch epochTime fileIndex = some element := by
      simpa [inside, counted] using same.symm
    exact fileElement_reads made found
  have counted : elements.length = main.postitems.items.length := by
    simpa [Fileset.getNumFiles] using congrArg List.length each
  constructor
  · intro reads item member
    obtain ⟨fileIndex, bound, found⟩ := List.getElem_of_mem member
    have inside : elements[fileIndex]? = some elements[fileIndex] := List.getElem?_eq_getElem (by omega)
    obtain ⟨title, named, posterRead, subjectRead⟩ := reads fileIndex _ inside
    obtain ⟨same, again, posterIff, subjectIff⟩ := placed fileIndex _ item inside (found ▸ List.getElem?_eq_getElem bound)
    cases Option.some.inj (named.symm.trans again)
    exact ⟨posterIff.mp posterRead, subjectIff.mp subjectRead⟩
  · intro clean fileIndex element inside
    have bound : fileIndex < main.postitems.items.length := counted ▸ (List.getElem?_eq_some_iff.mp inside).1
    obtain ⟨title, named, posterIff, subjectIff⟩ := placed fileIndex element _ inside (List.getElem?_eq_getElem bound)
    obtain ⟨posterClean, subjectClean⟩ := clean _ (List.getElem_mem bound)
    exact ⟨title, named, posterIff.mpr posterClean, subjectIff.mpr subjectClean⟩

private def launchFrom (from' : Bytes) : Launch where
  cfg := {
    from'
    servers := []
    subject := ascii "nzb"
    msgiddomain := ascii "example"
    articleSize := 3
    ioThreads := 1
    queueSize := 5
    operationTimeout := 0
    validatePosts := false
    groups := [ascii "alt.test"]
    nzboutput := ascii "h.nzb" }
  postitems := Fileset.addFile ⟨3, []⟩ ⟨ascii "h.bin", [10, 24], by decide⟩
  runNonce := ascii "ghijklmnop789012"
  single := rfl
  drawn := by decide
  files_fit := by decide
  pieces_fit := by decide

/-- The program after its only piece was posted. -/
private def sampleMain (from' : Bytes) : Main :=
  { (launchFrom from').begin .named with position := .writing, pieceSizes := fun _ => some 117 }

private def quotedFrom : Bytes := ascii "\"A\" <a'b@c>"

private def quotedNzb : Bytes := ((sampleMain quotedFrom).writeNzb (launchFrom quotedFrom) 0).get (by decide +kernel)

theorem clean_literal (text : String) {bytes : Bytes} (encoded : utf8 text.toList = bytes)
    (all : text.toList.all (fun c => Plain c) = true) : Clean bytes :=
  ⟨text.toList, encoded, fun c member => of_decide_eq_true (List.all_eq_true.mp all c member)⟩

/-- Quotes, apostrophes and angle brackets are read again. -/
theorem quoted_read :
    ∃ (opening : Bytes) (elements : List Bytes), quotedNzb = opening ++ elements.flatten ++ ascii "</nzb>\n" ∧
      ∀ fileIndex element, elements[fileIndex]? = some element →
        ∃ title, (sampleMain quotedFrom).postitems.getUsenetSubject (ascii "nzb") fileIndex 0 = some title ∧
          AttributeReads element poster quotedFrom ∧ AttributeReads element subject title := by
  have written : (sampleMain quotedFrom).writeNzb (launchFrom quotedFrom) 0 = some quotedNzb := (Option.some_get _).symm
  obtain ⟨opening, elements, same, -, reads⟩ := attributes_read_iff written
  refine ⟨opening, elements, same, reads.mpr ?_⟩
  intro item member
  cases List.mem_singleton.mp member
  exact ⟨clean_literal "\"A\" <a'b@c>" rfl rfl, clean_literal "nzb" rfl rfl, clean_literal "h.bin" rfl rfl⟩

private def ampersandFrom : Bytes := ascii "A & B"

private def ampersandElement : Bytes :=
  ((sampleMain ampersandFrom).fileElement (launchFrom ampersandFrom) 0 0).get rfl

/-- An ampersand is written as it is, and what follows it is no reference. -/
theorem ampersand_unread :
    ((sampleMain ampersandFrom).writeNzb (launchFrom ampersandFrom) 0).isSome = true ∧
      (sampleMain ampersandFrom).fileElement (launchFrom ampersandFrom) 0 0 = some ampersandElement ∧
      (attributes ampersandElement).lookup poster = some (ascii "A & B") ∧
      (∀ value, ¬ Reads (ascii "A & B") value) ∧
      ¬ AttributeReads ampersandElement poster ampersandFrom := by
  have found : (attributes ampersandElement).lookup poster = some (ascii "A & B") := by decide +kernel
  have unread : ∀ value, ¬ Reads (ascii "A & B") value := by
    rintro value ⟨text, found, bytes, decoded, -⟩
    obtain rfl : text = "A & B".toList := utf8_injective (bytes.trans (by decide))
    exact absurd (decoded.symm.trans (by decide : attributeValue "A & B".toList = none)) (by simp)
  refine ⟨by decide +kernel, (Option.some_get rfl).symm, found, unread, ?_⟩
  rintro ⟨written, same, reads⟩
  cases Option.some.inj (found.symm.trans same)
  exact unread _ reads

end Post2Usenet.Proofs.NzbAttributes
