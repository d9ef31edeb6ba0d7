import Post2Usenet.Lib.Xml

/-! Documents of elements as a reader of XML 1.0 has them: the tags with what follows each,
and the tree they make. An element has data or other elements in it, with white space between
them; a document has no comments, no CDATA sections, and instructions only in front of its
root. -/

namespace Xml

abbrev Text := List UInt8

/-- The characters that some bytes are, if they are UTF-8. -/
def characters (bytes : Text) : Option (List Char) := bytes.toByteArray.utf8Decode?.map Array.toList

theorem characters_utf8 (text : List Char) : characters (utf8 text) = some text := by
  have encoded : (utf8 text).toByteArray = text.utf8Encode := rfl
  rw [characters, encoded, List.utf8Decode?_utf8Encode]
  rfl

/-- Data between tags: as it is, but for its references. -/
def unescape : Option (List Char) → List Char → Option (List Char)
  | none, [] => some []
  | some _, [] => none
  | none, c :: rest =>
    if c = '&' then unescape (some []) rest
    else if isChar c = false then none
    else (unescape none rest).map (fun found => c :: found)
  | some name, c :: rest =>
    if c = ';' then (reference name).bind (fun meant => (unescape none rest).map (fun found => meant :: found))
    else unescape (some (name ++ [c])) rest

def characterData (bytes : Text) : Option Text :=
  (characters bytes).bind (fun text => (unescape none (normalizeLines text)).map utf8)

def value (bytes : Text) : Option Text :=
  (characters bytes).bind (fun text => (attributeValue text).map utf8)

/-- A reader that has the value finds it. -/
theorem value_of_reads {bytes meant : Text} (reads : Reads bytes meant) : value bytes = some meant := by
  obtain ⟨text, found, rfl, decoded, rfl⟩ := reads
  rw [value, characters_utf8, Option.bind_some, decoded]
  rfl

theorem characterData_plain {text : List Char} (plain : ∀ c ∈ text, isChar c = true ∧ c ≠ '&' ∧ c.toNat ≠ 13) :
    characterData (utf8 text) = some (utf8 text) := by
  have kept : unescape none text = some text := by
    induction text with
    | nil => rfl
    | cons c text ih =>
      obtain ⟨⟨valid, ampersand, -⟩, later⟩ := List.forall_mem_cons.mp plain
      rw [unescape, if_neg ampersand, if_neg (by simp [valid]), ih later]
      rfl
  rw [characterData, characters_utf8, Option.bind_some, normalizeLines_of_clean (fun c member => (plain c member).2.2), kept]
  rfl

inductive Tag where
  | declaration
  | start (name : Text) (attributes : List (Text × Text))
  | finish (name : Text)
  deriving DecidableEq

def isBlank (byte : UInt8) : Bool := byte = 9 || byte = 10 || byte = 13 || byte = 32

/-- A tag up to the bracket that closes it, which stands in no quotation, and what follows. -/
def closeTag : Bool → Text → Option (Text × Text)
  | _, [] => none
  | quoted, byte :: rest =>
    if byte = 62 ∧ quoted = false then some ([], rest)
    else (closeTag (if byte = 34 then !quoted else quoted) rest).map (fun found => (byte :: found.1, found.2))

/-- The name that stands before an equals sign, after some white space. -/
def attributeName (text : Text) : Option Text :=
  let name := text.dropWhile isBlank
  if name.length < text.length ∧ name.getLast? = some 61 then some name.dropLast else none

def readAttribute (entry : Text × Text) : Option (Text × Text) :=
  (attributeName entry.1).bind (fun name => (value entry.2).map (fun meant => (name, meant)))

def readTag (tag : Text) : Option Tag :=
  match tag.head? with
  | none => none
  | some first =>
    if first = 63 ∨ first = 33 then some .declaration
    else if first = 47 then some (.finish tag.tail)
    else
      ((attributes (tag.dropWhile (fun byte => !isBlank byte))).mapM readAttribute).map
        (.start (tag.takeWhile (fun byte => !isBlank byte)))

/-- A tag, without the bracket that opens it, and the data that follow it. -/
def readPiece (piece : Text) : Option (Tag × Text) :=
  (closeTag false piece).bind (fun (tag, rest) =>
    (readTag tag).bind (fun tag => (characterData rest).map (fun data => (tag, data))))

/-- Every tag starts with a bracket, and nothing stands in front of the first one. -/
def markup (document : Text) : Option (List (Tag × Text)) :=
  match document.splitOn 60 with
  | [] :: pieces => pieces.mapM readPiece
  | _ => none

inductive Element where
  | mk (name : Text) (attributes : List (Text × Text)) (data : Text) (children : List Element)

/-- An element that was closed, and what was found in it. The tags are read from the last one. -/
structure Frame where
  name : Text
  children : List Element

def enclose (tag : Tag × Text) (frames : List Frame) : Option (List Frame) :=
  match tag, frames with
  | (.declaration, data), frames => if data.all isBlank then some frames else none
  | (.finish name, data), frames => if data.all isBlank then some (⟨name, []⟩ :: frames) else none
  | (.start name attributes, data), inner :: outer :: frames =>
    if inner.name = name ∧ (inner.children = [] ∨ data.all isBlank) then
      some ({ outer with children := .mk name attributes data inner.children :: outer.children } :: frames)
    else none
  | (.start _ _, _), _ => none

/-- The root of a document. -/
def read (document : Text) : Option Element :=
  (markup document).bind (fun tags =>
    match tags.foldrM enclose [⟨[], []⟩] with
    | some [⟨_, [root]⟩] => some root
    | _ => none)

/-- Pieces that hold no opening bracket are found again. -/
theorem splitOn_pieces {first : Text} {pieces : List Text} (unopened : 60 ∉ first) (each : ∀ piece ∈ pieces, 60 ∉ piece) :
    (first ++ pieces.flatMap (fun piece => 60 :: piece)).splitOn 60 = first :: pieces := by
  have other : ∀ text : Text, 60 ∉ text → ∀ byte ∈ text, (byte == 60) = false := by
    intro text absent byte member
    simp only [beq_eq_false_iff_ne]
    exact ne_of_mem_of_not_mem member absent
  induction pieces generalizing first with
  | nil =>
    rw [List.flatMap_nil, List.append_nil, List.splitOn_eq_splitOnP]
    exact List.splitOnP_eq_singleton (other first unopened)
  | cons piece pieces ih =>
    obtain ⟨head, later⟩ := List.forall_mem_cons.mp each
    have ih := ih head later
    rw [List.splitOn_eq_splitOnP] at ih ⊢
    rw [List.flatMap_cons, List.cons_append,
      List.splitOnP_append_cons_of_forall_mem (other first unopened) 60 (by decide), ih]

theorem markup_pieces {pieces : List Text} {tags : List (Tag × Text)} (each : ∀ piece ∈ pieces, 60 ∉ piece)
    (tagged : pieces.mapM readPiece = some tags) : markup (pieces.flatMap (fun piece => 60 :: piece)) = some tags := by
  have split := splitOn_pieces List.not_mem_nil each
  rw [List.nil_append] at split
  rw [markup, split]
  exact tagged

/-- What stands in a quotation does not close a tag. -/
theorem closeTag_quoted {text : Text} (unquoted : 34 ∉ text) (rest : Text) :
    closeTag true (text ++ 34 :: rest) =
      (closeTag false rest).map (fun found => (text ++ 34 :: found.1, found.2)) := by
  induction text with
  | nil => simp [closeTag]
  | cons byte text ih =>
    have different : byte ≠ 34 := fun same => unquoted (by simp [same])
    have ih := ih (fun member => unquoted (List.mem_cons_of_mem _ member))
    simp [closeTag, different, ih, Function.comp_def]

theorem closeTag_unquoted {text : Text} (plain : ∀ byte ∈ text, byte ≠ 34 ∧ byte ≠ 62) (rest : Text) :
    closeTag false (text ++ rest) = (closeTag false rest).map (fun found => (text ++ found.1, found.2)) := by
  induction text with
  | nil => simp
  | cons byte text ih =>
    obtain ⟨⟨notQuote, notClose⟩, later⟩ := List.forall_mem_cons.mp plain
    simp [closeTag, notQuote, notClose, ih later, Function.comp_def]

/-- A name that stands for itself in a tag. -/
def Name (text : Text) : Prop := text ≠ [] ∧ ∀ byte ∈ text, 97 ≤ byte ∧ byte ≤ 122

instance (text : Text) : Decidable (Name text) := inferInstanceAs (Decidable (_ ∧ _))

/-- An attribute after the name of its element. -/
def entryText (entry : Text × Text) : Text := 32 :: (entry.1 ++ 61 :: 34 :: (entry.2 ++ [34]))

/-- What an attribute is read as. -/
def entryValue (entry : Text × Text) : Option (Text × Text) := (value entry.2).map (fun meant => (entry.1, meant))

/-- How a start tag is written. -/
def openTag (name : Text) (entries : List (Text × Text)) : Text := name ++ entries.flatMap entryText

theorem Name.not_mem {name : Text} (named : Name name) {byte : UInt8} (other : ¬ (97 ≤ byte ∧ byte ≤ 122)) : byte ∉ name :=
  fun member => other (named.2 byte member)

theorem Name.unclosing {name : Text} (named : Name name) : ∀ byte ∈ name, byte ≠ 34 ∧ byte ≠ 62 := fun _ member =>
  ⟨ne_of_mem_of_not_mem member (named.not_mem (by decide)), ne_of_mem_of_not_mem member (named.not_mem (by decide))⟩

theorem Name.unblank {name : Text} (named : Name name) : ∀ byte ∈ name, isBlank byte = false := by
  intro byte member
  have small := named.2 byte member
  simp only [isBlank, Bool.or_eq_false_iff, decide_eq_false_iff_not]
  refine ⟨⟨⟨?_, ?_⟩, ?_⟩, ?_⟩
  all_goals
    rintro rfl
    exact absurd small.1 (by decide)

theorem attributeName_entry {key : Text} (named : Name key) : attributeName (32 :: (key ++ [61])) = some key := by
  have stripped : (32 :: (key ++ [61])).dropWhile isBlank = key ++ [61] := by
    obtain ⟨first, rest, rfl⟩ := List.exists_cons_of_ne_nil named.1
    rw [List.dropWhile_cons_of_pos (by decide), List.cons_append,
      List.dropWhile_cons_of_neg (by simp [named.unblank first (List.mem_cons_self ..)])]
  simp [attributeName, stripped]

section OpenTag

variable {name : Text} {entries meant : List (Text × Text)} (named : Name name)
  (keys : ∀ entry ∈ entries, Name entry.1) (unquoted : ∀ entry ∈ entries, 34 ∉ entry.2)
  (means : entries.mapM entryValue = some meant)

include keys unquoted in
theorem closeTag_entries (rest : Text) :
    closeTag false (entries.flatMap entryText ++ 62 :: rest) = some (entries.flatMap entryText, rest) := by
  induction entries with
  | nil => simp [closeTag]
  | cons entry entries ih =>
    obtain ⟨key, laterKeys⟩ := List.forall_mem_cons.mp keys
    obtain ⟨value, laterValues⟩ := List.forall_mem_cons.mp unquoted
    have plainKey : ∀ byte ∈ 32 :: (entry.1 ++ [61]), byte ≠ 34 ∧ byte ≠ 62 :=
      List.forall_mem_cons.mpr ⟨⟨by decide, by decide⟩, List.forall_mem_append.mpr ⟨key.unclosing, by simp⟩⟩
    have begins := closeTag_unquoted plainKey (34 :: (entry.2 ++ 34 :: (entries.flatMap entryText ++ 62 :: rest)))
    rw [closeTag, if_neg (by decide), if_pos rfl, Bool.not_false, closeTag_quoted value, ih laterKeys laterValues] at begins
    simpa [entryText] using begins

include keys unquoted in
theorem attributes_entries : (attributes (entries.flatMap entryText)).mapM readAttribute = entries.mapM entryValue := by
  induction entries with
  | nil => rfl
  | cons entry entries ih =>
    obtain ⟨key, laterKeys⟩ := List.forall_mem_cons.mp keys
    obtain ⟨value, laterValues⟩ := List.forall_mem_cons.mp unquoted
    have plainKey : 34 ∉ 32 :: (entry.1 ++ [61]) := by simpa using key.not_mem (by decide)
    have cut := attributes_cons plainKey value (entries.flatMap entryText)
    have found : readAttribute (32 :: (entry.1 ++ [61]), entry.2) = entryValue entry := by
      rw [readAttribute, attributeName_entry key, Option.bind_some, entryValue]
    simp only [List.cons_append, List.append_assoc, List.nil_append] at cut
    simp only [List.flatMap_cons, entryText, List.cons_append, List.append_assoc, List.nil_append] at cut ih ⊢
    rw [cut, List.mapM_cons, found, ih laterKeys laterValues, List.mapM_cons]

include named keys unquoted means

theorem readTag_open :
    readTag (openTag name entries) = some (.start name meant) := by
  have unblank : ∀ byte ∈ name, (!isBlank byte) = true := fun byte member => by simp [named.unblank byte member]
  have parted : (openTag name entries).takeWhile (fun byte => !isBlank byte) = name ∧
      (openTag name entries).dropWhile (fun byte => !isBlank byte) = entries.flatMap entryText := by
    rw [openTag, List.takeWhile_append_of_pos unblank, List.dropWhile_append_of_pos unblank]
    cases entries with
    | nil => exact ⟨List.append_nil name, rfl⟩
    | cons entry entries => exact ⟨List.append_nil name, rfl⟩
  obtain ⟨first, rest, rfl⟩ := List.exists_cons_of_ne_nil named.1
  have letter := named.2 first (List.mem_cons_self ..)
  have others : first ≠ 63 ∧ first ≠ 33 ∧ first ≠ 47 := by
    refine ⟨?_, ?_, ?_⟩
    all_goals
      rintro rfl
      exact absurd letter.1 (by decide)
  have head : (openTag (first :: rest) entries).head? = some first := rfl
  simp only [readTag, head, others, or_self, ite_false, parted, attributes_entries keys unquoted, means,
    Option.map_some]

/-- A start tag is read as it was written, with what its attributes mean. -/
theorem readPiece_open {data shown : Text} (read : characterData data = some shown) :
    readPiece (openTag name entries ++ 62 :: data) = some (.start name meant, shown) := by
  have closed : closeTag false (openTag name entries ++ 62 :: data) = some (openTag name entries, data) := by
    rw [openTag, List.append_assoc, closeTag_unquoted named.unclosing, closeTag_entries keys unquoted]
    rfl
  rw [readPiece, closed, Option.bind_some]
  simp only [readTag_open named keys unquoted means, read, Option.bind_some, Option.map_some]

end OpenTag

theorem readPiece_finish {name : Text} (named : Name name) {data shown : Text} (read : characterData data = some shown) :
    readPiece (47 :: (name ++ 62 :: data)) = some (.finish name, shown) := by
  have plain : ∀ byte ∈ 47 :: name, byte ≠ 34 ∧ byte ≠ 62 := List.forall_mem_cons.mpr ⟨by decide, named.unclosing⟩
  have closed := closeTag_unquoted plain (62 :: data)
  rw [closeTag, if_pos ⟨rfl, rfl⟩] at closed
  simp only [List.cons_append, Option.map_some, List.append_nil] at closed
  have tagged : readTag (47 :: name) = some (.finish name) := rfl
  rw [readPiece, closed, Option.bind_some]
  simp only [tagged, read, Option.bind_some, Option.map_some]

/-- The tags of an element, read from the last one, leave it with its siblings. -/
def Builds (tags : List (Tag × Text)) (elements : List Element) : Prop :=
  ∀ name siblings frames, tags.foldrM enclose (⟨name, siblings⟩ :: frames) = some (⟨name, elements ++ siblings⟩ :: frames)

theorem builds_nil : Builds [] [] := fun _ _ _ => rfl

theorem Builds.append {first rest : List (Tag × Text)} {elements later : List Element} (builds : Builds first elements)
    (others : Builds rest later) : Builds (first ++ rest) (elements ++ later) := by
  intro name siblings frames
  rw [List.foldrM_append, others, Option.bind_eq_bind, Option.bind_some, builds, List.append_assoc]

/-- An element in which other elements stand, or data. -/
theorem Builds.element {tags : List (Tag × Text)} {children : List Element} (builds : Builds tags children)
    {name data after : Text} {attributes : List (Text × Text)} (blank : after.all isBlank = true)
    (either : children = [] ∨ data.all isBlank = true) :
    Builds ((.start name attributes, data) :: (tags ++ [(.finish name, after)])) [.mk name attributes data children] := by
  intro outer siblings frames
  have closed : enclose (.finish name, after) (⟨outer, siblings⟩ :: frames) = some (⟨name, []⟩ :: ⟨outer, siblings⟩ :: frames) :=
    if_pos blank
  have inside := builds name [] (⟨outer, siblings⟩ :: frames)
  rw [List.append_nil] at inside
  rw [List.foldrM_cons, List.foldrM_append, List.foldrM_cons, List.foldrM_nil]
  simp only [pure, Option.bind_eq_bind, Option.bind_some, closed, inside]
  exact if_pos ⟨rfl, either⟩

/-- A text in which these elements stand one after the other. -/
def Written (text : Text) (elements : List Element) : Prop :=
  ∃ (pieces : List Text) (tags : List (Tag × Text)), text = pieces.flatMap (fun piece => 60 :: piece) ∧ (∀ piece ∈ pieces, 60 ∉ piece) ∧
    pieces.mapM readPiece = some tags ∧ Builds tags elements

theorem written_nil : Written [] [] := ⟨[], [], rfl, List.forall_mem_nil _, rfl, builds_nil⟩

theorem Written.append {first rest : Text} {elements later : List Element} (written : Written first elements)
    (others : Written rest later) : Written (first ++ rest) (elements ++ later) := by
  obtain ⟨pieces, tags, rfl, unopened, tagged, builds⟩ := written
  obtain ⟨more, moreTags, rfl, moreUnopened, moreTagged, moreBuilds⟩ := others
  refine ⟨pieces ++ more, tags ++ moreTags, List.flatMap_append.symm, ?_, ?_, builds.append moreBuilds⟩
  · exact List.forall_mem_append.mpr ⟨unopened, moreUnopened⟩
  · rw [List.mapM_append, tagged, moreTagged]
    rfl

theorem Written.flatMap {α : Type v} {text : α → Text} {element : α → Element} {items : List α}
    (each : ∀ item ∈ items, Written (text item) [element item]) : Written (items.flatMap text) (items.map element) := by
  induction items with
  | nil => exact written_nil
  | cons item items ih =>
    obtain ⟨first, later⟩ := List.forall_mem_cons.mp each
    exact first.append (ih later)

theorem Name.unopened {name : Text} (named : Name name) : 60 ∉ name := named.not_mem (by decide)

theorem openTag_unopened {name : Text} {entries : List (Text × Text)} (named : Name name)
    (keys : ∀ entry ∈ entries, Name entry.1) (unopened : ∀ entry ∈ entries, 60 ∉ entry.2) : 60 ∉ openTag name entries := by
  intro member
  rcases List.mem_append.mp member with inside | inside
  · exact named.unopened inside
  · obtain ⟨entry, present, inside⟩ := List.mem_flatMap.mp inside
    simp only [entryText, List.mem_cons, List.mem_append, List.not_mem_nil, or_false] at inside
    rcases inside with impossible | inside | impossible | impossible | inside | impossible
    · exact absurd impossible (by decide)
    · exact (keys entry present).unopened inside
    · exact absurd impossible (by decide)
    · exact absurd impossible (by decide)
    · exact unopened entry present inside
    · exact absurd impossible (by decide)

/-- An element with what stands in it, and the end of its line. -/
theorem Written.element {inner : Text} {children : List Element} (written : Written inner children) (name : Text)
    (entries : List (Text × Text)) {meant : List (Text × Text)} (named : Name name)
    (keys : ∀ entry ∈ entries, Name entry.1) (bare : ∀ entry ∈ entries, 34 ∉ entry.2 ∧ 60 ∉ entry.2)
    (means : entries.mapM entryValue = some meant) {data shown : Text} (unopened : 60 ∉ data)
    (read : characterData data = some shown) (either : children = [] ∨ shown.all isBlank = true) :
    Written (60 :: (openTag name entries ++ 62 :: data) ++ inner ++ 60 :: 47 :: (name ++ [62, 10]))
      [.mk name meant shown children] := by
  obtain ⟨pieces, tags, rfl, unopenedInside, tagged, builds⟩ := written
  have opens := readPiece_open named keys (fun entry present => (bare entry present).1) means read
  have newline : characterData [10] = some [10] := by decide
  have closes : readPiece (47 :: (name ++ [62, 10])) = some (.finish name, [10]) := readPiece_finish named newline
  refine ⟨(openTag name entries ++ 62 :: data) :: (pieces ++ [47 :: (name ++ [62, 10])]),
    (.start name meant, shown) :: (tags ++ [(.finish name, [10])]),
    by simp, ?_, ?_, builds.element (by decide) either⟩
  · refine List.forall_mem_cons.mpr ⟨?_, List.forall_mem_append.mpr ⟨unopenedInside, ?_⟩⟩
    · have tag := openTag_unopened named keys (fun entry present => (bare entry present).2)
      simp [tag, unopened]
    · simp [named.unopened]
  · rw [List.mapM_cons, opens, List.mapM_append, tagged, List.mapM_cons, closes]
    rfl

/-- A document is read as its root. -/
theorem read_written {prolog : List Text} {declarations : List (Tag × Text)} {text : Text} {root : Element}
    (unopened : ∀ piece ∈ prolog, 60 ∉ piece) (declares : prolog.mapM readPiece = some declarations)
    (skipped : ∀ entry ∈ declarations, entry.1 = .declaration ∧ entry.2.all isBlank = true) (written : Written text [root]) :
    read (prolog.flatMap (fun piece => 60 :: piece) ++ text) = some root := by
  obtain ⟨pieces, tags, rfl, others, tagged, builds⟩ := written
  have both : (prolog ++ pieces).mapM readPiece = some (declarations ++ tags) := by
    rw [List.mapM_append, declares, tagged]
    rfl
  have passes (frames : List Frame) : declarations.foldrM enclose frames = some frames := by
    clear declares both
    induction declarations with
    | nil => rfl
    | cons entry declarations ih =>
      obtain ⟨⟨isDeclaration, blank⟩, later⟩ := List.forall_mem_cons.mp skipped
      obtain ⟨tag, data⟩ := entry
      cases isDeclaration
      rw [List.foldrM_cons, ih later]
      exact if_pos blank
  rw [read, ← List.flatMap_append, markup_pieces (List.forall_mem_append.mpr ⟨unopened, others⟩) both,
    Option.bind_some, List.foldrM_append, builds]
  simp only [Option.bind_eq_bind, Option.bind_some, passes, List.append_nil]

end Xml
