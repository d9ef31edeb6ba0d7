import Post2Usenet.Lib.Slices
import Post2Usenet.Yencgenerator
import Post2Usenet.Proofs.YencLines

/-! A file cut into yEnc parts comes back from them. Each part stands for one
slice of the file, whatever the bytes of the slice are. -/

namespace Post2Usenet.Proofs.YencRoundTrip
open Yenc Yencgenerator YencLines

theorem expect_label (label : String) (rest : Bytes) : expect label (ascii label ++ rest) = some rest :=
  List.dropPrefix?_eq_some_iff.mpr ⟨ascii label, rfl, by simp⟩

-- The label after a number starts with a blank, so the number ends where it should.
private theorem expectNumber_then {base : Nat} (proper : 1 < base) (bound : base ≤ 16) (label following : String)
    (n : Nat) (rest : Bytes) (stops : (ascii following).head?.map (Numeral.isDigit base) = some false) :
    expectNumber base label (ascii label ++ (Numeral.print base n ++ (ascii following ++ rest))) =
      some (n, ascii following ++ rest) := by
  rw [expectNumber, expect_label, Option.bind_some, Numeral.read_print proper bound]
  intro byte first
  obtain ⟨head, same, other⟩ := Option.map_eq_some_iff.mp stops
  rw [List.head?_append, same] at first
  cases first
  exact other

private theorem expectNumber_last {base : Nat} (proper : 1 < base) (bound : base ≤ 16) (label : String) (n : Nat) :
    expectNumber base label (ascii label ++ Numeral.print base n) = some (n, []) := by
  have read := Numeral.read_print proper bound n [] (by simp)
  rw [List.append_nil] at read
  rw [expectNumber, expect_label, Option.bind_some, read]

theorem readBegin_ybegin (generator : Yencgenerator) (partnumber : Nat) :
    readBegin (generator.ybegin partnumber) =
      some ⟨sizeT (partnumber + 1), generator.numParts, generator.linesize, generator.filesize, generator.filename⟩ := by
  simp only [ybegin, List.append_assoc, readBegin, decimal, Option.bind_eq_bind]
  simp (disch := decide) only [expectNumber_then, expect_label, Option.bind_some]
  rfl

theorem readPart_ypart (partOffset bytesRead : Nat) :
    readPart (ypart partOffset bytesRead) = some ⟨sizeT (partOffset + 1), sizeT (partOffset + bytesRead)⟩ := by
  simp only [ypart, List.append_assoc, readPart, decimal, Option.bind_eq_bind]
  simp (disch := decide) only [expectNumber_then, expectNumber_last, Option.bind_some]
  rfl

theorem readEnd_yend (partnumber bytesRead checksum : Nat) :
    readEnd (yend partnumber bytesRead checksum) = some ⟨bytesRead, sizeT (partnumber + 1), checksum⟩ := by
  simp only [yend, List.append_assoc, readEnd, decimal, hex, Option.bind_eq_bind]
  simp (disch := decide) only [expectNumber_then, expectNumber_last, Option.bind_some]
  rfl

theorem ybegin_keyword (generator : Yencgenerator) (partnumber : Nat) :
    isKeywordLine (generator.ybegin partnumber) = true := by
  simp only [ybegin, List.append_assoc]
  rfl

theorem ypart_keyword (partOffset bytesRead : Nat) : isKeywordLine (ypart partOffset bytesRead) = true := by
  simp only [ypart, List.append_assoc]
  rfl

theorem yend_keyword (partnumber bytesRead checksum : Nat) :
    isKeywordLine (yend partnumber bytesRead checksum) = true := by
  simp only [yend, List.append_assoc]
  rfl

theorem ybegin_inline (generator : Yencgenerator) (partnumber : Nat) (name : Inline generator.filename) :
    Inline (generator.ybegin partnumber) := by
  simp only [ybegin, inline_append, inline_decimal, name, and_true]
  decide

theorem ypart_inline (partOffset bytesRead : Nat) : Inline (ypart partOffset bytesRead) := by
  simp only [ypart, inline_append, inline_decimal, and_true]
  decide

theorem yend_inline (partnumber bytesRead checksum : Nat) : Inline (yend partnumber bytesRead checksum) := by
  simp only [yend, inline_append, inline_decimal, inline_hex, and_true]
  decide

variable (crc32 : Bytes → UInt32)

def partText (generator : Yencgenerator) (partnumber partOffset : Nat) (buf : Bytes) : Bytes :=
  generator.ybegin partnumber ++ crlf ++ (ypart partOffset buf.length ++ crlf)
    ++ encodeBlock buf generator.linesize ++ (yend partnumber buf.length (crc32 buf).toNat ++ crlf)

def partLines (generator : Yencgenerator) (partnumber partOffset : Nat) (buf : Bytes) (data : List Bytes) : List Bytes :=
  generator.ybegin partnumber :: ypart partOffset buf.length :: data ++ [yend partnumber buf.length (crc32 buf).toNat]

theorem partText_lines (generator : Yencgenerator) (partnumber partOffset : Nat) (buf : Bytes) :
    ∃ data, partText crc32 generator partnumber partOffset buf =
        Lines.join cr lf (partLines crc32 generator partnumber partOffset buf data) ∧
      (∀ line ∈ data, DataLine line) ∧ decodeLines data = some buf := by
  obtain ⟨data, block, lines, decoded⟩ := encodeBlock_lines buf generator.linesize
  refine ⟨data, ?_, lines, decoded⟩
  simp only [partText, partLines, block, crlf, Lines.join_append, Lines.join_cons, Lines.join_nil, List.cons_append,
    List.append_assoc, List.nil_append]

theorem partLines_inline (generator : Yencgenerator) (partnumber partOffset : Nat) (buf : Bytes) {data : List Bytes}
    (name : Inline generator.filename) (lines : ∀ line ∈ data, DataLine line) :
    ∀ line ∈ partLines crc32 generator partnumber partOffset buf data, Inline line := by
  intro line member
  simp only [partLines, List.mem_append, List.mem_cons, List.not_mem_nil, or_false] at member
  rcases member with (rfl | rfl | inside) | rfl
  · exact ybegin_inline generator partnumber name
  · exact ypart_inline ..
  · exact (lines line inside).inline
  · exact yend_inline ..

private theorem partLines_keywords (generator : Yencgenerator) (partnumber partOffset : Nat) (buf : Bytes)
    {data : List Bytes} (lines : ∀ line ∈ data, DataLine line) :
    (partLines crc32 generator partnumber partOffset buf data).filter isKeywordLine =
      [generator.ybegin partnumber, ypart partOffset buf.length, yend partnumber buf.length (crc32 buf).toNat] := by
  have none : data.filter isKeywordLine = [] :=
    List.filter_eq_nil_iff.mpr (fun line member => by simp [(lines line member).unkeyed])
  simp only [partLines, List.cons_append, List.filter_cons, List.filter_append, List.filter_nil, ybegin_keyword,
    ypart_keyword, yend_keyword, none, ite_true, List.nil_append]

private theorem partLines_data (generator : Yencgenerator) (partnumber partOffset : Nat) (buf : Bytes)
    {data : List Bytes} (lines : ∀ line ∈ data, DataLine line) :
    (partLines crc32 generator partnumber partOffset buf data).filter (fun line => !isKeywordLine line) = data := by
  have all : data.filter (fun line => !isKeywordLine line) = data :=
    List.filter_eq_self.mpr (fun line member => by simp [(lines line member).unkeyed])
  simp only [partLines, List.cons_append, List.filter_cons, List.filter_append, List.filter_nil, ybegin_keyword,
    ypart_keyword, yend_keyword, all, Bool.not_true, Bool.false_eq_true, ite_false, List.append_nil]

/-- Whatever bytes a part stands for, its reader gets them back with the numbers
and the name that were written. -/
theorem decode_partText (generator : Yencgenerator) (partnumber partOffset : Nat) (buf : Bytes)
    (name : Inline generator.filename) :
    decode (partText crc32 generator partnumber partOffset buf) = some {
      opening := ⟨sizeT (partnumber + 1), generator.numParts, generator.linesize, generator.filesize, generator.filename⟩
      range := ⟨sizeT (partOffset + 1), sizeT (partOffset + buf.length)⟩
      closing := ⟨buf.length, sizeT (partnumber + 1), (crc32 buf).toNat⟩
      content := buf } := by
  obtain ⟨data, text, lines, decoded⟩ := partText_lines crc32 generator partnumber partOffset buf
  have inline := partLines_inline crc32 generator partnumber partOffset buf name lines
  have split : Lines.split cr lf (partText crc32 generator partnumber partOffset buf) =
      (partLines crc32 generator partnumber partOffset buf data, []) := by
    rw [text, Lines.split_join_all (fun line member => (inline line member).1)]
  simp only [decode, split, partLines_keywords crc32 generator partnumber partOffset buf lines,
    partLines_data crc32 generator partnumber partOffset buf lines, Option.bind_eq_bind, Option.bind_some,
    readBegin_ybegin, readPart_ypart, readEnd_yend, decoded]
  rfl

/-- A generator of this file, with the settings its constructor gave it. -/
structure Serves (file : File) (articlesize linesize : Nat) (generator : Yencgenerator) : Prop where
  settings : generator = { make file articlesize linesize with file := generator.file }
  content : generator.file.content = file.content

def Good (generator : Yencgenerator) : Prop := generator.file.eofbit = false ∧ generator.file.failbit = false

variable {file : File} {articlesize linesize : Nat}

theorem make_serves : Serves file articlesize linesize (make file articlesize linesize) := ⟨rfl, rfl⟩

theorem numParts_make : (make file articlesize linesize).numParts = Slices.count file.content.length articlesize := by
  simp only [numParts, make, Slices.count]
  split <;> rfl

/-- Everything printed about a part of the file fits a `size_t`. -/
theorem part_fits (positive : 0 < articlesize) {partnumber : Nat}
    (inside : partnumber < Slices.count file.content.length articlesize) :
    partnumber * articlesize < file.content.length ∧ partnumber + 1 < 2 ^ 64 := by
  have start := Slices.start_lt positive inside
  have bound := file.size_fits
  have growth : partnumber ≤ partnumber * articlesize := Nat.le_mul_of_pos_right partnumber positive
  omega

/-- The largest article size for which `get_part` can reserve its buffers. -/
def largestArticle : Nat := 6148914691236516352

theorem timesOneAndAHalf_mono {size other : Nat} (le : size ≤ other) : timesOneAndAHalf size ≤ timesOneAndAHalf other :=
  Nat.div_le_div_right (Rounding.nearest_mono (by decide)
    (Nat.mul_le_mul_left 3 (Rounding.nearest_mono (by decide) le)))

/-- Rounding is monotone, so it is enough to round the two sizes at the limit. -/
theorem reserved_iff (size : Nat) : size ≤ maxSize ∧ timesOneAndAHalf size ≤ maxSize ↔ size ≤ largestArticle := by
  constructor
  · rintro ⟨-, product⟩
    by_contra exceeds
    have above := (timesOneAndAHalf_mono (Nat.lt_of_not_le exceeds : largestArticle + 1 ≤ size)).trans product
    exact absurd above (by decide)
  · intro within
    exact ⟨within.trans (by decide), (timesOneAndAHalf_mono within).trans (by decide)⟩

/-- Any other size makes every call throw before it has read anything. -/
theorem getPart_throws (generator : Yencgenerator) (partnumber : Nat) (exceeds : largestArticle < generator.articlesize) :
    (generator.getPart crc32 partnumber).1 = none := by
  simp only [getPart, fillBuffer, reserved_iff, if_neg (Nat.not_le_of_lt exceeds), Option.map_none]

/-- A call that does not throw returns the text of what it has read. -/
theorem getPart_text {generator : Yencgenerator} {partnumber : Nat} {part : Bytes}
    (served : (generator.getPart crc32 partnumber).1 = some part) :
    generator.articlesize ≤ largestArticle ∧
      ∃ buf, part = partText crc32 generator partnumber (sizeT (partnumber * generator.articlesize)) buf := by
  refine ⟨?_, ?_⟩
  · by_contra exceeds
    rw [getPart_throws crc32 generator partnumber (Nat.lt_of_not_le exceeds)] at served
    cases served
  · obtain ⟨buf, -, rfl⟩ := Option.map_eq_some_iff.mp served
    exact ⟨buf, rfl⟩

/-- While the stream is good a call serves the part asked for, and only the last
part can leave the stream at its end. -/
theorem getPart_serves {generator : Yencgenerator} (serves : Serves file articlesize linesize generator)
    (good : Good generator) (positive : 0 < articlesize) (reserved : articlesize ≤ largestArticle) {partnumber : Nat}
    (inside : partnumber < Slices.count file.content.length articlesize) :
    (generator.getPart crc32 partnumber).1 = some (partText crc32 (make file articlesize linesize) partnumber
        (partnumber * articlesize) (Slices.slice file.content articlesize partnumber)) ∧
      Serves file articlesize linesize (generator.getPart crc32 partnumber).2 ∧
      (partnumber + 1 < Slices.count file.content.length articlesize → Good (generator.getPart crc32 partnumber).2) := by
  obtain ⟨start, number⟩ := part_fits positive inside
  have offset : sizeT (partnumber * articlesize) = partnumber * articlesize :=
    sizeT_eq (Nat.lt_trans start file.size_fits)
  have size : generator.articlesize = articlesize := by rw [serves.settings]; rfl
  have line : generator.linesize = (make file articlesize linesize).linesize := by rw [serves.settings]
  have opening : generator.ybegin partnumber = (make file articlesize linesize).ybegin partnumber := by
    rw [serves.settings]; rfl
  obtain ⟨notEof, notFail⟩ := good
  simp only [getPart, fillBuffer, reserved_iff, size, if_pos reserved, offset, line, opening, Ifstream.seekg, Ifstream.read, notFail,
    Bool.or_self, Bool.false_eq_true, ite_false, serves.content]
  refine ⟨rfl, ⟨?_, rfl⟩, fun more => ?_⟩
  · rw [serves.settings]
    rfl
  · have full := Slices.slice_full positive more
    simp only [Slices.slice] at full
    simp [Good, full]

/-- Calls in ascending order never meet a stream that an earlier call has exhausted. -/
theorem getParts_ascending {generator : Yencgenerator} (serves : Serves file articlesize linesize generator)
    (positive : 0 < articlesize) (reserved : articlesize ≤ largestArticle) (asked : List Nat)
    (ascending : asked.Pairwise (· < ·))
    (inside : ∀ partnumber ∈ asked, partnumber < Slices.count file.content.length articlesize)
    (good : asked ≠ [] → Good generator) :
    (generator.getParts crc32 asked).1 = asked.map (fun partnumber =>
      some (partText crc32 (make file articlesize linesize) partnumber (partnumber * articlesize)
        (Slices.slice file.content articlesize partnumber))) := by
  induction asked generalizing generator with
  | nil => rfl
  | cons partnumber rest ih =>
    obtain ⟨below, ascending⟩ := List.pairwise_cons.mp ascending
    obtain ⟨text, serves, later⟩ :=
      getPart_serves crc32 serves (good (by simp)) positive reserved (inside partnumber (by simp))
    simp only [getParts, List.map_cons, text]
    congr 1
    apply ih serves ascending (fun other member => inside other (by simp [member]))
    intro nonempty
    obtain ⟨next, tail, rfl⟩ := List.exists_cons_of_ne_nil nonempty
    have order := below next (by simp)
    have bound := inside next (by simp)
    exact later (by omega)

/-- What a reader learns from the part with this index. -/
structure Restores (file : File) (articlesize linesize partnumber : Nat) (decoded : Decoded) : Prop where
  opening : decoded.opening =
    ⟨partnumber + 1, (make file articlesize linesize).numParts, linesize, file.content.length, file.name⟩
  closing : decoded.closing.part = partnumber + 1
  range : 1 ≤ decoded.range.first ∧ decoded.range.first ≤ decoded.range.last ∧ decoded.range.last ≤ file.content.length
  extent : decoded.range.last - decoded.range.first + 1 = decoded.closing.size
  size : decoded.closing.size = decoded.content.length
  content : decoded.content =
    (file.content.drop (decoded.range.first - 1)).take (decoded.range.last - (decoded.range.first - 1))
  checksum : decoded.closing.pcrc32 = (crc32 decoded.content).toNat

def restored (file : File) (articlesize linesize partnumber : Nat) : Decoded :=
  let content := Slices.slice file.content articlesize partnumber
  { opening := ⟨partnumber + 1, (make file articlesize linesize).numParts, linesize, file.content.length, file.name⟩
    range := ⟨partnumber * articlesize + 1, partnumber * articlesize + content.length⟩
    closing := ⟨content.length, partnumber + 1, (crc32 content).toNat⟩
    content }

private theorem decode_restored (positive : 0 < articlesize) (name : Inline file.name) {partnumber : Nat}
    (inside : partnumber < Slices.count file.content.length articlesize) :
    decode (partText crc32 (make file articlesize linesize) partnumber (partnumber * articlesize)
      (Slices.slice file.content articlesize partnumber)) = some (restored crc32 file articlesize linesize partnumber) := by
  obtain ⟨start, number⟩ := part_fits positive inside
  have fits := file.size_fits
  have length := Slices.slice_length file.content articlesize partnumber
  rw [decode_partText crc32 _ _ _ _ (show Inline (make file articlesize linesize).filename from name), sizeT_eq number,
    sizeT_eq (by omega), sizeT_eq (by omega)]
  rfl

private theorem restored_restores (positive : 0 < articlesize) {partnumber : Nat}
    (inside : partnumber < Slices.count file.content.length articlesize) :
    Restores crc32 file articlesize linesize partnumber (restored crc32 file articlesize linesize partnumber) := by
  obtain ⟨start, number⟩ := part_fits positive inside
  have length := Slices.slice_length file.content articlesize partnumber
  refine ⟨rfl, rfl, ?_, ?_, rfl, ?_, rfl⟩
  · simp only [restored]
    omega
  · simp only [restored]
    omega
  · simp only [restored, Nat.add_sub_cancel, Nat.add_sub_cancel_left, Slices.slice, List.length_take, List.length_drop]
    rw [← List.length_drop, List.take_eq_take_iff]
    omega

/-- Ranges that cover the positions from `next` to `size`, each position once. -/
def Tiles (size : Nat) : Nat → List Part → Prop
  | next, [] => next = size + 1
  | next, range :: rest => range.first = next ∧ range.first ≤ range.last ∧ Tiles size (range.last + 1) rest

private theorem tiles_from (linesize : Nat) (positive : 0 < articlesize) (left : Nat) (partnumber : Nat)
    (total : partnumber + left = Slices.count file.content.length articlesize) :
    Tiles file.content.length (min (partnumber * articlesize) file.content.length + 1)
      ((List.range' partnumber left).map (fun index => (restored crc32 file articlesize linesize index).range)) := by
  induction left generalizing partnumber with
  | zero =>
    have covers := Slices.length_le_count positive file.content.length
    rw [← total, Nat.add_zero] at covers
    simp only [List.range'_zero, List.map_nil, Tiles]
    omega
  | succ left ih =>
    have start := Slices.start_lt positive (show partnumber < Slices.count file.content.length articlesize by omega)
    have length := Slices.slice_length file.content articlesize partnumber
    have later := ih (partnumber + 1) (by omega)
    have next : partnumber * articlesize + (Slices.slice file.content articlesize partnumber).length =
        min ((partnumber + 1) * articlesize) file.content.length := by
      rw [length, Nat.add_mul]
      omega
    simp only [List.range'_succ, List.map_cons, Tiles, restored, next]
    refine ⟨by omega, ?_, later⟩
    rw [Nat.add_mul]
    omega

/-- What a caller gets from a call that did not throw, read as a part. -/
def decodePart (part : Option Bytes) : Option Decoded := part.bind decode

/-- A file cut into parts in ascending order comes back from any of them, byte for
byte, and all of them tile it. -/
theorem parts_restore_file (positive : 0 < articlesize) (reserved : articlesize ≤ largestArticle) (name : Inline file.name) :
    (∀ asked : List Nat, asked.Pairwise (· < ·) →
        (∀ partnumber ∈ asked, partnumber < (make file articlesize linesize).numParts) →
        ∃ decoded : List Decoded,
          ((make file articlesize linesize).getParts crc32 asked).1.map decodePart = decoded.map some ∧
          List.Forall₂ (Restores crc32 file articlesize linesize) asked decoded) ∧
    (∃ decoded : List Decoded,
      ((make file articlesize linesize).getParts crc32 (List.range (make file articlesize linesize).numParts)).1.map
        decodePart = decoded.map some ∧
      Tiles file.content.length 1 (decoded.map Decoded.range) ∧
      decoded.flatMap Decoded.content = file.content) ∧
    ∀ partnumber < (make file articlesize linesize).numParts, partnumber * articlesize < 2 ^ 64 := by
  have served : ∀ asked : List Nat, asked.Pairwise (· < ·) →
      (∀ partnumber ∈ asked, partnumber < Slices.count file.content.length articlesize) →
      ((make file articlesize linesize).getParts crc32 asked).1.map decodePart =
        (asked.map (restored crc32 file articlesize linesize)).map some := by
    intro asked ascending inside
    rw [getParts_ascending crc32 make_serves positive reserved asked ascending inside (fun _ => ⟨rfl, rfl⟩), List.map_map,
      List.map_map]
    apply List.map_congr_left
    intro partnumber member
    simp only [Function.comp_apply, decodePart, Option.bind_some]
    exact decode_restored crc32 positive name (inside partnumber member)
  simp only [numParts_make]
  refine ⟨fun asked ascending inside => ⟨_, served asked ascending inside, ?_⟩, ⟨_, served _ ?_ ?_, ?_, ?_⟩, ?_⟩
  · rw [List.forall₂_map_right_iff, List.forall₂_same]
    exact fun partnumber member => restored_restores crc32 positive (inside partnumber member)
  · exact List.pairwise_lt_range
  · exact fun partnumber member => List.mem_range.mp member
  · have tiles := tiles_from crc32 linesize positive (Slices.count file.content.length articlesize) 0
      (Nat.zero_add _)
    rw [Nat.zero_mul, Nat.zero_min, Nat.zero_add, ← List.range_eq_range'] at tiles
    rw [List.map_map]
    exact tiles
  · rw [List.flatMap_map]
    exact Slices.slices_all file.content positive
  · exact fun partnumber inside => Nat.lt_trans (part_fits positive inside).1 file.size_fits

private def sample : File := ⟨ascii "a.bin", [4, 19, 214, 0, 255], by decide⟩

theorem sample_parts :
    ∃ decoded : List Decoded,
      ((make sample 2 128).getParts crc32Type (List.range (make sample 2 128).numParts)).1.map decodePart =
        decoded.map some ∧
      Tiles sample.content.length 1 (decoded.map Decoded.range) ∧
      decoded.flatMap Decoded.content = sample.content :=
  (parts_restore_file crc32Type (by decide) (by decide) (by decide)).2.1

/-- With the size that `ArticleSize = -5` becomes the one part of this file is never made. -/
theorem oversized_throws :
    (make sample 18446744073709551611 128).numParts = 1 ∧
      ((make sample 18446744073709551611 128).getParts crc32Type [0]).1.map decodePart = [none] := by
  decide +kernel

end Post2Usenet.Proofs.YencRoundTrip
