import Post2Usenet.Proofs.YencLines

/-! A transport that strips blanks from the ends of lines. The encoder escapes a
blank in the first column and in the last one, but a block may end before the
last column. -/

namespace Post2Usenet.Proofs.YencBlanks
open Yenc YencLines

/-- TAB or SPACE. No escaped byte is one, so at an end of a line both stand for themselves. -/
def blank (byte : UInt8) : Bool := byte == 9 || byte == 32

def startsBlank (line : Bytes) : Bool := line.head?.any blank

def endsBlank (line : Bytes) : Bool := line.getLast?.any blank

def stripBlanks (line : Bytes) : Bytes := (line.dropWhile blank).rdropWhile blank

def encodedLines (first : Bytes) (linelength : Nat) : List Bytes := (Lines.split cr lf (encodeBlock first linelength)).1

/-- No line begins or ends with a blank, and the block decodes when all such are stripped. -/
structure Survives (first : Bytes) (linelength : Nat) : Prop where
  starts : ∀ line ∈ encodedLines first linelength, startsBlank line = false
  ends : ∀ line ∈ encodedLines first linelength, endsBlank line = false
  decoded : decodeLines ((encodedLines first linelength).map stripBlanks) = some first

/-- Where the byte after this one goes: an escape takes two columns, and a full line ends. -/
def nextColumn (linelength linepos : Nat) (c : UInt8) : Nat :=
  let next := linepos + if needsEscaping (c + 42) linepos linelength then 2 else 1
  if linelength ≤ next then 0 else next

def column (linelength : Nat) (preceding : Bytes) : Nat := preceding.foldl (nextColumn linelength) 0

/-- The last byte does not become a blank, or it is escaped in the column it falls into. -/
def EndsSafely (first : Bytes) (linelength : Nat) : Prop := ∀ c, first.getLast? = some c →
  blank (c + 42) = true → needsEscaping (c + 42) (column linelength first.dropLast) linelength = true

theorem stripBlanks_clean {line : Bytes} (starts : startsBlank line = false) (ends : endsBlank line = false) :
    stripBlanks line = line := by
  have front : line.dropWhile blank = line := by
    rw [List.dropWhile_eq_self_iff]
    intro some' head
    simp [startsBlank, List.head?_eq_getElem?, List.getElem?_eq_getElem some', head] at starts
  rw [stripBlanks, front, List.rdropWhile_eq_self_iff]
  intro nonempty last
  simp [endsBlank, List.getLast?_eq_some_getLast nonempty, last] at ends

theorem blank_escaped {byte : UInt8} {linepos linelength : Nat} (is_blank : blank byte = true)
    (edge : linepos = 0 ∨ linepos + 1 = linelength) : needsEscaping byte linepos linelength = true := by
  simp only [blank, Bool.or_eq_true, beq_iff_eq] at is_blank
  rcases is_blank with rfl | rfl <;> rcases edge with rfl | rfl <;> simp [needsEscaping]

theorem encodeByte_endsBlank (c : UInt8) (linepos linelength : Nat) :
    endsBlank (encodeByte c linepos linelength) = (blank (c + 42) && !needsEscaping (c + 42) linepos linelength) := by
  rcases encodeByte_cases c linepos linelength with ⟨critical, out⟩ | ⟨plain, out⟩
  · have apart := escaped_byte critical
    simp only [reserved, List.cons_append, List.nil_append, List.mem_cons, not_or] at apart
    simp [endsBlank, out, critical, blank, apart]
  · simp [endsBlank, out, plain]

theorem encodeColumns_startsBlank (linelength : Nat) (c : UInt8) (rest : Bytes) :
    startsBlank (encodeColumns linelength 0 (c :: rest)).1 = false := by
  obtain ⟨more, start⟩ := encodeColumns_start linelength 0 c rest
  rw [start]
  rcases encodeByte_cases c 0 linelength with ⟨critical, out⟩ | ⟨plain, out⟩
  · simp [startsBlank, out, blank]
  · cases is_blank : blank (c + 42) with
    | false => simp [startsBlank, out, is_blank]
    | true => cases plain.symm.trans (blank_escaped is_blank (.inl rfl))

/-- Whether the last byte is written as a blank that stands for itself, when the first one is at a column. -/
def lastBlank (linelength linepos : Nat) (first : Bytes) : Bool :=
  first.getLast?.any (fun c =>
    blank (c + 42) && !needsEscaping (c + 42) (first.dropLast.foldl (nextColumn linelength) linepos) linelength)

theorem encodeByte_columns (c : UInt8) (linepos linelength : Nat) :
    nextColumn linelength linepos c =
      if linelength ≤ linepos + (encodeByte c linepos linelength).length then 0
      else linepos + (encodeByte c linepos linelength).length := by
  rcases encodeByte_cases c linepos linelength with ⟨critical, out⟩ | ⟨plain, out⟩
  · simp [nextColumn, critical, out]
  · simp [nextColumn, plain, out]

theorem full_endsBlank {c : UInt8} {linepos linelength : Nat} (inside : linepos < linelength)
    (full : linelength ≤ linepos + (encodeByte c linepos linelength).length) :
    endsBlank (encodeByte c linepos linelength) = false := by
  rw [encodeByte_endsBlank]
  rcases encodeByte_cases c linepos linelength with ⟨critical, -⟩ | ⟨plain, out⟩
  · simp [critical]
  · rw [out, List.length_singleton] at full
    cases is_blank : blank (c + 42) with
    | false => rfl
    | true => cases plain.symm.trans (blank_escaped is_blank (.inr (by omega)))

theorem endsBlank_append (first : Bytes) {rest : Bytes} (nonempty : rest ≠ []) :
    endsBlank (first ++ rest) = endsBlank rest := by
  rw [endsBlank, List.getLast?_append_of_ne_nil _ nonempty]
  rfl

theorem encodeColumns_nonempty (linelength linepos : Nat) (c : UInt8) (rest : Bytes) :
    (encodeColumns linelength linepos (c :: rest)).1 ≠ [] := by
  obtain ⟨more, start⟩ := encodeColumns_start linelength linepos c rest
  rw [start]
  rcases encodeByte_cases c linepos linelength with ⟨-, out⟩ | ⟨-, out⟩ <;> simp [out]

/-- A line that ends because it is full does not end with a blank, and the byte after it is at
the first column; the line that ends with the input ends with what its last byte becomes. -/
theorem encodeColumns_endsBlank {linelength linepos : Nat} (inside : linepos < linelength) (c : UInt8) (rest : Bytes) :
    ∃ passed, c :: rest = passed ++ (encodeColumns linelength linepos (c :: rest)).2 ∧
      ((encodeColumns linelength linepos (c :: rest)).2 ≠ [] →
        endsBlank (encodeColumns linelength linepos (c :: rest)).1 = false ∧
          passed.foldl (nextColumn linelength) linepos = 0) ∧
      ((encodeColumns linelength linepos (c :: rest)).2 = [] →
        endsBlank (encodeColumns linelength linepos (c :: rest)).1 = lastBlank linelength linepos (c :: rest)) := by
  induction rest generalizing linepos c with
  | nil =>
    have single : endsBlank (encodeByte c linepos linelength) = lastBlank linelength linepos [c] :=
      encodeByte_endsBlank c linepos linelength
    rw [encodeColumns]
    split
    · exact ⟨[c], rfl, fun left => absurd rfl left, fun _ => single⟩
    · simp only [encodeColumns, List.append_nil]
      exact ⟨[c], rfl, fun left => absurd rfl left, fun _ => single⟩
  | cons d rest ih =>
    have next := encodeByte_columns c linepos linelength
    rw [encodeColumns]
    split
    next full =>
      rw [if_pos full] at next
      exact ⟨[c], rfl, fun _ => ⟨full_endsBlank inside full, next⟩, fun done => absurd done (List.cons_ne_nil d rest)⟩
    next room =>
      rw [if_neg room] at next
      obtain ⟨passed, covers, left, done⟩ :=
        ih (show linepos + (encodeByte c linepos linelength).length < linelength by omega) d
      have last := endsBlank_append (encodeByte c linepos linelength)
        (encodeColumns_nonempty linelength (linepos + (encodeByte c linepos linelength).length) d rest)
      refine ⟨c :: passed, by rw [List.cons_append, ← covers], ?_, ?_⟩
      · intro more
        rw [last, List.foldl_cons, next]
        exact left more
      · intro none
        rw [last, done none]
        simp [lastBlank, next]

theorem lastBlank_append {linelength linepos : Nat} (passed : Bytes) {rest : Bytes} (nonempty : rest ≠ []) :
    lastBlank linelength linepos (passed ++ rest) =
      lastBlank linelength (passed.foldl (nextColumn linelength) linepos) rest := by
  rw [lastBlank, List.getLast?_append_of_ne_nil _ nonempty, List.dropLast_append_of_ne_nil nonempty, List.foldl_append]
  rfl

/-- The lines of a block can only go wrong at the end of the last one, with its last byte. -/
structure Edges (linelength : Nat) (first : Bytes) (lines : List Bytes) : Prop where
  emptied : lines = [] ↔ first = []
  inline : ∀ line ∈ lines, cr ∉ line
  starts : ∀ line ∈ lines, startsBlank line = false
  full : ∀ line ∈ lines.dropLast, endsBlank line = false
  last : lines.getLast?.any endsBlank = lastBlank linelength 0 first

theorem edges_cons {linelength : Nat} (positive : 1 ≤ linelength) (c : UInt8) (rest : Bytes) {lines : List Bytes}
    (edges : Edges linelength (encodeColumns linelength 0 (c :: rest)).2 lines) :
    Edges linelength (c :: rest) ((encodeColumns linelength 0 (c :: rest)).1 :: lines) := by
  obtain ⟨passed, covers, left, done⟩ := encodeColumns_endsBlank (show 0 < linelength from positive) c rest
  obtain ⟨emptied, inline, starts, full, last⟩ := edges
  refine ⟨by simp, ?_, ?_, ?_, ?_⟩
  · intro line member
    rcases List.mem_cons.mp member with rfl | later
    · exact (encodeColumns_dataLine linelength c rest).inline.1
    · exact inline line later
  · intro line member
    rcases List.mem_cons.mp member with rfl | later
    · exact encodeColumns_startsBlank linelength c rest
    · exact starts line later
  · cases lines with
    | nil => exact nofun
    | cons next lines =>
      intro line member
      rcases List.mem_cons.mp member with rfl | later
      · exact (left (fun none => by simp [none] at emptied)).1
      · exact full line later
  · cases lines with
    | nil => exact done (emptied.mp rfl)
    | cons next lines =>
      have more : (encodeColumns linelength 0 (c :: rest)).2 ≠ [] := fun none => by simp [none] at emptied
      rw [covers, lastBlank_append passed more, (left more).2, ← last]
      rfl

theorem encodedLines_edges {linelength : Nat} (positive : 1 ≤ linelength) (first : Bytes) :
    Edges linelength first (encodedLines first linelength) := by
  obtain ⟨lines, block, edges⟩ := encodeBlock_induct (motive := Edges linelength) linelength
    ⟨by simp, nofun, nofun, nofun, rfl⟩ (fun c rest lines edges => edges_cons positive c rest edges) first
  rw [encodedLines, block, Lines.split_join_all edges.inline]
  exact edges

theorem decodeLines_encodedLines (first : Bytes) (linelength : Nat) :
    decodeLines (encodedLines first linelength) = some first := by
  obtain ⟨lines, block, data, decoded⟩ := encodeBlock_lines first linelength
  rw [encodedLines, block, Lines.split_join_all (fun line member => (data line member).inline.1)]
  exact decoded

theorem endsSafely_iff (first : Bytes) (linelength : Nat) :
    EndsSafely first linelength ↔ lastBlank linelength 0 first = false := by
  rw [lastBlank, EndsSafely]
  cases first.getLast? with
  | none => simp
  | some c => cases is_blank : blank (c + 42) <;> simp [is_blank, column]

/-- A block survives the transport precisely when its last byte does not become a blank, or does
so in the first or the last column of a line. -/
theorem survives_iff {linelength : Nat} (positive : 1 ≤ linelength) (first : Bytes) :
    Survives first linelength ↔ EndsSafely first linelength := by
  have edges := encodedLines_edges positive first
  rw [endsSafely_iff, ← edges.last]
  constructor
  · intro survives
    cases found : (encodedLines first linelength).getLast? with
    | none => rfl
    | some line => exact survives.ends line (List.mem_of_getLast? found)
  · intro safe
    have ends : ∀ line ∈ encodedLines first linelength, endsBlank line = false := by
      rcases List.eq_nil_or_concat' (encodedLines first linelength) with none | ⟨front, last, same⟩
      · simp [none]
      · intro line member
        have full := edges.full line
        rw [same, List.mem_append, List.mem_singleton] at member
        rw [same, List.dropLast_concat] at full
        rw [same, List.getLast?_concat] at safe
        rcases member with earlier | rfl
        · exact full earlier
        · exact safe
    refine ⟨edges.starts, ends, ?_⟩
    have same : (encodedLines first linelength).map stripBlanks = encodedLines first linelength :=
      (List.map_congr_left (fun line member => stripBlanks_clean (edges.starts line member) (ends line member))).trans
        (List.map_id _)
    rw [same, decodeLines_encodedLines]

theorem full_line_survives : Survives [0, 246] 2 := by
  apply (survives_iff (by decide) [0, 246]).mpr
  intro c last _
  cases last
  decide

/-- The last of two bytes becomes a space in the second column, which is not the last one. -/
theorem short_line_stripped : ¬ Survives [0, 246] 128 ∧
    decodeLines ((encodedLines [0, 246] 128).map stripBlanks) = some [0] := by
  refine ⟨fun survives => ?_, by decide⟩
  have ends := survives.ends [42, 32] (by decide)
  cases ends

end Post2Usenet.Proofs.YencBlanks
