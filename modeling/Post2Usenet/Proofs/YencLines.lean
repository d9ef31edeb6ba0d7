import Post2Usenet.Yenc
import Post2Usenet.YencDecoder

/-! The encoder's output is a sequence of closed lines that no reader can mistake
for keywords or for the end of an article, and that decode to its input. -/

namespace Post2Usenet.Proofs.YencLines
open Yenc

/-- What stands before the line end of an encoded line. -/
structure DataLine (line : Bytes) : Prop where
  inline : Inline line
  nonempty : line ≠ []
  undotted : line.head? ≠ some 46
  unkeyed : isKeywordLine line = false

/-- The bytes that stand for themselves nowhere in a line. -/
def reserved : Bytes := [0, 13, 10, 61]

theorem plain_byte {byte : UInt8} {linepos linelength : Nat}
    (plain : needsEscaping byte linepos linelength = false) : byte ∉ reserved ∧ (linepos = 0 → byte ≠ 46) := by
  simp only [needsEscaping, Bool.or_eq_false_iff, Bool.and_eq_false_iff, beq_eq_false_iff_ne] at plain
  obtain ⟨⟨⟨⟨⟨⟨null, return_⟩, feed⟩, escape⟩, _⟩, _⟩, dot⟩ := plain
  exact ⟨by simp [reserved, null, return_, feed, escape], fun start => dot.resolve_right (by simp [start])⟩

/-- An escape moves the few critical bytes to where none is reserved, a blank or a `y`. -/
theorem escaped_byte {byte : UInt8} {linepos linelength : Nat}
    (critical : needsEscaping byte linepos linelength = true) : byte + 64 ∉ reserved ++ [121, 9, 32] := by
  simp only [needsEscaping, Bool.or_eq_true, Bool.and_eq_true, beq_iff_eq] at critical
  rcases critical with (((((rfl | rfl) | rfl) | rfl) | ⟨rfl, _⟩) | ⟨rfl, _⟩) | ⟨rfl, _⟩ <;> decide

theorem encodeByte_cases (c : UInt8) (linepos linelength : Nat) :
    (needsEscaping (c + 42) linepos linelength = true ∧ encodeByte c linepos linelength = [61, c + 42 + 64]) ∨
    (needsEscaping (c + 42) linepos linelength = false ∧ encodeByte c linepos linelength = [c + 42]) := by
  cases critical : needsEscaping (c + 42) linepos linelength <;> simp [encodeByte, critical]

private theorem decodeLine_plain {byte : UInt8} (plain : byte ≠ 61) (rest : Bytes) :
    decodeLine (byte :: rest) = (decodeLine rest).map (fun decoded => (byte - 42) :: decoded) := by
  cases rest <;> simp [decodeLine, plain]

theorem decodeLine_encodeByte (c : UInt8) (linepos linelength : Nat) (tail : Bytes) :
    decodeLine (encodeByte c linepos linelength ++ tail) = (decodeLine tail).map (fun decoded => c :: decoded) := by
  rcases encodeByte_cases c linepos linelength with ⟨_, out⟩ | ⟨plain, out⟩
  · have back : c + 42 + 64 - 64 - 42 = c := by grind
    simp only [out, List.cons_append, List.nil_append, decodeLine, ite_true, back]
  · have back : c + 42 - 42 = c := by grind
    have unescaped : c + 42 ≠ 61 := fun same => (plain_byte plain).1 (by simp [same, reserved])
    simp only [out, List.cons_append, List.nil_append, decodeLine_plain unescaped, back]

private theorem encodeByte_inline (c : UInt8) (linepos linelength : Nat) : Inline (encodeByte c linepos linelength) := by
  rcases encodeByte_cases c linepos linelength with ⟨critical, out⟩ | ⟨plain, out⟩
  · have apart := escaped_byte critical
    simp only [reserved, List.cons_append, List.nil_append, List.mem_cons, not_or] at apart
    simp [Inline, out, cr, lf, Ne.symm apart.2.1, Ne.symm apart.2.2.1]
  · have apart := (plain_byte plain).1
    simp only [reserved, List.mem_cons, not_or] at apart
    simp [Inline, out, cr, lf, Ne.symm apart.2.1, Ne.symm apart.2.2.1]

/-- From any column on, the loop decodes to exactly the bytes it has passed. -/
theorem encodeColumns_decodes (linelength linepos : Nat) (first : Bytes) :
    ∃ passed, first = passed ++ (encodeColumns linelength linepos first).2 ∧
      decodeLine (encodeColumns linelength linepos first).1 = some passed := by
  induction first generalizing linepos with
  | nil => exact ⟨[], rfl, rfl⟩
  | cons c rest ih =>
    simp only [encodeColumns]
    split
    · refine ⟨[c], rfl, ?_⟩
      have decoded := decodeLine_encodeByte c linepos linelength []
      simpa only [List.append_nil, decodeLine, Option.map_some] using decoded
    · obtain ⟨passed, covers, decoded⟩ := ih (linepos + (encodeByte c linepos linelength).length)
      refine ⟨c :: passed, by rw [List.cons_append, ← covers], ?_⟩
      rw [decodeLine_encodeByte, decoded]
      rfl

private theorem encodeColumns_inline (linelength linepos : Nat) (first : Bytes) :
    Inline (encodeColumns linelength linepos first).1 := by
  induction first generalizing linepos with
  | nil => simp [encodeColumns, Inline]
  | cons c rest ih =>
    simp only [encodeColumns]
    split
    · exact encodeByte_inline ..
    · exact (inline_append ..).mpr ⟨encodeByte_inline .., ih _⟩

/-- The first byte of a line decides how the line can be read, and it is written
at column zero. -/
theorem encodeColumns_start (linelength linepos : Nat) (c : UInt8) (rest : Bytes) :
    ∃ more, (encodeColumns linelength linepos (c :: rest)).1 = encodeByte c linepos linelength ++ more := by
  simp only [encodeColumns]
  split
  · exact ⟨[], by simp⟩
  · exact ⟨_, rfl⟩

theorem encodeColumns_dataLine (linelength : Nat) (c : UInt8) (rest : Bytes) :
    DataLine (encodeColumns linelength 0 (c :: rest)).1 := by
  obtain ⟨more, start⟩ := encodeColumns_start linelength 0 c rest
  refine ⟨encodeColumns_inline .., ?_, ?_, ?_⟩
  all_goals
    rw [start]
    rcases encodeByte_cases c 0 linelength with ⟨critical, out⟩ | ⟨plain, out⟩
    all_goals rw [out]
  · simp
  · simp
  · simp
  · simpa using (plain_byte plain).2 rfl
  · have key : (121 : UInt8) ≠ c + 42 + 64 := fun same => escaped_byte critical (by simp [← same])
    simp [isKeywordLine, ascii, List.isPrefixOf, key]
  · have escape : (61 : UInt8) ≠ c + 42 := fun same => (plain_byte plain).1 (by simp [← same, reserved])
    simp [isKeywordLine, ascii, List.isPrefixOf, escape]

/-- The loop of `encode_block`: nothing for nothing, else one line and then the rest. -/
theorem encodeBlock_induct {motive : Bytes → List Bytes → Prop} (linelength : Nat) (done : motive [] [])
    (line : ∀ c rest lines, motive (encodeColumns linelength 0 (c :: rest)).2 lines →
      motive (c :: rest) ((encodeColumns linelength 0 (c :: rest)).1 :: lines)) (first : Bytes) :
    ∃ lines, encodeBlock first linelength = Lines.join cr lf lines ∧ motive first lines := by
  induction hlen : first.length using Nat.strongRecOn generalizing first with
  | ind n ih =>
    cases first with
    | nil => exact ⟨[], rfl, done⟩
    | cons c rest =>
      have shorter := encodeColumns_rest linelength 0 (c :: rest)
      simp only [List.length_cons] at shorter hlen
      obtain ⟨lines, block, later⟩ := ih _ (by omega) (encodeColumns linelength 0 (c :: rest)).2 rfl
      refine ⟨(encodeColumns linelength 0 (c :: rest)).1 :: lines, ?_, line c rest lines later⟩
      rw [encodeBlock_cons]
      simp only [encodeNextLine, block, Lines.join_cons, crlf, List.append_assoc, List.cons_append, List.nil_append]

/-- The whole block: data lines, each closed, that decode to the input. -/
theorem encodeBlock_lines (first : Bytes) (linelength : Nat) :
    ∃ lines, encodeBlock first linelength = Lines.join cr lf lines ∧ (∀ line ∈ lines, DataLine line) ∧
      decodeLines lines = some first := by
  apply encodeBlock_induct (motive := fun first lines => (∀ line ∈ lines, DataLine line) ∧ decodeLines lines = some first)
  · exact ⟨by simp, rfl⟩
  · rintro c rest lines ⟨data, all⟩
    obtain ⟨passed, covers, decoded⟩ := encodeColumns_decodes linelength 0 (c :: rest)
    refine ⟨?_, by simp only [decodeLines, decoded, all, Option.bind_some, Option.map_some, ← covers]⟩
    intro line member
    rcases List.mem_cons.mp member with rfl | later
    · exact encodeColumns_dataLine linelength c rest
    · exact data line later

end Post2Usenet.Proofs.YencLines
