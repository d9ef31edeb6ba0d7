import Post2Usenet.Proofs.YencLines

/-! The grammar of the encoder's lines, and their lengths. -/

namespace Post2Usenet.Proofs.YencGrammar
open Yenc YencLines

/-- A line is a sequence of plain bytes and of escapes, each with its one escaped byte. -/
inductive Grammatical : Bytes → Prop
  | nil : Grammatical []
  | plain {byte : UInt8} {rest : Bytes} (apart : byte ∉ reserved) (later : Grammatical rest) : Grammatical (byte :: rest)
  | escape {escaped : UInt8} {rest : Bytes} (apart : escaped ∉ reserved) (unkeyed : escaped ≠ 121)
      (later : Grammatical rest) : Grammatical (61 :: escaped :: rest)

theorem Grammatical.clean {line : Bytes} (grammatical : Grammatical line) : 0 ∉ line ∧ 13 ∉ line ∧ 10 ∉ line := by
  induction grammatical with
  | nil => simp
  | plain apart _ ih =>
    simp only [reserved, List.mem_cons, not_or] at apart
    simp [ih, Ne.symm apart.1, Ne.symm apart.2.1, Ne.symm apart.2.2.1]
  | escape apart _ _ ih =>
    simp only [reserved, List.mem_cons, not_or] at apart
    simp [ih, Ne.symm apart.1, Ne.symm apart.2.1, Ne.symm apart.2.2.1]

/-- What follows an escape wherever it stands. -/
theorem Grammatical.escapes {text : Bytes} (grammatical : Grammatical text) {place : Nat}
    (escape : text[place]? = some 61) :
    ∃ escaped, text[place + 1]? = some escaped ∧ escaped ∉ reserved ∧ escaped ≠ 121 := by
  induction grammatical generalizing place with
  | nil => cases escape
  | plain apart _ ih =>
    cases place with
    | zero =>
      cases escape
      simp [reserved] at apart
    | succ place => exact ih escape
  | escape apart unkeyed _ ih =>
    cases place with
    | zero => exact ⟨_, rfl, apart, unkeyed⟩
    | succ place =>
      cases place with
      | zero =>
        cases escape
        simp [reserved] at apart
      | succ place => exact ih escape

theorem encodeByte_grammatical (c : UInt8) (linepos linelength : Nat) {rest : Bytes} (later : Grammatical rest) :
    Grammatical (encodeByte c linepos linelength ++ rest) := by
  rcases encodeByte_cases c linepos linelength with ⟨critical, out⟩ | ⟨plain, out⟩
  · have apart := escaped_byte critical
    rw [List.mem_append, not_or] at apart
    rw [out]
    exact .escape apart.1 (fun same => apart.2 (by simp [same])) later
  · rw [out]
    exact .plain (plain_byte plain).1 later

theorem encodeColumns_grammatical (linelength linepos : Nat) (first : Bytes) :
    Grammatical (encodeColumns linelength linepos first).1 := by
  induction first generalizing linepos with
  | nil => exact .nil
  | cons c rest ih =>
    simp only [encodeColumns]
    split
    · have one := encodeByte_grammatical c linepos linelength .nil
      rwa [List.append_nil] at one
    · exact encodeByte_grammatical c linepos linelength (ih _)

theorem encodeByte_length (c : UInt8) (linepos linelength : Nat) :
    1 ≤ (encodeByte c linepos linelength).length ∧ (encodeByte c linepos linelength).length ≤ 2 := by
  rcases encodeByte_cases c linepos linelength with ⟨-, out⟩ | ⟨-, out⟩ <;> simp [out]

/-- The last column may be overshot by one, and only the end of the input stops before it. -/
theorem encodeColumns_length {linelength linepos : Nat} (inside : linepos < linelength) (first : Bytes) :
    linepos + (encodeColumns linelength linepos first).1.length ≤ linelength + 1 ∧
      ((encodeColumns linelength linepos first).2 ≠ [] →
        linelength ≤ linepos + (encodeColumns linelength linepos first).1.length) := by
  induction first generalizing linepos with
  | nil => simp [encodeColumns]; omega
  | cons c rest ih =>
    have bound := encodeByte_length c linepos linelength
    simp only [encodeColumns]
    split
    next full =>
      dsimp only
      exact ⟨by omega, fun _ => full⟩
    next room =>
      obtain ⟨most, least⟩ := ih (show linepos + (encodeByte c linepos linelength).length < linelength by omega)
      simp only [List.length_append]
      exact ⟨by omega, fun left => by have := least left; omega⟩

/-- What stands before the line end of a line of the encoder. -/
structure EncodedLine (text : Bytes) : Prop where
  grammatical : Grammatical text
  clean : 0 ∉ text ∧ 13 ∉ text ∧ 10 ∉ text
  escapes : ∀ place : Nat, text[place]? = some 61 →
    ∃ escaped, text[place + 1]? = some escaped ∧ escaped ∉ reserved ∧ escaped ≠ 121
  unkeyed : isKeywordLine text = false
  undotted : text.head? ≠ some 46

theorem encodeColumns_encodedLine (linelength : Nat) (c : UInt8) (rest : Bytes) :
    EncodedLine (encodeColumns linelength 0 (c :: rest)).1 := by
  have grammatical := encodeColumns_grammatical linelength 0 (c :: rest)
  have data := encodeColumns_dataLine linelength c rest
  exact ⟨grammatical, grammatical.clean, fun _ escape => grammatical.escapes escape, data.unkeyed, data.undotted⟩

/-- All lines but the last are full, which is up to one byte longer than asked for. -/
structure Filled (linelength : Nat) (lines : List Bytes) : Prop where
  full : ∀ line ∈ lines.dropLast, line.length = linelength ∨ line.length = linelength + 1
  last : ∀ line, lines.getLast? = some line → 1 ≤ line.length ∧ line.length ≤ linelength + 1

theorem filled_cons {linelength : Nat} {line : Bytes} {lines : List Bytes} (nonempty : line ≠ [])
    (most : line.length ≤ linelength + 1) (least : lines ≠ [] → linelength ≤ line.length) (filled : Filled linelength lines) :
    Filled linelength (line :: lines) := by
  have some' := List.length_pos_of_ne_nil nonempty
  cases lines with
  | nil =>
    refine ⟨nofun, fun last same => ?_⟩
    cases same
    exact ⟨some', most⟩
  | cons next lines =>
    have long := least (by simp)
    refine ⟨fun other member => ?_, filled.last⟩
    rcases List.mem_cons.mp member with rfl | later
    · omega
    · exact filled.full other later

/-- The encoder ends, since more turns than bytes change nothing, and what it leaves is a sequence
of closed lines in the grammar, none for no input, and full ones but for the last. -/
theorem encodeBlock_grammar {linelength : Nat} (positive : 1 ≤ linelength) (first : Bytes) :
    (∀ turns, first.length ≤ turns → encodeLines linelength turns first = encodeBlock first linelength) ∧
      ∃ lines, encodeBlock first linelength = Lines.join cr lf lines ∧ (lines = [] ↔ first = []) ∧
        Filled linelength lines ∧ ∀ line ∈ lines, EncodedLine line := by
  refine ⟨fun turns => encodeLines_enough linelength first turns, ?_⟩
  apply encodeBlock_induct (motive := fun first lines =>
    (lines = [] ↔ first = []) ∧ Filled linelength lines ∧ ∀ line ∈ lines, EncodedLine line)
  · exact ⟨by simp, ⟨nofun, nofun⟩, nofun⟩
  · rintro c rest lines ⟨emptied, filled, encoded⟩
    obtain ⟨most, least⟩ := encodeColumns_length (show 0 < linelength from positive) (c :: rest)
    rw [Nat.zero_add] at most least
    refine ⟨by simp, ?_, ?_⟩
    · apply filled_cons (encodeColumns_dataLine linelength c rest).nonempty most _ filled
      exact fun more => least (fun done => more (emptied.mpr done))
    · intro line member
      rcases List.mem_cons.mp member with rfl | later
      · exact encodeColumns_encodedLine linelength c rest
      · exact encoded line later

theorem encodeBlock_grammar_two : ∃ lines, encodeBlock [4, 19, 214, 0] 2 = Lines.join cr lf lines ∧ lines ≠ [] ∧
    Filled 2 lines ∧ ∀ line ∈ lines, EncodedLine line := by
  obtain ⟨-, lines, block, emptied, filled, encoded⟩ := encodeBlock_grammar (by decide : 1 ≤ 2) [4, 19, 214, 0]
  exact ⟨lines, block, by simp [emptied], filled, encoded⟩

end Post2Usenet.Proofs.YencGrammar
