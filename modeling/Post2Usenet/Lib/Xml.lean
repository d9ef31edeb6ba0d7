import Mathlib

/-! Attribute values of XML 1.0 as a reader has them: characters from their bytes, the
ends of lines made uniform, white space and references replaced. The five predefined
entities are the only ones. -/

namespace Xml

def utf8 (text : List Char) : List UInt8 := text.flatMap String.utf8EncodeChar

theorem utf8_injective : Function.Injective utf8 := by
  intro first second same
  have encoded : first.utf8Encode = second.utf8Encode := congrArg List.toByteArray same
  rw [← String.toByteArray_ofList, ← String.toByteArray_ofList, String.toByteArray_inj] at encoded
  exact String.ofList_injective encoded

@[simp] theorem utf8_nil : utf8 [] = [] := rfl

@[simp] theorem utf8_cons (c : Char) (text : List Char) : utf8 (c :: text) = String.utf8EncodeChar c ++ utf8 text := rfl

@[simp] theorem utf8_append (first rest : List Char) : utf8 (first ++ rest) = utf8 first ++ utf8 rest :=
  List.flatMap_append

private theorem large_byte {n : Nat} (low : 128 ≤ n) (high : n < 256) : 128 ≤ (UInt8.ofNat n).toNat := by
  rwa [UInt8.toNat_ofNat', Nat.mod_eq_of_lt high]

/-- A byte below 128 is a character of its own. -/
theorem mem_utf8EncodeChar {byte : UInt8} {c : Char} (member : byte ∈ String.utf8EncodeChar c) (small : byte < 128) :
    String.utf8EncodeChar c = [byte] ∧ c.toNat = byte.toNat := by
  have small : byte.toNat < 128 := small
  have value : c.val.toNat = c.toNat := rfl
  unfold String.utf8EncodeChar at member ⊢
  simp only [value] at member ⊢
  split at member
  next ascii =>
    obtain rfl := List.mem_singleton.mp member
    refine ⟨if_pos ascii, ?_⟩
    rw [UInt8.toNat_ofNat']
    omega
  next =>
    have large : 128 ≤ byte.toNat := by
      split at member
      · simp only [List.mem_cons, List.not_mem_nil, or_false] at member
        rcases member with rfl | rfl
        · exact large_byte (by omega) (by omega)
        · exact large_byte (by omega) (by omega)
      · split at member
        · simp only [List.mem_cons, List.not_mem_nil, or_false] at member
          rcases member with rfl | rfl | rfl
          · exact large_byte (by omega) (by omega)
          · exact large_byte (by omega) (by omega)
          · exact large_byte (by omega) (by omega)
        · simp only [List.mem_cons, List.not_mem_nil, or_false] at member
          rcases member with rfl | rfl | rfl | rfl
          · exact large_byte (by omega) (by omega)
          · exact large_byte (by omega) (by omega)
          · exact large_byte (by omega) (by omega)
          · exact large_byte (by omega) (by omega)
    omega

theorem toNat_ascii {byte : UInt8} (small : byte < 128) : (Char.ofNat byte.toNat).toNat = byte.toNat := by
  have small : byte.toNat < 128 := small
  rw [Char.toNat_ofNat, if_pos (.inl (by omega))]

theorem utf8EncodeChar_ascii {byte : UInt8} (small : byte < 128) :
    String.utf8EncodeChar (Char.ofNat byte.toNat) = [byte] := by
  have value : (Char.ofNat byte.toNat).val.toNat = byte.toNat := toNat_ascii small
  have small : byte.toNat < 128 := small
  unfold String.utf8EncodeChar
  simp only [value]
  rw [if_pos (by omega), UInt8.ofNat_toNat]

theorem utf8_append_ascii {text : List Char} {first rest : List UInt8} {byte : UInt8} (small : byte < 128)
    (same : utf8 text = first ++ byte :: rest) :
    ∃ before c after, text = before ++ c :: after ∧ utf8 before = first ∧ c.toNat = byte.toNat ∧ utf8 after = rest := by
  induction text generalizing first with
  | nil => simp at same
  | cons c text ih =>
    rw [utf8_cons] at same
    obtain ⟨more, cut, tail⟩ | ⟨more, cut, tail⟩ := List.append_eq_append_iff.mp same
    · obtain ⟨before, c', after, rfl, begins, value, ends⟩ := ih tail
      exact ⟨c :: before, c', after, rfl, by rw [utf8_cons, begins, cut], value, ends⟩
    · cases more with
      | nil =>
        simp only [List.append_nil, List.nil_append] at cut tail
        obtain ⟨before, c', after, rfl, begins, value, ends⟩ := @ih [] tail.symm
        exact ⟨c :: before, c', after, rfl, by rw [utf8_cons, begins, cut, List.append_nil], value, ends⟩
      | cons other more =>
        obtain rfl : byte = other := by simpa using congrArg List.head? tail
        obtain ⟨alone, value⟩ := mem_utf8EncodeChar (by rw [cut]; simp) small
        rw [alone, eq_comm, List.append_eq_singleton_iff] at cut
        rcases cut with ⟨rfl, last⟩ | ⟨-, impossible⟩
        · obtain rfl : more = [] := by simpa using last
          exact ⟨[], c, text, rfl, rfl, value, by simpa using tail.symm⟩
        · cases impossible

/-- A character of a document. No character of Lean is a surrogate. -/
def isChar (c : Char) : Bool :=
  c.toNat = 9 || c.toNat = 10 || c.toNat = 13 || (32 ≤ c.toNat && c.toNat ≠ 0xFFFE && c.toNat ≠ 0xFFFF)

def isWhite (c : Char) : Bool := c.toNat = 9 || c.toNat = 10 || c.toNat = 13 || c.toNat = 32

/-- A carriage return is a line feed, or nothing in front of one. -/
def normalizeLines : List Char → List Char
  | [] => []
  | c :: rest =>
    if c.toNat = 13 then
      if (rest.head?.map Char.toNat) = some 10 then normalizeLines rest else Char.ofNat 10 :: normalizeLines rest
    else c :: normalizeLines rest

def digitValue (base : Nat) (c : Char) : Option Nat :=
  let value :=
    if c.isDigit then some (c.toNat - 48)
    else if 97 ≤ c.toNat ∧ c.toNat ≤ 102 then some (c.toNat - 87)
    else if 65 ≤ c.toNat ∧ c.toNat ≤ 70 then some (c.toNat - 55)
    else none
  value.filter (· < base)

def number (base : Nat) (digits : List Char) : Option Nat :=
  (digits.mapM (digitValue base)).bind (fun values => if values = [] then none else some (Nat.ofDigits base values.reverse))

/-- A reference to a number that is no character is not well formed. -/
def character (code : Nat) : Option Char :=
  if code.isValidChar ∧ isChar (Char.ofNat code) then some (Char.ofNat code) else none

def predefined : List (List Char × Char) :=
  [(['a', 'm', 'p'], '&'), (['l', 't'], '<'), (['g', 't'], '>'), (['q', 'u', 'o', 't'], Char.ofNat 34),
   (['a', 'p', 'o', 's'], Char.ofNat 39)]

def reference : List Char → Option Char
  | '#' :: 'x' :: digits => (number 16 digits).bind character
  | '#' :: digits => (number 10 digits).bind character
  | name => predefined.lookup name

/-- What a character stands for that is no part of a reference. -/
def shown (c : Char) : Char := if isWhite c then ' ' else c

/-- The value of a text with its lines made uniform. The first argument is the part
of a reference that was read after its ampersand. -/
def decode : Option (List Char) → List Char → Option (List Char)
  | none, [] => some []
  | some _, [] => none
  | none, c :: rest =>
    if c = '&' then decode (some []) rest
    else if c = '<' ∨ c = Char.ofNat 34 ∨ isChar c = false then none
    else (decode none rest).map (fun found => shown c :: found)
  | some name, c :: rest =>
    if c = ';' then (reference name).bind (fun meant => (decode none rest).map (fun found => meant :: found))
    else decode (some (name ++ [c])) rest

def attributeValue (text : List Char) : Option (List Char) := decode none (normalizeLines text)

/-- What stands in front of each quotation of a text, and inside it. -/
def quotations : List (List UInt8) → List (List UInt8 × List UInt8)
  | name :: value :: rest => (name, value) :: quotations rest
  | _ => []

def attributes (tag : List UInt8) : List (List UInt8 × List UInt8) := quotations (tag.splitOn 34)

theorem attributes_cons {name value : List UInt8} (nameUnquoted : 34 ∉ name) (valueUnquoted : 34 ∉ value)
    (rest : List UInt8) : attributes (name ++ 34 :: (value ++ 34 :: rest)) = (name, value) :: attributes rest := by
  have unquoted : ∀ text : List UInt8, 34 ∉ text → ∀ byte ∈ text, (byte == 34) = false := by
    intro text absent byte member
    simp only [beq_eq_false_iff_ne]
    exact ne_of_mem_of_not_mem member absent
  rw [attributes, List.splitOn_eq_splitOnP,
    List.splitOnP_append_cons_of_forall_mem (unquoted name nameUnquoted) 34 (by decide),
    List.splitOnP_append_cons_of_forall_mem (unquoted value valueUnquoted) 34 (by decide)]
  rfl

/-- A reader of these bytes between the quotes has this value. -/
def Reads (bytes value : List UInt8) : Prop :=
  ∃ text found, utf8 text = bytes ∧ attributeValue text = some found ∧ utf8 found = value

example : attributeValue "a&#x20AC;b&amp;&#10;".toList = some ['a', Char.ofNat 0x20AC, 'b', '&', Char.ofNat 10] := by
  decide +kernel

theorem reference_isChar {name : List Char} {meant : Char} (found : reference name = some meant) : isChar meant = true := by
  have numbered : ∀ (value : Option Nat), value.bind character = some meant → isChar meant = true := by
    intro value same
    obtain ⟨code, -, same⟩ := Option.bind_eq_some_iff.mp same
    unfold character at same
    split at same
    next valid =>
      cases same
      exact valid.2
    next => cases same
  unfold reference at found
  split at found
  · exact numbered _ found
  · exact numbered _ found
  · obtain ⟨before, after, entries, -⟩ := List.lookup_eq_some_iff.mp found
    have characters : ∀ entry ∈ predefined, isChar entry.2 = true := by decide
    exact characters (name, meant) (by rw [entries]; simp)

/-- Only characters of a document are read, referred to or not. -/
theorem decode_isChar {reading : Option (List Char)} {text found : List Char} (read : decode reading text = some found) :
    ∀ c ∈ found, isChar c = true := by
  fun_induction decode reading text generalizing found with
  | case1 => cases read; exact List.forall_mem_nil _
  | case2 => cases read
  | case3 rest ih => exact ih read
  | case4 c rest => cases read
  | case5 c rest other valid ih =>
    obtain ⟨later, laterRead, same⟩ := Option.map_eq_some_iff.mp read
    cases same
    refine List.forall_mem_cons.mpr ⟨?_, ih laterRead⟩
    unfold shown
    split
    · decide
    · simp_all
  | case6 name rest ih =>
    obtain ⟨meant, named, read⟩ := Option.bind_eq_some_iff.mp read
    obtain ⟨later, laterRead, same⟩ := Option.map_eq_some_iff.mp read
    cases same
    exact List.forall_mem_cons.mpr ⟨reference_isChar named, ih laterRead⟩
  | case7 name c rest other ih => exact ih read

/-- A value holds a character that its text does not show only where a reference ends. -/
theorem decode_count {mark : Char → Bool} {reading : Option (List Char)} {text found : List Char}
    (read : decode reading text = some found)
    (literal : ∀ c ∈ text, c ≠ '&' → mark (shown c) = true → c = ';') : found.countP mark ≤ text.count ';' := by
  fun_induction decode reading text generalizing found with
  | case1 => cases read; simp
  | case2 => cases read
  | case3 rest ih =>
    have ih := ih read (fun c member => literal c (List.mem_cons_of_mem _ member))
    simpa using ih
  | case4 c rest => cases read
  | case5 c rest other valid ih =>
    obtain ⟨later, laterRead, same⟩ := Option.map_eq_some_iff.mp read
    cases same
    have ih := ih laterRead (fun c member => literal c (List.mem_cons_of_mem _ member))
    have first := literal c (List.mem_cons_self ..) other
    by_cases marked : mark (shown c) = true
    · obtain rfl := first marked
      simpa [marked] using ih
    · rw [List.countP_cons_of_neg marked]
      exact Nat.le_trans ih (List.count_le_count_cons ..)
  | case6 name rest ih =>
    obtain ⟨meant, named, read⟩ := Option.bind_eq_some_iff.mp read
    obtain ⟨later, laterRead, same⟩ := Option.map_eq_some_iff.mp read
    cases same
    have ih := ih laterRead (fun c member => literal c (List.mem_cons_of_mem _ member))
    calc (meant :: later).countP mark
      _ ≤ later.countP mark + 1 := by
        rw [List.countP_cons]
        split <;> omega
      _ ≤ (';' :: rest).count ';' := by simpa using ih
  | case7 name c rest other ih =>
    have ih := ih read (fun c member => literal c (List.mem_cons_of_mem _ member))
    rwa [List.count_cons_of_ne other]

theorem decode_reference {name : List Char} {meant : Char} (unfinished : ';' ∉ name) (found : reference name = some meant)
    (rest : List Char) :
    decode none ('&' :: (name ++ ';' :: rest)) = (decode none rest).map (fun later => meant :: later) := by
  have reading : ∀ before after, ';' ∉ after → decode (some before) (after ++ ';' :: rest) =
      (reference (before ++ after)).bind (fun meant => (decode none rest).map (fun later => meant :: later)) := by
    intro before after
    induction after generalizing before with
    | nil => simp [decode]
    | cons c after ih =>
      intro unfinished
      have other : c ≠ ';' := fun same => unfinished (by simp [same])
      have ih := ih (before ++ [c]) (fun member => unfinished (List.mem_cons_of_mem _ member))
      simpa [decode, other] using ih
  rw [decode, if_pos rfl, reading [] name unfinished, List.nil_append, found, Option.bind_some]

theorem normalizeLines_of_clean {text : List Char} (clean : ∀ c ∈ text, c.toNat ≠ 13) : normalizeLines text = text := by
  induction text with
  | nil => rfl
  | cons c rest ih =>
    obtain ⟨first, later⟩ := List.forall_mem_cons.mp clean
    rw [normalizeLines, if_neg first, ih later]

/-- Making lines uniform adds line feeds and nothing else. -/
theorem mem_normalizeLines {text : List Char} : ∀ c ∈ normalizeLines text, c ∈ text ∨ c.toNat = 10 := by
  induction text with
  | nil => exact List.forall_mem_nil _
  | cons first rest ih =>
    intro c member
    have kept : c ∈ normalizeLines rest → c ∈ first :: rest ∨ c.toNat = 10 := fun inside =>
      (ih c inside).imp_left (List.mem_cons_of_mem _)
    unfold normalizeLines at member
    split at member
    · split at member
      · exact kept member
      · rcases List.mem_cons.mp member with rfl | inside
        · exact .inr rfl
        · exact kept inside
    · rcases List.mem_cons.mp member with rfl | inside
      · exact .inl (List.mem_cons_self ..)
      · exact kept inside

theorem count_normalizeLines (text : List Char) : (normalizeLines text).count ';' = text.count ';' := by
  induction text with
  | nil => rfl
  | cons c rest ih =>
    unfold normalizeLines
    split
    next isReturn =>
      have other : c ≠ ';' := by
        rintro rfl
        exact absurd isReturn (by decide)
      split
      · rw [ih, List.count_cons_of_ne other]
      · rw [List.count_cons_of_ne (by decide), ih, List.count_cons_of_ne other]
    next => rw [List.count_cons, List.count_cons, ih]

end Xml
