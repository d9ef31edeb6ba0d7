import Mathlib

/-! Numerals as bytes: printing a number in a base up to sixteen, most significant
digit first, and reading the digits at the front of a text. Letters are upper case. -/

namespace Numeral

def digitByte (digit : Nat) : UInt8 := UInt8.ofNat (if digit < 10 then 48 + digit else 55 + digit)

def digitValue (byte : UInt8) : Option Nat :=
  if 48 ≤ byte ∧ byte ≤ 57 then some (byte.toNat - 48)
  else if 65 ≤ byte ∧ byte ≤ 70 then some (byte.toNat - 55)
  else none

/-- A byte that can stand in a numeral of this base. -/
def isDigit (base : Nat) (byte : UInt8) : Bool :=
  match digitValue byte with
  | some value => value < base
  | none => false

def print (base n : Nat) : List UInt8 :=
  if n = 0 then [digitByte 0] else (Nat.digits base n).reverse.map digitByte

def accumulate (base : Nat) (value : Nat) (byte : UInt8) : Nat := base * value + (digitValue byte).getD 0

def value (base : Nat) (text : List UInt8) : Nat := text.foldl (accumulate base) 0

/-- The longest numeral at the front, its value and the rest; none without a digit. -/
def read (base : Nat) (text : List UInt8) : Option (Nat × List UInt8) :=
  match text.takeWhile (isDigit base) with
  | [] => none
  | digits => some (value base digits, text.dropWhile (isDigit base))

theorem digitValue_digitByte {digit : Nat} (small : digit < 16) : digitValue (digitByte digit) = some digit := by
  interval_cases digit <;> rfl

variable {base : Nat}

theorem isDigit_digitByte {digit : Nat} (small : digit < base) (bound : base ≤ 16) :
    isDigit base (digitByte digit) = true := by
  simp [isDigit, digitValue_digitByte (Nat.lt_of_lt_of_le small bound), small]

theorem print_digits (proper : 1 < base) (bound : base ≤ 16) (n : Nat) :
    ∀ byte ∈ print base n, isDigit base byte = true := by
  intro byte member
  unfold print at member
  split at member
  · rw [List.mem_singleton.mp member]
    exact isDigit_digitByte (by omega) bound
  · obtain ⟨digit, inside, rfl⟩ := List.mem_map.mp member
    exact isDigit_digitByte (Nat.digits_lt_base proper (List.mem_reverse.mp inside)) bound

theorem print_ne_nil (base n : Nat) : print base n ≠ [] := by
  unfold print
  split
  · simp
  next nonzero => simp [Nat.digits_ne_nil_iff_ne_zero.mpr nonzero]

/-- A byte that is no digit occurs in no numeral. -/
theorem not_mem_print (proper : 1 < base) (bound : base ≤ 16) {byte : UInt8} (other : isDigit base byte = false)
    (n : Nat) : byte ∉ print base n := by
  intro member
  simp [print_digits proper bound n byte member] at other

private theorem value_digits (bound : base ≤ 16) (digits : List Nat) (small : ∀ digit ∈ digits, digit < base) :
    value base (digits.reverse.map digitByte) = Nat.ofDigits base digits := by
  induction digits with
  | nil => rfl
  | cons digit digits ih =>
    have head : digitValue (digitByte digit) = some digit :=
      digitValue_digitByte (Nat.lt_of_lt_of_le (small digit (by simp)) bound)
    have ih := ih (fun other member => small other (by simp [member]))
    simp only [value] at ih ⊢
    simp only [List.reverse_cons, List.map_append, List.map_singleton, List.foldl_append, List.foldl_cons,
      List.foldl_nil, ih, accumulate, head, Option.getD_some, Nat.ofDigits_cons]
    ring

theorem value_print (proper : 1 < base) (bound : base ≤ 16) (n : Nat) : value base (print base n) = n := by
  unfold print
  split
  next zero =>
    simp [value, accumulate, digitValue_digitByte, zero]
  · rw [value_digits bound _ (fun digit member => Nat.digits_lt_base proper member), Nat.ofDigits_digits]

private theorem print_span (proper : 1 < base) (bound : base ≤ 16) (n : Nat) (rest : List UInt8)
    (stops : ∀ byte ∈ rest.head?, isDigit base byte = false) :
    (print base n ++ rest).takeWhile (isDigit base) = print base n ∧
      (print base n ++ rest).dropWhile (isDigit base) = rest := by
  have digits := print_digits proper bound n
  have taken : rest.takeWhile (isDigit base) = [] := by
    cases rest with
    | nil => rfl
    | cons byte rest => simp [stops byte (by simp)]
  have dropped : rest.dropWhile (isDigit base) = rest := by
    cases rest with
    | nil => rfl
    | cons byte rest => simp [stops byte (by simp)]
  constructor
  · rw [List.takeWhile_append_of_pos digits, taken, List.append_nil]
  · rw [List.dropWhile_append_of_pos digits, dropped]

/-- Reading undoes printing in front of anything that is not a digit. -/
theorem read_print (proper : 1 < base) (bound : base ≤ 16) (n : Nat) (rest : List UInt8)
    (stops : ∀ byte ∈ rest.head?, isDigit base byte = false) :
    read base (print base n ++ rest) = some (n, rest) := by
  obtain ⟨taken, dropped⟩ := print_span proper bound n rest stops
  unfold read
  rw [taken, dropped]
  cases printed : print base n with
  | nil => exact absurd printed (print_ne_nil base n)
  | cons byte digits => simp only [← printed, value_print proper bound n]

end Numeral
