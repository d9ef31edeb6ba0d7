import Post2Usenet.Lib.Lines
import Post2Usenet.Lib.Numeral

/-! Bytes and sizes as the program has them: a string, a buffer and a file's
content are sequences of octets, and a `size_t` has 64 bits. -/

namespace Post2Usenet

abbrev Bytes := List UInt8

/-- A string literal of the source. -/
def ascii (text : String) : Bytes := text.toList.map (fun c => UInt8.ofNat c.toNat)

def cr : UInt8 := 13
def lf : UInt8 := 10

def crlf : Bytes := [cr, lf]

/-- Unsigned arithmetic on `size_t` wraps. -/
def sizeT (n : Nat) : Nat := n % 2 ^ 64

theorem sizeT_eq {n : Nat} (fits : n < 2 ^ 64) : sizeT n = n := Nat.mod_eq_of_lt fits

/-- `stream << n`, in the default base. -/
def decimal (n : Nat) : Bytes := Numeral.print 10 n

/-- `stream << std::hex << std::uppercase << n`. -/
def hex (n : Nat) : Bytes := Numeral.print 16 n

-- `std::stoul`: leading white space, a sign and digits; none where the source throws.
def stoul (text : Bytes) : Option Nat :=
  let magnitude := fun digits : Bytes =>
    (Numeral.read 10 digits).bind (fun found => if found.1 < 2 ^ 64 then some found.1 else none)
  match text.dropWhile (fun byte => byte == 32 || (9 ≤ byte && byte ≤ 13)) with
  | 43 :: digits => magnitude digits
  | 45 :: digits => (magnitude digits).map (fun value => sizeT (2 ^ 64 - value))
  | digits => magnitude digits

/-- Text that cannot end or break a line. -/
def Inline (text : Bytes) : Prop := cr ∉ text ∧ lf ∉ text

instance (text : Bytes) : Decidable (Inline text) := inferInstanceAs (Decidable (_ ∧ _))

@[simp] theorem inline_append (first rest : Bytes) : Inline (first ++ rest) ↔ Inline first ∧ Inline rest := by
  simp only [Inline, List.mem_append, not_or]
  tauto

theorem inline_print {base : Nat} (proper : 1 < base) (bound : base ≤ 16) (n : Nat) :
    Inline (Numeral.print base n) := by
  constructor
  · apply Numeral.not_mem_print proper bound
    rfl
  · apply Numeral.not_mem_print proper bound
    rfl

@[simp] theorem inline_decimal (n : Nat) : Inline (decimal n) := inline_print (by decide) (by decide) n

@[simp] theorem inline_hex (n : Nat) : Inline (hex n) := inline_print (by decide) (by decide) n

end Post2Usenet
