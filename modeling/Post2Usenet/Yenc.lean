import Post2Usenet.Basic

/-! The yEnc line encoder of `yenc.hpp` and `yenc.cc`. An iterator range is the list
of bytes still to be read; an encoder step returns what it wrote and where its
input iterator stands. -/

namespace Post2Usenet.Yenc

-- `linepos == linelength - 1` is written without the subtraction.
def needsEscaping (c : UInt8) (linepos linelength : Nat) : Bool :=
  c == 0x00 ||
  c == 13 ||
  c == 10 ||
  c == 61 ||
  (c == 32 && (linepos == 0 || linepos + 1 == linelength)) ||
  (c == 9 && (linepos == 0 || linepos + 1 == linelength)) ||
  (c == 46 && linepos == 0)

/-- What one byte becomes at a column: itself plus 42, or an escape of two bytes. -/
def encodeByte (c : UInt8) (linepos linelength : Nat) : Bytes :=
  let byte := c + 42
  if needsEscaping byte linepos linelength then [61, byte + 64] else [byte]

/-- The `for` loop of `encode_next_line`, entered at column `linepos`. -/
def encodeColumns (linelength : Nat) : Nat → Bytes → Bytes × Bytes
  | _, [] => ([], [])
  | linepos, c :: rest =>
    let out := encodeByte c linepos linelength
    let linepos := linepos + out.length
    if linelength ≤ linepos then (out, rest)
    else
      let (more, it) := encodeColumns linelength linepos rest
      (out ++ more, it)

def encodeNextLine (first : Bytes) (linelength : Nat) : Bytes × Bytes :=
  let (out, it) := encodeColumns linelength 0 first
  (out ++ crlf, it)

-- Every turn of the loop consumes a byte, so the length of the input bounds the turns.
def encodeLines (linelength : Nat) : Nat → Bytes → Bytes
  | 0, _ => []
  | turns + 1, first =>
    if first = [] then []
    else
      let (out, it) := encodeNextLine first linelength
      out ++ encodeLines linelength turns it

def encodeBlock (first : Bytes) (linelength : Nat) : Bytes := encodeLines linelength first.length first

theorem encodeColumns_rest (linelength linepos : Nat) (first : Bytes) :
    (encodeColumns linelength linepos first).2.length ≤ first.length - 1 := by
  induction first generalizing linepos with
  | nil => simp [encodeColumns]
  | cons c rest ih =>
    simp only [encodeColumns]
    split
    · simp
    · have shorter := ih (linepos + (encodeByte c linepos linelength).length)
      simp only [List.length_cons]
      omega

theorem encodeLines_enough (linelength : Nat) (first : Bytes) (turns : Nat) (enough : first.length ≤ turns) :
    encodeLines linelength turns first = encodeLines linelength first.length first := by
  induction turns using Nat.strongRecOn generalizing first with
  | ind turns ih =>
    cases turns with
    | zero => rw [List.eq_nil_of_length_eq_zero (by omega : first.length = 0)]; rfl
    | succ turns =>
      cases first with
      | nil => rfl
      | cons c rest =>
        have shorter := encodeColumns_rest linelength 0 (c :: rest)
        simp only [List.length_cons] at shorter enough
        simp only [encodeLines, List.length_cons, reduceCtorEq, ite_false, encodeNextLine]
        rw [ih turns (by omega) _ (by omega)]
        by_cases same : rest.length = turns
        · rw [same, ih turns (by omega) _ (by omega)]
        · rw [ih rest.length (by omega) _ (by omega)]

/-- `encode_block` runs to the end of its input: a line, then the rest of the block. -/
theorem encodeBlock_cons (c : UInt8) (rest : Bytes) (linelength : Nat) :
    encodeBlock (c :: rest) linelength =
      (encodeNextLine (c :: rest) linelength).1 ++ encodeBlock (encodeNextLine (c :: rest) linelength).2 linelength := by
  have shorter := encodeColumns_rest linelength 0 (c :: rest)
  simp only [List.length_cons] at shorter
  simp only [encodeBlock, List.length_cons, encodeLines, reduceCtorEq, ite_false]
  rw [encodeLines_enough]
  simp only [encodeNextLine]
  omega

example : encodeBlock [4, 19, 214, 0] 2 = [61, 110, 13, 10, 61, 125, 13, 10, 61, 64, 13, 10, 42, 13, 10] := by decide

end Post2Usenet.Yenc
