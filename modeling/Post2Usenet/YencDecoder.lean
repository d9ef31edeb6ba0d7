import Post2Usenet.Basic

/-! What a yEnc part means to a reader: keyword lines start with `=y`, all other
lines are data. This is the format's own reading of a part, written without
reference to the encoder. -/

namespace Post2Usenet.Yenc

/-- One data line. An escape without its second byte is malformed. -/
def decodeLine : Bytes → Option Bytes
  | [] => some []
  | byte :: rest =>
    if byte = 61 then
      match rest with
      | [] => none
      | escaped :: rest => (decodeLine rest).map (fun decoded => (escaped - 64 - 42) :: decoded)
    else (decodeLine rest).map (fun decoded => (byte - 42) :: decoded)

def decodeLines : List Bytes → Option Bytes
  | [] => some []
  | line :: lines => (decodeLine line).bind (fun first => (decodeLines lines).map (fun rest => first ++ rest))

def isKeywordLine (line : Bytes) : Bool := (ascii "=y").isPrefixOf line

def expect (label : String) (text : Bytes) : Option Bytes := text.dropPrefix? (ascii label)

/-- A labelled number, and what follows it. -/
def expectNumber (base : Nat) (label : String) (text : Bytes) : Option (Nat × Bytes) :=
  (expect label text).bind (Numeral.read base)

structure Begin where
  part : Nat
  total : Nat
  line : Nat
  size : Nat
  name : Bytes
  deriving DecidableEq

def readBegin (text : Bytes) : Option Begin := do
  let (part, text) ← expectNumber 10 "=ybegin part=" text
  let (total, text) ← expectNumber 10 " total=" text
  let (line, text) ← expectNumber 10 " line=" text
  let (size, text) ← expectNumber 10 " size=" text
  let name ← expect " name=" text
  return ⟨part, total, line, size, name⟩

/-- The offsets of a part count from one and include both ends. -/
structure Part where
  first : Nat
  last : Nat
  deriving DecidableEq

def readPart (text : Bytes) : Option Part := do
  let (first, text) ← expectNumber 10 "=ypart begin=" text
  let (last, []) ← expectNumber 10 " end=" text | none
  return ⟨first, last⟩

structure End where
  size : Nat
  part : Nat
  pcrc32 : Nat
  deriving DecidableEq

def readEnd (text : Bytes) : Option End := do
  let (size, text) ← expectNumber 10 "=yend size=" text
  let (part, text) ← expectNumber 10 " part=" text
  let (pcrc32, []) ← expectNumber 16 " pcrc32=" text | none
  return ⟨size, part, pcrc32⟩

structure Decoded where
  opening : Begin
  range : Part
  closing : End
  content : Bytes
  deriving DecidableEq

/-- A part has one `=ybegin`, one `=ypart` and one `=yend` line, in this order,
and no other keyword line; everything else on it is data. -/
def decode (part : Bytes) : Option Decoded := do
  let (lines, []) := Lines.split cr lf part | none
  let [opening, range, closing] := lines.filter isKeywordLine | none
  let opening ← readBegin opening
  let range ← readPart range
  let closing ← readEnd closing
  let content ← decodeLines (lines.filter (fun line => !isKeywordLine line))
  return ⟨opening, range, closing, content⟩

end Post2Usenet.Yenc
