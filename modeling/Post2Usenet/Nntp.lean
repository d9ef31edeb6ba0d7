import Post2Usenet.Basic

/-! The receiving side of NNTP, as the protocol has it: what a server makes of the
bytes of an article. -/

namespace Post2Usenet.Nntp

def terminator : Bytes := [46]

/-- Take away the dot a sender puts in front of a line that starts with one. -/
def unstuff (line : Bytes) : Bytes := if line.head? = some 46 then line.tail else line

/-- The lines of an article up to the line with a single dot, and the bytes after
that line; none while the line is missing. -/
def receiveArticle (stream : Bytes) : Option (List Bytes × Bytes) :=
  let (lines, tail) := Lines.split cr lf stream
  match lines.dropWhile (· ≠ terminator) with
  | [] => none
  | _ :: rest => some ((lines.takeWhile (· ≠ terminator)).map unstuff, Lines.join cr lf rest ++ tail)

/-- The first empty line ends the header. -/
def headerAndBody (lines : List Bytes) : List Bytes × List Bytes :=
  (lines.takeWhile (· ≠ []), (lines.dropWhile (· ≠ [])).tail)

/-- A line of a header at its first colon and space. -/
def splitField : Bytes → Option (Bytes × Bytes)
  | [] => none
  | byte :: rest =>
    if byte = 58 ∧ rest.head? = some 32 then some ([], rest.tail)
    else (splitField rest).map (fun found => (byte :: found.1, found.2))

/-- The names and the values of a header. None where a line is cut short or is no field. -/
def headerFields (text : Bytes) : Option (List (Bytes × Bytes)) :=
  let (lines, tail) := Lines.split cr lf text
  if tail = [] then lines.mapM splitField else none

/-- The fields of an article whose bytes arrive, up to its first empty line. -/
def receivedFields (stream : Bytes) : Option (List (Bytes × Bytes)) :=
  (headerAndBody (Lines.split cr lf stream).1).1.mapM splitField

end Post2Usenet.Nntp
