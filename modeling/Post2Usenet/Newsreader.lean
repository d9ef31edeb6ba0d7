import Post2Usenet.Lib.XmlDocument
import Post2Usenet.Main
import Post2Usenet.Nntp
import Post2Usenet.YencDecoder

/-! The other side of a post, written without reference to the program: what a server keeps
of an article, and how a reader of news gets files back from an NZB file and such a server. -/

namespace Post2Usenet

namespace Nntp

/-- The id of an article that a server has received, and the lines of its body. -/
def keptArticle (stream : Bytes) : Option (Bytes × List Bytes) := do
  let (lines, _) ← receiveArticle stream
  let (headers, body) := headerAndBody lines
  let fields ← headers.mapM splitField
  let msgid ← fields.lookup (ascii "Message-ID")
  return (msgid, body)

end Nntp

namespace Newsreader
open Xml Yenc

structure NzbFile where
  poster : Bytes
  date : Nat
  subject : Bytes
  groups : List Bytes
  segments : List Segment
  deriving DecidableEq

def readNumber (text : Bytes) : Option Nat :=
  match Numeral.read 10 text with
  | some (n, []) => some n
  | _ => none

def readGroup : Element → Option Bytes
  | .mk name _ data children => if name = ascii "group" ∧ children.isEmpty then some data else none

def readSegment : Element → Option Segment
  | .mk name attributes data children =>
    if name = ascii "segment" ∧ children.isEmpty then do
      let bytes ← (attributes.lookup (ascii "bytes")).bind readNumber
      let number ← (attributes.lookup (ascii "number")).bind readNumber
      return { bytes, number, msgid := data }
    else none

/-- A file has its groups and then its segments. -/
def readFile : Element → Option NzbFile
  | .mk name attributes _ [.mk groupsName _ _ groups, .mk segmentsName _ _ segments] =>
    if name = ascii "file" ∧ groupsName = ascii "groups" ∧ segmentsName = ascii "segments" then do
      let poster ← attributes.lookup (ascii "poster")
      let date ← (attributes.lookup (ascii "date")).bind readNumber
      let subject ← attributes.lookup (ascii "subject")
      let groups ← groups.mapM readGroup
      let segments ← segments.mapM readSegment
      return { poster, date, subject, groups, segments }
    else none
  | _ => none

def readNzb (document : Bytes) : Option (List NzbFile) :=
  match Xml.read document with
  | some (.mk name _ _ files) => if name = ascii "nzb" then files.mapM readFile else none
  | none => none

variable (crc32 : Bytes → UInt32) (news : Bytes → Option (List Bytes))

/-- A part that is the one asked for, and whose numbers agree with its content. -/
def intact (segment : Segment) (part : Decoded) : Bool :=
  part.opening.part = segment.number && part.closing.part = segment.number &&
    part.closing.size = part.content.length && part.range.last + 1 = part.range.first + part.content.length &&
    part.closing.pcrc32 = (crc32 part.content).toNat

/-- Ask for the body of an article by its id, and decode it. -/
def fetch (segment : Segment) : Option Decoded := do
  let body ← news (ascii "<" ++ segment.msgid ++ ascii ">")
  let part ← decode (Lines.join cr lf body)
  if intact crc32 segment part then some part else none

/-- Whether parts follow one another without a gap. -/
def contiguous : Nat → List Part → Bool
  | _, [] => true
  | next, range :: rest => range.first = next && contiguous (range.last + 1) rest

/-- All parts agree on the file that they are from, and none is missing. -/
def complete (first : Begin) (parts : List Decoded) : Bool :=
  parts.all (fun part => part.opening.name = first.name && part.opening.size = first.size &&
      part.opening.total = parts.length) &&
    contiguous 1 (parts.map Decoded.range) && (parts.flatMap Decoded.content).length = first.size

/-- The name and the content of a file. A file without parts is empty, and has no name. -/
def assemble : List Decoded → Option (Option Bytes × Bytes)
  | [] => some (none, [])
  | first :: rest =>
    if complete first.opening (first :: rest) then
      some (some first.opening.name, (first :: rest).flatMap Decoded.content)
    else none

/-- All files of an NZB file. -/
def download (nzb : Bytes) : Option (List (Option Bytes × Bytes)) := do
  let files ← readNzb nzb
  files.mapM (fun file => (file.segments.mapM (fetch crc32 news)).bind assemble)

end Newsreader

end Post2Usenet
