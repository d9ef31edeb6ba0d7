import Post2Usenet.Yenc
import Post2Usenet.Lib.Rounding

/-! `yencgenerator.cc`: cutting a file into yEnc parts, with the input stream it
keeps between calls. -/

namespace Post2Usenet

/-- A regular file that can be opened. Its size is a `size_t`. -/
structure File where
  name : Bytes
  content : Bytes
  size_fits : content.length < 2 ^ 64

/-- The part of `std::ifstream` that decides what a read delivers. -/
structure Ifstream where
  content : Bytes
  position : Nat
  eofbit : Bool
  failbit : Bool

namespace Ifstream

def opened (content : Bytes) : Ifstream := ⟨content, 0, false, false⟩

-- Since C++11 seeking clears the end-of-file flag; a failed stream does not move.
def seekg (stream : Ifstream) (position : Nat) : Ifstream :=
  if stream.failbit then { stream with eofbit := false }
  else { stream with eofbit := false, position }

-- A stream that is not good reads nothing, and a short read sets both flags.
def read (stream : Ifstream) (count : Nat) : Bytes × Ifstream :=
  if stream.eofbit || stream.failbit then ([], { stream with failbit := true })
  else
    let bytes := (stream.content.drop stream.position).take count
    let short := bytes.length < count
    (bytes, { stream with position := stream.position + bytes.length, eofbit := short, failbit := short })

end Ifstream

structure Yencgenerator where
  filename : Bytes
  articlesize : Nat
  linesize : Nat
  numparts : Nat
  filesize : Nat
  file : Ifstream

namespace Yencgenerator

-- An article size of zero divides by zero in the source; the quotient given to it here means nothing.
def make (file : File) (articlesize linesize : Nat) : Yencgenerator where
  filename := file.name
  articlesize
  linesize
  filesize := file.content.length
  numparts :=
    let numparts := file.content.length / articlesize
    if file.content.length % articlesize ≠ 0 then numparts + 1 else numparts
  file := .opened file.content

def numParts (generator : Yencgenerator) : Nat := generator.numparts

def ybegin (generator : Yencgenerator) (partnumber : Nat) : Bytes :=
  ascii "=ybegin part=" ++ decimal (sizeT (partnumber + 1)) ++ ascii " total=" ++ decimal generator.numParts
    ++ ascii " line=" ++ decimal generator.linesize
    ++ ascii " size=" ++ decimal generator.filesize
    ++ ascii " name=" ++ generator.filename

def ypart (partOffset bytesRead : Nat) : Bytes :=
  ascii "=ypart begin=" ++ decimal (sizeT (partOffset + 1)) ++ ascii " end=" ++ decimal (sizeT (partOffset + bytesRead))

def yend (partnumber bytesRead checksum : Nat) : Bytes :=
  ascii "=yend size=" ++ decimal bytesRead ++ ascii " part=" ++ decimal (sizeT (partnumber + 1))
    ++ ascii " pcrc32=" ++ hex checksum

/-- The reflected CRC-32 of the named type of `boost/crc.hpp`, one bit at a time. -/
def crc32Type (bytes : Bytes) : UInt32 :=
  let shift := fun crc : UInt32 => if crc &&& 1 = 1 then (crc >>> 1) ^^^ 0xEDB88320 else crc >>> 1
  bytes.foldl (fun crc byte => Nat.repeat shift 8 (crc ^^^ byte.toUInt32)) 0xFFFFFFFF ^^^ 0xFFFFFFFF

example : crc32Type (ascii "123456789") = 0xCBF43926 := by decide +kernel

/-- `max_size` of a `std::vector<char>`. Asked to reserve more, it throws. -/
def maxSize : Nat := 2 ^ 63 - 1

/-- `m_articlesize * 1.5`: both numbers are doubles, and so is their product until it
becomes a `size_t` again. -/
def timesOneAndAHalf (size : Nat) : Nat := Rounding.nearest 53 (3 * Rounding.nearest 53 size) / 2

/-- Seeking, reserving both buffers, and reading into the first of them. -/
def fillBuffer (generator : Yencgenerator) (partOffset : Nat) : Option Bytes × Ifstream :=
  let file := generator.file.seekg partOffset
  if generator.articlesize ≤ maxSize ∧ timesOneAndAHalf generator.articlesize ≤ maxSize then
    let (buf, file) := file.read generator.articlesize
    (some buf, file)
  else (none, file)

variable (crc32 : Bytes → UInt32)

/-- The bytes of a part, or none when it throws, and the generator afterwards. The checksum
is the library's `crc_32_type`, here a parameter. -/
def getPart (generator : Yencgenerator) (partnumber : Nat) : Option Bytes × Yencgenerator :=
  let partOffset := sizeT (partnumber * generator.articlesize)
  let (buf, file) := generator.fillBuffer partOffset
  (buf.map (fun buf =>
    let bytesRead := buf.length
    generator.ybegin partnumber ++ crlf
      ++ (ypart partOffset bytesRead ++ crlf)
      ++ Yenc.encodeBlock buf generator.linesize
      ++ (yend partnumber bytesRead (crc32 buf).toNat ++ crlf)),
   { generator with file })

/-- The parts asked for, one call after the other on the same generator. -/
def getParts (generator : Yencgenerator) : List Nat → List (Option Bytes) × Yencgenerator
  | [] => ([], generator)
  | partnumber :: rest =>
    let (part, generator) := generator.getPart crc32 partnumber
    let (parts, generator) := generator.getParts rest
    (part :: parts, generator)

end Yencgenerator

end Post2Usenet
