import Post2Usenet.Yencgenerator

/-! `fileset.cc`: the files of a run, the texts that name their pieces, and the way
back from a message id to the piece it names. -/

namespace Post2Usenet

/-- A path of `m_files` with its generator of `m_filehandles`; only the generator's
stream changes after it was made. -/
structure Postitem (articlesize : Nat) where
  file : File
  handle : Yencgenerator
  made : { handle with file := .opened file.content } = .make file articlesize 128

structure Fileset where
  articlesize : Nat
  items : List (Postitem articlesize)

structure FilepieceKey where
  fileIndex : Nat
  pieceIndex : Nat
  deriving DecidableEq

namespace Fileset

def addFile (files : Fileset) (file : File) : Fileset :=
  { files with items := files.items ++ [⟨file, .make file files.articlesize 128, rfl⟩] }

-- `at` throws for an index that is out of range.
def getFileName (files : Fileset) (index : Nat) : Option Bytes := files.items[index]?.map (fun item => item.file.name)

def getNumPieces (files : Fileset) (index : Nat) : Option Nat := files.items[index]?.map (fun item => item.handle.numParts)

def getNumFiles (files : Fileset) : Nat := files.items.length

def getTotalPieces (files : Fileset) : Nat := sizeT (files.items.map (fun item => item.handle.numParts)).sum

def getUsenetSubject (files : Fileset) (subject : Bytes) (fileIndex pieceIndex : Nat) : Option Bytes := do
  let name ← files.getFileName fileIndex
  let pieces ← files.getNumPieces fileIndex
  return subject ++ ascii " [" ++ decimal (sizeT (fileIndex + 1)) ++ ascii "/" ++ decimal files.getNumFiles
    ++ ascii "] - \"" ++ name
    ++ ascii "\" yEnc (" ++ decimal (sizeT (pieceIndex + 1)) ++ ascii "/"
    ++ decimal pieces ++ ascii ")"

def getUsenetMessageId (nonce domain : Bytes) (fileIndex pieceIndex : Nat) : Bytes :=
  ascii "<" ++ nonce ++ ascii "." ++ decimal fileIndex ++ ascii "." ++ decimal pieceIndex ++ ascii "@" ++ domain ++ ascii ">"

/-- The text after the first dot up to the second one, and from there up to an at
sign. None where an assertion fails or `stoul` throws. -/
def getKeyFromMessageId (msgid : Bytes) : Option FilepieceKey := do
  let _ :: afterFirst := msgid.dropWhile (· ≠ 46) | none
  let _ :: afterSecond := afterFirst.dropWhile (· ≠ 46) | none
  let fileIndex ← stoul (afterFirst.takeWhile (· ≠ 46))
  let pieceIndex ← stoul (afterSecond.takeWhile (· ≠ 64))
  return ⟨fileIndex, pieceIndex⟩

example : getKeyFromMessageId (getUsenetMessageId (ascii "ab12") (ascii "a.b@c") 7 130) = some ⟨7, 130⟩ := by decide

variable (crc32 : Bytes → UInt32)

-- None where `at` or `get_part` throws.
def getChunk (files : Fileset) (fileIndex pieceIndex : Nat) : Option (Bytes × Fileset) := do
  let item ← files.items[fileIndex]?
  let served := item.handle.getPart crc32 pieceIndex
  let chunk ← served.1
  return (chunk, { files with items := files.items.set fileIndex ⟨item.file, served.2, item.made⟩ })

/-- Reading a chunk changes a stream, and nothing that the texts are made from. -/
theorem getChunk_some {files after : Fileset} {fileIndex pieceIndex : Nat} {chunk : Bytes}
    (taken : files.getChunk crc32 fileIndex pieceIndex = some (chunk, after)) :
    ∃ item, files.items[fileIndex]? = some item ∧ (item.handle.getPart crc32 pieceIndex).1 = some chunk ∧
      after = { files with
        items := files.items.set fileIndex ⟨item.file, (item.handle.getPart crc32 pieceIndex).2, item.made⟩ } := by
  obtain ⟨item, found, taken⟩ := Option.bind_eq_some_iff.mp taken
  obtain ⟨bytes, served, same⟩ := Option.bind_eq_some_iff.mp taken
  cases same
  exact ⟨item, found, served, rfl⟩

theorem getUsenetSubject_getChunk {files after : Fileset} {fileIndex pieceIndex : Nat} {chunk : Bytes}
    (taken : files.getChunk crc32 fileIndex pieceIndex = some (chunk, after)) (subject : Bytes) :
    after.getUsenetSubject subject fileIndex pieceIndex = files.getUsenetSubject subject fileIndex pieceIndex := by
  obtain ⟨item, found, -, rfl⟩ := getChunk_some crc32 taken
  obtain ⟨inside, same⟩ := List.getElem?_eq_some_iff.mp found
  simp [getUsenetSubject, getFileName, getNumPieces, getNumFiles, inside, same, Yencgenerator.numParts,
    Yencgenerator.getPart]

theorem getNumPieces_getChunk {files after : Fileset} {fileIndex pieceIndex : Nat} {chunk : Bytes}
    (taken : files.getChunk crc32 fileIndex pieceIndex = some (chunk, after)) (index : Nat) :
    after.getNumPieces index = files.getNumPieces index := by
  obtain ⟨item, found, -, rfl⟩ := getChunk_some crc32 taken
  obtain ⟨inside, same⟩ := List.getElem?_eq_some_iff.mp found
  by_cases equal : fileIndex = index
  · subst equal
    simp [getNumPieces, inside, same, Yencgenerator.numParts, Yencgenerator.getPart]
  · simp [getNumPieces, List.getElem?_set_ne equal]

end Fileset

end Post2Usenet
