import Post2Usenet.Posting
import Post2Usenet.Usenet

/-! `main.cc`: the loops of the main thread, the callbacks that the io thread runs,
and the file that is written at the end. A step of the program is a step of its
pool, or what the main thread does from one call to the next. -/

namespace Post2Usenet
open Connection

/-- What `main` has when it starts the pool. Its callbacks share their maps and
counters without a lock, so there is one io thread. All files are in a vector and
all pieces get a node of a map, so a `size_t` counts them. -/
structure Launch where
  cfg : ProgConfig
  postitems : Fileset
  runNonce : Bytes
  single : cfg.ioThreads = 1
  drawn : RunNonce nonceLength runNonce
  files_fit : postitems.getNumFiles < 2 ^ 64
  pieces_fit : (postitems.items.map (fun item => item.handle.numParts)).sum < 2 ^ 64

/-- Where the main thread is. The loops are at a file and at a piece of it; a
callback that exits takes the main thread with it, and so does an exception that
nobody catches. -/
inductive Position where
  | posting (fileIndex pieceIndex : Nat)
  | validating (fileIndex pieceIndex : Nat)
  | stopping
  | joining
  | writing
  | returned (status : Nat)
  | exited
  | terminated
  deriving DecidableEq

/-- The program with its pool, and with the two files it may leave. An article's address
is the piece it was made for, and the two levels of `piece_sizes` are one map. -/
structure Main where
  usenet : Usenet FilepieceKey
  postitems : Fileset
  position : Position
  numPosted : Nat
  bytesPosted : Nat
  msgidExceptions : FilepieceKey → Option Bytes
  msgidRetries : FilepieceKey → Option Nat
  pieceSizes : FilepieceKey → Option Nat
  nzb : Option Bytes
  dump : Option (Bytes × Bytes)

structure Segment where
  bytes : Nat
  number : Nat
  msgid : Bytes
  deriving DecidableEq

def Position.ended : Position → Bool
  | .returned _ | .exited | .terminated => true
  | _ => false

namespace Launch

/-- The pool once it was started: thread 0 is the main thread. A number of
connections is an `int` that becomes a `size_t`. -/
def usenet (eraseRule : EraseRule) (launch : Launch) : Usenet FilepieceKey :=
  let made := Usenet.make eraseRule launch.cfg.ioThreads launch.cfg.queueSize (fun _ => ⟨⟨[], [], [], [], []⟩, []⟩)
  let configured := { made with optimeout := launch.cfg.operationTimeout, threads := [⟨false, []⟩] }
  let connected := launch.cfg.servers.foldl
    (fun usenet server => usenet.addConnections server.1 (server.2 % 2 ^ 64).toNat) configured
  connected.start

def begin (eraseRule : EraseRule) (launch : Launch) : Main where
  usenet := launch.usenet eraseRule
  postitems := launch.postitems
  position := .posting 0 0
  numPosted := 0
  bytesPosted := 0
  msgidExceptions := fun _ => none
  msgidRetries := fun _ => none
  pieceSizes := fun _ => none
  nzb := none
  dump := none

end Launch

namespace Main

/-- `boost::algorithm::replace_all` of one character. -/
def replaceAll (pattern : UInt8) (text str : Bytes) : Bytes :=
  str.flatMap (fun byte => if byte = pattern then text else [byte])

-- The last replacement is the one of the source, and finds nothing.
def ghettoXmlEscape (str : Bytes) : Bytes :=
  replaceAll 62 (ascii "&amp;") (replaceAll 62 (ascii "&gt;") (replaceAll 60 (ascii "&lt;")
    (replaceAll 39 (ascii "&apos;") (replaceAll 34 (ascii "&quot;") str))))

section WriteNzb

variable (launch : Launch) (main : Main)

def segment (fileIndex pieceIndex : Nat) : Option Segment :=
  let actualNonce := (main.msgidExceptions ⟨fileIndex, pieceIndex⟩).getD launch.runNonce
  let msgid := Fileset.getUsenetMessageId actualNonce launch.cfg.msgiddomain fileIndex pieceIndex
  (main.pieceSizes ⟨fileIndex, pieceIndex⟩).map (fun bytes =>
    { bytes, number := sizeT (pieceIndex + 1), msgid := replaceAll 62 [] (replaceAll 60 [] msgid) })

/-- None where the size of a piece is not found, which the source does not test. -/
def segments (fileIndex : Nat) : Option (List Segment) := do
  let numPieces ← main.postitems.getNumPieces fileIndex
  (List.range numPieces).mapM (main.segment launch fileIndex)

def segmentLine (segment : Segment) : Bytes :=
  ascii "<segment bytes=\"" ++ decimal segment.bytes ++ ascii "\" number=\"" ++ decimal segment.number ++ ascii "\">"
    ++ segment.msgid ++ ascii "</segment>\n"

def fileOpening (poster : Bytes) (groups : List Bytes) (epochTime : Nat) (subject : Bytes) : Bytes :=
  ascii "<file poster=\"" ++ ghettoXmlEscape poster ++ ascii "\" date=\"" ++ decimal epochTime
    ++ ascii "\" subject=\"" ++ ghettoXmlEscape subject ++ ascii "\">\n"
    ++ ascii "<groups>\n"
    ++ groups.flatMap (fun group => ascii "<group>" ++ group ++ ascii "</group>\n")
    ++ ascii "</groups>\n"
    ++ ascii "<segments>\n"

def fileClosing : Bytes := ascii "</segments>\n" ++ ascii "</file>\n"

def fileElement (epochTime fileIndex : Nat) : Option Bytes := do
  let subject ← main.postitems.getUsenetSubject launch.cfg.subject fileIndex 0
  let segments ← main.segments launch fileIndex
  return fileOpening launch.cfg.from' launch.cfg.groups epochTime subject ++ segments.flatMap segmentLine ++ fileClosing

def xmlDeclaration : Bytes := ascii "<?xml version=\"1.0\" encoding=\"UTF-8\"?>\n"

def doctype : Bytes :=
  ascii "<!DOCTYPE nzb PUBLIC \"-//newzBin//DTD NZB 1.1//END\" \"http://www.newzbin.com/DTD/nzb/nzb-1.1.dtd\">\n"

def nzbOpening : Bytes := xmlDeclaration ++ doctype ++ ascii "<nzb xmlns=\"http://www.newzbin.com/DTD/2003/nzb\">\n\n"

def nzbClosing : Bytes := ascii "</nzb>\n"

def writeNzb (epochTime : Nat) : Option Bytes := do
  let files ← (List.range main.postitems.getNumFiles).mapM (main.fileElement launch epochTime)
  return nzbOpening ++ files.flatten ++ nzbClosing

end WriteNzb

variable (crc32 : Bytes → UInt32) (launch : Launch) (main : Main)

def onPool (event : Usenet.Event FilepieceKey) : Option Main :=
  (main.usenet.step event).map (fun usenet => { main with usenet })

/-- The body of the posting loop, which is left by an exception when there is no chunk. The
chunk is measured before it moves into the article. -/
def post (fileIndex pieceIndex : Nat) : Option Main :=
  let key : FilepieceKey := ⟨fileIndex, pieceIndex⟩
  match main.postitems.getChunk crc32 fileIndex pieceIndex,
    makeArticle crc32 launch.cfg launch.runNonce main.postitems fileIndex pieceIndex with
  | some (chunk, _), some (article, postitems) => do
    let made ← main.onPool (.rewrite (Function.update main.usenet.articles key article))
    let called ← made.onPool (.call 0 (.enqueuePost key false))
    return { called with
      postitems
      position := .posting fileIndex (pieceIndex + 1)
      pieceSizes := Function.update main.pieceSizes key (some chunk.length) }
  | _, _ => some { main with position := .terminated }

def validate (fileIndex pieceIndex : Nat) : Option Main := do
  let msgid := Fileset.getUsenetMessageId launch.runNonce launch.cfg.msgiddomain fileIndex pieceIndex
  let called ← main.onPool (.call 0 (.enqueueStat msgid))
  return { called with position := .validating fileIndex (pieceIndex + 1) }

/-- The main thread is inside no call of the pool. -/
def between : Bool := main.usenet.threads.all (fun thread => thread.io || thread.tasks.isEmpty)

/-- The main thread goes on to its next call, or to the next test of a loop. -/
def advance : Option Main :=
  if main.between then
    match main.position with
    | .posting fileIndex pieceIndex =>
      if fileIndex < launch.postitems.getNumFiles then
        (main.postitems.getNumPieces fileIndex).bind (fun numPieces =>
          if pieceIndex < numPieces then main.post crc32 launch fileIndex pieceIndex
          else some { main with position := .posting (fileIndex + 1) 0 })
      else some { main with position := if launch.cfg.validatePosts then .validating 0 0 else .stopping }
    | .validating fileIndex pieceIndex =>
      if fileIndex < launch.postitems.getNumFiles then
        (main.postitems.getNumPieces fileIndex).bind (fun numPieces =>
          if pieceIndex < numPieces then main.validate launch fileIndex pieceIndex
          else some { main with position := .validating (fileIndex + 1) 0 })
      else some { main with position := .stopping }
    | .stopping => (main.onPool .stop).map (fun main => { main with position := .joining })
    | .joining =>
      if main.usenet.Joined then
        some { main with position := if main.usenet.getQueueSize = 0 then .writing else .returned 1 }
      else none
    | .writing | .returned _ | .exited | .terminated => none
  else none

/-- The file that the callback leaves when it exits, if it can be opened: its name and its
content. None where an assertion fails. -/
def dumpfile (article : Article) : Option (Bytes × Bytes) :=
  if article.payload.length = 0 then none
  else
    some (article.header.msgid ++ ascii ".dump",
      article.header.writeTo ++ ascii "\r\n" ++ article.payload.flatten ++ ascii "\r\n.\r\n")

/-- The post-failed callback up to its call of `enqueue_post`, or to its end. A
piece that failed for the first time cannot have failed too often. -/
def postFailed (nonces : RetryNonces) (msg : FilepieceKey) : Option (Main × List (Request FilepieceKey)) := do
  let article := main.usenet.articles msg
  let key ← Fileset.getKeyFromMessageId article.header.msgid
  let retries := (main.msgidRetries key).elim 1 (· + 1)
  let counted := { main with msgidRetries := Function.update main.msgidRetries key (some retries) }
  if 3 ≤ retries then return ({ counted with position := .exited, dump := dumpfile article }, [])
  else
    let rewritten ← counted.onPool
      (.rewrite (Function.update main.usenet.articles msg (article.retry launch.cfg key nonces)))
    return ({ rewritten with
      msgidExceptions := Function.update main.msgidExceptions key (some nonces.messageNonce) }, [.enqueuePost msg true])

def postFinished (msg : FilepieceKey) : Main :=
  { main with
    numPosted := sizeT (main.numPosted + 1)
    bytesPosted := sizeT (main.bytesPosted + (main.usenet.articles msg).getPayloadSize) }

inductive Event where
  | advance
  | take (thread index : Nat) (outcome : Outcome)
  | expire (connit : ConnectionHandle)
  | proceed (thread : Nat) (outcome : Outcome) (wake : Option Nat) (nonces : { nonces : RetryNonces // nonces.Drawn })
  | write (opened : Bool) (epochTime : Nat)

/-- A thread of the pool goes on. What an observer calls is what the callback decides. -/
def proceed (thread : Nat) (outcome : Outcome) (wake : Option Nat) (nonces : RetryNonces) : Option Main :=
  match main.usenet.threads[thread]? with
  | some ⟨_, .slotPostFailed msg :: _⟩ =>
    (main.postFailed launch nonces msg).bind (fun result =>
      if result.1.position = .exited then some result.1 else result.1.onPool (.proceed thread ⟨outcome, wake, result.2⟩))
  | some ⟨_, .slotFinishPost msg :: _⟩ => (main.postFinished msg).onPool (.proceed thread ⟨outcome, wake, []⟩)
  | _ => main.onPool (.proceed thread ⟨outcome, wake, []⟩)

def step (event : Event) : Option Main :=
  if main.position.ended then none
  else
    match event with
    | .advance => main.advance crc32 launch
    | .take thread index outcome =>
      if main.usenet.throws thread index then some { main with position := .terminated }
      else main.onPool (.take thread index outcome)
    | .expire connit => main.onPool (.expire connit)
    | .proceed thread outcome wake nonces => main.proceed launch thread outcome wake nonces
    | .write opened epochTime =>
      if main.position = .writing then
        if launch.cfg.nzboutput ≠ [] ∧ opened then
          (main.writeNzb launch epochTime).map (fun nzb => { main with nzb := some nzb, position := .returned 0 })
        else some { main with position := .returned 0 }
      else none

end Main

end Post2Usenet
