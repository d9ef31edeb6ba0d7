import Post2Usenet.ConnectionInfo
import Post2Usenet.Fileset
import Post2Usenet.Message

/-! How `main.cc` makes an article of a piece, and what its post-failed callback
writes into the header before the article is queued again. -/

namespace Post2Usenet

def nonceLength : Nat := 16

def choices : Bytes := ascii "abcdefghijklmnopqrstuvwxyz1234567890"

/-- What `get_run_nonce` can return, whatever the random numbers are. -/
def RunNonce (length : Nat) (nonce : Bytes) : Prop := nonce.length = length ∧ ∀ byte ∈ nonce, byte ∈ choices

instance (length : Nat) (nonce : Bytes) : Decidable (RunNonce length nonce) :=
  have : Decidable (∀ byte ∈ nonce, byte ∈ choices) := List.decidableBAll _ nonce
  inferInstanceAs (Decidable (_ ∧ _))

theorem RunNonce.not_mem {length : Nat} {nonce : Bytes} {byte : UInt8} (drawn : RunNonce length nonce)
    (other : byte ∉ choices) : byte ∉ nonce :=
  fun member => other (drawn.2 byte member)

variable (crc32 : Bytes → UInt32)

/-- The body of the posting loop, up to the call of `enqueue_post`. -/
def makeArticle (cfg : ProgConfig) (runNonce : Bytes) (postitems : Fileset) (fileIndex pieceIndex : Nat) :
    Option (Article × Fileset) := do
  let (chunk, postitems) ← postitems.getChunk crc32 fileIndex pieceIndex
  let subject ← postitems.getUsenetSubject cfg.subject fileIndex pieceIndex
  let header : Header := {
    from' := cfg.from'
    newsgroups := cfg.groups
    subject
    msgid := Fileset.getUsenetMessageId runNonce cfg.msgiddomain fileIndex pieceIndex
    additional := [] }
  return (Article.addPayloadPiece ⟨header, []⟩ chunk, postitems)

/-- What an article is made of, and what making it leaves behind. -/
theorem makeArticle_some {cfg : ProgConfig} {runNonce : Bytes} {postitems after : Fileset} {fileIndex pieceIndex : Nat}
    {article : Article} (built : makeArticle crc32 cfg runNonce postitems fileIndex pieceIndex = some (article, after)) :
    ∃ item subject chunk, postitems.items[fileIndex]? = some item ∧
      (item.handle.getPart crc32 pieceIndex).1 = some chunk ∧
      postitems.getUsenetSubject cfg.subject fileIndex pieceIndex = some subject ∧
      article = {
        header := {
          from' := cfg.from'
          newsgroups := cfg.groups
          subject
          msgid := Fileset.getUsenetMessageId runNonce cfg.msgiddomain fileIndex pieceIndex
          additional := [] }
        payload := [chunk] } ∧
      postitems.getChunk crc32 fileIndex pieceIndex = some (chunk, after) := by
  obtain ⟨⟨chunk, final⟩, taken, rest⟩ := Option.bind_eq_some_iff.mp built
  obtain ⟨subject, named, same⟩ := Option.bind_eq_some_iff.mp rest
  rw [Fileset.getUsenetSubject_getChunk crc32 taken] at named
  obtain ⟨item, found, served, -⟩ := Fileset.getChunk_some crc32 taken
  cases same
  exact ⟨item, subject, chunk, found, served, named, rfl, taken⟩

/-- Only the chunk can be missing. -/
theorem makeArticle_of_getChunk (cfg : ProgConfig) (runNonce : Bytes) {postitems after : Fileset} {fileIndex pieceIndex : Nat}
    {chunk : Bytes} (taken : postitems.getChunk crc32 fileIndex pieceIndex = some (chunk, after)) :
    ∃ article, makeArticle crc32 cfg runNonce postitems fileIndex pieceIndex = some (article, after) := by
  obtain ⟨item, found, -, -⟩ := Fileset.getChunk_some crc32 taken
  have name : postitems.getFileName fileIndex = some item.file.name := congrArg (Option.map _) found
  have pieces : postitems.getNumPieces fileIndex = some item.handle.numParts := congrArg (Option.map _) found
  simp only [makeArticle, taken, Option.bind_eq_bind, Option.bind_some, Fileset.getUsenetSubject_getChunk crc32 taken]
  simp [Fileset.getUsenetSubject, name, pieces]

/-- The three calls of `get_run_nonce` that one failed post makes. -/
structure RetryNonces where
  randomKey : Bytes
  randomValue : Bytes
  messageNonce : Bytes
  deriving DecidableEq

structure RetryNonces.Drawn (nonces : RetryNonces) : Prop where
  randomKey : RunNonce 10 nonces.randomKey
  randomValue : RunNonce 5 nonces.randomValue
  messageNonce : RunNonce nonceLength nonces.messageNonce

def Header.retry (header : Header) (cfg : ProgConfig) (key : FilepieceKey) (nonces : RetryNonces) : Header :=
  { header with
    additional := header.additional ++ [⟨ascii "X-Random-" ++ nonces.randomKey, nonces.randomValue⟩]
    msgid := Fileset.getUsenetMessageId nonces.messageNonce cfg.msgiddomain key.fileIndex key.pieceIndex }

def Article.retry (article : Article) (cfg : ProgConfig) (key : FilepieceKey) (nonces : RetryNonces) : Article :=
  { article with header := article.header.retry cfg key nonces }

end Post2Usenet
