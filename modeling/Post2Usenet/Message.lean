import Post2Usenet.Basic

/-! `message.cc`: the header and the payload of an article. -/

namespace Post2Usenet

structure Header.Element where
  field : Bytes
  value : Bytes
  deriving DecidableEq

structure Header where
  from' : Bytes
  newsgroups : List Bytes
  subject : Bytes
  msgid : Bytes
  additional : List Header.Element
  deriving DecidableEq

structure Article where
  header : Header
  payload : List Bytes
  deriving DecidableEq

namespace Header

def fieldLine (field value : Bytes) : Bytes := field ++ ascii ": " ++ value ++ crlf

def writeTo (header : Header) : Bytes :=
  fieldLine (ascii "From") header.from' ++
  fieldLine (ascii "Newsgroups") (List.intercalate (ascii ",") header.newsgroups) ++
  fieldLine (ascii "Subject") header.subject ++
  (if header.msgid.length ≠ 0 then fieldLine (ascii "Message-ID") header.msgid else []) ++
  header.additional.flatMap (fun element => fieldLine element.field element.value)

end Header

namespace Article

def addPayloadPiece (article : Article) (other : Bytes) : Article := { article with payload := article.payload ++ [other] }

def getPayloadSize (article : Article) : Nat := (article.payload.map List.length).sum

end Article

end Post2Usenet
