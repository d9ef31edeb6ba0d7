import Post2Usenet.Basic

/-! `connection_info.hpp` and the settings of a run. -/

namespace Post2Usenet

structure ConnectionInfo where
  username : Bytes
  password : Bytes
  serveraddr : Bytes
  port : UInt16
  tls : Bool
  deriving DecidableEq

structure ProgConfig where
  from' : Bytes
  servers : List (ConnectionInfo × Int)
  subject : Bytes
  msgiddomain : Bytes
  articleSize : Nat
  ioThreads : Nat
  queueSize : Nat
  operationTimeout : Int
  validatePosts : Bool
  groups : List Bytes
  nzboutput : Bytes

end Post2Usenet
