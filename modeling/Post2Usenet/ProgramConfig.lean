import Post2Usenet.ConnectionInfo

/-! `program_config.cc`: the settings of a run from a configuration file and a command
line. The parsers of both are a library's; what they deliver is data here. -/

namespace Post2Usenet

/-- `prog_config` with the two settings that only `main` reads. -/
structure LoadedConfig extends ProgConfig where
  raw : Bool
  files : List Bytes

namespace ProgramConfig

/-- A section of the file: its keys with their texts. A key outside all sections is a
section that has none. -/
abbrev Section := List (Bytes × Bytes)

abbrev Ptree := List (Bytes × Section)

/-- The options of a command line that the library could store. -/
structure VariablesMap where
  help : Bool
  iothreads : Int32
  articlesize : Option Int32
  raw : Bool
  validate : Bool
  subject : Option Bytes
  config : Option Bytes
  output : Option Bytes
  group : Option (List Bytes)
  file : Option (List Bytes)

/-- What the program finds around it. A reader that throws says why. -/
structure Environment where
  home : Bytes
  exists' : Bytes → Bool
  readIni : Bytes → Except Bytes Ptree

/-- An arithmetic type that a text can be extracted to: the name that the library
gives it in an error, and the value that a number becomes. -/
structure NumericType (α : Type) where
  name : Bytes
  convert : Int → Option α

-- Extraction to an unsigned type takes a sign and wraps. A magnitude that does not fit fails.
def unsigned (name : Bytes) (width : Nat) : NumericType Nat where
  name
  convert n := if n.natAbs < 2 ^ width then some (n % 2 ^ width).toNat else none

def sizeType : NumericType Nat := unsigned (ascii "m") 64

def portType : NumericType Nat := unsigned (ascii "t") 16

def intType : NumericType Int where
  name := ascii "i"
  convert n := if -2 ^ 31 ≤ n ∧ n < 2 ^ 31 then some n else none

def isSpace (byte : UInt8) : Bool := byte == 32 || (9 ≤ byte && byte ≤ 13)

/-- The number that a whole text is, with white space around it. -/
def extract (text : Bytes) : Option Int :=
  let magnitude := fun digits : Bytes =>
    (Numeral.read 10 digits).bind (fun found => if found.2.all isSpace then some (found.1 : Int) else none)
  match text.dropWhile isSpace with
  | 43 :: digits => magnitude digits
  | 45 :: digits => (magnitude digits).map (fun value => -value)
  | digits => magnitude digits

example : (extract (ascii " -5 ")).bind sizeType.convert = some (2 ^ 64 - 5) := by decide

def keyNotFound (key : Bytes) : Bytes := ascii "Key not found: " ++ key

def readNonzeroString (ptree : Section) (key : Bytes) : Except Bytes Bytes :=
  match ptree.lookup key with
  | none => .error (keyNotFound key)
  | some dst => if dst.length < 1 then .error (ascii "Must not be empty: " ++ key) else .ok dst

def readOptionalString (ptree : Section) (key dst : Bytes) : Bytes := (ptree.lookup key).getD dst

def toLower (byte : UInt8) : UInt8 := if 65 ≤ byte ∧ byte ≤ 90 then byte + 32 else byte

def iequals (first second : Bytes) : Bool := first.map toLower = second.map toLower

def readBooleanValue (ptree : Section) (key : Bytes) : Except Bytes Bool := do
  let str ← readNonzeroString ptree key
  return iequals str (ascii "yes") || iequals str (ascii "true")

def readNumericValue {α : Type} (type : NumericType α) (ptree : Section) (key : Bytes) : Except Bytes α :=
  match ptree.lookup key with
  | none => .error (keyNotFound key)
  | some data =>
    match (extract data).bind type.convert with
    | none => .error (ascii "conversion of data to type \"" ++ type.name ++ ascii "\" failed")
    | some dst => .ok dst

def readServerConfiguration (treeNode : Section) (cfg : LoadedConfig) : Except Bytes LoadedConfig := do
  let serveraddr ← readNonzeroString treeNode (ascii "Address")
  let port ← readNumericValue portType treeNode (ascii "Port")
  let username ← readNonzeroString treeNode (ascii "Username")
  let password ← readNonzeroString treeNode (ascii "Password")
  let tls ← readBooleanValue treeNode (ascii "TLS")
  let numConnections ← readNumericValue intType treeNode (ascii "Connections")
  let conn : ConnectionInfo := { username, password, serveraddr, port := UInt16.ofNat port, tls }
  return { cfg with servers := cfg.servers ++ [(conn, numConnections)] }

def isServer (name : Bytes) : Bool := (ascii "Server").isPrefixOf name

def readConfigurationFile (environment : Environment) (path : Bytes) (cfg : LoadedConfig) : Except Bytes LoadedConfig := do
  let pt ← environment.readIni path
  match pt.lookup (ascii "global") with
  | none => .error (ascii "Missing global section in configuration file")
  | some globalSection =>
    let from' ← readNonzeroString globalSection (ascii "From")
    let articleSize ← readNumericValue sizeType globalSection (ascii "ArticleSize")
    let queueSize ← readNumericValue sizeType globalSection (ascii "ArticleQueueSize")
    let operationTimeout ← readNumericValue intType globalSection (ascii "OperationTimeout")
    let written := readOptionalString globalSection (ascii "MsgIdDomain") cfg.msgiddomain
    let msgiddomain := if written = [] then ascii "post2usenet" else written
    (pt.filter (fun node => isServer node.1)).foldlM (fun cfg node => readServerConfiguration node.2 cfg)
      { cfg with from', articleSize, queueSize, operationTimeout, msgiddomain }

/-- An `int` that becomes a `size_t`. -/
def sizeOfInt (n : Int) : Nat := (n % 2 ^ 64).toNat

def readCmdlineArgs (vm : VariablesMap) (files : List Bytes) (cfg : LoadedConfig) : LoadedConfig :=
  { cfg with
    ioThreads := sizeOfInt vm.iothreads.toInt
    articleSize := vm.articlesize.elim cfg.articleSize (fun size => sizeOfInt size.toInt)
    subject := vm.subject.getD cfg.subject
    validatePosts := vm.validate
    raw := vm.raw
    files := cfg.files ++ files
    groups := vm.group.getD cfg.groups
    nzboutput := vm.output.getD cfg.nzboutput }

/-- Why `load_program_config` returns false: what it prints. -/
inductive Rejection where
  | usage
  | help
  | invalidPath (path : Bytes)
  | needServer
  | needGroup
  | doNotExist (paths : List Bytes)
  | thrown (what : Bytes)
  deriving DecidableEq

/-- What boost's `/=` makes of a path and a name that starts with no slash. -/
def appendName (path name : Bytes) : Bytes :=
  if path.isEmpty || path.getLast? == some 47 then path ++ name else path ++ ascii "/" ++ name

def configPath (environment : Environment) (vm : VariablesMap) : Bytes :=
  vm.config.getD (appendName environment.home (ascii ".post2usenet.conf"))

/-- None of the options is stored where the command line is no good. A missing file is
found when the options are notified, so the later test for it finds nothing. -/
def loadProgramConfig (environment : Environment) (stored : Option VariablesMap) (cfg : LoadedConfig) :
    Except Rejection LoadedConfig :=
  match stored with
  | none => .error .usage
  | some vm =>
    if vm.help then .error .help
    else
      match vm.file with
      | none => .error .usage
      | some files =>
        let pathToConfig := configPath environment vm
        if environment.exists' pathToConfig = false then .error (.invalidPath pathToConfig)
        else
          match readConfigurationFile environment pathToConfig cfg with
          | .error what => .error (.thrown what)
          | .ok cfg =>
            if cfg.servers.length < 1 then .error .needServer
            else
              let cfg := readCmdlineArgs vm files cfg
              if cfg.groups.length < 1 then .error .needGroup
              else
                match cfg.files.filter (fun path => !environment.exists' path) with
                | [] => .ok cfg
                | missing => .error (.doNotExist missing)

end ProgramConfig

end Post2Usenet
