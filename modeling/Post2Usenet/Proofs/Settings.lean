import Post2Usenet.ProgramConfig
import Post2Usenet.Proofs.YencRoundTrip

/-! The numbers of an accepted configuration, from the texts they were written as to the
sizes that they are used as. Nothing tests their signs. -/

namespace Post2Usenet.Proofs.Settings
open ProgramConfig

/-- The number that a key of a section is written as. -/
def written (ptree : Section) (key : Bytes) : Option Int := (ptree.lookup key).bind extract

def writtenConnections (pt : Ptree) : List (Option Int) :=
  (pt.filter (fun node => isServer node.1)).map (fun node => written node.2 (ascii "Connections"))

/-- The command line's article size goes before the file's. -/
def writtenArticleSize (pt : Ptree) (vm : VariablesMap) : Option Int :=
  match vm.articlesize with
  | some size => some size.toInt
  | none => (pt.lookup (ascii "global")).bind (fun globalSection => written globalSection (ascii "ArticleSize"))

private theorem bind_ok {α β : Type} {first : Except Bytes α} {next : α → Except Bytes β} {result : β}
    (done : first >>= next = .ok result) : ∃ value, first = .ok value ∧ next value = .ok result := by
  cases first with
  | error what => cases done
  | ok value => exact ⟨value, rfl, done⟩

theorem readNumericValue_ok {α : Type} {type : NumericType α} {ptree : Section} {key : Bytes} {dst : α}
    (read : readNumericValue type ptree key = .ok dst) :
    ∃ n, written ptree key = some n ∧ type.convert n = some dst := by
  unfold readNumericValue at read
  unfold written
  split at read
  · cases read
  next data found =>
    split at read
    · cases read
    next value converted =>
      cases read
      rw [found, Option.bind_some]
      exact Option.bind_eq_some_iff.mp converted

/-- A number is in the range of an `int`. -/
def Fits (n : Int) : Prop := -2 ^ 31 ≤ n ∧ n < 2 ^ 31

theorem intType_some {n dst : Int} (converted : intType.convert n = some dst) : dst = n ∧ Fits n := by
  simp only [intType] at converted
  split at converted
  next fits =>
    cases converted
    exact ⟨rfl, fits⟩
  next => cases converted

/-- A server section adds its server, with the number of connections that is written there. -/
theorem readServerConfiguration_ok {treeNode : Section} {cfg after : LoadedConfig}
    (read : readServerConfiguration treeNode cfg = .ok after) :
    ∃ conn n, written treeNode (ascii "Connections") = some n ∧ Fits n ∧
      after = { cfg with servers := cfg.servers ++ [(conn, n)] } := by
  obtain ⟨serveraddr, -, read⟩ := bind_ok read
  obtain ⟨port, -, read⟩ := bind_ok read
  obtain ⟨username, -, read⟩ := bind_ok read
  obtain ⟨password, -, read⟩ := bind_ok read
  obtain ⟨tls, -, read⟩ := bind_ok read
  obtain ⟨numConnections, connections, read⟩ := bind_ok read
  obtain ⟨n, number, converted⟩ := readNumericValue_ok connections
  obtain ⟨rfl, fits⟩ := intType_some converted
  cases read
  exact ⟨_, _, number, fits, rfl⟩

theorem readServers_ok {nodes : List (Bytes × Section)} {cfg after : LoadedConfig}
    (read : nodes.foldlM (fun cfg node => readServerConfiguration node.2 cfg) cfg = .ok after) :
    ∃ added, nodes.map (fun node => written node.2 (ascii "Connections")) = added.map (fun server => some server.2) ∧
      (∀ server ∈ added, Fits server.2) ∧ after = { cfg with servers := cfg.servers ++ added } := by
  induction nodes generalizing cfg with
  | nil =>
    cases read
    exact ⟨[], rfl, List.forall_mem_nil _, by simp⟩
  | cons node nodes ih =>
    obtain ⟨middle, first, later⟩ := bind_ok read
    obtain ⟨conn, n, number, fits, rfl⟩ := readServerConfiguration_ok first
    obtain ⟨added, numbers, allFit, rfl⟩ := ih later
    exact ⟨(conn, n) :: added, by simp [number, numbers], List.forall_mem_cons.mpr ⟨fits, allFit⟩, by simp⟩

theorem sizeType_some {n : Int} {dst : Nat} (converted : sizeType.convert n = some dst) :
    dst = sizeOfInt n ∧ n < 2 ^ 64 := by
  simp only [sizeType, unsigned] at converted
  split at converted
  next fits =>
    cases converted
    exact ⟨rfl, by omega⟩
  next => cases converted

theorem readConfigurationFile_ok {environment : Environment} {path : Bytes} {cfg after : LoadedConfig}
    (read : readConfigurationFile environment path cfg = .ok after) :
    ∃ pt globalSection size added, environment.readIni path = .ok pt ∧
      pt.lookup (ascii "global") = some globalSection ∧
      written globalSection (ascii "ArticleSize") = some size ∧ after.articleSize = sizeOfInt size ∧ size < 2 ^ 64 ∧
      writtenConnections pt = added.map (fun server => some server.2) ∧ (∀ server ∈ added, Fits server.2) ∧
      after.servers = cfg.servers ++ added := by
  obtain ⟨pt, parsed, read⟩ := bind_ok read
  split at read
  · cases read
  next globalSection found =>
    obtain ⟨from', -, read⟩ := bind_ok read
    obtain ⟨articleSize, sized, read⟩ := bind_ok read
    obtain ⟨queueSize, -, read⟩ := bind_ok read
    obtain ⟨operationTimeout, -, read⟩ := bind_ok read
    obtain ⟨size, number, converted⟩ := readNumericValue_ok sized
    obtain ⟨rfl, bound⟩ := sizeType_some converted
    obtain ⟨added, numbers, fits, rfl⟩ := readServers_ok read
    exact ⟨pt, globalSection, size, added, parsed, found, number, rfl, bound, numbers, fits, rfl⟩

theorem loadProgramConfig_ok {environment : Environment} {stored : Option VariablesMap} {cfg loaded : LoadedConfig}
    (accepted : loadProgramConfig environment stored cfg = .ok loaded) :
    ∃ vm files read, stored = some vm ∧ readConfigurationFile environment (configPath environment vm) cfg = .ok read ∧
      loaded = readCmdlineArgs vm files read := by
  unfold loadProgramConfig at accepted
  split at accepted
  · cases accepted
  next vm =>
    split at accepted
    · cases accepted
    · split at accepted
      · cases accepted
      next files given =>
        dsimp only at accepted
        split at accepted
        · cases accepted
        · split at accepted
          · cases accepted
          next read succeeds =>
            split at accepted
            · cases accepted
            · split at accepted
              · cases accepted
              · split at accepted
                · cases accepted
                  exact ⟨vm, files, read, rfl, succeeds, rfl⟩
                · cases accepted

theorem sizeOfInt_eq {n : Int} (bound : n < 2 ^ 64) (positive : 0 < n) : (sizeOfInt n : Int) = n := by
  unfold sizeOfInt
  omega

/-- The settings after `prog_config cfg;`. The numbers are not initialized, and not read before they are set. -/
def fresh : LoadedConfig where
  from' := []
  servers := []
  subject := []
  msgiddomain := []
  articleSize := 0
  ioThreads := 0
  queueSize := 0
  operationTimeout := 0
  validatePosts := false
  raw := false
  files := []
  groups := []
  nzboutput := []

/-- The divisions by the article size are defined, the parts of a file are as many as its
size asks for, and every size is the positive number that was written for it. -/
structure Defined (loaded : LoadedConfig) (size threads : Int) (connections : List Int) : Prop where
  divides : loaded.articleSize ≠ 0
  parts : ∀ file : File, (Yencgenerator.make file loaded.articleSize 128).numParts =
    ⌈(file.content.length : ℚ) / loaded.articleSize⌉₊
  articleSize : (loaded.articleSize : Int) = size
  ioThreads : (loaded.ioThreads : Int) = threads ∧ 0 < loaded.ioThreads
  connections : loaded.servers.map (fun server => (sizeOfInt server.2 : Int)) = connections ∧
    ∀ server ∈ loaded.servers, 0 < sizeOfInt server.2

theorem articleSize_written {vm : VariablesMap} {files : List Bytes} {read : LoadedConfig} {pt : Ptree}
    {globalSection : Section} {size : Int} (found : pt.lookup (ascii "global") = some globalSection)
    (number : written globalSection (ascii "ArticleSize") = some size) (converted : read.articleSize = sizeOfInt size)
    (bound : size < 2 ^ 64) :
    ∃ size, writtenArticleSize pt vm = some size ∧ size < 2 ^ 64 ∧
      (readCmdlineArgs vm files read).articleSize = sizeOfInt size := by
  unfold writtenArticleSize
  cases given : vm.articlesize with
  | none =>
    refine ⟨size, ?_, bound, ?_⟩
    · rw [found, Option.bind_some, number]
    · simp [readCmdlineArgs, given, converted]
  | some other =>
    refine ⟨other.toInt, rfl, ?_, ?_⟩
    · have fits := other.toInt_lt
      omega
    · simp [readCmdlineArgs, given]

/-- Sizes that are converted from numbers of the ranges they are read in. -/
theorem defined_iff {loaded : LoadedConfig} {size threads : Int} (articleSize : loaded.articleSize = sizeOfInt size)
    (sizeBound : size < 2 ^ 64) (ioThreads : loaded.ioThreads = sizeOfInt threads) (threadsBound : threads < 2 ^ 64)
    (fits : ∀ server ∈ loaded.servers, Fits server.2) :
    Defined loaded size threads (loaded.servers.map Prod.snd) ↔
      0 < size ∧ 0 < threads ∧ ∀ count ∈ loaded.servers.map Prod.snd, 0 < count := by
  constructor
  · intro defined
    refine ⟨?_, ?_, ?_⟩
    · have divides := defined.divides
      have same := defined.articleSize
      omega
    · obtain ⟨same, positive⟩ := defined.ioThreads
      omega
    · obtain ⟨same, positive⟩ := defined.connections
      intro count member
      rw [← same] at member
      obtain ⟨server, inside, rfl⟩ := List.mem_map.mp member
      exact_mod_cast positive server inside
  · rintro ⟨sizePositive, threadsPositive, connectionsPositive⟩
    have sizeSame := sizeOfInt_eq sizeBound sizePositive
    have threadsSame := sizeOfInt_eq threadsBound threadsPositive
    have each : ∀ server ∈ loaded.servers, (sizeOfInt server.2 : Int) = server.2 ∧ 0 < server.2 := by
      intro server member
      have positive := connectionsPositive server.2 (List.mem_map_of_mem member)
      have below := (fits server member).2
      exact ⟨sizeOfInt_eq (by omega) positive, positive⟩
    have usedPositive : 0 < loaded.articleSize := by omega
    refine { divides := usedPositive.ne', parts := ?_, articleSize := ?_, ioThreads := ?_, connections := ?_ }
    · intro file
      rw [YencRoundTrip.numParts_make, Slices.count_eq_ceil usedPositive]
    · rw [articleSize, sizeSame]
    · rw [ioThreads]
      exact ⟨threadsSame, by omega⟩
    · refine ⟨List.map_congr_left (fun server member => (each server member).1), fun server member => ?_⟩
      obtain ⟨same, positive⟩ := each server member
      omega

/-- The arithmetic of an accepted configuration is defined when, and only when, the
numbers that are in force were written as positive ones. -/
theorem accepted_defined_iff {environment : Environment} {stored : Option VariablesMap} {loaded : LoadedConfig}
    (accepted : loadProgramConfig environment stored fresh = .ok loaded) :
    ∃ vm pt size connections, stored = some vm ∧ environment.readIni (configPath environment vm) = .ok pt ∧
      writtenArticleSize pt vm = some size ∧ writtenConnections pt = connections.map some ∧
      (Defined loaded size vm.iothreads.toInt connections ↔
        0 < size ∧ 0 < vm.iothreads.toInt ∧ ∀ count ∈ connections, 0 < count) := by
  obtain ⟨vm, files, read, rfl, fileRead, rfl⟩ := loadProgramConfig_ok accepted
  obtain ⟨pt, globalSection, fileSize, added, parsed, found, number, converted, bound, numbers, fits, servers⟩ :=
    readConfigurationFile_ok fileRead
  obtain ⟨size, writtenSize, sizeBound, used⟩ := articleSize_written found number converted bound
  have servers : (readCmdlineArgs vm files read).servers = added := servers
  subst servers
  have threadsBound := vm.iothreads.toInt_lt
  exact ⟨vm, pt, size, _, rfl, parsed, writtenSize, by simp [numbers, Function.comp_def],
    defined_iff used sizeBound rfl (by omega) fits⟩

private def sampleIni (articleSize connections : Bytes) : Ptree :=
  [(ascii "global",
    [(ascii "From", ascii "poster"), (ascii "ArticleSize", articleSize), (ascii "ArticleQueueSize", ascii "10"),
     (ascii "OperationTimeout", ascii "30")]),
   (ascii "Server1",
    [(ascii "Address", ascii "news.example"), (ascii "Port", ascii "119"), (ascii "Username", ascii "user"),
     (ascii "Password", ascii "secret"), (ascii "TLS", ascii "no"), (ascii "Connections", connections)])]

private def sampleEnvironment (articleSize connections : Bytes) : Environment where
  home := ascii "/home/poster"
  exists' _ := true
  readIni _ := .ok (sampleIni articleSize connections)

private def sampleOptions (iothreads : Int32) : VariablesMap where
  help := false
  iothreads
  articlesize := none
  raw := true
  validate := false
  subject := none
  config := none
  output := none
  group := some [ascii "alt.test"]
  file := some [ascii "i.bin"]

/-- What is accepted with these texts, the other settings left alone. -/
private def sampleLoaded (articleSize connections : Bytes) (iothreads : Int32) : LoadedConfig :=
  (loadProgramConfig (sampleEnvironment articleSize connections) (some (sampleOptions iothreads)) fresh).toOption.getD fresh

private theorem positive_accepted :
    loadProgramConfig (sampleEnvironment (ascii "768000") (ascii "20")) (some (sampleOptions 1)) fresh =
      .ok (sampleLoaded (ascii "768000") (ascii "20") 1) := rfl

theorem positive_defined : Defined (sampleLoaded (ascii "768000") (ascii "20") 1) 768000 1 [20] := by
  obtain ⟨vm, pt, size, connections, stored, parsed, sized, connected, defined⟩ := accepted_defined_iff positive_accepted
  cases stored
  cases parsed
  obtain rfl : 768000 = size := Option.some.inj ((by decide +kernel : _ = some (768000 : Int)).symm.trans sized)
  obtain rfl : [20] = connections := by
    have same : writtenConnections (sampleIni (ascii "768000") (ascii "20")) = [some 20] := by decide +kernel
    exact List.map_injective_iff.mpr (Option.some_injective Int) (same.symm.trans connected)
  exact defined.mpr ⟨by decide, by decide, by decide⟩

/-- Nothing rejects these numbers. The article size divides by zero, and the connections are
as many as a `size_t` can count. -/
theorem unchecked_accepted :
    loadProgramConfig (sampleEnvironment (ascii "0") (ascii "-1")) (some (sampleOptions 0)) fresh =
        .ok (sampleLoaded (ascii "0") (ascii "-1") 0) ∧
      (sampleLoaded (ascii "0") (ascii "-1") 0).articleSize = 0 ∧
      (sampleLoaded (ascii "0") (ascii "-1") 0).ioThreads = 0 ∧
      (sampleLoaded (ascii "0") (ascii "-1") 0).servers.map (fun server => sizeOfInt server.2) = [2 ^ 64 - 1] ∧
      ∀ size threads connections, ¬ Defined (sampleLoaded (ascii "0") (ascii "-1") 0) size threads connections := by
  have zero : (sampleLoaded (ascii "0") (ascii "-1") 0).articleSize = 0 := by decide +kernel
  exact ⟨rfl, zero, by decide +kernel, by decide +kernel, fun _ _ _ defined => defined.divides zero⟩

end Post2Usenet.Proofs.Settings
