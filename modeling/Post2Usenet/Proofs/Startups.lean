import Post2Usenet.Proofs.Downloads
import Post2Usenet.Startup

/-! From the paths of a command line to the files of a reader. What `main` posts is each regular
file at or below the paths it was given, and this is what a reader gets back. -/

namespace Post2Usenet.Proofs.Startups
open Main Node FileSystem Yencgenerator Newsreader MainSteps NzbAttributes NzbDocument Downloads

/-- An entry somewhere below a directory, with only directories in between. -/
inductive Within : Entries → Bytes → Node → Prop
  | here {entries : Entries} {name : Bytes} {node : Node} (member : (name, node) ∈ entries) : Within entries name node
  | deeper {entries inner : Entries} {parent name : Bytes} {node : Node} (member : (parent, .directory inner) ∈ entries)
      (within : Within inner name node) : Within entries name node

theorem Within.mono {first rest : Entries} {name : Bytes} {node : Node} (within : Within first name node)
    (more : ∀ entry ∈ first, entry ∈ rest) : Within rest name node := by
  cases within with
  | here member => exact .here (more _ member)
  | deeper member within => exact .deeper (more _ member) within

theorem within_cons {entries : Entries} {parent name : Bytes} {above node : Node} :
    Within ((parent, above) :: entries) name node ↔
      (name = parent ∧ node = above) ∨ (∃ inner, above = .directory inner ∧ Within inner name node) ∨ Within entries name node := by
  constructor
  · intro within
    cases within with
    | here member =>
      rcases List.mem_cons.mp member with same | member
      · exact .inl (Prod.mk.inj same)
      · exact .inr (.inr (.here member))
    | deeper member within =>
      rcases List.mem_cons.mp member with same | member
      · exact .inr (.inl ⟨_, (Prod.mk.inj same).2.symm, within⟩)
      · exact .inr (.inr (.deeper member within))
  · rintro (⟨rfl, rfl⟩ | ⟨inner, rfl, within⟩ | within)
    · exact .here (List.mem_cons_self ..)
    · exact .deeper (List.mem_cons_self ..) within
    · exact within.mono (fun _ member => List.mem_cons_of_mem _ member)

mutual
/-- The iterator comes to all entries, and to no others. -/
theorem mem_recursiveDirectoryIterator {name : Bytes} {node : Node} : (entries : Entries) →
    ((name, node) ∈ recursiveDirectoryIterator entries ↔ Within entries name node)
  | [] => by
    rw [recursiveDirectoryIterator]
    exact ⟨nofun, fun within => by cases within <;> contradiction⟩
  | (parent, above) :: entries => by
    rw [recursiveDirectoryIterator, within_cons, List.mem_cons, List.mem_append, mem_descend above,
      mem_recursiveDirectoryIterator entries, Prod.mk.injEq]

theorem mem_descend {name : Bytes} {node : Node} : (above : Node) →
    ((name, node) ∈ above.descend ↔ ∃ inner, above = .directory inner ∧ Within inner name node)
  | .directory entries => by
    rw [descend, mem_recursiveDirectoryIterator entries]
    exact ⟨fun within => ⟨entries, rfl, within⟩, fun ⟨_, same, within⟩ => by cases same; exact within⟩
  | .regular _ _ | .link _ | .other => by simp [descend]
end

section Collect

variable {fileSystem : FileSystem} {cfg : LoadedConfig}

/-- What the program finds at a path, in the order in which it comes to it. -/
def found (fileSystem : FileSystem) (path : Bytes) : List File :=
  match (fileSystem.find path).entries? with
  | some entries => (recursiveDirectoryIterator entries).filterMap (fun entry => entry.2.file? entry.1)
  | none => ((fileSystem.find path).file? (fileSystem.filename path)).toList

theorem entries_followed (node : Node) (entries : Entries) : node.entries? = some entries ↔ node.followed = .directory entries := by
  unfold entries?
  split
  next same => rw [same, Option.some.injEq, Node.directory.injEq]
  next other => exact ⟨nofun, fun same => absurd same (other entries)⟩

/-- There is a regular file at a path, or below a directory that the path leads to. -/
def AtOrBelow (fileSystem : FileSystem) (path : Bytes) (file : File) : Prop :=
  (fileSystem.find path).file? (fileSystem.filename path) = some file ∨
    ∃ entries name node, (fileSystem.find path).followed = .directory entries ∧ Within entries name node ∧
      node.file? name = some file

theorem mem_found {path : Bytes} {file : File} : file ∈ found fileSystem path ↔ AtOrBelow fileSystem path file := by
  unfold found AtOrBelow
  split
  next entries at' =>
    rw [entries_followed] at at'
    have none : (fileSystem.find path).file? (fileSystem.filename path) = none := by rw [file?, at']
    simp only [at', none, List.mem_filterMap, Prod.exists, mem_recursiveDirectoryIterator, Node.directory.injEq, reduceCtorEq,
      false_or, exists_and_left]
    exact ⟨fun ⟨name, node, within, same⟩ => ⟨entries, rfl, name, node, within, same⟩,
      fun ⟨_, same, name, node, within, file⟩ => ⟨name, node, same ▸ within, file⟩⟩
  next missing =>
    rw [Option.mem_toList]
    refine ⟨.inl, fun listed => listed.resolve_right ?_⟩
    rintro ⟨entries, name, node, at', -⟩
    cases missing.symm.trans ((entries_followed _ entries).mpr at')

theorem addPostitem_file (name : Bytes) (node : Node) (postitems : Fileset) :
    addPostitem name node postitems = (node.file? name).toList.foldl Fileset.addFile postitems := by
  rw [addPostitem]
  cases node.file? name with
  | none => rfl
  | some file => rfl

theorem addPath_found (postitems : Fileset) (path : Bytes) :
    fileSystem.addPath postitems path = (found fileSystem path).foldl Fileset.addFile postitems := by
  have each (entries : Entries) (postitems : Fileset) :
      entries.foldl (fun postitems entry => addPostitem entry.1 entry.2 postitems) postitems =
        (entries.filterMap (fun entry => entry.2.file? entry.1)).foldl Fileset.addFile postitems := by
    induction entries generalizing postitems with
    | nil => rfl
    | cons entry entries ih =>
      rw [List.foldl_cons, ih, addPostitem_file, List.filterMap_cons]
      cases entry.2.file? entry.1 with
      | none => rfl
      | some file => rfl
  rw [addPath, found]
  cases (fileSystem.find path).entries? with
  | some entries => exact each ..
  | none => exact addPostitem_file ..

/-- All that was given to the program. -/
def given (fileSystem : FileSystem) (cfg : LoadedConfig) : List File := cfg.files.flatMap (found fileSystem)

theorem mem_given {file : File} : file ∈ given fileSystem cfg ↔ ∃ path ∈ cfg.files, AtOrBelow fileSystem path file := by
  simp only [given, List.mem_flatMap, mem_found]

theorem prepare_given {used : ProgConfig} {postitems : Fileset} (prepared : fileSystem.prepare cfg = some (used, postitems)) :
    postitems = (given fileSystem cfg).foldl Fileset.addFile ⟨cfg.articleSize, []⟩ := by
  obtain ⟨subject, -, same⟩ := Option.bind_eq_some_iff.mp prepared
  cases same
  have steps : fileSystem.addPath = fun postitems path => (found fileSystem path).foldl Fileset.addFile postitems := by
    funext postitems path
    exact addPath_found postitems path
  rw [given, List.foldl_flatMap, steps]

end Collect

private def foundFiles : List File := [⟨ascii "a.bin", [13, 27, 222], by decide⟩, ⟨ascii "b.bin", [], by decide⟩]

/-- Below the directory there are two files, one of them behind a link, and a link to another
directory, which is not followed. -/
private def photos : FileSystem where
  find path :=
    if path = ascii "home/photos" then
      .directory [
        (ascii "a.bin", .regular [13, 27, 222] (by decide)),
        (ascii "deep", .directory [(ascii "b.bin", .link (.regular [] (by decide))), (ascii "gone", .link .other)]),
        (ascii "elsewhere", .link (.directory [(ascii "c.bin", .regular [28] (by decide))]))]
    else if path = ascii "out" then .directory []
    else .other
  filename path := (path.reverse.takeWhile (· ≠ 47)).reverse
  append path file := path ++ ascii "/" ++ file

private def photosConfig : LoadedConfig where
  toProgConfig := { sampleLaunch.cfg with subject := [], nzboutput := ascii "out" }
  raw := false
  files := [ascii "home/photos"]

private def photosLaunch : Launch :=
  { sampleLaunch with
    cfg := { sampleLaunch.cfg with subject := ascii "photos", nzboutput := ascii "out/photos.nzb" }
    postitems := foundFiles.foldl Fileset.addFile ⟨2, []⟩
    single := rfl
    files_fit := by decide
    pieces_fit := by decide }

private theorem photos_prepared : photos.prepare photosConfig = some (photosLaunch.cfg, photosLaunch.postitems) := rfl

/-- The server refuses the first piece once. The second file is empty. -/
def resentRun : List Main.Event :=
  logsIn ++ [.advance, goesOn 0, .advance, goesOn 0] ++ answersPost "441 refused\r\n" ++ [goesOn 1, goesOn 1, goesOn 1] ++
    (List.replicate 2 (answersPost "240 posted\r\n" ++ [goesOn 1, goesOn 1])).flatten ++ List.replicate 5 .advance ++
    [.write true 1700000000]

end Post2Usenet.Proofs.Startups
