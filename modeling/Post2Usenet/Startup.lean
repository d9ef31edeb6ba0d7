import Post2Usenet.Fileset
import Post2Usenet.ProgramConfig

/-! `main.cc` up to its pool: from the settings that were loaded and the files that are
there to what is posted. The library's paths and directories are data here. -/

namespace Post2Usenet

/-- What is at a path. A directory has its entries in the order in which the library
delivers them; a link to nothing leads to something other than these. -/
inductive Node where
  | regular (content : Bytes) (size_fits : content.length < 2 ^ 64)
  | directory (entries : List (Bytes × Node))
  | link (target : Node)
  | other

abbrev Entries := List (Bytes × Node)

namespace Node

/-- The library's queries follow links. -/
def followed : Node → Node
  | .link target => target.followed
  | node => node

def entries? (node : Node) : Option Entries :=
  match node.followed with
  | .directory entries => some entries
  | _ => none

def isDirectory (node : Node) : Bool := node.entries?.isSome

/-- The regular file at a path with this last part. -/
def file? (name : Bytes) (node : Node) : Option File :=
  match node.followed with
  | .regular content size_fits => some ⟨name, content, size_fits⟩
  | _ => none

mutual
/-- The steps of a `recursive_directory_iterator`, which does not descend into links. -/
def recursiveDirectoryIterator : Entries → Entries
  | [] => []
  | (name, node) :: entries => (name, node) :: (node.descend ++ recursiveDirectoryIterator entries)
termination_by structural entries => entries

def descend : Node → Entries
  | .directory entries => recursiveDirectoryIterator entries
  | .regular _ _ | .link _ | .other => []
termination_by structural node => node
end

end Node

/-- The paths of the library: what is there, their last parts, and one put behind another. -/
structure FileSystem where
  find : Bytes → Node
  filename : Bytes → Bytes
  append : Bytes → Bytes → Bytes

namespace FileSystem

variable (fileSystem : FileSystem)

def addPostitem (name : Bytes) (node : Node) (postitems : Fileset) : Fileset :=
  match node.file? name with
  | some file => postitems.addFile file
  | none => postitems

/-- What is neither a file nor a directory is ignored. -/
def addPath (postitems : Fileset) (path : Bytes) : Fileset :=
  match (fileSystem.find path).entries? with
  | some entries =>
    (Node.recursiveDirectoryIterator entries).foldl (fun postitems entry => addPostitem entry.1 entry.2 postitems) postitems
  | none => addPostitem (fileSystem.filename path) (fileSystem.find path) postitems

/-- A single path is a subject. -/
def subject? (cfg : LoadedConfig) : Option Bytes :=
  if cfg.subject = [] then
    match cfg.files with
    | [path] => some (fileSystem.filename path)
    | _ => none
  else some cfg.subject

def nzboutput (cfg : LoadedConfig) (subject : Bytes) : Bytes :=
  if cfg.nzboutput ≠ [] ∧ (fileSystem.find cfg.nzboutput).isDirectory then
    fileSystem.append cfg.nzboutput (subject ++ ascii ".nzb")
  else cfg.nzboutput

/-- What `main` starts its pool with, unless it wants a subject. -/
def prepare (cfg : LoadedConfig) : Option (ProgConfig × Fileset) := do
  let subject ← fileSystem.subject? cfg
  return ({ cfg.toProgConfig with subject, nzboutput := fileSystem.nzboutput cfg subject },
    cfg.files.foldl fileSystem.addPath ⟨cfg.articleSize, []⟩)

end FileSystem

end Post2Usenet
