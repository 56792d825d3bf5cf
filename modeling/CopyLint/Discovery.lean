import CopyLint.Format

/-! Documents in a directory tree. A file that is named counts whatever it is called; below a folder
that is named, hidden and excluded folders are left out, and so are configuration files. -/
namespace CopyLint

inductive DiscoveryError where
  | missingPath (path : String)
  | nameTooLong (path : String)
  | tooDeep
  | noDocuments (format : Format) (paths : List String)
  deriving DecidableEq, Repr

namespace DiscoveryError

/-- A path that is too long is not reported as one that is missing: nothing on the way to the user
catches the refusal to look at it. Nor does anything catch that folders are nested too deep. -/
def escapes : DiscoveryError → Bool
  | nameTooLong _ | tooDeep => true
  | _ => false

def message : DiscoveryError → String
  | missingPath path => s!"unable to stat file {Text.quoted path}: no such file or directory"
  | nameTooLong path => (FileTree.ReadError.nameTooLong path).message
  | tooDeep => Host.noRoomMessage
  | noDocuments format paths =>
    let listed := ", ".intercalate paths
    s!"no {format.name} graph documents found in {listed}"

end DiscoveryError

namespace Discovery

structure Filter where
  extensions : List String
  exclude : List String := []

namespace Filter

def skipsFolder (f : Filter) (name : String) : Bool :=
  name.toList.head? = some '.' || name.toList.head? = some '_' || name = "testdata" ||
    f.exclude.contains name

def takesFile (f : Filter) (name : String) : Bool :=
  name ≠ Config.fileName && name ≠ "pyproject.toml" &&
    (f.extensions.map Text.lower).contains (Text.lower (Path.suffixOf name))

end Filter

def isFile : FileTree → Bool
  | .file _ => true
  | .folder _ => false

/-- The root of the system is no entry of the top folder. -/
def visits (f : Filter) (name : String) : Bool :=
  name ≠ "/" && !f.skipsFolder name

/-- A folder whose path is too long to list it is not looked into. -/
def enters (f : Filter) (listed : Path) (name : String) : Bool :=
  visits f name && (listed.join name).render.utf8ByteSize ≤ Path.textLimit

mutual

/-- The documents below a folder, each by the names that lead to it: the folder's own files by name,
then those of its folders by name. `listed` is the path under which the folder is listed. -/
def below (f : Filter) (listed : Path) : FileTree → List (List String)
  | .file _ => []
  | .folder entries =>
    let files := (entries.filter fun (name, tree) => isFile tree && f.takesFile name).map (·.1)
    let folders := (foldersBelow f listed entries).mergeSort fun a b => a.1 ≤ b.1
    (files.mergeSort (· ≤ ·)).map ([·]) ++
      folders.flatMap fun (name, found) => found.map (name :: ·)

def foldersBelow (f : Filter) (listed : Path) :
    List (String × FileTree) → List (String × List (List String))
  | [] => []
  | (name, tree) :: rest =>
    if isFile tree || !enters f listed name then foldersBelow f listed rest
    else (name, below f (listed.join name) tree) :: foldersBelow f listed rest

end

mutual

def depth (f : Filter) (listed : Path) : FileTree → Nat
  | .file _ => 0
  | .folder entries => depthOfEntries f listed entries

def depthOfEntries (f : Filter) (listed : Path) : List (String × FileTree) → Nat
  | [] => 0
  | (name, tree) :: rest =>
    if isFile tree || !visits f name then depthOfEntries f listed rest
    else
      let inside := if enters f listed name then depth f (listed.join name) tree else 0
      max (inside + 1) (depthOfEntries f listed rest)

end

/-- The present folder is listed by its dot, which is a part of the paths below it. -/
def listedAs (path : Path) : Path :=
  if path = {} then ⟨"", ["."]⟩ else path

def standingFor [Host] (f : Filter) (tree : FileTree) (path : Path) :
    Except DiscoveryError (List Path) :=
  match tree.find path with
  | .found (.folder entries) =>
    if Host.walkingRoom < depth f (listedAs path) (.folder entries) then throw .tooDeep
    else pure ((below f (listedAs path) (.folder entries)).map path.within)
  | .found (.file _) => pure [path]
  | .nameTooLong => throw (.nameTooLong path.render)
  | _ => throw (.missingPath path.render)

def documents [Host] (f : Filter) (tree : FileTree) (paths : List Path) :
    Except DiscoveryError (List Path) := do
  let found ← paths.mapM (standingFor f tree)
  pure found.flatten

end Discovery

def Format.discover [Host] (format : Format) (exclude : List String) (tree : FileTree)
    (paths : List Path) : Except DiscoveryError (List Path) := do
  match ← Discovery.documents ⟨[format.extension], exclude⟩ tree paths with
  | [] => throw (.noDocuments format (paths.map Path.render))
  | found => pure found

end CopyLint
