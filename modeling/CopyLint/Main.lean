import CopyLint.CommandLine.Run

/-! The program: it reads the files that the command line names, runs over them, and prints. -/
namespace CopyLint.CommandLine

/-- Reads a file or folder. Below a folder that the user named, a file that no format claims is not
opened, and a folder that no search enters is left empty. -/
partial def readEntry (named : Bool) (entry : IO.FS.DirEntry) : IO FileTree := do
  if ← entry.path.isDir then
    if !named && Discovery.Filter.skipsFolder ⟨[], []⟩ entry.fileName then pure (.folder [])
    else
      let inside ← entry.path.readDir
      let entries ← inside.toList.mapM fun e => do
        let tree ← readEntry false e
        pure (e.fileName, tree)
      pure (.folder entries)
  else if named || (Format.ofPath? (Path.ofString entry.fileName)).isSome then
    let content ← IO.FS.readBinFile entry.path
    pure (.file content.toList)
  else pure (.file [])

def nextPlace (place : List String) (part : String) : List String :=
  match place.getLast? with
  | some last =>
    if part = ".." && last ≠ ".." && last ≠ "/" then place.dropLast else place ++ [part]
  | none => [part]

def isThere (tree : FileTree) (path : Path) : Bool :=
  match tree.find path with
  | .found _ => true
  | _ => false

def addPath (tree : FileTree) (path : Path) : IO FileTree := do
  let here ← IO.currentDir
  let mut tree := tree
  let mut place := if path.absolute then ["/"] else []
  for i in [0:path.parts.length + 1] do
    let reached : Path := { path with parts := path.parts.take i }
    if i ≠ 0 then
      place := nextPlace place reached.name
    let entry : IO.FS.DirEntry := ⟨here, reached.render⟩
    if ← entry.path.pathExists then
      if i = path.parts.length then
        tree := FileTree.graft (← readEntry true entry) place tree
      else if !isThere tree reached then
        let isFolder ← entry.path.isDir
        tree := FileTree.graft (if isFolder then .folder [] else .file []) place tree
  pure tree

/-- The files that a request can look at. A folder is read before what was named inside it. -/
def readTree (words : List String) : IO FileTree :=
  match readRequest words with
  | .ok (.run i) =>
    let paths := i.configFile.getD (i.root.join Config.fileName) :: i.paths
    let ordered := paths.mergeSort fun a b => a.parts.length ≤ b.parts.length
    ordered.foldlM addPath (.folder [])
  | _ => pure (.folder [])

end CopyLint.CommandLine

open CopyLint CommandLine in
def main (words : List String) : IO UInt32 := do
  let tree ← readTree words
  match outcome words tree with
  | .exit code stdout stderr =>
    IO.print stdout
    IO.eprint stderr
    pure code.toUInt32
  | .usage cause =>
    IO.eprintln cause.message
    IO.eprintln usageText
    pure 2
  | .crash cause =>
    IO.eprintln cause.message
    pure 1
