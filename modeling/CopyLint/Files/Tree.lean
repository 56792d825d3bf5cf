import CopyLint.Files.Path
import CopyLint.Text.Utf8

/-! A directory tree, and what is found in it under a path. -/
namespace CopyLint

inductive FileTree where
  | file (content : List UInt8)
  | folder (entries : List (String × FileTree))

namespace FileTree

inductive Lookup where
  | found (tree : FileTree)
  | missing
  | behindFile
  | nameTooLong

/-- Follows the parts of a path. `above` holds the folders around the present one, nearest first.
What lies around the top is found under the name `..` there, and the root of the system under `/`.
-/
def follow (above : List FileTree) (tree : FileTree) : List String → Lookup
  | [] => .found tree
  | part :: rest =>
    match tree, above with
    | .file _, _ => .behindFile
    | .folder entries, above =>
      match if part = ".." then above else [] with
      | parent :: above => follow above parent rest
      | [] =>
        if Path.nameLimit < part.utf8ByteSize then .nameTooLong
        else
          match entries.lookup part with
          | some next => follow (if part = ".." || part = "/" then [] else tree :: above) next rest
          | none => .missing

def hasZero (path : Path) : Bool :=
  path.parts.any (·.toList.contains '\x00')

/-- Nothing has a zero character in its name. -/
def find (tree : FileTree) (path : Path) : Lookup :=
  if hasZero path then .missing
  else if Path.textLimit < path.render.utf8ByteSize then .nameTooLong
  else tree.follow [] (if path.absolute then "/" :: path.parts else path.parts)

/-- Puts a tree at a place, making the folders on the way. What was a folder before keeps its other
entries. -/
def graft (new : FileTree) : List String → FileTree → FileTree
  | [], .folder old =>
    match new with
    | .folder entries =>
      .folder (entries ++ old.filter fun (name, _) => (entries.lookup name).isNone)
    | .file content => .file content
  | [], .file _ => new
  | part :: rest, tree =>
    let entries :=
      match tree with
      | .folder entries => entries
      | .file _ => []
    let inner := graft new rest ((entries.lookup part).getD (.folder []))
    .folder ((part, inner) :: entries.filter (·.1 ≠ part))

def prune : List String → FileTree → FileTree
  | _, .file content => .file content
  | [], .folder entries => .folder entries
  | [name], .folder entries => .folder (entries.filter (·.1 ≠ name))
  | part :: rest, .folder entries =>
    match entries.lookup part with
    | some inner => .folder ((part, prune rest inner) :: entries.filter (·.1 ≠ part))
    | none => .folder entries

inductive ReadError where
  | missing
  | isFolder (path : String)
  | behindFile (path : String)
  | nameTooLong (path : String)
  | zeroCharacter
  | undecodable (fault : Text.Utf8.Fault)
  deriving DecidableEq, Repr

def ReadError.message : ReadError → String
  | missing => "No such file or directory"
  | isFolder path => s!"[Errno 21] Is a directory: {Text.quoted path}"
  | behindFile path => s!"[Errno 20] Not a directory: {Text.quoted path}"
  | nameTooLong path => s!"[Errno 36] File name too long: {Text.quoted path}"
  | zeroCharacter => "embedded null byte"
  | undecodable fault => fault.message

def readText (tree : FileTree) (path : Path) : Except ReadError (List Char) :=
  if hasZero path then throw .zeroCharacter
  else
    match tree.find path with
    | .found (.file content) =>
      match Text.Utf8.decode content with
      | .ok text => pure (Text.normalizeBreaks [] text)
      | .error fault => throw (.undecodable fault)
    | .found (.folder _) => throw (.isFolder path.render)
    | .missing => throw .missing
    | .behindFile => throw (.behindFile path.render)
    | .nameTooLong => throw (.nameTooLong path.render)

end FileTree

end CopyLint
