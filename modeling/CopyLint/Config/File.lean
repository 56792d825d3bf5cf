import CopyLint.Config.Section
import CopyLint.Files.Tree
import CopyLint.Toml.Reader

/-! The configuration file: a table of a TOML file that is either named by the user or looked for in
a folder. Only a file that was named has to be there. -/
namespace CopyLint

inductive ConfigFileError where
  | missing (path : String)
  | unreadable (path : String) (cause : FileTree.ReadError)
  | unparsable (path complaint : String)
  | overlongInteger (digits : Nat)
  | tooDeep
  | notTable
  deriving DecidableEq, Repr

namespace ConfigFileError

/-- A path with a zero character, a number too long to read and values in one another too deep to
read are not reported as faults of the file: nothing on the way to the user catches them. -/
def escapes : ConfigFileError → Bool
  | unreadable _ .zeroCharacter | overlongInteger _ | tooDeep => true
  | _ => false

def message : ConfigFileError → String
  | missing path => s!"config file {path} does not exist"
  | unreadable _ .zeroCharacter => FileTree.ReadError.zeroCharacter.message
  | unreadable path cause => s!"unable to read {path}: {cause.message}"
  | unparsable path complaint => s!"unable to parse {path}: {complaint}"
  | overlongInteger digits => Digits.overlongMessage digits
  | tooDeep => Host.noRoomMessage
  | notTable => "[widecopy] must be a table"

end ConfigFileError

namespace Config

def fileName : String := "widecopy.toml"

def readFile [Host] (tree : FileTree) (required : Bool) (path : Path) :
    Except ConfigFileError Section :=
  match tree.readText path with
  | .error .missing => if required then throw (.missing path.render) else pure []
  | .error cause => throw (.unreadable path.render cause)
  | .ok text =>
    match Toml.read Host.readingRoom text with
    | .ok entries => pure entries
    | .error .malformed => throw (.unparsable path.render (Host.complaint text))
    | .error (.overlongInteger digits) => throw (.overlongInteger digits)
    | .error .tooDeep => throw .tooDeep

/-- The program's own table in the file that `explicit` names, or else in the one in `root`. -/
def readSection [Host] (tree : FileTree) (root : Path) (explicit : Option Path) :
    Except ConfigFileError Section := do
  let entries ←
    match explicit with
    | some path => readFile tree true path
    | none => readFile tree false (root.join fileName)
  match Value.get? entries "widecopy" with
  | none => pure []
  | some (.table entries) => pure entries
  | some _ => throw .notTable

end Config

end CopyLint
