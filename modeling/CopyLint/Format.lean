import CopyLint.Config.File
import CopyLint.Document.Load
import CopyLint.Text.LowerCase

/-! The two formats of documents, and how a run chooses one: by request, else by the first path with
the extension of a format, else by default. -/
namespace CopyLint

inductive Format where
  | json
  | toml
  deriving DecidableEq, Repr

structure UnknownFormat where
  requested : String
  deriving DecidableEq, Repr

inductive DecodeError where
  | complaint (message : String)
  | tooDeep
  deriving DecidableEq, Repr

namespace Format

def all : List Format := [json, toml]

def name : Format → String
  | json => "json"
  | toml => "toml"

def extension : Format → String
  | json => ".json"
  | toml => ".toml"

def ofPath? (path : Path) : Option Format :=
  all.find? fun format => format.extension == Text.lower path.suffix

/-- Capitals in the requested name do not matter. -/
def choose (requested : Option String) (fallback : String) (paths : List Path) :
    Except UnknownFormat Format :=
  let name := requested.getD (((paths.findSome? ofPath?).map Format.name).getD fallback)
  match all.find? fun format => format.name == Text.lower name with
  | some format => pure format
  | none => throw ⟨name⟩

def decode [Host] (format : Format) (text : List Char) : Except DecodeError Value :=
  match format with
  | json => (Json.read text).mapError fun fault => .complaint (fault.message text)
  | toml =>
    match Toml.read Host.readingRoom text with
    | .ok entries => pure (.table entries)
    | .error .malformed => throw (.complaint (Host.complaint text))
    | .error (.overlongInteger digits) => throw (.complaint (Digits.overlongMessage digits))
    | .error .tooDeep => throw .tooDeep

end Format

def UnknownFormat.message (e : UnknownFormat) : String :=
  let known := ", ".intercalate (Format.all.map Format.name)
  s!"unknown graph format {Text.quoted e.requested} (known: {known})"

inductive DocumentError where
  | unreadable (path : String) (cause : FileTree.ReadError)
  | unparsable (path : String) (cause : DecodeError)
  | load (cause : LoadError)
  deriving DecidableEq, Repr

def DocumentError.message : DocumentError → String
  | unreadable path cause => s!"unable to read {path}: {cause.message}"
  | unparsable path (.complaint message) => s!"unable to parse graph document {path}: {message}"
  | unparsable _ .tooDeep => Host.noRoomMessage
  | load cause => cause.message

def DocumentError.escapes : DocumentError → Bool
  | unparsable _ .tooDeep => true
  | _ => false

def Format.loadDocument [Host] (format : Format) (tree : FileTree) (path : Path) :
    Except DocumentError (List Package) := do
  let text ← (tree.readText path).mapError (.unreadable path.render)
  let value ← (format.decode text).mapError (.unparsable path.render)
  (loadPackages path.render value).mapError .load

end CopyLint
