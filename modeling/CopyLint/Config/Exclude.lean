import CopyLint.Config.Section
import CopyLint.Text.Blank

/-! Names of folders to leave out: a text lists them with commas between, and a list may hold
several such texts. What is not a text names nothing. -/
namespace CopyLint.Config

def namesIn (s : String) : List String :=
  let trimmed := (s.toList.splitOn ',').map (Text.trim Text.isBlank)
  (trimmed.filter (· ≠ [])).map String.ofList

def excludeNames : Value → List String
  | .text s => namesIn s
  | .list items => items.flatMap fun item =>
    match item with
    | .text s => namesIn s
    | _ => []
  | _ => []

def excluded (s : Section) : List String :=
  match Value.get? s "exclude" with
  | some value => excludeNames value
  | none => []

end CopyLint.Config
