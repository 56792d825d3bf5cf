import CopyLint.CopySite
import CopyLint.Json.Writer

/-! Copy sites as lines, as data and as the text of that data, in order of position. Sites at one
position keep the order in which they were found. -/
namespace CopyLint

def sentence : List String → String
  | [] => ""
  | [part] => part
  | [first, second] => s!"{first} and {second}"
  | parts => ", ".intercalate parts.dropLast ++ ", and " ++ parts.getLast?.getD ""

namespace CopySite

def message (site : CopySite) : Except RenderError String := do
  let noun := if 1 < site.shouldBe.length then "pointers" else "a pointer"
  let description ← site.signature.describe
  pure s!"{sentence site.shouldBe} should be made into {noun} ({description})"

def line (site : CopySite) : Except RenderError String := do
  let position ← site.signature.position.render.mapError .overlongNumber
  let message ← site.message
  pure s!"{position}: {message}"

def toValue (site : CopySite) : Except RenderError Value := do
  let position := site.signature.position
  let description ← site.signature.describe
  let message ← site.message
  pure (.table [
    ("file", .text position.file),
    ("line", .int position.line),
    ("column", .int position.column),
    ("function", .text description),
    ("should_be", .list (site.shouldBe.map .text)),
    ("message", .text message)])

def sorted (sites : List CopySite) : List CopySite :=
  sites.mergeSort fun a b => a.signature.position.le b.signature.position

end CopySite

def reportLines (sites : List CopySite) : Except RenderError (List String) :=
  (CopySite.sorted sites).mapM CopySite.line

def reportValue (sites : List CopySite) : Except RenderError Value := do
  let entries ← (CopySite.sorted sites).mapM CopySite.toValue
  pure (.table [("sites", .list entries), ("count", .int entries.length)])

def reportText (sites : List CopySite) : Except RenderError String := do
  let value ← reportValue sites
  (Json.print value).mapError .overlongNumber

end CopyLint
