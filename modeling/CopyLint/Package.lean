import CopyLint.TypeRef

/-! Packages: the struct definitions and function signatures that are analysed together. -/
namespace CopyLint

structure Field where
  name : String
  type : TypeRef
  deriving DecidableEq, Repr

structure TypeDef where
  identity : String
  name : String
  fields : List Field := []
  deriving DecidableEq, Repr

structure Position where
  file : String
  line : Int
  column : Int
  deriving DecidableEq, Repr

structure Param where
  name : String
  type : TypeRef
  deriving DecidableEq, Repr

structure Signature where
  name : String
  position : Position
  receiver : Option Param := none
  params : List Param := []
  results : List Param := []
  display : String := ""
  deriving DecidableEq, Repr

/-- The imported definitions only help to lay out the package's own. -/
structure Package where
  name : String
  types : List TypeDef := []
  imported : List TypeDef := []
  signatures : List Signature := []
  deriving DecidableEq, Repr

namespace Position

def render (p : Position) : Except OverlongNumber String := do
  let line ← numeral p.line
  let column ← numeral p.column
  pure s!"{p.file}:{line}:{column}"

def le (p q : Position) : Bool :=
  if p.file = q.file then
    if p.line = q.line then p.column ≤ q.column else p.line < q.line
  else p.file < q.file

end Position

def Param.render (p : Param) : Except RenderError String := do
  let type ← p.type.render
  pure (if p.name = "" then type else s!"{p.name} {type}")

namespace Signature

def renderList (params : List Param) : Except RenderError String := do
  let texts ← params.mapM Param.render
  pure (", ".intercalate texts)

def renderReceiver : Option Param → Except RenderError String
  | none => pure ""
  | some receiver => do
    let text ← receiver.render
    pure s!"({text}) "

/-- A single nameless result stands without brackets. -/
def renderResults : List Param → Except RenderError String
  | [] => pure ""
  | results => do
    let text ← renderList results
    match results with
    | [⟨"", _⟩] => pure s!" {text}"
    | _ => pure s!" ({text})"

def describe (s : Signature) : Except RenderError String :=
  if s.display = "" then do
    let receiver ← renderReceiver s.receiver
    let params ← renderList s.params
    let results ← renderResults s.results
    pure s!"func {receiver}{s.name}({params}){results}"
  else pure s.display

end Signature

def Package.label (p : Package) : String :=
  if p.name = "" then "<unnamed>" else p.name

end CopyLint
