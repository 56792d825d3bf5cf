import CopyLint.Document.Schema
import CopyLint.Graph.Check

/-! Packages from decoded data. -/
namespace CopyLint

inductive LoadError where
  | invalid (source : String) (first : Document.Fault) (others : Nat)
  | sizeless (cause : Document.SizelessScalar)
  | graph (cause : GraphError)
  deriving DecidableEq, Repr

def LoadError.message : LoadError → String
  | invalid source first others =>
    let more := if others = 0 then "" else s!" (and {others} more)"
    s!"invalid graph document {source}: {first.message}{more}"
  | sizeless cause =>
    s!"primitive {Text.quoted cause.name} has no size and is not a basic type"
  | graph cause => cause.message

namespace Document

/-- A table without a list of packages is a package. -/
def normalize : Value → Value
  | .table entries =>
    if (Value.get? entries "units").isSome then .table entries
    else .table [("units", .list [.table entries])]
  | v => v

def accept (p : Resolved Package) : Except LoadError Package := do
  let p ← p.mapError .sizeless
  p.check.mapError .graph
  pure p

end Document

def loadPackages (source : String) (v : Value) : Except LoadError (List Package) :=
  match Document.documentOf (Document.normalize v) with
  | .valid packages => packages.mapM Document.accept
  | .faulty first rest => throw (.invalid source first rest.length)

end CopyLint
