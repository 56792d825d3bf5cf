import CopyLint.Graph.Search
import CopyLint.Text.Quoted

/-! The conditions on a package's definitions: no identity twice, no field of unknown type, and none
that embeds itself. -/
namespace CopyLint

inductive GraphError where
  | duplicateIdentity (label identity : String)
  | unknownType (label typeName fieldName refName : String)
  | cycle (label : String) (names : List String)
  deriving DecidableEq, Repr

def GraphError.message : GraphError → String
  | duplicateIdentity label identity =>
    s!"unit {label}: duplicate type identity {Text.quoted identity}"
  | unknownType label typeName fieldName refName =>
    let field := if fieldName = "" then "_" else fieldName
    s!"unit {label}: field {typeName}.{field} refers to unknown type {Text.quoted refName}"
  | cycle label names =>
    let path := " -> ".intercalate names
    s!"unit {label}: invalid recursive type {path}"

def firstRepeat (seen : List String) : List String → Option String
  | [] => none
  | x :: rest => if x ∈ seen then some x else firstRepeat (x :: seen) rest

def Index.firstUnknown (index : Index) (types : List TypeDef) :
    Option (TypeDef × Field × String) :=
  types.findSome? fun t => t.fields.findSome? fun field =>
    match field.type.embedded with
    | some (identity, name) =>
      if (index.find? identity).isSome then none else some (t, field, name)
    | none => none

namespace Package

def check (p : Package) : Except GraphError Unit := do
  if let some identity := firstRepeat [] ((p.types ++ p.imported).map (·.identity)) then
    throw (.duplicateIdentity p.label identity)
  if let some (t, field, name) := p.index.firstUnknown (p.imported ++ p.types) then
    throw (.unknownType p.label t.name field.name name)
  if let some cycle := p.index.cycle? then
    throw (.cycle p.label (cycle.filterMap fun i => (p.index.find? i).map (·.name)))

end Package

end CopyLint
