import CopyLint.Document.Checked
import CopyLint.Package
import CopyLint.Text.Integer
import CopyLint.Value

/-! The shape of a document. A table is read key by key, in a fixed order; keys that the shape does
not know are not looked at. A reference whose size is left to its name may turn out to name no basic
type, which is found out only once the whole document has the right shape. -/
namespace CopyLint.Document

structure SizelessScalar where
  name : String
  deriving DecidableEq, Repr

abbrev Resolved (α : Type) := Except SizelessScalar α

abbrev Entries := List (String × Value)

def textOf : Value → Checked String
  | .text s => pure s
  | _ => .fault .notText

def integerOf : Value → Except Cause Int
  | .int n => pure n
  | .bool b => pure (if b then 1 else 0)
  | .float x =>
    match x, x.toInt? with
    | .finite .., some n => if n.natAbs < Nat.pow 2 63 then pure n else throw .tooLong
    | .finite .., none => throw .fractional
    | _, _ => throw .notFinite
  | .text s =>
    match Text.readInteger s with
    | .ok n => pure n
    | .error .tooLong => throw .tooLong
    | .error .malformed => throw .unreadableInteger
  | _ => throw .notInteger

def countOf (v : Value) : Checked Int :=
  match integerOf v with
  | .ok n => if n < 0 then .fault .negative else pure n
  | .error cause => .fault cause

def listOf {α : Type} (check : Value → Checked α) : Value → Checked (List α)
  | .list items => Checked.each check 0 items
  | _ => .fault .notList

def orNull {α : Type} (check : Value → Checked α) : Value → Checked (Option α)
  | .null => pure none
  | v => some <$> check v

def tableOf {α : Type} (model : String) (check : Entries → Checked α) : Value → Checked α
  | .table entries => check entries
  | _ => .fault (.notModel model)

def required {α : Type} (key : String) (check : Value → Checked α) (entries : Entries) :
    Checked α :=
  Checked.within key <|
    match Value.get? entries key with
    | some v => check v
    | none => .fault .missing

def optional {α : Type} (key : String) (default : α) (check : Value → Checked α)
    (entries : Entries) : Checked α :=
  match Value.get? entries key with
  | some v => Checked.within key (check v)
  | none => pure default

/-- Without a size and words of its own, a scalar has those of the basic type of its name. -/
def resolveScalar (name : String) (size : Option Int) (align words : Int) : Resolved TypeRef :=
  match size with
  | none =>
    if words = 0 then
      match basicScalar? name with
      | some s => pure (.scalar s)
      | none => throw ⟨name⟩
    else pure (.scalar ⟨name, 0, align, words⟩)
  | some size => pure (.scalar ⟨name, size, align, words⟩)

/-- An identity that is absent or empty is the name. -/
def identityOr (name : String) : Option String → String
  | some "" | none => name
  | some identity => identity

def scalarOf (entries : Entries) : Checked (Resolved TypeRef) :=
  resolveScalar <$> required "name" textOf entries
    <*> optional "size" none (orNull countOf) entries
    <*> optional "align" 0 countOf entries
    <*> optional "words" 0 countOf entries

def namedOf (entries : Entries) : Checked (Resolved TypeRef) :=
  (fun name identity => pure (.named (identityOr name identity) name))
    <$> required "name" textOf entries
    <*> optional "identity" none (orNull textOf) entries

def pointerTo (target : Option (Resolved TypeRef)) (label : String) : Resolved TypeRef :=
  match target with
  | none => pure (.rawPointer label)
  | some target => do
    let target ← target
    pure (.pointer target label)

def arrayOf (elem : Resolved TypeRef) (length : Int) : Resolved TypeRef := do
  let elem ← elem
  pure (.array elem length)

def depthLimit : Nat := 253

/-- A reference, with room for the given number of references around each other. -/
def refOf (room : Nat) (v : Value) : Checked (Resolved TypeRef) :=
  match v with
  | .table entries =>
    match Value.get? entries "kind" with
    | none => .fault .untagged
    | some (.text tag) =>
      if tag ∈ ["primitive", "named", "pointer", "array"] then
        Checked.within tag <|
          match room with
          | 0 => .fault .tooDeep
          | room + 1 =>
            if tag = "primitive" then scalarOf entries
            else if tag = "named" then namedOf entries
            else if tag = "pointer" then
              pointerTo <$> optional "target" none (orNull (refOf room)) entries
                <*> optional "name" "" textOf entries
            else
              arrayOf <$> required "elem" (refOf room) entries
                <*> required "length" countOf entries
      else .fault (.unknownTag tag)
    | some tag => .fault (.unknownTag tag.plain)
  | _ => .fault .notTable

def typeOf (entries : Entries) : Checked (Resolved TypeRef) :=
  required "type" (refOf depthLimit) entries

def fieldOf : Value → Checked (Resolved Field) :=
  tableOf "FieldDTO" fun entries =>
    (fun name type => return ⟨name, ← type⟩)
      <$> optional "name" "" textOf entries
      <*> typeOf entries

def paramOf : Value → Checked (Resolved Param) :=
  tableOf "ParamDTO" fun entries =>
    (fun name type => return ⟨name, ← type⟩)
      <$> optional "name" "" textOf entries
      <*> typeOf entries

def typeDefOf : Value → Checked (Resolved TypeDef) :=
  tableOf "TypeDefDTO" fun entries =>
    (fun name identity fields => return ⟨identityOr name identity, name, ← fields.mapM id⟩)
      <$> required "name" textOf entries
      <*> optional "identity" none (orNull textOf) entries
      <*> optional "fields" [] (listOf fieldOf) entries

def positionOf : Value → Checked Position :=
  tableOf "PositionDTO" fun entries =>
    Position.mk
      <$> required "file" textOf entries
      <*> required "line" countOf entries
      <*> required "column" countOf entries

def signatureOf : Value → Checked (Resolved Signature) :=
  tableOf "FunctionDTO" fun entries =>
    (fun name position receiver params results display => do
      let receiver ← receiver.mapM id
      let params ← params.mapM id
      let results ← results.mapM id
      pure ⟨name, position, receiver, params, results, display⟩)
      <$> required "name" textOf entries
      <*> required "position" positionOf entries
      <*> optional "receiver" none (orNull paramOf) entries
      <*> optional "params" [] (listOf paramOf) entries
      <*> optional "results" [] (listOf paramOf) entries
      <*> optional "display" "" textOf entries

/-- The package's own definitions are resolved first, the imported ones last. -/
def packageOf : Value → Checked (Resolved Package) :=
  tableOf "UnitDTO" fun entries =>
    (fun name types imported signatures => do
      let types ← types.mapM id
      let signatures ← signatures.mapM id
      let imported ← imported.mapM id
      pure ⟨name, types, imported, signatures⟩)
      <$> optional "name" "" textOf entries
      <*> optional "types" [] (listOf typeDefOf) entries
      <*> optional "imported_types" [] (listOf typeDefOf) entries
      <*> optional "functions" [] (listOf signatureOf) entries

def documentOf : Value → Checked (List (Resolved Package)) :=
  tableOf "GraphDocumentDTO" fun entries => required "units" (listOf packageOf) entries

end CopyLint.Document
