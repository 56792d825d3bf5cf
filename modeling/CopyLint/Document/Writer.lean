import CopyLint.Package
import CopyLint.Value

/-! Packages as data for a document, with every key spelled out. -/
namespace CopyLint

def TypeRef.toValue : TypeRef → Value
  | .scalar s => .table [("kind", .text "primitive"), ("name", .text s.name),
      ("size", .int s.size), ("align", .int s.align), ("words", .int s.words)]
  | .named identity name => .table [("kind", .text "named"), ("name", .text name),
      ("identity", .text identity)]
  | .pointer target label => .table [("kind", .text "pointer"), ("target", target.toValue),
      ("name", .text label)]
  | .rawPointer label => .table [("kind", .text "pointer"), ("target", .null),
      ("name", .text label)]
  | .array elem length => .table [("kind", .text "array"), ("elem", elem.toValue),
      ("length", .int length)]
  | .unsupported => .null

def Field.toValue (field : Field) : Value :=
  .table [("name", .text field.name), ("type", field.type.toValue)]

def Param.toValue (param : Param) : Value :=
  .table [("name", .text param.name), ("type", param.type.toValue)]

def TypeDef.toValue (t : TypeDef) : Value :=
  .table [("name", .text t.name), ("identity", .text t.identity),
    ("fields", .list (t.fields.map Field.toValue))]

def Position.toValue (p : Position) : Value :=
  .table [("file", .text p.file), ("line", .int p.line), ("column", .int p.column)]

def Signature.toValue (s : Signature) : Value :=
  .table [("name", .text s.name), ("position", s.position.toValue),
    ("receiver", (s.receiver.map Param.toValue).getD .null),
    ("params", .list (s.params.map Param.toValue)),
    ("results", .list (s.results.map Param.toValue)),
    ("display", .text s.display)]

def Package.toValue (p : Package) : Value :=
  .table [("name", .text p.name),
    ("types", .list (p.types.map TypeDef.toValue)),
    ("imported_types", .list (p.imported.map TypeDef.toValue)),
    ("functions", .list (p.signatures.map Signature.toValue))]

def Document.ofPackages (packages : List Package) : Value :=
  .table [("units", .list (packages.map Package.toValue))]

end CopyLint
