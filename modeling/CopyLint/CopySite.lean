import CopyLint.Layout.Progress

/-! Wide structs, and the signatures that copy them. Only a direct occurrence counts: a pointer to a
wide struct copies one word, and an array of wide structs is not the struct itself. -/
namespace CopyLint

def classify (config : Config) (footprint : TypeDef → Sizing Int) (types : List TypeDef) :
    Sizing (List String) := do
  let sizes ← types.mapM fun t => do
    let size ← footprint t
    pure (t.identity, size)
  pure ((sizes.filter fun (_, size) => config.maxWidth < size).map (·.1)).eraseDups

def classifyAlone (config : Config) (types : List TypeDef) : Except LayoutError (List String) :=
  ((classify config (Sizing.footprint config (Index.ofList types)) types).run []).1

structure CopySite where
  signature : Signature
  shouldBe : List String
  deriving DecidableEq, Repr

def TypeRef.isWide (wide : List String) : TypeRef → Bool
  | .named identity _ => wide.contains identity
  | _ => false

namespace Signature

def offendingReceiver (wide : List String) (s : Signature) : List String :=
  match s.receiver with
  | some receiver => if receiver.type.isWide wide then ["receiver"] else []
  | none => []

def describeParam (index : Nat) (p : Param) : String :=
  if p.name = "" then s!"parameter at index {index}"
  else s!"parameter '{p.name}' at index {index}"

def describeResult (index : Nat) (typeName : String) : String :=
  s!"return value '{typeName}' at index {index}"

def offendingParams (wide : List String) (s : Signature) : List String :=
  s.params.zipIdx.filterMap fun (p, index) =>
    if p.type.isWide wide then some (describeParam index p) else none

def offendingResults (wide : List String) (s : Signature) : List String :=
  s.results.zipIdx.filterMap fun (r, index) =>
    match r.type with
    | .named identity name =>
      if wide.contains identity then some (describeResult index name) else none
    | _ => none

def offending (wide : List String) (s : Signature) : List String :=
  s.offendingReceiver wide ++ s.offendingParams wide ++ s.offendingResults wide

end Signature

def copySites (wide : List String) (signatures : List Signature) : List CopySite :=
  signatures.filterMap fun s =>
    match s.offending wide with
    | [] => none
    | shouldBe => some ⟨s, shouldBe⟩

end CopyLint
