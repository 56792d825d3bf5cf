import CopyLint.Package

/-! Look-up of definitions by identity. An index cannot answer with a definition of another
identity, because it looks at the definitions themselves. -/
namespace CopyLint

structure Index where
  definitions : List TypeDef := []
  deriving DecidableEq, Repr

namespace Index

/-- Of two definitions with one identity the later one counts. -/
def ofList (definitions : List TypeDef) : Index :=
  ⟨definitions.reverse⟩

def find? (index : Index) (identity : String) : Option TypeDef :=
  index.definitions.find? (·.identity == identity)

def insertIfNew (index : Index) (t : TypeDef) : Index :=
  if (index.find? t.identity).isSome then index else ⟨t :: index.definitions⟩

def identities (index : Index) : List String :=
  index.definitions.map (·.identity)

theorem identity_of_find? {index : Index} {identity : String} {t : TypeDef}
    (h : index.find? identity = some t) : t.identity = identity := by
  have := List.find?_some h
  simpa using this

theorem mem_of_find? {index : Index} {identity : String} {t : TypeDef}
    (h : index.find? identity = some t) : t ∈ index.definitions :=
  List.mem_of_find?_eq_some h

theorem mem_identities_of_find? {index : Index} {identity : String} {t : TypeDef}
    (h : index.find? identity = some t) : identity ∈ index.identities :=
  List.mem_map.mpr ⟨t, mem_of_find? h, identity_of_find? h⟩

end Index

/-- The package's own definitions hide imported ones of the same identity. -/
def Package.index (p : Package) : Index :=
  Index.ofList (p.imported ++ p.types)

end CopyLint
