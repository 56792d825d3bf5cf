import CopyLint.Layout.Index

/-! Which definitions a definition embeds by value: directly or through arrays of any length, and
never through a pointer. -/
namespace CopyLint

def TypeRef.embedded (ref : TypeRef) : Option (String × String) :=
  match ref.core with
  | .named identity name => some (identity, name)
  | _ => none

def TypeDef.embeds (t : TypeDef) : List String :=
  t.fields.filterMap fun field => field.type.embedded.map (·.1)

namespace Index

def Embeds (index : Index) (outer inner : String) : Prop :=
  ∃ t, index.find? outer = some t ∧ inner ∈ t.embeds

inductive Reaches (index : Index) : String → String → Prop where
  | step {outer inner : String} : index.Embeds outer inner → index.Reaches outer inner
  | trans {outer middle inner : String} :
      index.Embeds outer middle → index.Reaches middle inner → index.Reaches outer inner

end Index

end CopyLint
