import CopyLint.Layout.Basic

/-! The layout rules, with the layouts of embedded definitions taken from elsewhere. -/
namespace CopyLint

namespace Index

def require (index : Index) (identity name : String) : Except LayoutError TypeDef :=
  match index.find? identity with
  | some t => pure t
  | none => throw (.unknownType name identity)

end Index

namespace Sizing

variable (config : Config) (index : Index)

def roundedUp (offset align : Int) : Sizing Int :=
  match alignUp offset align with
  | .ok n => pure n
  | .error cause => throw (.zeroAlignment cause)

def alignWith (layoutOf : TypeDef → Sizing Layout) : TypeRef → Sizing Int
  | .scalar s => pure (config.cap (s.naturalAlign config.wordSize))
  | .pointer _ _ | .rawPointer _ => pure (config.cap config.wordSize)
  | .named identity name => do
    let t ← index.require identity name
    let layout ← layoutOf t
    pure layout.align
  | .array elem _ => alignWith layoutOf elem
  | .unsupported => throw (.unsupportedRef {})

/-- Size of a reference. The last element of an array is not padded; an array without elements
takes no space, whatever its element is. -/
def sizeWith (layoutOf : TypeDef → Sizing Layout) : TypeRef → Sizing Int
  | .scalar s => pure (s.bytes config.wordSize)
  | .pointer _ _ | .rawPointer _ => pure config.wordSize
  | .named identity name => do
    let t ← index.require identity name
    let layout ← layoutOf t
    pure layout.size
  | .array elem length =>
    if length ≤ 0 then pure 0 else do
      let size ← sizeWith layoutOf elem
      let align ← alignWith config index layoutOf elem
      let stride ← roundedUp size align
      pure (stride * (length - 1) + size)
  | .unsupported => throw (.unsupportedRef {})

def placeField (layoutOf : TypeDef → Sizing Layout) (sofar : Layout) (field : Field) :
    Sizing Layout := do
  let align ← alignWith config index layoutOf field.type
  let start ← roundedUp sofar.size align
  let size ← sizeWith config index layoutOf field.type
  pure ⟨start + size, max sofar.align align⟩

def fieldLayout (layoutOf : TypeDef → Sizing Layout) (t : TypeDef) : Sizing Layout := do
  let placed ← t.fields.foldlM (placeField config index layoutOf) ⟨0, 1⟩
  let align := config.cap placed.align
  let size ← roundedUp placed.size align
  pure ⟨size, align⟩

def remembered (t : TypeDef) : Sizing Layout := do
  match (← get).find? t.identity with
  | some layout => pure layout
  | none => throw (.unknownType t.name t.identity)

def pending (memo : Memo) : List Field → Except LayoutError (Option TypeDef)
  | [] => pure none
  | field :: rest =>
    match field.type.core with
    | .named identity name =>
      if (memo.find? identity).isSome then pending memo rest else do
        let t ← index.require identity name
        pure (some t)
    | _ => pending memo rest

end Sizing

end CopyLint
