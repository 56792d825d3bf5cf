import CopyLint.Decimal.Numeral

/-! Type references as fields and signatures spell them. Only an array and a named type embed
what they refer to; a pointer of any kind is one word, whatever stands behind it. -/
namespace CopyLint

/-- A type whose size needs no other definition: `size` bytes and `words` machine words. An
`align` of zero leaves the alignment to the size. -/
structure Scalar where
  name : String
  size : Int := 0
  align : Int := 0
  words : Int := 0
  deriving DecidableEq, Repr

namespace Scalar

def bytes (s : Scalar) (wordSize : Int) : Int :=
  s.size + s.words * wordSize

/-- The alignment before the platform's limits: the scalar's own, else that of a word if it has
words, else its size. -/
def naturalAlign (s : Scalar) (wordSize : Int) : Int :=
  if s.align ≠ 0 then s.align else if s.words ≠ 0 then wordSize else s.size

end Scalar

inductive TypeRef where
  | scalar (scalar : Scalar)
  | named (identity name : String)
  /-- Any indirect type. A non-empty `label` is its spelling, such as `map[string]int`. -/
  | pointer (target : TypeRef) (label : String)
  | rawPointer (label : String)
  | array (elem : TypeRef) (length : Int)
  /-- Stands where no reference was given. It has neither a layout nor a spelling. -/
  | unsupported
  deriving DecidableEq, Repr

structure UnsupportedRef where
  deriving DecidableEq, Repr

def UnsupportedRef.message (_ : UnsupportedRef) : String :=
  "unsupported type reference: None"

inductive RenderError where
  | unsupportedRef (cause : UnsupportedRef)
  | overlongNumber (cause : OverlongNumber)
  deriving DecidableEq, Repr

def RenderError.message : RenderError → String
  | unsupportedRef cause => cause.message
  | overlongNumber cause => cause.message

namespace TypeRef

def render : TypeRef → Except RenderError String
  | scalar s => pure s.name
  | named _ name => pure name
  | pointer target label =>
    if label = "" then do
      let text ← target.render
      pure ("*" ++ text)
    else pure label
  | rawPointer label => pure (if label = "" then "unsafe.Pointer" else label)
  | array elem length => do
    let count ← (numeral length).mapError .overlongNumber
    let text ← elem.render
    pure s!"[{count}]{text}"
  | unsupported => throw (.unsupportedRef {})

def core : TypeRef → TypeRef
  | array elem _ => elem.core
  | ref => ref

def Supported : TypeRef → Prop
  | pointer target _ => target.Supported
  | array elem _ => elem.Supported
  | unsupported => False
  | _ => True

instance decidableSupported : (ref : TypeRef) → Decidable ref.Supported
  | scalar _ => .isTrue trivial
  | named _ _ => .isTrue trivial
  | pointer target _ => decidableSupported target
  | rawPointer _ => .isTrue trivial
  | array elem _ => decidableSupported elem
  | unsupported => .isFalse id

end TypeRef

def basicScalars : List Scalar := [
  { name := "bool", size := 1 },
  { name := "int8", size := 1 },
  { name := "uint8", size := 1 },
  { name := "byte", size := 1 },
  { name := "int16", size := 2 },
  { name := "uint16", size := 2 },
  { name := "int32", size := 4 },
  { name := "uint32", size := 4 },
  { name := "rune", size := 4 },
  { name := "float32", size := 4 },
  { name := "int64", size := 8 },
  { name := "uint64", size := 8 },
  { name := "float64", size := 8 },
  { name := "complex64", size := 8, align := 4 },
  { name := "complex128", size := 16, align := 8 },
  { name := "int", words := 1 },
  { name := "uint", words := 1 },
  { name := "uintptr", words := 1 },
  { name := "string", words := 2 },
  { name := "error", words := 2 },
  { name := "any", words := 2 },
  { name := "interface\x7b\x7d", words := 2 }]

def basicScalar? (name : String) : Option Scalar :=
  basicScalars.find? (·.name == name)

end CopyLint
