import CopyLint.Text.Quoted
import CopyLint.Config
import CopyLint.Layout.Index
import CopyLint.Layout.Rounding

/-! Size and alignment of a type, the reasons why a type has none, and the layouts found so far. -/
namespace CopyLint

structure Layout where
  size : Int
  align : Int
  deriving DecidableEq, Repr

inductive LayoutError where
  | unknownType (name identity : String)
  | containsItself (name : String)
  | unsupportedRef (cause : UnsupportedRef)
  | zeroAlignment (cause : ZeroAlignment)
  deriving DecidableEq, Repr

def LayoutError.message : LayoutError → String
  | unknownType name identity => s!"unknown type {Text.quoted name} ({identity})"
  | containsItself name =>
    s!"invalid recursive type {Text.quoted name}: contains itself by value"
  | unsupportedRef cause => cause.message
  | zeroAlignment cause => cause.message

abbrev Memo := List (String × Layout)

namespace Memo

def find? (memo : Memo) (identity : String) : Option Layout :=
  memo.lookup identity

def insert (memo : Memo) (identity : String) (layout : Layout) : Memo :=
  (identity, layout) :: memo

def identities (memo : Memo) : List String :=
  memo.map (·.1)

@[simp] theorem find?_insert_self (memo : Memo) (identity : String) (layout : Layout) :
    (memo.insert identity layout).find? identity = some layout := by
  simp [find?, insert]

theorem find?_insert_of_ne (memo : Memo) {identity other : String} (layout : Layout)
    (h : other ≠ identity) :
    (memo.insert identity layout).find? other = memo.find? other := by
  have hb : (other == identity) = false := by simpa using h
  simp [find?, insert, List.lookup_cons, hb]

theorem isSome_find? (memo : Memo) (identity : String) :
    (memo.find? identity).isSome ↔ identity ∈ memo.identities := by
  induction memo with
  | nil => simp [find?, identities]
  | cons entry rest ih =>
    obtain ⟨key, layout⟩ := entry
    by_cases h : identity = key
    · simp [find?, identities, h]
    · have hb : (identity == key) = false := by simpa using h
      simp [find?, identities, List.lookup_cons, hb, h]

end Memo

/-- A computation that looks up and adds layouts. What it adds stays when it fails. -/
abbrev Sizing := ExceptT LayoutError (StateM Memo)

end CopyLint
