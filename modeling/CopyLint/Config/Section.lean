import CopyLint.Config
import CopyLint.Host
import CopyLint.Value

/-! Configurations from decoded data. Options override the entries of a file unless they are null;
what is left out has its default. -/
namespace CopyLint

namespace Config

abbrev Section := List (String × Value)

structure NotPositive where
  key : String
  value : Value

namespace NotPositive

/-- A value that cannot be shown is not reported as a fault of the configuration: nothing on the way
to the user catches the failure to show it. -/
def escapes [Host] (e : NotPositive) : Bool :=
  e.value.hasOverlong || Host.showingRoom < e.value.depth

def message (e : NotPositive) : String :=
  if e.value.hasOverlong then OverlongNumber.message {}
  else s!"{e.key} must be a positive integer, got {e.value.render}"

end NotPositive

/-- A truth value is no number. -/
def positive (key : String) : Value → Except NotPositive { n : Int // 0 < n }
  | .int n => if h : 0 < n then pure ⟨n, h⟩ else throw ⟨key, .int n⟩
  | value => throw ⟨key, value⟩

def ofValues (maxWidth wordSize maxAlign : Option Value) : Except NotPositive Config := do
  let ⟨maxWidth, h₁⟩ ← positive "max_width" (maxWidth.getD (.int 16))
  let ⟨wordSize, h₂⟩ ← positive "word_size" (wordSize.getD (.int 8))
  let ⟨maxAlign, h₃⟩ ← positive "max_align" (maxAlign.getD (.int 8))
  pure ⟨maxWidth, wordSize, maxAlign, h₁, h₂, h₃⟩

def ofSection (s : Section) : Except NotPositive Config :=
  ofValues (Value.get? s "max") (Value.get? s "word_size") (Value.get? s "max_align")

def override (options defaults : Section) : Section :=
  options.foldl (fun merged (key, value) =>
    match value with
    | .null => merged
    | value => Value.put key value merged) defaults

end Config

end CopyLint
