/-! Validation that goes on after a fault, so that all faults of a document are counted. -/
namespace CopyLint.Document

inductive Cause where
  | missing
  | notText
  | notList
  | notModel (model : String)
  | notTable
  | untagged
  | unknownTag (tag : String)
  | negative
  | notInteger
  | notFinite
  | fractional
  | tooLong
  | unreadableInteger
  | tooDeep
  deriving DecidableEq, Repr

def Cause.message : Cause → String
  | missing => "Field required"
  | notText => "Input should be a valid string"
  | notList => "Input should be a valid list"
  | notModel model => s!"Input should be a valid dictionary or instance of {model}"
  | notTable => "Input should be a valid dictionary or object to extract fields from"
  | untagged => "Unable to extract tag using discriminator 'kind'"
  | unknownTag tag =>
    s!"Input tag '{tag}' found using 'kind' does not match any of the expected tags: " ++
      "'primitive', 'named', 'pointer', 'array'"
  | negative => "Input should be greater than or equal to 0"
  | notInteger => "Input should be a valid integer"
  | notFinite => "Input should be a finite number"
  | fractional => "Input should be a valid integer, got a number with a fractional part"
  | tooLong => "Unable to parse input string as an integer, exceeded maximum size"
  | unreadableInteger =>
    "Input should be a valid integer, unable to parse string as an integer"
  | tooDeep => "Recursion error - maximum validation depth exceeded"

structure Fault where
  location : List String
  cause : Cause
  deriving DecidableEq, Repr

def Fault.message (fault : Fault) : String :=
  let place := if fault.location = [] then "<document>" else ".".intercalate fault.location
  s!"{place}: {fault.cause.message}"

def Fault.within (segment : String) (fault : Fault) : Fault :=
  { fault with location := segment :: fault.location }

inductive Checked (α : Type) where
  | valid (a : α)
  | faulty (first : Fault) (rest : List Fault)
  deriving DecidableEq, Repr

namespace Checked

def fault {α : Type} (cause : Cause) : Checked α :=
  .faulty ⟨[], cause⟩ []

def seq {α β : Type} : Checked (α → β) → Checked α → Checked β
  | .valid f, .valid a => .valid (f a)
  | .valid _, .faulty first rest => .faulty first rest
  | .faulty first rest, .valid _ => .faulty first rest
  | .faulty first rest, .faulty first' rest' => .faulty first (rest ++ first' :: rest')

instance : Applicative Checked where
  pure := .valid
  seq f a := seq f (a ())

def within {α : Type} (segment : String) : Checked α → Checked α
  | .valid a => .valid a
  | .faulty first rest => .faulty (first.within segment) (rest.map (·.within segment))

def each {α β : Type} (check : α → Checked β) (index : Nat) : List α → Checked (List β)
  | [] => pure []
  | a :: rest => (· :: ·) <$> within (toString index) (check a) <*> each check (index + 1) rest

end Checked

end CopyLint.Document
