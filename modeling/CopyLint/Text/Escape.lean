/-! Texts without the escape sequences that steer a terminal. -/
namespace CopyLint.Text

def isParameter (c : Char) : Bool :=
  c.isDigit || c = ';' || c = '?'

/-- The length of the escape sequence that a text starts with: the escape character, an opening
bracket, parameters, and an ASCII letter. -/
def escapeLength? : List Char → Option Nat
  | '\x1b' :: '[' :: rest =>
    match rest.dropWhile isParameter with
    | letter :: _ =>
      if letter.isAlpha then some ((rest.takeWhile isParameter).length + 3) else none
    | [] => none
  | _ => none

/-- Leaves out `skipped` characters, and then every escape sequence. -/
def plainAfter (skipped : Nat) : List Char → List Char
  | [] => []
  | c :: rest =>
    match skipped with
    | skipped + 1 => plainAfter skipped rest
    | 0 =>
      match escapeLength? (c :: rest) with
      | some length => plainAfter (length - 1) rest
      | none => c :: plainAfter 0 rest

/-- What removing a sequence brings together is not looked at again. -/
def withoutEscapes (s : String) : String :=
  String.ofList (plainAfter 0 s.toList)

end CopyLint.Text
