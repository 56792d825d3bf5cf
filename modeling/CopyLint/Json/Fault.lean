import CopyLint.Decimal.Digits

/-! What can be wrong with a JSON text, and where. -/
namespace CopyLint.Json

inductive Cause where
  | byteOrderMark
  | missingValue
  | extraData
  | missingKey
  | missingColon
  | missingComma
  | unterminatedText
  | controlCharacter
  | unknownEscape
  | malformedEscape
  deriving DecidableEq, Repr

def Cause.message : Cause → String
  | byteOrderMark => "Unexpected UTF-8 BOM (decode using utf-8-sig)"
  | missingValue => "Expecting value"
  | extraData => "Extra data"
  | missingKey => "Expecting property name enclosed in double quotes"
  | missingColon => "Expecting ':' delimiter"
  | missingComma => "Expecting ',' delimiter"
  | unterminatedText => "Unterminated string starting at"
  | controlCharacter => "Invalid control character at"
  | unknownEscape => "Invalid \\escape"
  | malformedEscape => "Invalid \\uXXXX escape"

inductive Fault where
  /-- The place is given by the number of characters from it to the end of the text. -/
  | malformed (cause : Cause) (left : Nat)
  | overlongInteger (digits : Nat)
  deriving DecidableEq, Repr

/-- Lines and columns count from one, characters from zero. -/
def Fault.message (text : List Char) : Fault → String
  | malformed cause left =>
    let offset := text.length - left
    let before := text.take offset
    let line := before.count '\n' + 1
    let column := (before.reverse.takeWhile (· ≠ '\n')).length + 1
    s!"{cause.message}: line {line} column {column} (char {offset})"
  | overlongInteger digits => Digits.overlongMessage digits

end CopyLint.Json
