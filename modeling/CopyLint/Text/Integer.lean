import CopyLint.Decimal.Digits
import CopyLint.Text.Blank

/-! Integers written as text. A plain numeral is read as it stands. Any other text is tidied first:
white space around it, a plus sign, leading zeros, a fraction of zeros and single underscores are
dropped, and a plain numeral has to be left. -/
namespace CopyLint.Text

inductive IntegerFault where
  | malformed
  | tooLong
  deriving DecidableEq, Repr

/-- Digits that do not start with a zero, or a lone zero, behind a minus sign or none. More digits
than are allowed are too long, whatever follows them. -/
def readPlain (cs : List Char) : Except IntegerFault Int :=
  let (negative, body) : Bool × List Char :=
    match cs with
    | '-' :: body => (true, body)
    | body => (false, body)
  match body.takeWhile Char.isDigit, body.dropWhile Char.isDigit with
  | [], _ => throw .malformed
  | ['0'], [] => pure 0
  | '0' :: _, _ => throw .malformed
  | digits, rest =>
    if Digits.limit < digits.length then throw .tooLong
    else if rest ≠ [] then throw .malformed
    else
      let n : Int := Digits.value digits
      pure (if negative then -n else n)

/-- What stands behind zeros and the underscores among them, of which `last` is the latest: a digit
or a minus sign with all that follows, or else `last` itself with a point or nothing after it. -/
def afterZeros (last : Char) : List Char → Option (List Char)
  | [] => some [last]
  | c :: rest =>
    if c = '0' || c = '_' then afterZeros c rest
    else if c.isDigit || c = '-' then some (c :: rest)
    else if c = '.' then some (last :: c :: rest)
    else none

def dropZeros : List Char → Option (List Char)
  | [] => none
  | c :: rest => if c = '0' then afterZeros c rest else if c.isDigit then some (c :: rest) else none

def dropFraction (cs : List Char) : List Char :=
  match cs.dropWhile (· ≠ '.') with
  | _ :: zeros =>
    if zeros ≠ [] && zeros.all (· = '0') then cs.takeWhile (· ≠ '.') else cs
  | [] => cs

def hasDoubleUnderscore : List Char → Bool
  | '_' :: '_' :: _ => true
  | _ :: rest => hasDoubleUnderscore rest
  | [] => false

def dropUnderscores (cs : List Char) : List Char :=
  if cs.head? = some '_' || cs.getLast? = some '_' || hasDoubleUnderscore cs then cs
  else cs.filter (· ≠ '_')

def tidyDigits (cs : List Char) : Option (List Char) :=
  (dropZeros cs).map fun cs => dropUnderscores (dropFraction cs)

def tidy (cs : List Char) : Option (List Char) :=
  match trim isWhiteSpace cs with
  | '-' :: body => (tidyDigits body).map ('-' :: ·)
  | '+' :: body => tidyDigits body
  | body => tidyDigits body

/-- A length is only found fault with in a text that was not tidied. -/
def readInteger (s : String) : Except IntegerFault Int :=
  match readPlain s.toList with
  | .ok n => pure n
  | .error .tooLong => throw .tooLong
  | .error .malformed =>
    match (tidy s.toList).map readPlain with
    | some (.ok n) => pure n
    | _ => throw .malformed

end CopyLint.Text
