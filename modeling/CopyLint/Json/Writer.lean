import CopyLint.Value

/-! Values as indented JSON texts in ASCII, the keys of each table in order of their code points. -/
namespace CopyLint.Json

def unitEscape (unit : Nat) : List Char :=
  '\\' :: 'u' :: Text.hexDigits 4 unit

/-- A character above the sixteen-bit range takes a pair of escapes. -/
def escapeChar (c : Char) : List Char :=
  if c = '"' || c = '\\' then ['\\', c]
  else if c = '\n' then ['\\', 'n']
  else if c = '\r' then ['\\', 'r']
  else if c = '\t' then ['\\', 't']
  else if c = '\x08' then ['\\', 'b']
  else if c = '\x0c' then ['\\', 'f']
  else if ' ' ≤ c ∧ c ≤ '~' then [c]
  else if c.toNat < 0x10000 then unitEscape c.toNat
  else
    let n := c.toNat - 0x10000
    unitEscape (0xD800 + n / 0x400) ++ unitEscape (0xDC00 + n % 0x400)

def writeText (s : String) : List Char :=
  '"' :: s.toList.flatMap escapeChar ++ ['"']

def writeFloat : Binary64 → String
  | .nan => "NaN"
  | .infinite negative => if negative then "-Infinity" else "Infinity"
  | x => Value.renderFloat x

def newline (depth : Nat) : List Char :=
  '\n' :: List.replicate (2 * depth) ' '

def enclose (opening closing : Char) (depth : Nat) : List (List Char) → List Char
  | [] => [opening, closing]
  | members =>
    opening :: newline (depth + 1) ++ List.intercalate (',' :: newline (depth + 1)) members ++
      newline depth ++ [closing]

def writeEntry (entry : String × List Char) : List Char :=
  writeText entry.1 ++ ':' :: ' ' :: entry.2

mutual

def writeAt (depth : Nat) : Value → List Char
  | .null => "null".toList
  | .bool b => (if b then "true" else "false").toList
  | .int n => (toString n).toList
  | .float x => (writeFloat x).toList
  | .text s => writeText s
  | .moment m => writeText (m.iso "T")
  | .list items => enclose '[' ']' depth (writeItems (depth + 1) items)
  | .table entries =>
    let written := writeEntries (depth + 1) entries
    enclose '\x7b' '\x7d' depth ((written.mergeSort fun a b => a.1 ≤ b.1).map writeEntry)

def writeItems (depth : Nat) : List Value → List (List Char)
  | [] => []
  | item :: rest => writeAt depth item :: writeItems depth rest

def writeEntries (depth : Nat) : List (String × Value) → List (String × List Char)
  | [] => []
  | (key, value) :: rest => (key, writeAt depth value) :: writeEntries depth rest

end

def write (value : Value) : String :=
  String.ofList (writeAt 0 value)

/-- A value with an integer of too many digits is not written. -/
def print (value : Value) : Except OverlongNumber String :=
  if value.hasOverlong then throw {} else pure (write value)

end CopyLint.Json
