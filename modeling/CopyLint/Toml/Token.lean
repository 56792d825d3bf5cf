import CopyLint.Decimal.Digits
import CopyLint.Json.Reader

/-! The words of a TOML text: blanks, comments, keys and quoted texts. A reader that repeats itself
takes fuel, of which it needs no more than one for each character. -/
namespace CopyLint.Toml

inductive Fault where
  | malformed
  | overlongInteger (digits : Nat)
  | tooDeep
  deriving DecidableEq, Repr

def isBlank (c : Char) : Bool := c = ' ' || c = '\t'

def skipBlank (s : List Char) : List Char := s.dropWhile isBlank

def skipBlankLines (s : List Char) : List Char := s.dropWhile fun c => isBlank c || c = '\n'

def isControl (c : Char) : Bool :=
  (c.toNat < 0x20 && c ≠ '\t') || c.toNat = 0x7F

def skipComment : List Char → Except Fault (List Char)
  | '#' :: rest =>
    if (rest.takeWhile (· ≠ '\n')).any isControl then throw .malformed
    else pure (rest.dropWhile (· ≠ '\n'))
  | s => pure s

def skipFiller : Nat → List Char → Except Fault (List Char)
  | 0, s => pure s
  | fuel + 1, s => do
    match skipBlankLines s with
    | '#' :: rest => skipFiller fuel (← skipComment ('#' :: rest))
    | s => pure s

def expect (c : Char) : List Char → Except Fault (List Char)
  | d :: rest => if d = c then pure rest else throw .malformed
  | [] => throw .malformed

def hexNumber (s : List Char) (width : Nat) : Except Fault (Nat × List Char) :=
  match (s.take width).mapM Json.hexValue? with
  | some digits =>
    if digits.length = width then pure (digits.foldl (fun n d => 16 * n + d) 0, s.drop width)
    else throw .malformed
  | none => throw .malformed

def codePoint (s : List Char) (width : Nat) : Except Fault (Char × List Char) := do
  let (n, rest) ← hexNumber s width
  if n.isValidChar then pure (Char.ofNat n, rest) else throw .malformed

/-- A backslash before a line break swallows all blank space up to the next character. -/
def lineContinuation? (s : List Char) : Except Fault (Option (List Char)) :=
  match s with
  | c :: _ =>
    if isBlank c || c = '\n' then
      match skipBlank s with
      | '\n' :: rest => pure (some (skipBlankLines rest))
      | [] => pure (some [])
      | _ => throw .malformed
    else pure none
  | [] => pure none

def escape : List Char → Except Fault (Char × List Char)
  | c :: rest =>
    if c = 'b' then pure ('\x08', rest)
    else if c = 't' then pure ('\t', rest)
    else if c = 'n' then pure ('\n', rest)
    else if c = 'f' then pure ('\x0c', rest)
    else if c = 'r' then pure ('\r', rest)
    else if c = '"' || c = '\\' then pure (c, rest)
    else if c = 'u' then codePoint rest 4
    else if c = 'U' then codePoint rest 8
    else throw .malformed
  | [] => throw .malformed

def basicText : Nat → List Char → List Char → Except Fault (String × List Char)
  | 0, _, _ => throw .malformed
  | fuel + 1, read, s =>
    match s with
    | [] => throw .malformed
    | '"' :: rest => pure (String.ofList read.reverse, rest)
    | '\\' :: rest => do
      let (c, rest) ← escape rest
      basicText fuel (c :: read) rest
    | c :: rest => if isControl c then throw .malformed else basicText fuel (c :: read) rest

def basicBlock : Nat → List Char → List Char → Except Fault (List Char × List Char)
  | 0, _, _ => throw .malformed
  | fuel + 1, read, s =>
    match s with
    | [] => throw .malformed
    | '"' :: '"' :: '"' :: rest => pure (read.reverse, rest)
    | '\\' :: rest => do
      match ← lineContinuation? rest with
      | some rest => basicBlock fuel read rest
      | none =>
        let (c, rest) ← escape rest
        basicBlock fuel (c :: read) rest
    | c :: rest =>
      if isControl c && c ≠ '\n' then throw .malformed else basicBlock fuel (c :: read) rest

def literalText (s : List Char) : Except Fault (String × List Char) :=
  let body := s.takeWhile (· ≠ '\'')
  match s.dropWhile (· ≠ '\'') with
  | _ :: rest =>
    if body.any isControl then throw .malformed else pure (String.ofList body, rest)
  | [] => throw .malformed

def literalBlock (read : List Char) : List Char → Except Fault (List Char × List Char)
  | '\'' :: '\'' :: '\'' :: rest => pure (read.reverse, rest)
  | c :: rest => if isControl c && c ≠ '\n' then throw .malformed else literalBlock (c :: read) rest
  | [] => throw .malformed

/-- Up to two more quotes than the closing three belong to the text. -/
def closeBlock (quote : Char) (body rest : List Char) : String × List Char :=
  let extra := (rest.takeWhile (· = quote)).take 2
  (String.ofList (body ++ extra), rest.drop extra.length)

def dropFirstBreak : List Char → List Char
  | '\n' :: rest => rest
  | s => s

def quotedText? (fuel : Nat) (s : List Char) : Option (Except Fault (String × List Char)) :=
  match s with
  | '"' :: '"' :: '"' :: rest => some do
    let (body, rest) ← basicBlock fuel [] (dropFirstBreak rest)
    pure (closeBlock '"' body rest)
  | '\'' :: '\'' :: '\'' :: rest => some do
    let (body, rest) ← literalBlock [] (dropFirstBreak rest)
    pure (closeBlock '\'' body rest)
  | '"' :: rest => some (basicText fuel [] rest)
  | '\'' :: rest => some (literalText rest)
  | _ => none

def isBareKey (c : Char) : Bool :=
  c.isAlphanum || c = '-' || c = '_'

def keyPart (fuel : Nat) (s : List Char) : Except Fault (String × List Char) :=
  match s with
  | '"' :: rest => basicText fuel [] rest
  | '\'' :: rest => literalText rest
  | _ =>
    match s.takeWhile isBareKey with
    | [] => throw .malformed
    | part => pure (String.ofList part, s.dropWhile isBareKey)

def key : Nat → List Char → Except Fault (List String × List Char)
  | 0, _ => throw .malformed
  | fuel + 1, s => do
    let (part, rest) ← keyPart fuel s
    match skipBlank rest with
    | '.' :: rest =>
      let (parts, rest) ← key fuel (skipBlank rest)
      pure (part :: parts, rest)
    | rest => pure ([part], rest)

end CopyLint.Toml
