import CopyLint.Json.Fault
import CopyLint.Value

/-! JSON texts as values. Numbers without a point or exponent are integers, a repeated key keeps its
place and takes the last value, and the three words for numbers that are not finite are read too. -/
namespace CopyLint.Json

def isBlank (c : Char) : Bool :=
  c = ' ' || c = '\t' || c = '\n' || c = '\r'

def skipBlank (s : List Char) : List Char :=
  s.dropWhile isBlank

def fail {α : Type} (cause : Cause) (rest : List Char) : Except Fault α :=
  throw (.malformed cause rest.length)

def afterWord? (word : String) (s : List Char) : Option (List Char) :=
  if word.toList.isPrefixOf s then some (s.drop word.length) else none

def hexValue? (c : Char) : Option Nat :=
  if '0' ≤ c ∧ c ≤ '9' then some (c.toNat - '0'.toNat)
  else if 'a' ≤ c ∧ c ≤ 'f' then some (c.toNat - 'a'.toNat + 10)
  else if 'A' ≤ c ∧ c ≤ 'F' then some (c.toNat - 'A'.toNat + 10)
  else none

def hexQuad? : List Char → Option (Nat × List Char)
  | a :: b :: c :: d :: e :: rest => do
    let a ← hexValue? a
    let b ← hexValue? b
    let c ← hexValue? c
    let d ← hexValue? d
    pure (((a * 16 + b) * 16 + c) * 16 + d, e :: rest)
  | _ => none

def isHighSurrogate (n : Nat) : Bool := 0xD800 ≤ n && n ≤ 0xDBFF
def isLowSurrogate (n : Nat) : Bool := 0xDC00 ≤ n && n ≤ 0xDFFF

/-- A code unit as a character. Half of a pair has none, and reads as the replacement character. -/
def unitChar (n : Nat) : Char :=
  if n.isValidChar then Char.ofNat n else '\ufffd'

def lowHalf? : List Char → Except Fault (Option (Nat × List Char))
  | '\\' :: 'u' :: rest =>
    match hexQuad? rest with
    | some (unit, after) => pure (if isLowSurrogate unit then some (unit, after) else none)
    | none => fail .malformedEscape ('u' :: rest)
  | _ => pure none

def readUnit (s : List Char) : Except Fault (Char × List Char) :=
  match hexQuad? s with
  | none => fail .malformedEscape ('u' :: s)
  | some (unit, rest) =>
    if isHighSurrogate unit then do
      match ← lowHalf? rest with
      | some (low, after) =>
        pure (Char.ofNat (0x10000 + (unit - 0xD800) * 0x400 + (low - 0xDC00)), after)
      | none => pure (unitChar unit, rest)
    else pure (unitChar unit, rest)

def readEscape (opening : List Char) : List Char → Except Fault (Char × List Char)
  | [] => fail .unterminatedText opening
  | c :: rest =>
    if c = 'u' then readUnit rest
    else if c = '"' || c = '\\' || c = '/' then pure (c, rest)
    else if c = 'b' then pure ('\x08', rest)
    else if c = 'f' then pure ('\x0c', rest)
    else if c = 'n' then pure ('\n', rest)
    else if c = 'r' then pure ('\r', rest)
    else if c = 't' then pure ('\t', rest)
    else fail .unknownEscape ('\\' :: c :: rest)

theorem hexQuad?_length {s rest : List Char} {n : Nat} (h : hexQuad? s = some (n, rest)) :
    rest.length < s.length := by
  unfold hexQuad? at h
  split at h
  · simp only [Option.bind_eq_bind, Option.bind_eq_some_iff, Option.pure_def, Option.some.injEq,
      Prod.mk.injEq] at h
    obtain ⟨_, _, _, _, _, _, _, _, _, rfl⟩ := h
    simp
  · simp at h

theorem lowHalf?_length {s rest : List Char} {n : Nat} (h : lowHalf? s = .ok (some (n, rest))) :
    rest.length < s.length := by
  unfold lowHalf? at h
  split at h
  · split at h
    · rename_i hquad
      split at h
      · cases h
        have := hexQuad?_length hquad
        simp
        omega
      · cases h
    · cases h
  · cases h

theorem readUnit_length {s rest : List Char} {c : Char} (h : readUnit s = .ok (c, rest)) :
    rest.length < s.length := by
  unfold readUnit at h
  split at h
  · cases h
  · rename_i unit after hquad
    have hlen := hexQuad?_length hquad
    split at h
    · cases hlow : lowHalf? after with
      | error e => simp [hlow, bind, Except.bind] at h
      | ok found =>
        cases found with
        | none =>
          simp [hlow, bind, Except.bind, pure, Except.pure] at h
          exact h.2 ▸ hlen
        | some pair =>
          obtain ⟨low, after'⟩ := pair
          have := lowHalf?_length hlow
          simp [hlow, bind, Except.bind, pure, Except.pure] at h
          rw [← h.2]
          omega
    · cases h
      exact hlen

theorem readEscape_length {opening s rest : List Char} {c : Char}
    (h : readEscape opening s = .ok (c, rest)) : rest.length < s.length := by
  unfold readEscape at h
  split at h
  · cases h
  · repeat' split at h
    · have := readUnit_length h
      simp
      omega
    all_goals cases h
    all_goals simp

/-- The characters up to the closing quote, and what follows it. `opening` is the text from the
opening quote on. -/
def readText (opening : List Char) : List Char → Except Fault (List Char × List Char)
  | [] => fail .unterminatedText opening
  | c :: rest =>
    if c = '"' then pure ([], rest)
    else if c = '\\' then
      match h : readEscape opening rest with
      | .error fault => .error fault
      | .ok (unescaped, after) => do
        have := readEscape_length h
        let (chars, after) ← readText opening after
        pure (unescaped :: chars, after)
    else if c.toNat < 0x20 then fail .controlCharacter (c :: rest)
    else do
      let (chars, after) ← readText opening rest
      pure (c :: chars, after)
termination_by s => s.length

def wholeDigits? : List Char → Option (List Char × List Char)
  | '0' :: rest => some (['0'], rest)
  | c :: rest =>
    if c.isDigit then some (c :: rest.takeWhile Char.isDigit, rest.dropWhile Char.isDigit)
    else none
  | [] => none

def fractionDigits : List Char → List Char × List Char
  | '.' :: rest =>
    match rest.takeWhile Char.isDigit with
    | [] => ([], '.' :: rest)
    | digits => (digits, rest.dropWhile Char.isDigit)
  | s => ([], s)

def exponent? : List Char → Option (Int × List Char)
  | e :: rest =>
    if e = 'e' || e = 'E' then
      let (negative, body) : Bool × List Char :=
        match rest with
        | '-' :: body => (true, body)
        | '+' :: body => (false, body)
        | body => (false, body)
      match body.takeWhile Char.isDigit with
      | [] => none
      | digits =>
        let n : Int := Digits.value digits
        some (if negative then -n else n, body.dropWhile Char.isDigit)
    else none
  | [] => none

def readNumber (s : List Char) : Except Fault (Value × List Char) :=
  let (negative, body) : Bool × List Char :=
    match s with
    | '-' :: body => (true, body)
    | body => (false, body)
  match wholeDigits? body with
  | none => fail .missingValue s
  | some (whole, rest) =>
    let (fraction, rest) := fractionDigits rest
    match exponent? rest, fraction with
    | none, [] =>
      if Digits.limit < whole.length then throw (.overlongInteger whole.length)
      else
        let n : Int := Digits.value whole
        pure (.int (if negative then -n else n), rest)
    | none, _ =>
      let digits := Digits.value (whole ++ fraction)
      pure (.float (.ofDecimal negative digits (-fraction.length)), rest)
    | some (exponent, rest), _ =>
      pure (.float (.ofDecimal negative (Digits.value (whole ++ fraction))
        (exponent - fraction.length)), rest)

def words : List (String × Value) := [
  ("null", .null),
  ("true", .bool true),
  ("false", .bool false),
  ("NaN", .float .nan),
  ("Infinity", .float (.infinite false)),
  ("-Infinity", .float (.infinite true))]

def readWord? (s : List Char) : Option (Value × List Char) :=
  words.findSome? fun (word, value) => (afterWord? word s).map fun rest => (value, rest)

def readKey (s : List Char) : Except Fault (String × List Char) :=
  match s with
  | '"' :: rest => do
    let (key, rest) ← readText s rest
    match skipBlank rest with
    | ':' :: rest => pure (String.ofList key, skipBlank rest)
    | rest => fail .missingColon rest
  | _ => fail .missingKey s

mutual

/-- Each call passes on less fuel than it has. Two for each character are enough, since every second
call reads one. -/
def readValue (fuel : Nat) (s : List Char) : Except Fault (Value × List Char) :=
  match fuel with
  | 0 => fail .missingValue s
  | fuel + 1 =>
    match s with
    | '"' :: rest => do
      let (chars, rest) ← readText s rest
      pure (.text (String.ofList chars), rest)
    | '[' :: rest =>
      match skipBlank rest with
      | ']' :: rest => pure (.list [], rest)
      | rest => do
        let (items, rest) ← readItems fuel rest
        pure (.list items, rest)
    | '\x7b' :: rest =>
      match skipBlank rest with
      | '\x7d' :: rest => pure (.table [], rest)
      | rest => do
        let (entries, rest) ← readEntries fuel [] rest
        pure (.table entries, rest)
    | _ =>
      match readWord? s with
      | some found => pure found
      | none => readNumber s

def readItems (fuel : Nat) (s : List Char) : Except Fault (List Value × List Char) :=
  match fuel with
  | 0 => fail .missingValue s
  | fuel + 1 => do
    let (item, rest) ← readValue fuel s
    match skipBlank rest with
    | ']' :: rest => pure ([item], rest)
    | ',' :: rest =>
      let (items, rest) ← readItems fuel (skipBlank rest)
      pure (item :: items, rest)
    | rest => fail .missingComma rest

def readEntries (fuel : Nat) (entries : List (String × Value)) (s : List Char) :
    Except Fault (List (String × Value) × List Char) :=
  match fuel with
  | 0 => fail .missingKey s
  | fuel + 1 => do
    let (key, rest) ← readKey s
    let (value, rest) ← readValue fuel rest
    let entries := Value.put key value entries
    match skipBlank rest with
    | '\x7d' :: rest => pure (entries, rest)
    | ',' :: rest => readEntries fuel entries (skipBlank rest)
    | rest => fail .missingComma rest

end

def read (text : List Char) : Except Fault Value :=
  if text.head? = some '\ufeff' then fail .byteOrderMark text
  else do
    let (value, rest) ← readValue (2 * text.length + 1) (skipBlank text)
    match skipBlank rest with
    | [] => pure value
    | rest => fail .extraData rest

end CopyLint.Json
