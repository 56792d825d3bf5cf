import CopyLint.Toml.Token

/-! Numbers, dates and times of a TOML text. -/
namespace CopyLint.Toml

def moreDigits (isDigit : Char → Bool) : List Char → List Char × List Char
  | [] => ([], [])
  | [c] => if isDigit c then ([c], []) else ([], [c])
  | c :: d :: rest =>
    if isDigit c then
      let (digits, rest) := moreDigits isDigit (d :: rest)
      (c :: digits, rest)
    else if c = '_' && isDigit d then
      let (digits, rest) := moreDigits isDigit rest
      (d :: digits, rest)
    else ([], c :: d :: rest)

def someDigits? (isDigit : Char → Bool) : List Char → Option (List Char × List Char)
  | c :: rest =>
    if isDigit c then
      let (digits, rest) := moreDigits isDigit rest
      some (c :: digits, rest)
    else none
  | [] => none

def basedInteger? : List Char → Option (Value × List Char)
  | '0' :: mark :: rest => do
    let base ←
      if mark = 'x' then some 16 else if mark = 'o' then some 8 else if mark = 'b' then some 2
      else none
    let isDigit (c : Char) : Bool := (Json.hexValue? c).any (· < base)
    let (digits, rest) ← someDigits? isDigit rest
    let n := digits.foldl (fun n c => base * n + (Json.hexValue? c).getD 0) 0
    pure (.int n, rest)
  | _ => none

def sign? : List Char → Bool × List Char
  | '-' :: rest => (true, rest)
  | '+' :: rest => (false, rest)
  | s => (false, s)

/-- No digit may follow a leading zero. -/
def wholePart? : List Char → Option (List Char × List Char)
  | '0' :: rest => some (['0'], rest)
  | s => someDigits? Char.isDigit s

def fractionPart (s : List Char) : List Char × List Char :=
  match s with
  | '.' :: rest => (someDigits? Char.isDigit rest).getD ([], s)
  | _ => ([], s)

def exponentPart? : List Char → Option (Int × List Char)
  | c :: rest =>
    if c = 'e' || c = 'E' then do
      let (negative, rest) := sign? rest
      let (digits, rest) ← someDigits? Char.isDigit rest
      let n : Int := Digits.value digits
      pure (if negative then -n else n, rest)
    else none
  | [] => none

def decimal? (s : List Char) : Option (Except Fault (Value × List Char)) := do
  let (negative, rest) := sign? s
  let (whole, rest) ← wholePart? rest
  let (fraction, rest) := fractionPart rest
  match exponentPart? rest, fraction with
  | none, [] =>
    if Digits.limit < whole.length then some (throw (.overlongInteger whole.length))
    else
      let n : Int := Digits.value whole
      some (pure (.int (if negative then -n else n), rest))
  | found, _ =>
    let (exponent, rest) := found.getD (0, rest)
    some (pure (.float (.ofDecimal negative (Digits.value (whole ++ fraction))
      (exponent - fraction.length)), rest))

def special? (s : List Char) : Option (Value × List Char) :=
  let (negative, rest) := sign? s
  match Json.afterWord? "inf" rest, Json.afterWord? "nan" rest with
  | some rest, _ => some (.float (.infinite negative), rest)
  | none, some rest => some (.float .nan, rest)
  | none, none => none

def twoDigits? (low high : Nat) : List Char → Option (Nat × List Char)
  | a :: b :: rest =>
    if a.isDigit && b.isDigit then
      let n := Digits.value [a, b]
      if low ≤ n && n ≤ high then some (n, rest) else none
    else none
  | _ => none

def char? (c : Char) : List Char → Option (List Char)
  | d :: rest => if d = c then some rest else none
  | [] => none

/-- Six digits of a fraction count; the rest is dropped. -/
def micros (s : List Char) : Nat × List Char :=
  match s with
  | '.' :: rest =>
    match rest.takeWhile Char.isDigit with
    | [] => (0, s)
    | digits =>
      let kept := digits.take 6
      (Digits.value (kept ++ List.replicate (6 - kept.length) '0'), rest.dropWhile Char.isDigit)
  | _ => (0, s)

def clockTime? (s : List Char) : Option (ClockTime × List Char) := do
  let (hour, s) ← twoDigits? 0 23 s
  let (minute, s) ← twoDigits? 0 59 (← char? ':' s)
  let (second, s) ← twoDigits? 0 59 (← char? ':' s)
  let (micros, s) := micros s
  pure (⟨hour, minute, second, micros⟩, s)

def date? (s : List Char) : Option (Date × List Char) := do
  let (century, s) ← twoDigits? 0 99 s
  let (year, s) ← twoDigits? 0 99 s
  let (month, s) ← twoDigits? 1 12 (← char? '-' s)
  let (day, s) ← twoDigits? 1 31 (← char? '-' s)
  pure (⟨100 * century + year, month, day⟩, s)

def offset? : List Char → Option (Int × List Char)
  | c :: s =>
    if c = 'Z' || c = 'z' then some (0, s)
    else if c = '+' || c = '-' then do
      let (hours, s) ← twoDigits? 0 23 s
      let (minutes, s) ← twoDigits? 0 59 (← char? ':' s)
      let n : Int := 60 * hours + minutes
      pure (if c = '-' then -n else n, s)
    else none
  | [] => none

def isLeapYear (year : Nat) : Bool :=
  year % 4 = 0 && (year % 100 ≠ 0 || year % 400 = 0)

def daysIn (year month : Nat) : Nat :=
  if month = 2 then if isLeapYear year then 29 else 28
  else if month ∈ [4, 6, 9, 11] then 30
  else 31

def isCalendarDate (d : Date) : Bool :=
  1 ≤ d.year && d.day ≤ daysIn d.year d.month

def timeAfterDate? : List Char → Option (ClockTime × List Char)
  | c :: rest => if c = 'T' || c = 't' || c = ' ' then clockTime? rest else none
  | [] => none

def moment? (s : List Char) : Option (Except Fault (Value × List Char)) :=
  match date? s with
  | some (date, rest) =>
    if isCalendarDate date then
      match timeAfterDate? rest with
      | some (time, rest) =>
        match offset? rest with
        | some (offset, rest) => some (pure (.moment (.dateTime date time (some offset)), rest))
        | none => some (pure (.moment (.dateTime date time none), rest))
      | none => some (pure (.moment (.date date), rest))
    else some (throw .malformed)
  | none => (clockTime? s).map fun (time, rest) => pure (.moment (.time time), rest)

end CopyLint.Toml
