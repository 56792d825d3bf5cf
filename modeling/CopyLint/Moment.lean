/-! Dates and times of day, as data files hold them. No rule of the program looks inside one; they
only have to be shown. -/
namespace CopyLint

structure Date where
  year : Nat
  month : Nat
  day : Nat
  deriving DecidableEq, Repr

structure ClockTime where
  hour : Nat
  minute : Nat
  second : Nat
  micros : Nat := 0
  deriving DecidableEq, Repr

inductive Moment where
  | date (date : Date)
  | time (time : ClockTime)
  /-- The offset from universal time is in minutes. -/
  | dateTime (date : Date) (time : ClockTime) (offset : Option Int)
  deriving DecidableEq, Repr

def padded (width n : Nat) : String :=
  let digits := Nat.toDigits 10 n
  String.ofList (List.replicate (width - digits.length) '0' ++ digits)

def Date.iso (d : Date) : String :=
  padded 4 d.year ++ "-" ++ padded 2 d.month ++ "-" ++ padded 2 d.day

def ClockTime.iso (t : ClockTime) : String :=
  padded 2 t.hour ++ ":" ++ padded 2 t.minute ++ ":" ++ padded 2 t.second ++
    (if t.micros = 0 then "" else "." ++ padded 6 t.micros)

/-- Seconds are left out when they and all below them are zero. -/
def ClockTime.parts (t : ClockTime) : List Nat :=
  if t.micros ≠ 0 then [t.hour, t.minute, t.second, t.micros]
  else if t.second ≠ 0 then [t.hour, t.minute, t.second]
  else [t.hour, t.minute]

namespace Moment

def isoOffset (minutes : Int) : String :=
  (if minutes < 0 then "-" else "+") ++ padded 2 (minutes.natAbs / 60) ++ ":" ++
    padded 2 (minutes.natAbs % 60)

def iso (between : String) : Moment → String
  | date d => d.iso
  | time t => t.iso
  | dateTime d t offset => d.iso ++ between ++ t.iso ++ (offset.map isoOffset).getD ""

/-- A zone west of universal time is a day less and the rest of that day. -/
def renderZone (minutes : Int) : String :=
  if minutes = 0 then "datetime.timezone.utc"
  else if 0 < minutes then s!"datetime.timezone(datetime.timedelta(seconds={minutes * 60}))"
  else s!"datetime.timezone(datetime.timedelta(days=-1, seconds={86400 + minutes * 60}))"

def commaSeparated (parts : List Nat) : String :=
  ", ".intercalate (parts.map toString)

def render : Moment → String
  | date d => s!"datetime.date({commaSeparated [d.year, d.month, d.day]})"
  | time t => s!"datetime.time({commaSeparated t.parts})"
  | dateTime d t offset =>
    let zone := (offset.map fun minutes => ", tzinfo=" ++ renderZone minutes).getD ""
    s!"datetime.datetime({commaSeparated ([d.year, d.month, d.day] ++ t.parts)}{zone})"

end Moment

end CopyLint
