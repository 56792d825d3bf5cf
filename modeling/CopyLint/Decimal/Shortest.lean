import CopyLint.Decimal.Binary64

/-! The shortest decimal that rounds to a given binary number; of several, the nearest. -/
namespace CopyLint

structure Decimal where
  digits : Nat
  exponent : Int
  deriving DecidableEq, Repr

namespace Decimal

/-- A positive number and the ends of the interval that rounds to it, over one denominator. -/
structure Interval where
  low : Nat
  value : Nat
  high : Nat
  den : Nat
  /-- Whether the ends themselves round to the number. -/
  closed : Bool

/-- The ends lie half way to the neighbours; below a power of two the neighbour is nearer. -/
def Interval.ofBinary (mantissa : Nat) (exponent : Int) : Interval :=
  let below := if mantissa = Nat.pow 2 52 ∧ Binary64.leastExponent < exponent then 1 else 2
  let (unit, den) := Binary64.scale 2 (exponent - 2) 1 1
  ⟨(4 * mantissa - below) * unit, 4 * mantissa * unit, (4 * mantissa + 2) * unit, den,
    mantissa % 2 = 0⟩

def Interval.magnitude (i : Interval) : Int :=
  let estimate : Int := Binary64.decimalLength i.value - Binary64.decimalLength i.den
  let (num, den) := Binary64.scale 10 (-estimate) i.value i.den
  if num < den then estimate else estimate + 1

def Interval.contains (i : Interval) (num : Nat) : Bool :=
  if i.closed then i.low ≤ num && num ≤ i.high else i.low < num && num < i.high

def Interval.onGrid (i : Interval) (exponent : Int) : Option Nat :=
  let (up, down) := Binary64.scale 10 (-exponent) 1 1
  let i : Interval := ⟨i.low * up, i.value * up, i.high * up, i.den * down, i.closed⟩
  let q := i.value / i.den
  let nearest := Binary64.roundDiv i.value i.den
  let farther := if nearest = q then q + 1 else q
  if i.contains (nearest * i.den) then some nearest
  else if i.contains (farther * i.den) then some farther
  else none

/-- Seventeen digits always suffice. -/
def shortest (mantissa : Nat) (exponent : Int) : Decimal :=
  let i := Interval.ofBinary mantissa exponent
  let magnitude := i.magnitude
  let found := (List.range 17).findSome? fun n =>
    (i.onGrid (magnitude - (n + 1 : Nat))).map fun digits => (n + 1, digits)
  match found with
  | some (n, digits) =>
    if digits = Nat.pow 10 n then ⟨1, magnitude⟩ else ⟨digits, magnitude - n⟩
  | none => ⟨0, 0⟩

end Decimal

end CopyLint
