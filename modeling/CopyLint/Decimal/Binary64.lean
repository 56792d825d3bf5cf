/-! Binary numbers of 53 significant bits, exactly: a number is read by rounding a ratio of natural
numbers, a half going to the even neighbour. -/
namespace CopyLint

inductive Binary64 where
  | nan
  | infinite (negative : Bool)
  /-- `mantissa * 2 ^ exponent`, with all 53 bits in use unless the exponent is the least one. -/
  | finite (negative : Bool) (mantissa : Nat) (exponent : Int)
  deriving DecidableEq, Repr

namespace Binary64

def leastExponent : Int := -1074
def greatestExponent : Int := 971

def roundDiv (num den : Nat) : Nat :=
  let q := num / den
  let r := num % den
  if 2 * r < den then q
  else if den < 2 * r then q + 1
  else if q % 2 = 0 then q
  else q + 1

def scale (base : Nat) (power : Int) (num den : Nat) : Nat × Nat :=
  if 0 ≤ power then (num * base.pow power.toNat, den) else (num, den * base.pow (-power).toNat)

def ofRatio (negative : Bool) (num den : Nat) : Binary64 :=
  if num = 0 then .finite negative 0 leastExponent else
    -- The ratio has 53 or 54 bits before the point once it is divided by `2 ^ low`.
    let low : Int := (Nat.log2 num : Int) - Nat.log2 den - 53
    let (n, d) := scale 2 (-low) num den
    let exponent := max leastExponent (if Nat.pow 2 53 ≤ n / d then low + 1 else low)
    let (n, d) := scale 2 (-exponent) num den
    let mantissa := roundDiv n d
    let (mantissa, exponent) :=
      if mantissa = Nat.pow 2 53 then (Nat.pow 2 52, exponent + 1) else (mantissa, exponent)
    if greatestExponent < exponent then .infinite negative
    else .finite negative mantissa exponent

def decimalLength (n : Nat) : Nat :=
  (Nat.toDigits 10 n).length

/-- `digits * 10 ^ exponent`. Far outside the range no power of ten is computed. -/
def ofDecimal (negative : Bool) (digits : Nat) (exponent : Int) : Binary64 :=
  let magnitude := decimalLength digits + exponent
  if digits = 0 || magnitude < -330 then .finite negative 0 leastExponent
  else if 310 < magnitude then .infinite negative
  else
    let (num, den) := scale 10 exponent digits 1
    ofRatio negative num den

def toInt? : Binary64 → Option Int
  | .finite negative mantissa exponent =>
    let (num, den) := scale 2 exponent mantissa 1
    if num % den = 0 then
      let n : Int := (num / den : Nat)
      some (if negative then -n else n)
    else none
  | _ => none

end Binary64

end CopyLint
