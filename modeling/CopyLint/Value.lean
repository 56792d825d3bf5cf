import CopyLint.Decimal.Numeral
import CopyLint.Decimal.Shortest
import CopyLint.Moment
import CopyLint.Text.Quoted

/-! Decoded data: what a JSON or TOML text says, and how messages show it. The entries of a table
keep the order in which its keys first came. -/
namespace CopyLint

inductive Value where
  | null
  | bool (b : Bool)
  | int (n : Int)
  | float (x : Binary64)
  | text (s : String)
  | moment (m : Moment)
  | list (items : List Value)
  | table (entries : List (String × Value))
  deriving Repr

namespace Value

def put (key : String) (value : Value) : List (String × Value) → List (String × Value)
  | [] => [(key, value)]
  | entry :: rest => if entry.1 = key then (key, value) :: rest else entry :: put key value rest

def get? (entries : List (String × Value)) (key : String) : Option Value :=
  entries.lookup key

@[simp] theorem get?_nil (key : String) : get? [] key = none := rfl

@[simp] theorem get?_cons_self (key : String) (v : Value) (rest : List (String × Value)) :
    get? ((key, v) :: rest) key = some v := by
  simp [get?]

@[simp] theorem get?_cons_of_ne {key other : String} (h : key ≠ other) (v : Value)
    (rest : List (String × Value)) : get? ((other, v) :: rest) key = get? rest key := by
  have hne : (key == other) = false := beq_eq_false_iff_ne.mpr h
  rw [get?, List.lookup_cons, hne]
  rfl

/-- The digits of a decimal around its point: positional for exponents from -4 to 15, else with one
digit before the point and an exponent of at least two digits. -/
def renderDecimal (d : Decimal) : String :=
  let digits := Nat.toDigits 10 d.digits
  let point : Int := digits.length + d.exponent
  let text :=
    if -4 < point ∧ point ≤ 16 then
      if point ≤ 0 then '0' :: '.' :: List.replicate (-point).toNat '0' ++ digits
      else if digits.length ≤ point then
        digits ++ List.replicate d.exponent.toNat '0' ++ ['.', '0']
      else digits.take point.toNat ++ '.' :: digits.drop point.toNat
    else
      let exponent := point - 1
      let exponentDigits := Nat.toDigits 10 exponent.natAbs
      let fraction := if digits.length = 1 then [] else '.' :: digits.drop 1
      digits.take 1 ++ fraction ++ 'e' :: (if exponent < 0 then '-' else '+') ::
        (List.replicate (2 - exponentDigits.length) '0' ++ exponentDigits)
  String.ofList text

def renderFloat : Binary64 → String
  | .nan => "nan"
  | .infinite negative => if negative then "-inf" else "inf"
  | .finite negative mantissa exponent =>
    let text := if mantissa = 0 then "0.0" else renderDecimal (.shortest mantissa exponent)
    if negative then "-" ++ text else text

mutual

def render : Value → String
  | null => "None"
  | bool b => if b then "True" else "False"
  | int n => toString n
  | float x => renderFloat x
  | text s => Text.quoted s
  | moment m => m.render
  | list items => "[" ++ ", ".intercalate (renderItems items) ++ "]"
  | table entries => "\x7b" ++ ", ".intercalate (renderEntries entries) ++ "\x7d"

def renderItems : List Value → List String
  | [] => []
  | item :: rest => render item :: renderItems rest

def renderEntries : List (String × Value) → List String
  | [] => []
  | (key, value) :: rest => (Text.quoted key ++ ": " ++ render value) :: renderEntries rest

end

mutual

/-- Somewhere inside stands an integer of too many digits, so that the value cannot be shown. -/
def hasOverlong : Value → Bool
  | int n => Digits.isOverlong n
  | list items => anyOverlong items
  | table entries => anyEntryOverlong entries
  | _ => false

def anyOverlong : List Value → Bool
  | [] => false
  | item :: rest => hasOverlong item || anyOverlong rest

def anyEntryOverlong : List (String × Value) → Bool
  | [] => false
  | (_, value) :: rest => hasOverlong value || anyEntryOverlong rest

end

mutual

def depth : Value → Nat
  | list items => depthOfItems items + 1
  | table entries => depthOfEntries entries + 1
  | _ => 0

def depthOfItems : List Value → Nat
  | [] => 0
  | item :: rest => max (depth item) (depthOfItems rest)

def depthOfEntries : List (String × Value) → Nat
  | [] => 0
  | (_, value) :: rest => max (depth value) (depthOfEntries rest)

end

def placeholder : Value → String
  | list _ => "<unprintable list object>"
  | table _ => "<unprintable dict object>"
  | _ => "<unprintable int object>"

def plain : Value → String
  | text s => s
  | moment m => m.iso " "
  | value => if value.hasOverlong then value.placeholder else value.render

end Value

end CopyLint
