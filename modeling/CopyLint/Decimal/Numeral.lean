import CopyLint.Decimal.Digits

/-! Integers as decimal texts. An integer of too many digits has none. -/
namespace CopyLint

structure OverlongNumber where
  deriving DecidableEq, Repr

def OverlongNumber.message (_ : OverlongNumber) : String :=
  s!"Exceeds the limit ({Digits.limit} digits) for integer string conversion; use " ++
    "sys.set_int_max_str_digits() to increase the limit"

namespace Digits

/-- The sign is not counted. -/
def isOverlong (n : Int) : Bool :=
  limit < (Nat.toDigits 10 n.natAbs).length

end Digits

def numeral (n : Int) : Except OverlongNumber String :=
  if Digits.isOverlong n then throw {} else pure (toString n)

end CopyLint
