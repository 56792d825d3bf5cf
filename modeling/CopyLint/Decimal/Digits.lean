/-! Numbers spelled in decimal digits, and how long such a spelling may be. -/
namespace CopyLint.Digits

def value (digits : List Char) : Nat :=
  digits.foldl (fun n c => 10 * n + (c.toNat - '0'.toNat)) 0

def limit : Nat := 4300

def overlongMessage (count : Nat) : String :=
  s!"Exceeds the limit ({limit} digits) for integer string conversion: value has {count} " ++
    "digits; use sys.set_int_max_str_digits() to increase the limit"

end CopyLint.Digits
