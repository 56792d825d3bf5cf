/-! The platform that structs are laid out for, and the width above which they should not be
copied. All three numbers are positive, by construction. -/
namespace CopyLint

structure Config where
  maxWidth : Int := 16
  wordSize : Int := 8
  maxAlign : Int := 8
  maxWidth_pos : 0 < maxWidth := by decide
  wordSize_pos : 0 < wordSize := by decide
  maxAlign_pos : 0 < maxAlign := by decide
  deriving DecidableEq, Repr

namespace Config

def cap (c : Config) (align : Int) : Int :=
  max 1 (min align c.maxAlign)

theorem one_le_cap (c : Config) (align : Int) : 1 ≤ c.cap align := by
  unfold cap
  omega

theorem cap_le (c : Config) (align : Int) : c.cap align ≤ c.maxAlign := by
  have := c.maxAlign_pos
  unfold cap
  omega

end Config

end CopyLint
