/-! Rounding an offset up to an alignment. -/
namespace CopyLint

def roundUp (offset align : Int) : Int :=
  (offset + align - 1).fdiv align * align

structure ZeroAlignment where
  deriving DecidableEq, Repr

def ZeroAlignment.message (_ : ZeroAlignment) : String :=
  "integer division or modulo by zero"

/-- Rounding that refuses to divide by zero. -/
def alignUp (offset align : Int) : Except ZeroAlignment Int :=
  if align = 0 then throw {} else pure (roundUp offset align)

theorem alignUp_of_ne_zero {align : Int} (offset : Int) (h : align ≠ 0) :
    alignUp offset align = .ok (roundUp offset align) := by
  simp [alignUp, h, pure, Except.pure]

theorem dvd_roundUp (offset align : Int) : align ∣ roundUp offset align :=
  ⟨_, Int.mul_comm _ _⟩

theorem le_roundUp (offset : Int) {align : Int} (h : 0 < align) :
    offset ≤ roundUp offset align := by
  have hmod := Int.fmod_lt_of_pos (offset + align - 1) h
  have hdiv := Int.mul_fdiv_add_fmod (offset + align - 1) align
  rw [Int.mul_comm] at hdiv
  unfold roundUp
  omega

theorem roundUp_lt (offset : Int) {align : Int} (h : 0 < align) :
    roundUp offset align < offset + align := by
  have hmod := Int.fmod_nonneg_of_pos (offset + align - 1) h
  have hdiv := Int.mul_fdiv_add_fmod (offset + align - 1) align
  rw [Int.mul_comm] at hdiv
  unfold roundUp
  omega

theorem roundUp_le {offset align multiple : Int} (h : 0 < align) (hdvd : align ∣ multiple)
    (hle : offset ≤ multiple) : roundUp offset align ≤ multiple := by
  obtain ⟨k, rfl⟩ := hdvd
  have hlt := roundUp_lt offset h
  obtain ⟨j, hj⟩ := dvd_roundUp offset align
  rw [hj] at hlt ⊢
  have hnext : align * j < align * (k + 1) := by
    rw [Int.mul_add, Int.mul_one]
    omega
  have hjk := Int.lt_of_mul_lt_mul_left hnext (Int.le_of_lt h)
  exact Int.mul_le_mul_of_nonneg_left (by omega) (Int.le_of_lt h)

end CopyLint
