/-!
# Rounding to integers

`roundHalfEven` takes a rational number to the nearest integer, a half to the even one.
-/

namespace BraceFormat

/-- The integer nearest to `q`; of two that are equally near, the even one. -/
def roundHalfEven (q : Rat) : Int :=
  let low := q.floor
  let part := q - low
  if part < 1 / 2 then low
  else if 1 / 2 < part then low + 1
  else if low % 2 = 0 then low
  else low + 1

/-- An integer rounds to itself. -/
theorem roundHalfEven_intCast (n : Int) :
  roundHalfEven n = n
  := by
  have h : (n : Rat) - n < 1 / 2 := by
    rw [Rat.sub_self]
    decide +kernel
  simp only [roundHalfEven, Rat.floor_intCast, if_pos h]

end BraceFormat
