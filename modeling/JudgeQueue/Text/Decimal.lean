/-!
# Decimal fractions as binary64 numbers

A decimal is a whole number times a power of ten. Its binary64 number is the
nearest one, and a decimal beyond the greatest finite number has none.
-/

namespace JudgeQueue

/-- `mantissa * 10 ^ exponent`, with a sign. -/
structure Decimal where
  negative : Bool
  mantissa : Nat
  exponent : Int

namespace Decimal

/-- The power of ten just above the number: `0.1 ≤ value / 10 ^ magnitude < 1`. -/
def magnitude (d : Decimal) : Int :=
  (toString d.mantissa).length + d.exponent

/-- The nearest binary64 number without its sign. Numbers far outside the
range are decided by their magnitude. -/
def absFloat? (d : Decimal) : Option Float :=
  if d.mantissa = 0 || d.magnitude < -400 then some 0.0
  else if d.magnitude > 400 then none
  else
    let x := Float.ofScientific d.mantissa (d.exponent < 0) d.exponent.natAbs
    if x.isInf then none else some x

/-- The nearest binary64 number, unless it is infinite. -/
def toFloat? (d : Decimal) : Option Float :=
  d.absFloat?.map fun x => if d.negative then -x else x

end Decimal

end JudgeQueue
