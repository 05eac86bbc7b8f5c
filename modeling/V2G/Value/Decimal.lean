import V2G.Value.Basic

/-!
# Decimal values

The number that a rational number stands for: its value times ten to its exponent. It is an
integer for exponents from zero on, and the product of two rounded numbers below.
-/

namespace V2G.Value

def scaled (value exponent : Int) : Value :=
  if 0 ≤ exponent then .int (value * tenTo exponent.toNat)
  else .float ((Double.ofDecimal false 1 exponent).mulInt value)

/-- The decimal value of a rational number element. -/
def decimal? (v : Value) : Option Value :=
  match v with
  | .element .rationalNumber _ =>
    match v.field "value", v.field "exponent" with
    | .int value, .int exponent => some (scaled value exponent)
    | _, _ => Option.none
  | _ => Option.none

end V2G.Value
