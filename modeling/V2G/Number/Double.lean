import V2G.Number.Power

/-!
# Double precision numbers

A floating-point number as its 64 bits, with exact arithmetic on naturals. A finite
number is `± m · 2 ^ q`; `ofRatio` and `ofDecimal` round to the nearest such number, a
tie to the even one.
-/

namespace V2G

structure Double where
  bits : UInt64
  deriving DecidableEq

namespace Double

def isNegative (x : Double) : Bool := twoTo 63 ≤ x.bits.toNat

def exponentField (x : Double) : Nat := x.bits.toNat / twoTo 52 % twoTo 11
def fractionField (x : Double) : Nat := x.bits.toNat % twoTo 52

def isFinite (x : Double) : Bool := x.exponentField < twoTo 11 - 1
def isNaN (x : Double) : Bool := !x.isFinite && x.fractionField != 0

/-- The number `m` in `m · 2 ^ q`. -/
def mantissa (x : Double) : Nat :=
  if x.exponentField = 0 then x.fractionField else x.fractionField + twoTo 52

/-- The number `q` in `m · 2 ^ q`. -/
def scale (x : Double) : Int :=
  if x.exponentField = 0 then -1074 else x.exponentField - 1075

def isZero (x : Double) : Bool := x.isFinite && x.mantissa = 0

/-- The magnitude of a finite number as a quotient. -/
def numerator (x : Double) : Nat := x.mantissa * twoTo x.scale.toNat
def denominator (x : Double) : Nat := twoTo (-x.scale).toNat

/-- The integer that a finite number equals. -/
def toInt? (x : Double) : Option Int :=
  if x.isFinite && x.numerator % x.denominator = 0 then
    let n : Int := (x.numerator / x.denominator : Nat)
    some (if x.isNegative then -n else n)
  else none

def signed (negative : Bool) (magnitude : Nat) : Double :=
  ⟨UInt64.ofNat (if negative then magnitude + twoTo 63 else magnitude)⟩

def infinity (negative : Bool) : Double := signed negative (0x7ff * twoTo 52)
def nan : Double := ⟨0x7ff8000000000000⟩

/-- A quotient rounded to the nearest integer, a half to the even one. -/
def divNearest (n d : Nat) : Nat :=
  let q := n / d
  let r := n % d
  if 2 * r > d || (2 * r == d && q % 2 == 1) then q + 1 else q

/-- The number nearest to `num / den`. The magnitude bits of a number grow with its
value, so that a mantissa rounded up to `2 ^ 53` moves into the next exponent. -/
def ofRatio (negative : Bool) (num den : Nat) : Double :=
  if num = 0 then signed negative 0 else
  let guess : Int := (Nat.log2 num : Int) - Nat.log2 den - 52
  let exponent : Int :=
    let reach := if num * twoTo (-guess).toNat < den * twoTo guess.toNat * twoTo 52 then guess - 1 else guess
    max reach (-1074)
  let mantissa := divNearest (num * twoTo (-exponent).toNat) (den * twoTo exponent.toNat)
  let magnitude := (exponent + 1074).toNat * twoTo 52 + mantissa
  if 0x7ff * twoTo 52 ≤ magnitude then infinity negative else signed negative magnitude

/-- The number nearest to `digits · 10 ^ exponent`. Beyond four hundred places the value
is certain: nothing is left, or nothing is large enough. -/
def ofDecimal (negative : Bool) (digits : Nat) (exponent : Int) : Double :=
  let places : Int := (Nat.toDigits 10 digits).length + exponent
  if digits = 0 || places < -400 then signed negative 0
  else if places > 400 then infinity negative
  else ofRatio negative (digits * tenTo exponent.toNat) (tenTo (-exponent).toNat)

/-- The number nearest to an integer. -/
def ofInt (n : Int) : Double := ofRatio (n < 0) n.natAbs 1

/-- The product, rounded. Only finite numbers are multiplied here. -/
def mulInt (x : Double) (n : Int) : Double :=
  let y := ofInt n
  ofRatio (x.isNegative != y.isNegative) (x.numerator * y.numerator)
    (x.denominator * y.denominator)

end Double

end V2G
