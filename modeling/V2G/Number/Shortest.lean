import V2G.Number.Double

/-!
# Shortest decimals

The text of a finite number is the shortest decimal that reads back as that number, and
of several the nearest. The decimals that read back are those between the midpoints to
the two neighbours, ends included when the mantissa is even. On the grid of decimals
with `n` digits, only the two neighbours of the value itself have to be tried.
-/

namespace V2G.Double

def digitCount (n : Nat) : Nat := (Nat.toDigits 10 n).length

/-- The exponent of the leading digit of `num / den`. -/
def leadingExponent (num den : Nat) : Int :=
  if den ≤ num then (digitCount (num / den) : Int) - 1
  else -(digitCount ((den + num - 1) / num - 1) : Int)

/-- Whether `c · 10 ^ k` reads back as the finite positive number `x`. -/
def readsBack (x : Double) (c : Nat) (k : Int) : Bool :=
  let m := x.mantissa
  let q := x.scale - 2
  let low := if x.fractionField = 0 && x.exponentField > 1 then 4 * m - 1 else 4 * m - 2
  let high := 4 * m + 2
  let unit := twoTo q.toNat * tenTo (-k).toNat
  let point := c * tenTo k.toNat * twoTo (-q).toNat
  if m % 2 = 0 then low * unit ≤ point && point ≤ high * unit
  else low * unit < point && point < high * unit

/-- The decimal `c · 10 ^ k` with `n` digits that is nearest to `x` among those that read
back. -/
def nearestWith (x : Double) (n : Nat) : Option (Nat × Int) :=
  let k := leadingExponent x.numerator x.denominator - n + 1
  let num := x.numerator * tenTo (-k).toNat
  let den := x.denominator * tenTo k.toNat
  let below := num / den
  let tooLow := 2 * (num % den) > den || (2 * (num % den) == den && below % 2 == 1)
  match readsBack x below k, readsBack x (below + 1) k with
  | true, true => some (if tooLow then below + 1 else below, k)
  | true, false => some (below, k)
  | false, true => some (below + 1, k)
  | false, false => none

/-- The shortest decimal of a finite positive number; seventeen digits always suffice. -/
def shortest (x : Double) : Nat × Int :=
  ((List.range 17).findSome? fun n => nearestWith x (n + 1)).getD (0, 0)

/-- The text of a finite number: positional for magnitudes from `1e-4` below `1e16`,
with at least one place after the point, else with an exponent of at least two digits. -/
def decimalText (x : Double) : String :=
  let sign := if x.isNegative then "-" else ""
  if x.isZero then sign ++ "0.0" else
  let (c, k) := shortest x
  let lead : Int := k + digitCount c - 1
  let digits := ((Nat.toDigits 10 c).reverse.dropWhile (· = '0')).reverse
  let body : List Char :=
    if -4 ≤ lead && lead < 0 then
      '0' :: '.' :: (List.replicate (-lead - 1).toNat '0' ++ digits)
    else if 0 ≤ lead && lead < 16 then
      let whole := digits.take (lead + 1).toNat
      let rest := digits.drop (lead + 1).toNat
      whole ++ List.replicate (lead + 1 - digits.length).toNat '0' ++
        '.' :: (if rest.isEmpty then ['0'] else rest)
    else
      let rest := digits.drop 1
      let exponent := Nat.toDigits 10 lead.natAbs
      digits.take 1 ++ (if rest.isEmpty then [] else '.' :: rest) ++
        'e' :: (if lead < 0 then '-' else '+') ::
          (if exponent.length < 2 then '0' :: exponent else exponent)
  sign ++ String.ofList body

end V2G.Double
