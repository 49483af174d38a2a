/-!
# Binary floating-point numbers of 53 bits

The double-precision binary numbers of the floating-point standard, the finite ones only: neither
an infinity nor a NaN has a JSON text. A number is `mantissa * 2 ^ exponent` with a sign, with
subnormal numbers below `2 ^ -1022`. Every operation is exact integer arithmetic followed by one
rounding to the nearest representable number, a tie going to the even mantissa; a result too
large to represent is absent.
-/

set_option autoImplicit false

namespace TaskDecoration

/-- The number `mantissa * 2 ^ exponent`, kept with `mantissa < 2 ^ 53` and the least exponent
from `-1074` up for which that holds. -/
structure Magnitude where
  mantissa : Nat
  exponent : Int
deriving DecidableEq, Repr, Inhabited

namespace Magnitude

/-- The smallest exponent. -/
def leastExponent : Int := -1074

/-- The largest exponent. -/
def greatestExponent : Int := 971

/-- The zero. -/
def zero : Magnitude := ⟨0, leastExponent⟩

/-- The value as a quotient of natural numbers. -/
def ratio (x : Magnitude) : Nat × Nat :=
  if 0 ≤ x.exponent then (x.mantissa * Nat.pow 2 x.exponent.toNat, 1)
  else (x.mantissa, Nat.pow 2 (-x.exponent).toNat)

/-- The integer nearest to `num / den`, of two the even one. -/
def roundDiv (num den : Nat) : Nat :=
  let q := num / den
  let r := num % den
  if den < 2 * r ∨ (den = 2 * r ∧ q % 2 = 1) then q + 1 else q

/-- The quotient `num / den` divided by `2 ^ e`. -/
def scaleDown (num den : Nat) (e : Int) : Nat × Nat :=
  if 0 ≤ e then (num, den * Nat.pow 2 e.toNat) else (num * Nat.pow 2 (-e).toNat, den)

/-- The representable number nearest to `num / den`. -/
def ofRatio? (num den : Nat) : Option Magnitude :=
  if num = 0 then some zero
  else
    let low := max leastExponent ((num.log2 : Int) - den.log2 - 53)
    let (n, d) := scaleDown num den low
    let e := if Nat.pow 2 53 ≤ n / d then low + 1 else low
    let (n, d) := scaleDown num den e
    let m := roundDiv n d
    let (m, e) := if m = Nat.pow 2 53 then (Nat.pow 2 52, e + 1) else (m, e)
    if greatestExponent < e then none else some ⟨m, e⟩

/-- The representable number nearest to a natural number. -/
def ofNat? (n : Nat) : Option Magnitude := ofRatio? n 1

def mul? (x y : Magnitude) : Option Magnitude :=
  ofRatio? (x.ratio.1 * y.ratio.1) (x.ratio.2 * y.ratio.2)

def div? (x y : Magnitude) : Option Magnitude :=
  ofRatio? (x.ratio.1 * y.ratio.2) (x.ratio.2 * y.ratio.1)

end Magnitude

/-- A finite binary floating-point number. The two zeros are different numbers that compare
as equal. -/
structure Double where
  negative : Bool
  magnitude : Magnitude
deriving DecidableEq, Repr, Inhabited

namespace Double

/-- Numeric equality. -/
def same (x y : Double) : Bool :=
  x == y || (x.magnitude.mantissa == 0 && y.magnitude.mantissa == 0)

end Double

end TaskDecoration
