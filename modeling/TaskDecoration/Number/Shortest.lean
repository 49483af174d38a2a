import TaskDecoration.Number.Double
import TaskDecoration.Text.Integer

/-!
# The shortest decimal that reads back

The reals that round to a floating-point number form an interval around it. `shortest?` looks
for a decimal with the fewest digits inside that interval: for one digit, two digits and so on
it tries the two neighbours of the number on the grid of decimals with that many digits. This is
what the encoding library documents of the floating-point numbers it writes: the fewest digits
that read back as the number, of those the nearest to it. `FloatFormat` says how the digits found
are laid out.
-/

set_option autoImplicit false

namespace TaskDecoration

/-- The decimal `digits * 10 ^ exponent`. -/
structure Decimal where
  digits : Nat
  exponent : Int
deriving DecidableEq, Repr

/-- An interval of reals around a value, all three over one denominator. -/
structure RoundingInterval where
  low : Nat
  value : Nat
  high : Nat
  denominator : Nat
  closed : Bool

namespace Magnitude

/-- The reals whose nearest representable number is `x`: half the gap to either neighbour, the
ends included when the mantissa is even. Below a power of two the gap is half as wide. -/
def interval (x : Magnitude) : RoundingInterval :=
  let narrow := x.mantissa == Nat.pow 2 52 && leastExponent < x.exponent
  let (unit, den) := ratio ⟨1, x.exponent - 2⟩
  let m := 4 * x.mantissa
  ⟨(m - if narrow then 1 else 2) * unit, m * unit, (m + 2) * unit, den, x.mantissa % 2 == 0⟩

end Magnitude

namespace RoundingInterval

/-- The exponent of the leading decimal digit of the value. -/
def leading (i : RoundingInterval) : Int :=
  if i.denominator ≤ i.value then
    ((Text.natChars (i.value / i.denominator)).length : Int) - 1
  else
    Int.negOfNat (Text.natChars ((i.denominator + i.value - 1) / i.value - 1)).length

/-- Whether `digits * num / den` lies in the interval. -/
def admits (i : RoundingInterval) (digits num den : Nat) : Bool :=
  let x := digits * num * i.denominator
  if i.closed then i.low * den ≤ x && x ≤ i.high * den
  else i.low * den < x && x < i.high * den

/-- The decimal with `count` digits in the interval that is nearest to the value, a tie going to
the even digit. -/
def nearest? (i : RoundingInterval) (count : Nat) : Option Decimal :=
  let exponent := i.leading - ((count : Int) - 1)
  let num := Nat.pow 10 exponent.toNat
  let den := Nat.pow 10 (-exponent).toNat
  let below := i.value * den / (num * i.denominator)
  let rest := i.value * den % (num * i.denominator)
  let half := num * i.denominator
  let upward := half < 2 * rest || (half == 2 * rest && below % 2 == 1)
  -- The upper neighbour of `99...9` is a power of ten and has a single digit.
  let above : Decimal :=
    if below + 1 = Nat.pow 10 count then ⟨1, exponent + count⟩ else ⟨below + 1, exponent⟩
  match i.admits below num den, i.admits (below + 1) num den with
  | true, true => some (if upward then above else ⟨below, exponent⟩)
  | true, false => some ⟨below, exponent⟩
  | false, true => some above
  | false, false => none

end RoundingInterval

/-- The decimal of fewest digits that rounds to `x`, of those the nearest. Seventeen digits are
always enough. -/
def Magnitude.shortest? (x : Magnitude) : Option Decimal :=
  (List.range' 1 17).findSome? x.interval.nearest?

/-- How a floating-point number is laid out. -/
structure FloatFormat where
  /-- Positional notation is used while the decimal point stands after more than this many
  digits (negative: zeros after the point). -/
  leastPoint : Int
  /-- The furthest place of the decimal point in positional notation. -/
  greatestPoint : Int
  /-- The mark before an exponent. -/
  mark : Char
  /-- Whether a positive exponent has a plus sign. -/
  plus : Bool

namespace FloatFormat

/-- The exponent part of scientific notation. -/
def exponentChars (f : FloatFormat) (e : Int) : List Char :=
  f.mark :: ((if f.plus ∧ 0 ≤ e then ['+'] else []) ++ Text.intChars e)

/-- The layout of the digits of a decimal. -/
def layout (f : FloatFormat) (x : Decimal) : List Char :=
  let ds := Text.natChars x.digits
  let point := ds.length + x.exponent
  if 0 ≤ x.exponent ∧ point ≤ f.greatestPoint then
    ds ++ List.replicate x.exponent.toNat '0' ++ ['.', '0']
  else if 0 < point ∧ point ≤ f.greatestPoint then
    ds.take point.toNat ++ '.' :: ds.drop point.toNat
  else if f.leastPoint < point ∧ point ≤ 0 then
    '0' :: '.' :: (List.replicate (-point).toNat '0' ++ ds)
  else match ds with
    | [] => []
    | [d] => d :: f.exponentChars (point - 1)
    | d :: rest => d :: '.' :: (rest ++ f.exponentChars (point - 1))

/-- The text of a floating-point number. -/
def chars (f : FloatFormat) (x : Double) : List Char :=
  (if x.negative then ['-'] else []) ++
    if x.magnitude.mantissa = 0 then ['0', '.', '0']
    else match x.magnitude.shortest? with
      | some d => f.layout d
      | none => []

end FloatFormat

/-- Numbers from `1e-5` up to `1e16` are written in positional notation with at least one digit
after the point, the others with a signed exponent. -/
def Double.format : FloatFormat := ⟨-5, 16, 'e', true⟩

/-- The shortest text that reads back as the number. -/
def Double.chars (x : Double) : List Char := Double.format.chars x

end TaskDecoration
