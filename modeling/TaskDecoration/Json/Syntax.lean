import TaskDecoration.Value

/-!
# JSON syntax trees

What a JSON text says. Some readers of a text pass over parts of it, and a number that is out of
range or an escape that is half of a surrogate pair is only wrong where it is read, so a tree
keeps a place for it. `Numeral.number?` gives a numeral its value, `Tree.value?` a tree.

The encoding library is not part of the system. What is followed here is what it documents about
the values of a text:

* a numeral with neither point nor exponent is an integer from `-2 ^ 63` to `2 ^ 64 - 1`;
* `-0`, an integer outside these bounds and a numeral with a point or an exponent are 64-bit
  floating-point numbers, and one too large for them is an error, never an infinity;
* a floating-point number is put together from the leading digits and a power of ten, rounded at
  each of these steps, so that it can differ from the nearest one in its last place;
* of the fields of an object that have one name the last stays.
-/

set_option autoImplicit false

namespace TaskDecoration.Json

/-- A written number: its digits before and after the point, and its exponent. -/
structure Numeral where
  negative : Bool
  whole : List Nat
  fraction : Option (List Nat)
  exponent : Option (Bool × List Nat)
deriving DecidableEq, Repr

/-- The value of a JSON text, with its fields as written. A number is absent when it is out of
range, a text or a field name when one of its escapes names half of a surrogate pair. -/
inductive Tree where
  | null
  | bool (b : Bool)
  | number (n : Option Number)
  | text (s : Option String)
  | list (items : List Tree)
  | object (fields : List (Option String × Tree))
deriving Inhabited

namespace Numeral

/-- Appends digits to a number while it stays below `2 ^ 64`; the digits left over follow. -/
def absorb (n : Nat) : List Nat → Nat × List Nat
  | [] => (n, [])
  | d :: ds => if n * 10 + d < Nat.pow 2 64 then absorb (n * 10 + d) ds else (n, d :: ds)

/-- The powers of ten up to `10 ^ 308` are rounded once. -/
def greatestPower : Nat := 308

/-- Divides by `10 ^ n`, in steps of the greatest power. -/
def divPower (x : Magnitude) (n : Nat) : Option Magnitude :=
  if n ≤ greatestPower then do x.div? (← Magnitude.ofNat? (Nat.pow 10 n))
  else if x.mantissa = 0 then some x
  else do divPower (← x.div? (← Magnitude.ofNat? (Nat.pow 10 greatestPower))) (n - greatestPower)
termination_by n
decreasing_by simp only [greatestPower] at *; omega

/-- The floating-point number nearest to `n`, scaled by `10 ^ e`, rounded after each step. It is
absent when it is too large. -/
def scale? (n : Nat) (e : Int) : Option Magnitude := do
  let x ← Magnitude.ofNat? n
  if e < 0 then divPower x (-e).toNat
  else if e.toNat ≤ greatestPower then x.mul? (← Magnitude.ofNat? (Nat.pow 10 e.toNat))
  else if x.mantissa = 0 then some x
  else none

/-- The value of a run of digits. -/
def digitsValue (ds : List Nat) : Nat := ds.foldl (fun n d => n * 10 + d) 0

/-- A numeral without point and exponent is an integer when it has a word, except for minus
zero. Any other numeral is a floating-point number: as many leading digits as fit a word are
kept, and the rest of the numeral only moves the decimal point. -/
def number? (n : Numeral) : Option Number :=
  let (m, dropped) := absorb 0 n.whole
  let integral := n.fraction.isNone && n.exponent.isNone && dropped.isEmpty
  if integral ∧ ¬ n.negative then some (.integer m)
  else if integral ∧ 0 < m ∧ m ≤ Nat.pow 2 63 then some (.integer (-(m : Int)))
  else do
    let fraction := n.fraction.getD []
    let (m, rest) := absorb m fraction
    let point := (dropped.length : Int) - (fraction.length - rest.length)
    let shift : Int := match n.exponent with
      | none => 0
      | some (true, ds) => -digitsValue ds
      | some (false, ds) => digitsValue ds
    return .double ⟨n.negative, ← scale? m (point + shift)⟩

end Numeral

namespace Tree

/-- Field names that are all readable, with their trees. -/
def readableFields? (fields : List (Option String × Tree)) : Option (List (String × Tree)) :=
  fields.mapM fun f => f.1.map fun name => (name, f.2)

/-- The value of a tree whose lists and objects are nested at most `depth` deep. The last field
of a name stays. -/
def value? : Nat → Tree → Option Value
  | _, .null => some .null
  | _, .bool b => some (.bool b)
  | _, .number n => n.map .number
  | _, .text s => s.map .text
  | depth + 1, .list items => (items.mapM (value? depth)).map .list
  | depth + 1, .object fields => do
    let fields ← readableFields? fields
    let fields ← fields.mapM fun f => (value? depth f.2).map fun v => (f.1, v)
    return .ofDict (.ofList fields)
  | 0, _ => none

end Tree

end TaskDecoration.Json
