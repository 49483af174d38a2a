/-!
# Integers written in text

Decimal integers with an optional sign. Only the ASCII digits count as digits, and at least one
is needed. A word is an integer of 64 bits.
-/

set_option autoImplicit false

namespace TaskDecoration.Text

/-- The value of a decimal digit. -/
def digitValue? (c : Char) : Option Nat :=
  if '0' ≤ c ∧ c ≤ '9' then some (c.toNat - '0'.toNat) else none

/-- The number written by a non-empty run of decimal digits. -/
def decimal? (cs : List Char) : Option Nat :=
  if cs.isEmpty then none
  else cs.foldlM (fun n c => (digitValue? c).map fun d => n * 10 + d) 0

/-- A natural number below `2 ^ 64`, with an optional plus sign. -/
def word? : List Char → Option Nat
  | '+' :: cs => (decimal? cs).filter (· < Nat.pow 2 64)
  | cs => (decimal? cs).filter (· < Nat.pow 2 64)

/-- An integer from `-2 ^ 63` up to `2 ^ 63 - 1`, with an optional sign. -/
def signedWord? : List Char → Option Int
  | '+' :: cs => ((decimal? cs).filter (· < Nat.pow 2 63)).map Int.ofNat
  | '-' :: cs => ((decimal? cs).filter (· ≤ Nat.pow 2 63)).map fun n => -Int.ofNat n
  | cs => ((decimal? cs).filter (· < Nat.pow 2 63)).map Int.ofNat

/-- The decimal digits of a natural number. -/
def natChars (n : Nat) : List Char := Nat.toDigits 10 n

/-- The decimal spelling of an integer. -/
def intChars : Int → List Char
  | .ofNat n => natChars n
  | .negSucc n => '-' :: natChars (n + 1)

end TaskDecoration.Text
