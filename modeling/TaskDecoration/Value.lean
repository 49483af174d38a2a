import TaskDecoration.Dict
import TaskDecoration.Number.Shortest

/-!
# Dynamic values

The values that tasks receive and return: null, booleans, numbers, texts, lists and objects.
Integers and floating-point numbers are different values, also where they are numerically
equal. An object holds its fields in the order of their names; `Value.ofDict` builds one, and
`Value.Canonical` says that a value and all its parts are so built, with integers of 64 bits.
-/

set_option autoImplicit false

namespace TaskDecoration

/-- A number is an integer or a floating-point number. -/
inductive Number where
  | integer (i : Int)
  | double (x : Double)
deriving DecidableEq, Repr, Inhabited

namespace Number

/-- The integers that have a word: the unsigned and the signed 64-bit ones. -/
def InRange (i : Int) : Prop := -Nat.pow 2 63 ≤ i ∧ i < Nat.pow 2 64

instance (i : Int) : Decidable (InRange i) := inferInstanceAs (Decidable (_ ∧ _))

/-- Equality of numbers of one sort; the two floating-point zeros are equal. -/
def same : Number → Number → Bool
  | integer i, integer j => i == j
  | double x, double y => x.same y
  | _, _ => false

/-- The text of a number. -/
def chars : Number → List Char
  | integer i => Text.intChars i
  | double x => x.chars

end Number

/-- A dynamic value. -/
inductive Value where
  | null
  | bool (b : Bool)
  | number (n : Number)
  | text (s : String)
  | list (items : List Value)
  | object (fields : List (String × Value))
deriving Repr, Inhabited

namespace Value

/-- The object with the entries of a dictionary. -/
def ofDict (d : Dict Value) : Value := .object d.entries

def int (i : Int) : Value := .number (.integer i)

def nat (n : Nat) : Value := int n

def ofTexts (texts : List String) : Value := .list (texts.map .text)

/-- An absent value is written as null. -/
def ofOption {α : Type} (f : α → Value) : Option α → Value
  | none => .null
  | some x => f x

/-- The fields of an object. -/
def fields? : Value → Option (List (String × Value))
  | .object fields => some fields
  | _ => none

/-- The value of a field, when the value is an object with that field. -/
def field? (v : Value) (name : String) : Option Value :=
  v.fields?.bind (List.lookup name)

/-- The value as an unsigned word. -/
def word? : Value → Option Nat
  | .number (.integer i) => if 0 ≤ i ∧ i < Nat.pow 2 64 then some i.toNat else none
  | _ => none

/-- The value as a signed word. -/
def signedWord? : Value → Option Int
  | .number (.integer i) => if -Nat.pow 2 63 ≤ i ∧ i < Nat.pow 2 63 then some i else none
  | _ => none

/-- Texts, numbers and booleans have a spelling, the other values have none. -/
def spelling? : Value → Option String
  | .text s => some s
  | .number n => some (String.ofList n.chars)
  | .bool b => some (if b then "true" else "false")
  | _ => none

/-- The sort of a value, as messages name it. -/
def sort : Value → String
  | .null => "null"
  | .bool _ => "boolean"
  | .number (.integer _) => "integer"
  | .number (.double _) => "float"
  | .text _ => "string"
  | .list _ => "array"
  | .object _ => "object"

/-- True, the integer one and the texts `True`, `true` and `1` count as set. -/
def isTruthy : Value → Bool
  | .bool b => b
  | .number (.integer i) => i == 1
  | .text s => s == "True" || s == "true" || s == "1"
  | _ => false

mutual

/-- Equality of values, numbers compared by `Number.same`. -/
def same : Value → Value → Bool
  | .null, .null => true
  | .bool a, .bool b => a == b
  | .number m, .number n => m.same n
  | .text s, .text t => s == t
  | .list xs, .list ys => sameItems xs ys
  | .object fs, .object gs => sameFields fs gs
  | _, _ => false

/-- Equality of lists, item by item. -/
def sameItems : List Value → List Value → Bool
  | [], [] => true
  | x :: xs, y :: ys => x.same y && sameItems xs ys
  | _, _ => false

/-- Equality of fields in their order. -/
def sameFields : List (String × Value) → List (String × Value) → Bool
  | [], [] => true
  | (k, x) :: fs, (l, y) :: gs => k == l && x.same y && sameFields fs gs
  | _, _ => false

end

/-- Equality of dictionaries, their values compared by `Value.same`. -/
def sameDict (d e : Dict Value) : Bool := sameFields d.entries e.entries

mutual

/-- A value whose objects are ordered and whose integers have a word. -/
def Canonical : Value → Prop
  | .number (.integer i) => Number.InRange i
  | .list items => CanonicalItems items
  | .object fields => SortedKeys fields ∧ CanonicalFields fields
  | _ => True

def CanonicalItems : List Value → Prop
  | [] => True
  | x :: xs => x.Canonical ∧ CanonicalItems xs

def CanonicalFields : List (String × Value) → Prop
  | [] => True
  | (_, x) :: fs => x.Canonical ∧ CanonicalFields fs

end

end Value

end TaskDecoration
