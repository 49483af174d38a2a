import TaskDecoration.Json.Syntax
import TaskDecoration.Text.Blank

/-!
# Reading JSON texts

`Tree.parse?` accepts the texts of the JSON grammar and nothing else:

* blanks are the space, the tab and the two line ends, and only blanks follow the value;
* a numeral has digits before its point, no zero in front of others, and digits after a point and
  after an exponent; a plus sign stands in exponents only;
* a text holds no bare control character; its escapes are the eight of one letter and `\u` with
  four hexadecimal digits, where characters beyond `0xFFFF` are two codes that form a surrogate
  pair;
* no comma follows the last item or field.

`Value.ofJson?` reads a value whose lists and objects are nested at most `depthLimit` deep, the
documented limit of the encoding library: 127 levels are read, 128 are an error. Reading goes by
recursion on a bound for the depth that the length of the text always meets.
-/

set_option autoImplicit false

namespace TaskDecoration.Json

/-- The blanks between tokens. -/
def isBlank (c : Char) : Bool := c == ' ' || c == '\t' || c == '\n' || c == '\r'

def skipBlanks (cs : List Char) : List Char := cs.dropWhile isBlank

/-- The digits at the front, and the text after them. -/
def digits : List Char → List Nat × List Char
  | [] => ([], [])
  | c :: cs => match Text.digitValue? c with
    | some d => let (ds, rest) := digits cs; (d :: ds, rest)
    | none => ([], c :: cs)

/-- At least one digit. -/
def someDigits? (cs : List Char) : Option (List Nat × List Char) :=
  let (ds, rest) := digits cs
  if ds.isEmpty then none else some (ds, rest)

/-- The part of a numeral after the point, if there is a point. -/
def fraction? : List Char → Option (Option (List Nat) × List Char)
  | '.' :: cs => (someDigits? cs).map fun (ds, rest) => (some ds, rest)
  | cs => some (none, cs)

/-- The sign and the digits of an exponent. -/
def signedDigits? : List Char → Option ((Bool × List Nat) × List Char)
  | '+' :: cs => (someDigits? cs).map fun (ds, rest) => ((false, ds), rest)
  | '-' :: cs => (someDigits? cs).map fun (ds, rest) => ((true, ds), rest)
  | cs => (someDigits? cs).map fun (ds, rest) => ((false, ds), rest)

/-- The exponent of a numeral, if there is one. -/
def exponent? : List Char → Option (Option (Bool × List Nat) × List Char)
  | 'e' :: cs => (signedDigits? cs).map fun (e, rest) => (some e, rest)
  | 'E' :: cs => (signedDigits? cs).map fun (e, rest) => (some e, rest)
  | cs => some (none, cs)

/-- A numeral without its sign. A zero in front is the only digit before the point. -/
def unsigned? (negative : Bool) (cs : List Char) : Option (Numeral × List Char) := do
  let (whole, cs) ← someDigits? cs
  if whole.head? = some 0 ∧ 1 < whole.length then none
  let (fraction, cs) ← fraction? cs
  let (exponent, cs) ← exponent? cs
  return (⟨negative, whole, fraction, exponent⟩, cs)

/-- A numeral and the text after it. -/
def numeral? : List Char → Option (Numeral × List Char)
  | '-' :: cs => unsigned? true cs
  | cs => unsigned? false cs

/-- The value of a hexadecimal digit. -/
def hexValue? (c : Char) : Option Nat :=
  if 'a' ≤ c ∧ c ≤ 'f' then some (c.toNat - 'a'.toNat + 10)
  else if 'A' ≤ c ∧ c ≤ 'F' then some (c.toNat - 'A'.toNat + 10)
  else Text.digitValue? c

/-- The number written by four hexadecimal digits. -/
def hexCode? (a b c d : Char) : Option Nat := do
  return (((← hexValue? a) * 16 + (← hexValue? b)) * 16 + (← hexValue? c)) * 16 + (← hexValue? d)

/-- The character of a one-letter escape. -/
def escape? : Char → Option Char
  | '"' => some '"'
  | '\\' => some '\\'
  | '/' => some '/'
  | 'b' => some '\x08'
  | 'f' => some '\x0c'
  | 'n' => some '\n'
  | 'r' => some '\r'
  | 't' => some '\t'
  | _ => none

/-- A part of a written text: a character, or the code that an escape gives. -/
inductive Piece where
  | char (c : Char)
  | code (n : Nat)
deriving DecidableEq, Repr

/-- The pieces up to the closing quote, and the text after it. -/
def pieces? : List Char → Option (List Piece × List Char)
  | '"' :: cs => some ([], cs)
  | '\\' :: 'u' :: a :: b :: c :: d :: cs => do
    let n ← hexCode? a b c d
    let (ps, rest) ← pieces? cs
    return (.code n :: ps, rest)
  | '\\' :: e :: cs => do
    let c ← escape? e
    let (ps, rest) ← pieces? cs
    return (.char c :: ps, rest)
  | c :: cs =>
    if c.toNat < 0x20 then none else do
      let (ps, rest) ← pieces? cs
      return (.char c :: ps, rest)
  | [] => none

/-- The first codes of surrogate pairs. -/
def isLead (n : Nat) : Bool := 0xD800 ≤ n && n < 0xDC00

/-- The second codes of surrogate pairs. -/
def isTrail (n : Nat) : Bool := 0xDC00 ≤ n && n < 0xE000

/-- The characters of the pieces; two codes that form a surrogate pair are one character, and
half a pair is none. -/
def join? : List Piece → Option (List Char)
  | [] => some []
  | .char c :: ps => (join? ps).map (c :: ·)
  | .code n :: .code m :: ps =>
    if isLead n then
      if isTrail m then
        (join? ps).map (Char.ofNat (0x10000 + (n - 0xD800) * 0x400 + (m - 0xDC00)) :: ·)
      else none
    else if isTrail n then none
    else (join? (.code m :: ps)).map (Char.ofNat n :: ·)
  | .code n :: ps => if isLead n || isTrail n then none else (join? ps).map (Char.ofNat n :: ·)

/-- The text after an opening quote, and what follows its closing quote. -/
def quoted? (cs : List Char) : Option (Option String × List Char) :=
  (pieces? cs).map fun (ps, rest) => ((join? ps).map String.ofList, rest)

mutual

/-- A value and the text after it. -/
def tree? : Nat → List Char → Option (Tree × List Char)
  | 0, _ => none
  | n + 1, cs => match skipBlanks cs with
    | 'n' :: cs => ("ull".toList.isPrefixOf? cs).map fun rest => (.null, rest)
    | 't' :: cs => ("rue".toList.isPrefixOf? cs).map fun rest => (.bool true, rest)
    | 'f' :: cs => ("alse".toList.isPrefixOf? cs).map fun rest => (.bool false, rest)
    | '"' :: cs => (quoted? cs).map fun (s, rest) => (.text s, rest)
    | '[' :: cs => match skipBlanks cs with
      | ']' :: rest => some (.list [], rest)
      | cs => (items? n cs).map fun (xs, rest) => (.list xs, rest)
    | '{' :: cs => match skipBlanks cs with
      | '}' :: rest => some (.object [], rest)
      | cs => (fields? n cs).map fun (fs, rest) => (.object fs, rest)
    | cs => (numeral? cs).map fun (x, rest) => (.number x.number?, rest)

/-- Items up to the closing bracket, at least one. -/
def items? : Nat → List Char → Option (List Tree × List Char)
  | 0, _ => none
  | n + 1, cs => do
    let (x, cs) ← tree? n cs
    match skipBlanks cs with
    | ']' :: rest => return ([x], rest)
    | ',' :: cs =>
      let (xs, rest) ← items? n cs
      return (x :: xs, rest)
    | _ => none

/-- Fields up to the closing brace, at least one. -/
def fields? : Nat → List Char → Option (List (Option String × Tree) × List Char)
  | 0, _ => none
  | n + 1, cs => match skipBlanks cs with
    | '"' :: cs => do
      let (name, cs) ← quoted? cs
      match skipBlanks cs with
      | ':' :: cs =>
        let (x, cs) ← tree? n cs
        match skipBlanks cs with
        | '}' :: rest => return ([(name, x)], rest)
        | ',' :: cs =>
          let (fs, rest) ← fields? n cs
          return ((name, x) :: fs, rest)
        | _ => none
      | _ => none
    | _ => none

end

/-- The tree of a JSON text. -/
def Tree.parse? (cs : List Char) : Option Tree := do
  let (t, rest) ← tree? (cs.length + 1) cs
  if (skipBlanks rest).isEmpty then some t else none

/-- Lists and objects nested deeper than this are refused. -/
def depthLimit : Nat := 127

end TaskDecoration.Json

namespace TaskDecoration

/-- The value of a JSON text. -/
def Value.ofJson? (cs : List Char) : Option Value := do
  (← Json.Tree.parse? cs).value? Json.depthLimit

end TaskDecoration
