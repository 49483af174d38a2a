import TaskDecoration.Value

/-!
# Writing JSON texts

The compact text of a value, as the encoding library documents it: no blanks, and the fields of
an object in the order of their names. A quote, a backslash and the control characters are
escaped, with one letter where there is one (`\b`, `\f`, `\n`, `\r`, `\t`) and as `\u00` with two
lower-case hexadecimal digits else; every other character, the slash and those beyond ASCII
included, stands for itself. Floating-point numbers are laid out by `Double.format`.
-/

set_option autoImplicit false

namespace TaskDecoration.Json

/-- A lower-case hexadecimal digit. -/
def hexChar (n : Nat) : Char :=
  if n < 10 then Char.ofNat ('0'.toNat + n) else Char.ofNat ('a'.toNat + (n - 10))

/-- How a character is written inside quotes. -/
def escapeChar (c : Char) : List Char :=
  match c with
  | '"' => ['\\', '"']
  | '\\' => ['\\', '\\']
  | '\x08' => ['\\', 'b']
  | '\x0c' => ['\\', 'f']
  | '\n' => ['\\', 'n']
  | '\r' => ['\\', 'r']
  | '\t' => ['\\', 't']
  | c =>
    if c.toNat < 0x20 then
      ['\\', 'u', '0', '0', hexChar (c.toNat / 16), hexChar (c.toNat % 16)]
    else [c]

/-- A text in quotes. -/
def quote (s : String) : List Char := '"' :: (s.toList.flatMap escapeChar ++ ['"'])

mutual

/-- The compact text of a value. -/
def chars : Value → List Char
  | .null => "null".toList
  | .bool b => if b then "true".toList else "false".toList
  | .number n => n.chars
  | .text s => quote s
  | .list items => '[' :: (itemsChars items ++ [']'])
  | .object fields => '{' :: (fieldsChars fields ++ ['}'])

/-- The items, separated by commas. -/
def itemsChars : List Value → List Char
  | [] => []
  | [x] => chars x
  | x :: y :: xs => chars x ++ ',' :: itemsChars (y :: xs)

/-- The fields, separated by commas. -/
def fieldsChars : List (String × Value) → List Char
  | [] => []
  | [(k, x)] => quote k ++ ':' :: chars x
  | (k, x) :: f :: fs => quote k ++ ':' :: (chars x ++ ',' :: fieldsChars (f :: fs))

end

end TaskDecoration.Json

namespace TaskDecoration

/-- The compact JSON text of a value. -/
def Value.toJson (v : Value) : String := String.ofList (Json.chars v)

end TaskDecoration
