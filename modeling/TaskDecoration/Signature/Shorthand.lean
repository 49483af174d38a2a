import TaskDecoration.Signature
import TaskDecoration.Json.Reader
import TaskDecoration.Json.Printer
import TaskDecoration.Text.Blank

/-!
# The shorthand of signatures

`module.name(x, y=3)` names a function and its parameters. A default is a JSON text; one that is
not is taken as a text. `Signature.display` writes the shorthand, `Signature.parse` reads it.
A comma always ends a parameter, so a default whose JSON text has a comma is not read back.
-/

set_option autoImplicit false

namespace TaskDecoration

/-- Why a text is no shorthand of a signature. -/
inductive ShorthandError where
  | unclosed
  | unqualified
deriving DecidableEq, Repr

def ShorthandError.message : ShorthandError → String
  | unclosed => "Signature must end with ')'"
  | unqualified => "Signature must be qualified as 'module.name'"

namespace Signature

/-- A parameter in shorthand. -/
def parameterChars (p : Parameter) : List Char :=
  match p.default? with
  | some v => p.name.toList ++ '=' :: Json.chars v
  | none => p.name.toList

/-- The parameters, separated by a comma and a space. -/
def parametersChars : List Parameter → List Char
  | [] => []
  | [p] => parameterChars p
  | p :: q :: ps => parameterChars p ++ ',' :: ' ' :: parametersChars (q :: ps)

/-- The shorthand of a signature. -/
def displayChars (s : Signature) : List Char :=
  s.qualifiedName.toList ++ '(' :: (parametersChars s.parameters ++ [')'])

def display (s : Signature) : String := String.ofList s.displayChars

/-- The value a written default stands for. -/
def defaultOf (cs : List Char) : Value :=
  (Value.ofJson? cs).getD (.text (String.ofList cs))

/-- The parameter that a trimmed, non-empty part between commas declares. -/
def parseParameter (cs : List Char) : Parameter :=
  match Text.splitFirst? (· == '=') cs with
  | some (name, value) =>
    ⟨String.ofList (Text.trim name), some (defaultOf (Text.trim value))⟩
  | none => ⟨String.ofList cs, none⟩

/-- The parts between the commas, trimmed, without the empty ones. -/
def parts (cs : List Char) : List (List Char) :=
  ((cs.splitOnP (· == ',')).map Text.trim).filter (!·.isEmpty)

/-- The path before the opening bracket, and the text between the brackets. -/
def splitBrackets (cs : List Char) : Except ShorthandError (List Char × List Char) :=
  match Text.splitFirst? (· == '(') cs with
  | none => .ok (cs, [])
  | some (path, rest) =>
    if cs.getLast? = some ')' then .ok (path, rest.dropLast) else .error .unclosed

/-- Module and name of a path. -/
def splitPath (cs : List Char) : Except ShorthandError (String × String) :=
  match Text.splitLast? (· == '.') cs with
  | none => .error .unqualified
  | some (moduleName, name) =>
    if moduleName.isEmpty || name.isEmpty then .error .unqualified
    else .ok (String.ofList moduleName, String.ofList name)

/-- The signature that a shorthand describes. -/
def parse (s : String) : Except ShorthandError Signature := do
  let (path, inside) ← splitBrackets (Text.trim s.toList)
  let (moduleName, name) ← splitPath (Text.trim path)
  return (parts inside).foldl (fun s part => s.push (parseParameter part))
    (nullary moduleName name)

end Signature

end TaskDecoration
