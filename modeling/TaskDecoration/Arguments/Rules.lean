import TaskDecoration.Arguments
import TaskDecoration.Error
import TaskDecoration.Text.Upper

/-!
# Argument rules

Which argument names an annotation needs and knows. A mandatory name may also be given in its
camel-case spelling, provided that spelling is listed as deprecated. `Rules.check` reports the
first missing name in the order of the rules, and otherwise the smallest unknown name.
-/

set_option autoImplicit false

namespace TaskDecoration

/-- Leaves out underscores; the character after a run of them is put in upper case. -/
def camelChars (upperNext : Bool) : List Char → List Char
  | [] => []
  | c :: cs =>
    if c = '_' then camelChars true cs
    else if upperNext then Text.upper c ++ camelChars false cs
    else c :: camelChars false cs

/-- The camel-case spelling of a name. -/
def camelCase (name : String) : String := String.ofList (camelChars false name.toList)

/-- The argument names of an annotation. An open set of rules knows every name. -/
structure Rules where
  mandatory : List String
  supported : List String
  deprecated : List String
  isOpen : Bool
deriving Repr

namespace Rules

/-- Rules that know the listed names only. -/
def closed (mandatory supported deprecated : List String) : Rules :=
  ⟨mandatory, supported, deprecated, false⟩

/-- Rules that need no name and know all. -/
def all : Rules := ⟨[], [], [], true⟩

/-- Whether the rules know a name. -/
def knows (r : Rules) (name : String) : Bool :=
  r.isOpen || r.mandatory.contains name || r.supported.contains name || r.deprecated.contains name

/-- Whether a mandatory name is given, in either spelling. -/
def given (r : Rules) (a : Arguments) (name : String) : Bool :=
  a.contains name || (r.deprecated.contains (camelCase name) && a.contains (camelCase name))

/-- Checks the names of the keyword arguments of an annotation. -/
def check (r : Rules) (a : Arguments) (label : String) : Except ConfigurationError Unit :=
  match r.mandatory.find? (!r.given a ·) with
  | some name => .error (.missingArgument label name)
  | none => match a.keyword.keys.find? (!r.knows ·) with
    | some name => .error (.unsupportedArgument label name)
    | none => .ok ()

end Rules

end TaskDecoration
