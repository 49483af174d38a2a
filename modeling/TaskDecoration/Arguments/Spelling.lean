import TaskDecoration.Arguments
import TaskDecoration.Error

/-!
# Canonical spellings

Older spellings of argument names are moved to the canonical ones, absent arguments get their
default, and values with several admissible sorts are turned into text. Each step leaves one
canonical argument behind.
-/

set_option autoImplicit false

namespace TaskDecoration

/-- The text that stands for a value nobody gave. -/
def unassigned : String := "[unassigned]"

namespace Name

def workingDir : String := "working_dir"
def failByExitValue : String := "fail_by_exit_value"
def computingNodes : String := "computing_nodes"
def binary : String := "binary"
def params : String := "params"
def runner : String := "runner"
def flags : String := "flags"
def isWorkflow : String := "is_workflow"

end Name

namespace Arguments

/-- The canonical spelling wins over the older one; where neither is given, the default stands
in. -/
def resolveAlias (a : Arguments) (canonical older : String) (fallback : Option Value) :
    Arguments :=
  if a.contains canonical then a.erase older
  else match a.get? older, fallback with
    | some v, _ => (a.erase older).insert canonical v
    | none, some v => a.insert canonical v
    | none, none => a

/-- The working directory, unassigned where it is not given. -/
def resolveWorkingDir (a : Arguments) : Arguments :=
  a.resolveAlias Name.workingDir "workingDir" (some (.text unassigned))

/-- The number of computing nodes, one where it is not given. -/
def resolveComputingNodes (a : Arguments) : Arguments :=
  a.resolveAlias Name.computingNodes "computingNodes" (some (.int 1))

/-- The text of a failure policy: booleans and integers are spelled out, a text stays, and
nothing given means `false`. -/
def failureText (label : String) : Option Value → Except ConfigurationError String
  | none => .ok "false"
  | some (.bool b) => .ok (if b then "true" else "false")
  | some (.text s) => .ok s
  | some (.number (.integer i)) => .ok (String.ofList (Text.intChars i))
  | some v => .error (.invalidArgument label Name.failByExitValue
      "a boolean, an integer or an environment variable name" v.sort)

/-- Turns the failure policy into a text. -/
def resolveFailByExitValue (a : Arguments) (label : String) :
    Except ConfigurationError Arguments :=
  (failureText label (a.get? Name.failByExitValue)).map fun s =>
    a.insert Name.failByExitValue (.text s)

/-- A mandatory argument with a spelling. -/
def requiredText (a : Arguments) (name label : String) : Except ConfigurationError String :=
  match a.get? name with
  | none => .error (.missingArgument label name)
  | some v => match v.spelling? with
    | some s => .ok s
    | none => .error (.invalidArgument label name "a string" v.sort)

/-- An optional argument with a spelling, unassigned where it is not given. -/
def optionalText (a : Arguments) (name label : String) : Except ConfigurationError String :=
  if a.contains name then a.requiredText name label else .ok unassigned

end Arguments

end TaskDecoration
