import TaskDecoration.Element
import TaskDecoration.Text.Blank
import TaskDecoration.Arguments.Spelling

/-!
# Running hooks

A hook runs its binary with the words of its parameters. A binary that cannot be started always
fails the hook; one that ends in another way than with status zero does so when the failure policy
says `fail`. What binaries do and which environment variables are set is a parameter, the
`Environment`.
-/

set_option autoImplicit false

namespace TaskDecoration

/-- What becomes of a binary. -/
inductive Exit where
  | status (n : Nat)
  /-- A signal has ended it; the system says which. -/
  | signal (description : String)
  /-- It has not been started, for a reason that the system gives. -/
  | notStarted (reason : String)
deriving DecidableEq, Repr

/-- The environment variables that are set, and what running a binary with arguments leads
to. -/
structure Environment where
  lookup : String → Option String
  run : String → List String → Exit

/-- No variable is set, and every binary succeeds. -/
def Environment.plain : Environment := ⟨fun _ => none, fun _ _ => .status 0⟩

instance : Inhabited Environment := ⟨.plain⟩

/-- What it means that a started binary does not succeed. -/
inductive FailurePolicy where
  | fail
  | ignore
deriving DecidableEq, Repr

namespace FailurePolicy

/-- The policy that a text spells out: `true` and `false` in any case, or an integer, which
means `fail` unless it is zero. -/
def literal? (cs : List Char) : Option FailurePolicy :=
  let cs := Text.lowerAscii cs
  if cs = "true".toList then some fail
  else if cs = "false".toList then some ignore
  else (Text.signedWord? cs).map fun n => if n = 0 then ignore else fail

/-- The policy of a hook: spelled out, or else held by the environment variable of that name.
Without either, failures are ignored. -/
def resolve (failByExitValue : String) (lookup : String → Option String) : FailurePolicy :=
  match literal? failByExitValue.toList with
  | some policy => policy
  | none => ((lookup failByExitValue).bind fun v => literal? (Text.trim v.toList)).getD ignore

end FailurePolicy

namespace Hook

/-- The words of the parameters. Quotes have no meaning, and the unassigned text stands for no
parameters. -/
def arguments (h : Hook) : List String :=
  if h.params = unassigned then []
  else (Text.words h.params.toList).map String.ofList

/-- What becomes of a hook whose binary has been started and has not succeeded. -/
def judge (h : Hook) (env : Environment) (cause : HookFailure) : Except TaskError Unit :=
  match FailurePolicy.resolve h.failByExitValue env.lookup with
  | .fail => .error (.hook h.binary cause)
  | .ignore => .ok ()

/-- Runs a hook to its end. -/
def run (h : Hook) (env : Environment) : Except TaskError Unit :=
  match env.run h.binary h.arguments with
  | .notStarted reason => .error (.hook h.binary (.notStarted reason))
  | .status 0 => .ok ()
  | .status n => h.judge env (.exited n)
  | .signal description => h.judge env (.signalled description)

end Hook

end TaskDecoration
