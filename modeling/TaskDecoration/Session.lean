import TaskDecoration.Change
import TaskDecoration.Context
import TaskDecoration.Error
import TaskDecoration.Text.Integer

/-!
# Sessions

A session is the execution context of a process over time. It is entered once by `enter`, left by
`leave`, and after that only `reset` allows another entry. An attempt that is refused leaves the
session as it was. `Settings` say how a session starts.
-/

set_option autoImplicit false

namespace TaskDecoration

/-- How a session and its scheduler are set up. -/
structure Settings where
  scope : Scope
  nesting : Bool
  /-- Whether prolog and epilog binaries are run. -/
  runHooks : Bool
  /-- The computing units a task may ask for, when there is a limit. -/
  maxComputingUnits : Option Nat
deriving DecidableEq, Repr

/-- The execution context, and whether the session has been entered. -/
structure Session where
  context : Context
  bootstrapped : Bool
deriving DecidableEq, Repr

namespace Session

/-- A session that has not been entered. -/
def start (nesting : Bool) : Session := ⟨⟨.outOfScope, nesting⟩, false⟩

/-- Enters a scope, which is allowed once. The session counts as entered before it has the new
context. -/
def enter (scope : Scope) (nesting : Bool) : Change BootstrapError Session Unit := do
  if scope = .outOfScope then throw .outOfScope
  else
    let s ← get
    if s.bootstrapped then throw (.alreadyBootstrapped s.context.scope.name)
    else
      modify ({ · with bootstrapped := true })
      modify ({ · with context := ⟨scope, nesting⟩ })

/-- Leaves the scope; the session still counts as entered. -/
def leave : Change BootstrapError Session Unit := do
  let s ← get
  if s.bootstrapped then modify ({ · with context := .outside }) else throw .neverBootstrapped

/-- The session behind an entry that is not refused. -/
def bootstrap (s : Session) (scope : Scope) (nesting : Bool) : Except BootstrapError Session :=
  (enter scope nesting).result s

/-- The session behind a leave that is not refused. -/
def teardown (s : Session) : Except BootstrapError Session := leave.result s

/-- Puts the session into a context and forgets that it was entered. -/
def reset (context : Context) : Session := ⟨context, false⟩

/-- A session that enters the scope of its settings, unless that is out of scope. -/
def ofSettings (settings : Settings) : Except BootstrapError Session :=
  if settings.scope = .outOfScope then .ok (start settings.nesting)
  else (start settings.nesting).bootstrap settings.scope settings.nesting

theorem enter_atomic (scope : Scope) (nesting : Bool) : (enter scope nesting).Atomic := by
  unfold enter
  split
  · exact Change.atomic_throw _
  · refine Change.atomic_get_bind fun s => ?_
    split
    · exact Change.atomic_throw _
    · exact Change.atomic_bind_modify (Change.atomic_modify _) _

theorem leave_atomic : leave.Atomic := by
  refine Change.atomic_get_bind fun s => ?_
  split
  · exact Change.atomic_modify _
  · exact Change.atomic_throw _

theorem bootstrap_eq (s : Session) (scope : Scope) (nesting : Bool) :
    s.bootstrap scope nesting =
      if scope = .outOfScope then .error .outOfScope
      else if s.bootstrapped then .error (.alreadyBootstrapped s.context.scope.name)
      else .ok ⟨⟨scope, nesting⟩, true⟩ := by
  unfold bootstrap enter
  by_cases outside : scope = .outOfScope
  · rw [if_pos outside, if_pos outside]
    rfl
  · rw [if_neg outside, if_neg outside, Change.result_get_bind]
    by_cases entered : s.bootstrapped = true
    · rw [if_pos entered, if_pos entered]
      rfl
    · rw [if_neg entered, if_neg entered]
      rfl

theorem teardown_eq (s : Session) :
    s.teardown =
      if s.bootstrapped then .ok { s with context := .outside }
      else .error .neverBootstrapped := by
  unfold teardown leave
  rw [Change.result_get_bind]
  by_cases entered : s.bootstrapped = true
  · rw [if_pos entered, if_pos entered]
    rfl
  · rw [if_neg entered, if_neg entered]
    rfl

end Session

namespace Settings

/-- Settings that leave the session out of scope, without nesting, hooks or limits. -/
def default : Settings := ⟨.outOfScope, false, false, none⟩

instance : Inhabited Settings := ⟨default⟩

def scopeVariable : String := "TASKWEAVE_SCOPE"
def nestingVariable : String := "TASKWEAVE_NESTING"
def runHooksVariable : String := "TASKWEAVE_RUN_HOOKS"
def maxComputingUnitsVariable : String := "TASKWEAVE_MAX_COMPUTING_UNITS"

/-- The truth value a text names, blanks around it and the case of its letters aside. -/
def parseFlag (variableName value : String) : Except BootstrapError Bool :=
  let flag := String.ofList (Text.lowerAscii (Text.trim value.toList))
  if flag ∈ ["1", "true", "yes", "on"] then .ok true
  else if flag ∈ ["0", "false", "no", "off", ""] then .ok false
  else .error (.notBoolean variableName flag)

/-- The limit a text names. -/
def parseLimit (value : String) : Except BootstrapError Nat :=
  match Text.word? (Text.trim value.toList) with
  | some n => .ok n
  | none => .error (.notInteger maxComputingUnitsVariable)

/-- The settings that environment variables ask for; an unset variable keeps the default. -/
def ofEnvironment (lookup : String → Option String) : Except BootstrapError Settings := do
  let scope ← match lookup scopeVariable with
    | none => pure default.scope
    | some text => (Scope.parse text).mapError .unknownScope
  let nesting ← match lookup nestingVariable with
    | none => pure default.nesting
    | some text => parseFlag nestingVariable text
  let runHooks ← match lookup runHooksVariable with
    | none => pure default.runHooks
    | some text => parseFlag runHooksVariable text
  let maxComputingUnits ← match lookup maxComputingUnitsVariable with
    | none => pure default.maxComputingUnits
    | some text => (parseLimit text).map some
  return ⟨scope, nesting, runHooks, maxComputingUnits⟩

end Settings

end TaskDecoration
