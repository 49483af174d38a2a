import TaskDecoration.Decoration.Options
import TaskDecoration.Decoration.Primary
import TaskDecoration.Transformation

/-!
# Annotations

The annotations a function can be wrapped with. Declaring one checks its arguments once and for
all; `write` then puts the fields it owns into a descriptor. A `@software` annotation
stands for several layers, listed by `Decoration.layers`.
-/

set_option autoImplicit false

namespace TaskDecoration

/-- A hook as it was declared. -/
structure DeclaredHook where
  arguments : Arguments
  hook : Hook

namespace DeclaredHook

def rules : Rules := .closed [Name.binary] [Name.params, Name.failByExitValue] []

/-- Checks the arguments of a hook and reads it off them. -/
def declare (label : String) (a : Arguments) : Except ConfigurationError DeclaredHook := do
  rules.check a label
  let a ← a.resolveFailByExitValue label
  let binary ← a.requiredText Name.binary label
  let params ← a.optionalText Name.params label
  let failByExitValue ← a.requiredText Name.failByExitValue label
  return ⟨a, ⟨binary, params, failByExitValue⟩⟩

end DeclaredHook

/-- A task that a file describes: the annotation it stands for, constraints, and hooks. -/
structure Software where
  described : Primary
  constraints : Dict Value
  prolog : Option DeclaredHook
  epilog : Option DeclaredHook

/-- An annotation with canonical arguments. -/
inductive Decoration where
  /-- Makes the function a task. -/
  | task (arguments : Arguments) (options : TaskOptions)
  /-- A binary to run before the task. -/
  | prolog (declared : DeclaredHook)
  /-- A binary to run after the task. -/
  | epilog (declared : DeclaredHook)
  /-- Resource requirements. -/
  | constraint (arguments : Arguments)
  /-- What the task is. -/
  | primary (declared : Primary)
  /-- A task described by a file. -/
  | software (arguments : Arguments) (description : Software)
  /-- Replaces arguments by derived values. -/
  | dataTransformation (specs : List Substitution)

namespace Decoration

def taskName : String := "@task"
def prologName : String := "@prolog"
def epilogName : String := "@epilog"
def constraintName : String := "@constraint"
def softwareName : String := "@software"
def dataTransformationName : String := "@data_transformation"

/-- The name in messages. -/
def name : Decoration → String
  | task _ _ => taskName
  | prolog _ => prologName
  | epilog _ => epilogName
  | constraint _ => constraintName
  | primary p => p.kind.name
  | software _ _ => softwareName
  | dataTransformation _ => dataTransformationName

/-- The canonical arguments. -/
def arguments : Decoration → Arguments
  | task a _ => a
  | prolog h => h.arguments
  | epilog h => h.arguments
  | constraint a => a
  | primary p => p.arguments
  | software a _ => a
  | dataTransformation specs => ⟨specs.map fun s => .text s.parameter, .empty⟩

/-- Whether strings keep their marks inside the layer. -/
def keepsMarks : Decoration → Bool
  | primary p => p.kind.keepsMarks
  | _ => true

/-- Fills in the type-arguments of a container that is to run the function itself: the internal
type and the internal function, while the type is unassigned. -/
def completeContainer (typeArguments : List String) (f : Signature) : List String :=
  if typeArguments.length ≤ 4 ∨ typeArguments[2]? ≠ some unassigned then typeArguments
  else (typeArguments.set 2 "CET_PYTHON").set 4 (f.moduleName ++ "&" ++ f.name)

/-- A task takes the function itself as its implementation where no other annotation names one,
and completes a container. -/
def implementTask (f : Signature) : Change ConfigurationError Element Unit := do
  let e ← get
  if ¬ e.hasPrimary then
    Element.writeImplementation taskName .method f.qualifiedName [f.moduleName, f.name]
  else if e.kind = some .container then
    modify fun e => e.completeTypeArguments (completeContainer e.typeArguments f)
  else pure ()

/-- Writes the fields an annotation owns into a descriptor. -/
def write (a : Decoration) (f : Signature) : Change ConfigurationError Element Unit :=
  match a with
  | task _ options => do
    implementTask f
    modify (·.setWorkflow options.isWorkflow)
  | prolog h => modify (·.setProlog h.hook)
  | epilog h => modify (·.setEpilog h.hook)
  | constraint a => modify (·.addConstraints a.keyword.entries)
  | primary p => p.write f
  | software _ s => modify (·.addConstraints s.constraints.entries)
  | dataTransformation _ => pure ()

/-- The descriptor with the fields that an annotation owns, unless it refuses to write them. -/
def configure (a : Decoration) (f : Signature) (e : Element) :
    Except ConfigurationError Element := (a.write f).result e

theorem implementTask_atomic (f : Signature) : (implementTask f).Atomic := by
  refine Change.atomic_get_bind fun e => ?_
  split
  · exact Element.writeImplementation_atomic _ _ _ _
  · split
    · exact Change.atomic_modify _
    · exact Change.atomic_pure _

/-- Every annotation makes its checks before it writes. -/
theorem write_atomic (a : Decoration) (f : Signature) : (a.write f).Atomic := by
  cases a with
  | task arguments options => exact Change.atomic_bind_modify (implementTask_atomic f) _
  | primary p => exact p.write_atomic f
  | dataTransformation specs => exact Change.atomic_pure _
  | _ => exact Change.atomic_modify _

theorem write_runOn (a : Decoration) (f : Signature) (e : Element) :
    (a.write f).runOn e = Change.settle e (a.configure f e) := (a.write_atomic f).runOn_eq e

/-- The layers an annotation stands for, outermost first. Software is its own layer for the
constraints, then the hooks of the file and the annotation it describes. -/
def layers (a : Decoration) : List Decoration :=
  match a with
  | software _ s =>
    a :: ((s.prolog.map prolog).toList ++ (s.epilog.map epilog).toList ++ [primary s.described])
  | _ => [a]

end Decoration

end TaskDecoration
