import TaskDecoration.Arguments.Spelling

/-!
# Transformations

A transform derives a value from an argument and from keyword arguments of its own. A
`Substitution` says which parameter a transform replaces, and whether it runs at once (workflow
mode) or as a unit of its own.
-/

set_option autoImplicit false

namespace TaskDecoration

/-- A function on values, with keyword arguments. -/
abbrev Transform := Value → Dict Value → Except TaskError Value

/-- A transform given in place, or the name of a registered one. -/
inductive TransformRef where
  | inline (f : Transform)
  | named (name : String)

/-- The transform that a reference stands for. -/
def TransformRef.resolve (registry : Dict Transform) :
    TransformRef → Except TransformationError Transform
  | inline f => .ok f
  | named name => match registry.get? name with
    | some f => .ok f
    | none => .error (.notCallable name)

/-- The name of a reference to a registered transform. -/
def TransformRef.name? : TransformRef → Option String
  | inline _ => none
  | named name => some name

/-- The replacement of one parameter by a derived value. -/
structure Substitution where
  parameter : String
  transform : TransformRef
  kwargs : Dict Value
  /-- Whether the transform runs at once instead of as a unit. -/
  workflow : Bool

namespace Substitution

/-- A substitution by a unit, without keyword arguments. -/
def of (parameter : String) (transform : TransformRef) : Substitution :=
  ⟨parameter, transform, .empty, false⟩

/-- Sets the keyword arguments. An argument `is_workflow` is taken out and chooses the mode. -/
def withKwargs (s : Substitution) (kwargs : Dict Value) : Substitution :=
  { s with
    kwargs := kwargs.erase Name.isWorkflow
    workflow := match kwargs.get? Name.isWorkflow with
      | some flag => flag.isTruthy
      | none => s.workflow }

/-- Chooses the mode. -/
def withWorkflow (s : Substitution) (workflow : Bool) : Substitution :=
  { s with workflow := workflow }

end Substitution

end TaskDecoration
