import TaskDecoration.Orchestrator

/-!
# Applying transformations

A list of substitutions is applied to a call in three passes. First every parameter is located
and every transform is found; then the parameters become targets of the call; only then are the
transforms carried out, in order. In workflow mode the result is written at once. Otherwise a
unit is started, and null stands in the slot until its result arrives.
-/

set_option autoImplicit false

namespace TaskDecoration

/-- Where the value of a parameter stands, and what it is: a keyword argument, else the
positional argument, else a keyword argument to be, with the default as its value. -/
def locate (a : Arguments) (f : Signature) (parameter : String) :
    Except TransformationError (Slot × Value) :=
  match a.get? parameter with
  | some v => .ok (.keyword parameter, v)
  | none => match f.position? parameter with
    | none => .error (.unknownParameter f.qualifiedName parameter)
    | some i => match a.positional[i]? with
      | some v => .ok (.positional i, v)
      | none => .ok (.keyword parameter, (f.default? parameter).getD .null)

/-- A substitution whose slot, value and transform are known. -/
structure PlannedSubstitution where
  spec : Substitution
  slot : Slot
  value : Value
  transform : Transform

namespace Substitution

/-- Locates the parameter of a substitution, then finds its transform. -/
def plan (registry : Dict Transform) (a : Arguments) (f : Signature) (s : Substitution) :
    Except TransformationError PlannedSubstitution := do
  let (slot, value) ← locate a f s.parameter
  let transform ← s.transform.resolve registry
  return ⟨s, slot, value, transform⟩

/-- The name of the unit that carries out a substitution. -/
def unitName (s : Substitution) : String := "transform[" ++ s.parameter ++ "]"

end Substitution

/-- Makes parameters targets of a call, up to the first that already is one. -/
def claimAll : List String → Call → Option TransformationError × Call
  | [], c => (none, c)
  | p :: ps, c => match c.claim p with
    | .ok c => claimAll ps c
    | .error e => (some e, c)

namespace PlannedSubstitution

/-- Carries out a planned substitution. -/
def act (p : PlannedSubstitution) : Procedure Unit := do
  if p.spec.workflow then
    let result ← Change.ofExcept (p.transform p.value p.spec.kwargs)
    Procedure.modifyCall fun c => { c with arguments := c.arguments.set p.slot result }
  else
    let s ← get
    let (handle, host) := s.host.submit p.spec.unitName p.transform p.value p.spec.kwargs
    Procedure.modifyHost fun _ => host
    Procedure.modifyCall fun c => { c with
      arguments := c.arguments.set p.slot .null
      dependencies := c.dependencies ++ [⟨p.spec.parameter, p.slot, handle⟩] }

/-- Carries out substitutions in order. -/
def actAll : List PlannedSubstitution → Procedure Unit
  | [] => pure ()
  | p :: ps => do p.act; actAll ps

end PlannedSubstitution

/-- Applies substitutions to the call. -/
def applyTransformations (f : Signature) (specs : List Substitution) : Procedure Unit := do
  let s ← get
  match specs.mapM (Substitution.plan s.host.registry s.call.arguments f) with
  | .error e => throw (.transformation e)
  | .ok planned =>
    let (refused, call) := claimAll (planned.map (·.spec.parameter)) s.call
    Procedure.modifyCall fun _ => call
    match refused with
    | some e => throw (.transformation e)
    | none => PlannedSubstitution.actAll planned

end TaskDecoration
