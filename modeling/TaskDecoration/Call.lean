import TaskDecoration.Call.Frame
import TaskDecoration.Context
import TaskDecoration.Element
import TaskDecoration.Signature
import TaskDecoration.Transformation

/-!
# Calls

The state of one call on its way through the layers of a function: its arguments, the
descriptor under construction, the open frames, and the units whose results it waits for. A
`View` is what the body sees in the end.
-/

set_option autoImplicit false

namespace TaskDecoration

/-- A layer of a function is known by a number. -/
abbrev LayerId := Nat

/-- A unit that was started. Its outcome is what waiting for it gives, unless it is aborted
first; of a unit that never ends, that is its cancellation. -/
structure UnitHandle where
  name : String
  outcome : Except TaskError Value
  aborted : Bool

namespace UnitHandle

/-- A unit that ends with the given outcome. -/
def of (name : String) (outcome : Except TaskError Value) : UnitHandle := ⟨name, outcome, false⟩

/-- A unit that never ends by itself. -/
def endless (name : String) : UnitHandle := of name (.error (.cancelled name))

def abort (u : UnitHandle) : UnitHandle := { u with aborted := true }

/-- The result of waiting for a unit. -/
def wait (u : UnitHandle) : Except TaskError Value :=
  if u.aborted then .error (.cancelled u.name) else u.outcome

end UnitHandle

/-- A slot that receives the result of a unit before the body starts. -/
structure Dependency where
  parameter : String
  slot : Slot
  unit : UnitHandle

namespace Dependency

/-- Writes the results of units into their slots, in order. The first failure ends this; what
was written before it stays. -/
def resolve : List Dependency → Arguments → Except TaskError Unit × Arguments
  | [], a => (.ok (), a)
  | d :: ds, a => match d.unit.wait with
    | .ok v => resolve ds (a.set d.slot v)
    | .error e => (.error e, a)

end Dependency

/-- What the body of a function sees of a call. -/
structure View where
  signature : Signature
  context : Context
  arguments : Arguments
  frames : List Frame

namespace View

/-- The argument for a parameter: by keyword, else by position, else the default. -/
def arg? (v : View) (name : String) : Option Value :=
  match v.arguments.get? name with
  | some x => some x
  | none => (v.signature.position? name).bind fun i =>
    match v.arguments.positional[i]? with
    | some x => some x
    | none => v.signature.default? name

/-- The argument for a parameter; without one, the execution fails. -/
def require (v : View) (name : String) : Except TaskError Value :=
  match v.arg? name with
  | some x => .ok x
  | none => .error (.execution
      (v.signature.qualifiedName ++ " requires argument `" ++ name ++ "`"))

/-- An attribute of the receiver, with the overrides of the layers. -/
def attribute? (v : View) (name : String) : Option Value :=
  Frame.attribute? v.frames v.arguments name

def prependStrings (v : View) : Bool := Frame.keepsMarks v.frames

end View

/-- The state of one call. -/
structure Call where
  context : Context
  arguments : Arguments
  /-- The descriptor under construction, once a layer has asked for it. -/
  element : Option Element
  /-- The open frames, innermost first. -/
  frames : List Frame
  dependencies : List Dependency
  /-- Transformations given with the call, until a layer takes them. -/
  transformations : Option (List Substitution)
  transformationsTaken : Bool
  /-- The parameters that are targets of transformations. -/
  targets : List String
  /-- The layers that have configured, to be marked when the whole stack has. -/
  deferred : List LayerId
  /-- The call holds the gate of the stack it configures. -/
  holdsConfiguration : Bool

namespace Call

/-- A call that has not met any layer. -/
def start (context : Context) (arguments : Arguments) : Call where
  context := context
  arguments := arguments
  element := none
  frames := []
  dependencies := []
  transformations := none
  transformationsTaken := false
  targets := []
  deferred := []
  holdsConfiguration := false

/-- Opens a frame that was built elsewhere. -/
def withFrame (c : Call) (f : Frame) : Call := { c with frames := f :: c.frames }

/-- Gives the call transformations of its own, which replace the declared ones. -/
def withTransformations (c : Call) (specs : List Substitution) : Call :=
  { c with transformations := some specs }

/-- The descriptor under construction; it comes into being when it is first asked for. -/
def descriptor (c : Call) : Element := c.element.getD .empty

def withElement (c : Call) (e : Element) : Call := { c with element := some e }

/-- Opens the frame of a layer. -/
def enterFrame (c : Call) (prependStrings : Bool) : Call :=
  c.withFrame (.ofArguments c.arguments prependStrings)

/-- Closes the innermost frame. -/
def leaveFrame (c : Call) : Call := { c with frames := c.frames.tail }

def attribute? (c : Call) (name : String) : Option Value :=
  Frame.attribute? c.frames c.arguments name

def prependStrings (c : Call) : Bool := Frame.keepsMarks c.frames

/-- All open frames in one. -/
def effectiveFrame (c : Call) : Frame := Frame.collapse c.frames

/-- What a body sees of the call. -/
def view (c : Call) (s : Signature) : View := ⟨s, c.context, c.arguments, c.frames⟩

/-- Hands out the transformations given with the call. -/
def takeTransformations (c : Call) : Option (List Substitution) × Call :=
  (c.transformations,
    { c with
      transformations := none
      transformationsTaken := c.transformationsTaken || c.transformations.isSome })

/-- Whether the call has transformations of its own, taken or not. -/
def hasTransformations (c : Call) : Bool := c.transformationsTaken || c.transformations.isSome

def isTransformed (c : Call) (parameter : String) : Bool := c.targets.contains parameter

/-- Makes a parameter a target of this call, which it can become once. -/
def claim (c : Call) (parameter : String) : Except TransformationError Call :=
  if c.isTransformed parameter then .error (.duplicateTarget parameter)
  else .ok { c with targets := c.targets ++ [parameter] }

/-- Takes the gate of a stack and keeps it until the configuration is committed. -/
def hold (c : Call) : Call := { c with holdsConfiguration := true }

/-- Notes that a layer has configured. -/
def defer (c : Call) (layer : LayerId) : Call := { c with deferred := c.deferred ++ [layer] }

end Call

end TaskDecoration
