import TaskDecoration.Decoration
import TaskDecoration.Transformation.Apply

/-!
# Annotated functions

A function is a body with a signature inside a list of layers, outermost first. A call goes
through the layers in turn. Each one checks that calls are admitted, configures the descriptor
of the call unless it has done so before, prepares the call, and runs what is inside in a frame
of its own. A task layer finishes the descriptor and registers the task instead; it must be the
innermost one.
-/

set_option autoImplicit false

namespace TaskDecoration

/-- A function without layers. Its number tells its runs apart from those of others. -/
structure BareFunction where
  number : Nat
  signature : Signature
  body : View → Except TaskError Value

/-- An annotation around a function. -/
structure Layer where
  id : LayerId
  decoration : Decoration
  /-- The context in which the function was wrapped. -/
  decoratedIn : Context

/-- A function with its layers, outermost first. -/
structure TaskFunction where
  layers : List Layer
  base : BareFunction

/-- A task on its way to the scheduler. -/
structure TaskRequest where
  descriptor : Descriptor
  arguments : Arguments
  dependencies : List Dependency
  options : TaskOptions
  /-- The frames of the layers in one. -/
  frame : Frame

namespace Decoration

/-- What an annotation does to every admitted call before its frame is opened. A number of
computing nodes becomes a keyword argument. Transformations are applied where descriptors are
configured; those given with the call replace the declared ones of all layers, and the first
layer that asks applies them. -/
def prepare (a : Decoration) (f : Signature) : Procedure Unit :=
  match a with
  | primary p =>
    if p.kind.injectsNodes then
      match p.arguments.get? Name.computingNodes with
      | some nodes => Procedure.modifyCall fun c =>
          { c with arguments := c.arguments.insert Name.computingNodes nodes }
      | none => pure ()
    else pure ()
  | dataTransformation specs => do
    let s ← get
    if s.call.context.configures then
      if s.call.hasTransformations then
        let (given, call) := s.call.takeTransformations
        Procedure.modifyCall fun _ => call
        match given with
        | some specs => applyTransformations f specs
        | none => pure ()
      else applyTransformations f specs
    else pure ()
  | _ => pure ()

end Decoration

/-- Marks the layers that have configured, and lets go of the gate. -/
def commitConfiguration : Procedure Unit :=
  modify fun s =>
    { call := { s.call with deferred := [], holdsConfiguration := false }
      host := { s.host with memory := s.host.memory.configure s.call.deferred } }

/-- Takes the dependencies of the call and writes their results into its arguments. -/
def resolveDependencies : Procedure Unit := do
  let s ← get
  let (r, a) := Dependency.resolve s.call.dependencies s.call.arguments
  Procedure.modifyCall fun c => { c with dependencies := [], arguments := a }
  Change.ofExcept r

namespace BareFunction

/-- Runs the body, once the results it waits for have arrived. -/
def invoke (f : BareFunction) : Procedure Value := do
  resolveDependencies
  commitConfiguration
  let s ← get
  let view := s.call.view f.signature
  Procedure.modifyHost (·.recordRun ⟨f.number, view⟩)
  Change.ofExcept (f.body view)

end BareFunction

namespace Scheduler

def computingUnits : String := "computing_units"

/-- A number of computing units, as an integer or as a text. -/
def units? : Value → Option Nat
  | .text s => Text.word? (Text.trim s.toList)
  | v => v.word?

/-- A task needs an implementation, and may not ask for more units than there are. -/
def validate (s : Scheduler) (function : String) (e : Element) : Except RegistrationError Unit :=
  if e.isComplete then
    match s.maxComputingUnits, (e.constraint? computingUnits).bind units? with
    | some available, some requested =>
      if available < requested then .error (.overCapacity function requested available)
      else .ok ()
    | _, _ => .ok ()
  else .error (.noImplementation function)

/-- Runs a hook, if there is one and hooks are run. -/
def runHook (hook : Option Hook) : Procedure Unit := do
  let s ← get
  match s.host.scheduler.runHooks, hook with
  | true, some h =>
    Procedure.modifyHost (·.recordHook h)
    Change.ofExcept (h.run s.host.scheduler.environment)
  | _, _ => pure ()

/-- Accepts a task and runs it: the request is validated and recorded, the results it waits for
are written into its arguments, and the body runs as a worker between the two hooks, in a call
of its own that starts from the frame of the request. -/
def register (r : TaskRequest) (f : BareFunction) : Procedure Value := do
  let s ← get
  let function := f.signature.qualifiedName
  match s.host.scheduler.validate function r.descriptor.element with
  | .error e => throw (.registration e)
  | .ok () => pure ()
  Procedure.modifyHost (·.recordRegistration {
    function
    descriptor := r.descriptor
    arguments := r.arguments
    pending := r.dependencies.map (·.parameter)
    options := r.options
    prependStrings := r.frame.prependStrings })
  let (resolved, arguments) := Dependency.resolve r.dependencies r.arguments
  Change.ofExcept resolved
  let element := r.descriptor.element
  runHook element.prolog
  let context : Context := ⟨.worker, s.host.session.context.nesting⟩
  let result ← Procedure.inCall ((Call.start context arguments).withFrame r.frame) f.invoke
  runHook element.epilog
  return result

end Scheduler

namespace Layer

/-- Configures the descriptor of the call, unless the layer has done so before. The layer is
marked only when the whole stack has configured. -/
def configure (l : Layer) (f : Signature) : Procedure Unit := do
  let s ← get
  if s.call.context.configures ∧ ¬ s.host.memory.configured l.id then
    Procedure.modifyCall (·.hold)
    Procedure.onDescriptor (l.decoration.write f)
    Procedure.modifyCall (·.defer l.id)
  else pure ()

/-- Calls are refused where the context does not admit them. -/
def checkContext (l : Layer) : Procedure Unit := do
  let s ← get
  if s.call.context.admitsCalls then pure () else throw (.outOfScope l.decoration.name)

/-- What a layer does before its frame is opened. -/
def enter (l : Layer) (f : Signature) : Procedure Unit := do
  l.checkContext
  l.configure f
  l.decoration.prepare f

/-- Finishes the descriptor of the call, which the layer keeps if it is its first, or takes the
one it keeps. -/
def freeze (l : Layer) (f : Signature) : Procedure Descriptor := do
  let s ← get
  match s.call.element with
  | some element =>
    let (d, memory) := s.host.memory.finish l.id element
    Procedure.modifyCall fun c => { c with element := none }
    Procedure.modifyHost fun o => { o with memory := memory }
    return d
  | none => match s.host.memory.descriptor l.id with
    | some d => return d
    | none => throw (.registration (.noDescriptor f.qualifiedName))

/-- The options of a task for one call: a keyword argument overrides the number of computing
nodes. -/
def callOptions (options : TaskOptions) (a : Arguments) : TaskOptions :=
  { options with
    computingNodes := (a.get? Name.computingNodes).getD options.computingNodes }

/-- What a task layer runs: the function itself where descriptors are not configured, and a
registered task otherwise. Layers inside a task are refused. -/
def perform (l : Layer) (options : TaskOptions) (inner : List Layer) (f : BareFunction) :
    Procedure Value := do
  let s ← get
  if ¬ inner.isEmpty then
    throw (.configuration (.taskNotInnermost f.signature.qualifiedName))
  else if ¬ s.call.context.configures then f.invoke
  else
    let descriptor ← l.freeze f.signature
    commitConfiguration
    let c := (← get).call
    Procedure.modifyCall fun c => { c with dependencies := [] }
    Scheduler.register {
      descriptor
      arguments := c.arguments
      dependencies := c.dependencies
      options := callOptions options c.arguments
      frame := c.effectiveFrame } f

end Layer

namespace TaskFunction

/-- Takes a call through layers into a function. -/
def invokeLayers (f : BareFunction) : List Layer → Procedure Value
  | [] => f.invoke
  | l :: inner => do
    l.enter f.signature
    Procedure.inFrame l.decoration.keepsMarks <|
      match l.decoration with
      | .task _ options => l.perform options inner f
      | _ => invokeLayers f inner

/-- Takes a call through all layers of a function. -/
def invoke (f : TaskFunction) : Procedure Value := invokeLayers f.base f.layers

def signature (f : TaskFunction) : Signature := f.base.signature

/-- The gate that all layers of a stack share, known by its innermost layer. -/
def gate? (f : TaskFunction) : Option LayerId := f.layers.getLast?.map (·.id)

/-- Calls a function with arguments in the context of the session. -/
def call (f : TaskFunction) (a : Arguments) (o : Orchestrator) :
    Except TaskError Value × Orchestrator :=
  let (r, s) := f.invoke.runOn ⟨.start o.session.context a, o⟩
  (r, s.host)

/-- A function without layers. -/
def bare (base : BareFunction) : TaskFunction := ⟨[], base⟩

/-- Puts a single layer around a function. -/
def wrap (a : Decoration) (f : TaskFunction) (o : Orchestrator) : TaskFunction × Orchestrator :=
  let m := o.memory
  (⟨⟨m.nextLayer, a, o.session.context⟩ :: f.layers, f.base⟩,
    { o with memory := { m with nextLayer := m.nextLayer + 1 } })

/-- Puts layers around a function, the first one outermost. -/
def wrapAll (as : List Decoration) (f : TaskFunction) (o : Orchestrator) :
    TaskFunction × Orchestrator :=
  as.foldr (fun a (f, o) => wrap a f o) (f, o)

/-- Annotates a function: each annotation puts all its layers around it, the first one
outermost. -/
def decorate (as : List Decoration) (f : TaskFunction) (o : Orchestrator) :
    TaskFunction × Orchestrator :=
  wrapAll (as.flatMap Decoration.layers) f o

end TaskFunction

end TaskDecoration
