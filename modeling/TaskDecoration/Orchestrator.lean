import TaskDecoration.Decoration.Options
import TaskDecoration.Call
import TaskDecoration.Hook
import TaskDecoration.Session

/-!
# The orchestrator

Everything that outlives a call: the session, the registered transforms, the scheduler with its
journal of what it accepted and ran, and the memory of which layers have configured and which
descriptors they keep. A `Procedure` is a computation on a call and the orchestrator that may
fail; what it did before it failed stays.
-/

set_option autoImplicit false

namespace TaskDecoration

/-- A finished descriptor. Every one that is finished has a number of its own. -/
structure Descriptor where
  serial : Nat
  element : Element

/-- A task that the scheduler accepted. -/
structure Registration where
  function : String
  descriptor : Descriptor
  /-- The arguments before the results of units have arrived. -/
  arguments : Arguments
  /-- The parameters that wait for a unit. -/
  pending : List String
  options : TaskOptions
  prependStrings : Bool

/-- A unit that the scheduler started. -/
structure UnitRecord where
  name : String
  input : Value

/-- A started body, with what it saw. -/
structure BodyRun where
  function : Nat
  view : View

/-- What happened so far, in order. -/
structure Journal where
  registrations : List Registration
  units : List UnitRecord
  hooks : List Hook
  runs : List BodyRun

/-- The journal in which nothing has happened. -/
def Journal.empty : Journal := ⟨[], [], [], []⟩

/-- How tasks are accepted and run. -/
structure Scheduler where
  runHooks : Bool
  maxComputingUnits : Option Nat
  environment : Environment

/-- What the layers remember between calls. -/
structure Memory where
  configured : LayerId → Bool
  descriptor : LayerId → Option Descriptor
  /-- The number of the next layer. -/
  nextLayer : LayerId
  /-- The number of the next descriptor. -/
  nextSerial : Nat

namespace Memory

/-- No layer has configured or keeps a descriptor. -/
def fresh : Memory := ⟨fun _ => false, fun _ => none, 0, 0⟩

/-- Marks layers as configured. -/
def configure (m : Memory) (layers : List LayerId) : Memory :=
  { m with configured := fun l => m.configured l || layers.contains l }

/-- Finishes a descriptor. The layer keeps it unless it has one already. -/
def finish (m : Memory) (layer : LayerId) (e : Element) : Descriptor × Memory :=
  let d : Descriptor := ⟨m.nextSerial, e⟩
  (d, { m with
    descriptor := fun l => if l = layer then some ((m.descriptor l).getD d) else m.descriptor l
    nextSerial := m.nextSerial + 1 })

end Memory

/-- The state that calls share. -/
structure Orchestrator where
  settings : Settings
  session : Session
  registry : Dict Transform
  scheduler : Scheduler
  journal : Journal
  memory : Memory

namespace Orchestrator

/-- An orchestrator that has not entered a scope, with a scheduler set up by the settings. -/
def start (settings : Settings) (environment : Environment) : Orchestrator where
  settings := settings
  session := .start settings.nesting
  registry := .empty
  scheduler := ⟨settings.runHooks, settings.maxComputingUnits, environment⟩
  journal := .empty
  memory := .fresh

/-- Makes a transform known by a name, in place of an earlier one. -/
def register (o : Orchestrator) (name : String) (f : Transform) : Orchestrator :=
  { o with registry := o.registry.insert name f }

def recordRegistration (o : Orchestrator) (r : Registration) : Orchestrator :=
  { o with journal := { o.journal with registrations := o.journal.registrations ++ [r] } }

def recordUnit (o : Orchestrator) (u : UnitRecord) : Orchestrator :=
  { o with journal := { o.journal with units := o.journal.units ++ [u] } }

def recordHook (o : Orchestrator) (h : Hook) : Orchestrator :=
  { o with journal := { o.journal with hooks := o.journal.hooks ++ [h] } }

def recordRun (o : Orchestrator) (r : BodyRun) : Orchestrator :=
  { o with journal := { o.journal with runs := o.journal.runs ++ [r] } }

/-- Starts a unit that applies a transform. -/
def submit (o : Orchestrator) (name : String) (f : Transform) (input : Value)
    (kwargs : Dict Value) : UnitHandle × Orchestrator :=
  (.of name (f input kwargs), o.recordUnit ⟨name, input⟩)

end Orchestrator

/-- A call and the orchestrator it runs under. -/
structure Situation where
  call : Call
  host : Orchestrator

/-- A computation on a situation that may fail. -/
abbrev Procedure : Type → Type := Change TaskError Situation

namespace Procedure

variable {α : Type}

def modifyCall (f : Call → Call) : Procedure Unit :=
  modify fun s => { s with call := f s.call }

def modifyHost (f : Orchestrator → Orchestrator) : Procedure Unit :=
  modify fun s => { s with host := f s.host }

/-- Lets the descriptor of the call change. What has been written into it stays, also where the
change is refused. -/
def onDescriptor (p : Change ConfigurationError Element α) : Procedure α := ExceptT.mk fun s =>
  let (r, e) := p.runOn s.call.descriptor
  (r.mapError .configuration, { s with call := s.call.withElement e })

/-- Runs a procedure in a frame, which is closed whether it fails or not. -/
def inFrame (prependStrings : Bool) (p : Procedure α) : Procedure α := ExceptT.mk fun s =>
  let (r, s) := p.runOn { s with call := s.call.enterFrame prependStrings }
  (r, { s with call := s.call.leaveFrame })

/-- Runs a procedure on another call; the present call stays as it is. -/
def inCall (c : Call) (p : Procedure α) : Procedure α := ExceptT.mk fun s =>
  let (r, t) := p.runOn { s with call := c }
  (r, { s with host := t.host })

end Procedure

end TaskDecoration
