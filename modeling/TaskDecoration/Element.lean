import TaskDecoration.Arguments
import TaskDecoration.Change
import TaskDecoration.Error

/-!
# Task descriptors

An `Element` describes how a task executes. The annotations of a call fill it in: its primary
field-set (kind, signature, type-arguments and owner) is written by one annotation only, hooks,
constraints and the workflow flag by any.
-/

set_option autoImplicit false

namespace TaskDecoration

/-- How a task is implemented. -/
inductive ImplementationKind where
  | method
  | binary
  | mpi
  | ompss
  | compss
  | decaf
  | multiNode
  | container
deriving DecidableEq, Repr

namespace ImplementationKind

/-- All kinds. -/
def all : List ImplementationKind :=
  [method, binary, mpi, ompss, compss, decaf, multiNode, container]

/-- The name of a kind in descriptors, which also starts the signatures of binaries. -/
def name : ImplementationKind → String
  | method => "METHOD"
  | binary => "BINARY"
  | mpi => "MPI"
  | ompss => "OMPSS"
  | compss => "COMPSs"
  | decaf => "DECAF"
  | multiNode => "MULTI_NODE"
  | container => "CONTAINER"

/-- The kind of a name. -/
def ofName? (s : String) : Option ImplementationKind := all.find? (·.name == s)

end ImplementationKind

/-- A binary that is run before or after a task, with its parameters and the policy for a
failing exit status. -/
structure Hook where
  binary : String
  params : String
  failByExitValue : String
deriving DecidableEq, Repr, Inhabited

/-- The three texts of a hook. -/
def Hook.toList (h : Hook) : List String := [h.binary, h.params, h.failByExitValue]

/-- The description of how a task executes. -/
structure Element where
  kind : Option ImplementationKind
  signature : Option String
  typeArguments : List String
  prolog : Option Hook
  epilog : Option Hook
  constraints : Dict Value
  workflow : Bool
  /-- The annotation that wrote the primary field-set. -/
  owner : Option String

namespace Element

/-- A descriptor nobody has written to. -/
def empty : Element := ⟨none, none, [], none, none, .empty, false, none⟩

instance : Inhabited Element := ⟨empty⟩

/-- The primary field-set has an owner. -/
def hasPrimary (e : Element) : Bool := e.owner.isSome

/-- Kind and signature are known. -/
def isComplete (e : Element) : Bool := e.kind.isSome && e.signature.isSome

/-- Writes the primary field-set, which is refused when it has an owner. -/
def writeImplementation (owner : String) (kind : ImplementationKind) (signature : String)
    (typeArguments : List String) : Change ConfigurationError Element Unit := do
  let e ← get
  match e.owner with
  | some first => throw (.primaryConflict first owner)
  | none => modify fun e => { e with
      kind := some kind, signature := some signature, typeArguments := typeArguments,
      owner := some owner }

/-- The descriptor with the given primary field-set, unless it has one. -/
def setImplementation (e : Element) (owner : String) (kind : ImplementationKind)
    (signature : String) (typeArguments : List String) : Except ConfigurationError Element :=
  (writeImplementation owner kind signature typeArguments).result e

/-- Replaces the type-arguments of a primary field-set that has been written. -/
def completeTypeArguments (e : Element) (typeArguments : List String) : Element :=
  { e with typeArguments := typeArguments }

def setProlog (e : Element) (hook : Hook) : Element := { e with prolog := some hook }

def setEpilog (e : Element) (hook : Hook) : Element := { e with epilog := some hook }

/-- Adds constraints one after another; the last value of a name stays. -/
def addConstraints (e : Element) (constraints : List (String × Value)) : Element :=
  { e with constraints := e.constraints.insertMany constraints }

def setWorkflow (e : Element) (workflow : Bool) : Element := { e with workflow := workflow }

/-- The value of a constraint. -/
def constraint? (e : Element) (name : String) : Option Value := e.constraints.get? name

section Implementations

variable (owner : String) (kind : ImplementationKind) (signature : String)
  (typeArguments : List String)

theorem writeImplementation_atomic :
    (writeImplementation owner kind signature typeArguments).Atomic := by
  refine Change.atomic_get_bind fun e => ?_
  split
  · exact Change.atomic_throw _
  · exact Change.atomic_modify _

theorem writeImplementation_runOn (e : Element) :
    (writeImplementation owner kind signature typeArguments).runOn e =
      Change.settle e (e.setImplementation owner kind signature typeArguments) :=
  (writeImplementation_atomic owner kind signature typeArguments).runOn_eq e

theorem setImplementation_of_unowned {e : Element} (unowned : e.owner = none) :
    e.setImplementation owner kind signature typeArguments =
      .ok { e with
        kind := some kind, signature := some signature, typeArguments := typeArguments,
        owner := some owner } := by
  unfold setImplementation writeImplementation
  rw [Change.result_get_bind, unowned]
  rfl

theorem setImplementation_of_owned {e : Element} {first : String} (owned : e.owner = some first) :
    e.setImplementation owner kind signature typeArguments =
      .error (.primaryConflict first owner) := by
  unfold setImplementation writeImplementation
  rw [Change.result_get_bind, owned]
  rfl

end Implementations

end Element

end TaskDecoration
