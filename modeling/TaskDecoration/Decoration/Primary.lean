import TaskDecoration.Arguments.Rules
import TaskDecoration.Arguments.Spelling
import TaskDecoration.Element
import TaskDecoration.Signature

/-!
# Primary annotations

The annotations that say what a task is: a binary, a parallel program, a nested application, a
container and so on. Of a stack, one of them writes the primary field-set of the descriptor.
Each kind has its rules for arguments, its canonical spellings, and a layout of type-arguments.
-/

set_option autoImplicit false

namespace TaskDecoration

/-- How one type-argument is read. -/
inductive Entry where
  | required (name : String)
  | optional (name : String)
  | constant (text : String)
deriving DecidableEq, Repr

/-- The text of a type-argument. -/
def Entry.read (label : String) (a : Arguments) : Entry → Except ConfigurationError String
  | required name => a.requiredText name label
  | optional name => a.optionalText name label
  | constant text => .ok text

/-- One step towards canonical arguments. -/
inductive Step where
  /-- An older spelling gives way to the canonical one, which may have a default. -/
  | respelling (canonical older : String) (fallback : Option Value)
  /-- An argument has a default. -/
  | filling (name : String) (fallback : Value)
  /-- The failure policy becomes a text. -/
  | failureText

/-- Carries out a step. -/
def Step.run (label : String) (a : Arguments) : Step → Except ConfigurationError Arguments
  | respelling canonical older fallback => .ok (a.resolveAlias canonical older fallback)
  | filling name fallback => .ok (if a.contains name then a else a.insert name fallback)
  | failureText => a.resolveFailByExitValue label

namespace Step

def workingDir : Step := respelling Name.workingDir "workingDir" (some (.text unassigned))

def computingNodes : Step := respelling Name.computingNodes "computingNodes" (some (.int 1))

/-- Carries out steps in order. -/
def runAll (label : String) (steps : List Step) (a : Arguments) :
    Except ConfigurationError Arguments :=
  steps.foldlM (fun a s => s.run label a) a

/-- The older spelling that a step knows, with the canonical one. -/
def spelling? : Step → Option (String × String)
  | respelling canonical older _ => some (canonical, older)
  | _ => none

end Step

/-- The kinds of primary annotations. -/
inductive PrimaryKind where
  | binary
  | ompss
  | mpi
  | compss
  | decaf
  | multiNode
  | container
  | implement
deriving DecidableEq, Repr

namespace PrimaryKind

/-- The name of the annotation. -/
def name : PrimaryKind → String
  | binary => "@binary"
  | ompss => "@ompss"
  | mpi => "@mpi"
  | compss => "@compss"
  | decaf => "@decaf"
  | multiNode => "@multinode"
  | container => "@container"
  | implement => "@implement"

/-- The implementation kind in the descriptor. -/
def implementation : PrimaryKind → ImplementationKind
  | binary => .binary
  | ompss => .ompss
  | mpi => .mpi
  | compss => .compss
  | decaf => .decaf
  | multiNode => .multiNode
  | container => .container
  | implement => .method

def rules : PrimaryKind → Rules
  | binary => .closed [Name.binary] [Name.workingDir, Name.params, Name.failByExitValue]
      ["workingDir"]
  | ompss => .closed [Name.binary] [Name.computingNodes, Name.workingDir, Name.failByExitValue]
      ["computingNodes", "workingDir"]
  | mpi => .closed [Name.runner]
      [Name.binary, "processes_per_node", Name.flags, "scale_by_cu", Name.params,
        Name.workingDir, Name.computingNodes, Name.failByExitValue]
      ["processesPerNode", "scaleByCU", "workingDir", "computingNodes"]
  | compss => .closed ["app_name"]
      ["runcompss", Name.flags, "worker_in_master", Name.workingDir, Name.computingNodes,
        Name.failByExitValue]
      ["appName", "workerInMaster", "workingDir", "computingNodes"]
  | decaf => .closed ["df_script"]
      ["df_executor", "df_lib", Name.runner, Name.workingDir, Name.computingNodes,
        Name.failByExitValue]
      ["dfScript", "dfExecutor", "dfLib", "workingDir", "computingNodes"]
  | multiNode => .closed [] [Name.computingNodes] ["computingNodes"]
  | container => .closed ["engine", "image"] [] []
  | implement => .closed ["source_class", "method"] [] ["sourceClass"]

/-- The steps to canonical arguments. -/
def steps : PrimaryKind → List Step
  | binary => [.workingDir, .failureText]
  | ompss => [.computingNodes, .workingDir, .failureText]
  | mpi => [.computingNodes, .workingDir, .failureText,
      .respelling "processes_per_node" "processesPerNode" (some (.int 1)),
      .respelling "scale_by_cu" "scaleByCU" (some (.bool false))]
  | compss => [.respelling "app_name" "appName" none,
      .respelling "worker_in_master" "workerInMaster" (some (.text "true")),
      .computingNodes, .workingDir, .failureText]
  | decaf => [.respelling "df_script" "dfScript" none, .respelling "df_executor" "dfExecutor" none,
      .respelling "df_lib" "dfLib" none, .filling Name.runner (.text "mpirun"),
      .computingNodes, .workingDir, .failureText]
  | multiNode => [.computingNodes]
  | container => []
  | implement => [.respelling "source_class" "sourceClass" none]

/-- The arguments that must be readable when the annotation is declared. -/
def reads : PrimaryKind → List Entry
  | binary => [.required Name.binary]
  | ompss => [.required Name.binary]
  | mpi => [.required Name.runner, .optional Name.binary]
  | compss => [.required "app_name"]
  | decaf => [.required "df_script"]
  | multiNode => []
  | container => [.required "engine", .required "image"]
  | implement => [.required "source_class", .required "method"]

/-- The layout of the type-arguments. -/
def layout : PrimaryKind → List Entry
  | binary => [.required Name.binary, .required Name.workingDir, .optional Name.params,
      .required Name.failByExitValue]
  | ompss => [.required Name.binary, .required Name.workingDir, .required Name.failByExitValue]
  | mpi => [.optional Name.binary, .required Name.workingDir, .required Name.runner,
      .required "processes_per_node", .optional Name.flags, .required "scale_by_cu",
      .optional Name.params, .required Name.failByExitValue]
  | compss => [.optional "runcompss", .optional Name.flags, .required "app_name",
      .required "worker_in_master", .required Name.workingDir, .required Name.failByExitValue]
  | decaf => [.required "df_script", .optional "df_executor", .optional "df_lib",
      .required Name.workingDir, .required Name.runner, .required Name.failByExitValue]
  | multiNode => []
  | container => [.required "engine", .required "image"] ++
      List.replicate 5 (.constant unassigned)
  | implement => [.required "source_class", .required "method"]

/-- The implementation signature. Binaries and applications are named behind the kind; where
nothing else is named, the decorated function is. -/
def signature (k : PrimaryKind) (a : Arguments) (f : Signature) :
    Except ConfigurationError String :=
  let behindKind (s : String) := k.implementation.name ++ "." ++ s
  match k with
  | binary | ompss => (a.requiredText Name.binary k.name).map behindKind
  | mpi =>
    if a.contains Name.binary then (a.requiredText Name.binary k.name).map behindKind
    else .ok (behindKind f.qualifiedName)
  | compss => (a.requiredText "app_name" k.name).map behindKind
  | decaf => (a.requiredText "df_script" k.name).map behindKind
  | multiNode => .ok f.qualifiedName
  | container => .ok (behindKind f.qualifiedName)
  | implement => do
    return (← a.requiredText "source_class" k.name) ++ "." ++ (← a.requiredText "method" k.name)

/-- Whether the number of computing nodes is handed to the call. -/
def injectsNodes : PrimaryKind → Bool
  | ompss | mpi | compss | decaf | multiNode => true
  | binary | container | implement => false

/-- Whether strings keep their marks inside the layer; for programs of their own they do not. -/
def keepsMarks : PrimaryKind → Bool
  | multiNode | implement => true
  | binary | ompss | mpi | compss | decaf | container => false

end PrimaryKind

/-- A primary annotation with canonical arguments. -/
structure Primary where
  kind : PrimaryKind
  arguments : Arguments

namespace Primary

/-- Declares a primary annotation: its arguments are checked, brought to their canonical
spellings, and those that name the implementation are read. -/
def declare (kind : PrimaryKind) (a : Arguments) : Except ConfigurationError Primary := do
  kind.rules.check a kind.name
  let a ← Step.runAll kind.name kind.steps a
  let _ ← kind.reads.mapM (·.read kind.name a)
  return ⟨kind, a⟩

/-- Writes the primary field-set. A type-argument without a spelling is reported before an
owner that is already there. -/
def write (p : Primary) (f : Signature) : Change ConfigurationError Element Unit := do
  let typeArguments ← Change.ofExcept (p.kind.layout.mapM (·.read p.kind.name p.arguments))
  let signature ← Change.ofExcept (p.kind.signature p.arguments f)
  Element.writeImplementation p.kind.name p.kind.implementation signature typeArguments

theorem write_atomic (p : Primary) (f : Signature) : (p.write f).Atomic := by
  refine Change.atomic_ofExcept_bind fun typeArguments => ?_
  refine Change.atomic_ofExcept_bind fun signature => ?_
  exact Element.writeImplementation_atomic _ _ _ _

end Primary

end TaskDecoration
