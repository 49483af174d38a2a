import TaskDecoration.Decoration
import TaskDecoration.Json.Decoder
import TaskDecoration.Text.Blank

/-!
# Declaring annotations

`DecorationType.declare` turns the arguments of an annotation into the annotation, or into the
reason why they are refused. A software annotation reads the file it names; which files there
are is a parameter.
-/

set_option autoImplicit false

namespace TaskDecoration

/-- The contents of the files that can be read. -/
abbrev Files := String → Option ByteArray

/-- What a software file says. -/
structure SoftwareFile where
  kind : String
  properties : Dict Value
  constraints : Option (Dict Value)
  prolog : Option (Dict Value)
  epilog : Option (Dict Value)

namespace SoftwareFile

/-- Only the type is mandatory. -/
def decoder : Json.Decoder SoftwareFile := fun depth t => do
  let object := Json.Decoder.dict .value
  let r ← Json.Record.ofTree? ["type", "properties", "constraints", "prolog", "epilog"] depth t
  return {
    kind := ← r.required "type" .text
    properties := ← r.withDefault "properties" .empty object
    constraints := ← r.withDefault "constraints" none object.option
    prolog := ← r.withDefault "prolog" none object.option
    epilog := ← r.withDefault "epilog" none object.option }

/-- The description in the bytes of a file. -/
def ofBytes? (bytes : ByteArray) : Option SoftwareFile := do
  Json.decode? decoder (← String.fromUTF8? bytes).toList

/-- The annotations a file can describe, by their lower-case names. -/
def kindOf? (name : String) : Option PrimaryKind :=
  match String.ofList (Text.lowerAscii name.toList) with
  | "mpi" => some .mpi
  | "binary" => some .binary
  | "ompss" => some .ompss
  | _ => none

/-- A hook that may be absent. -/
def declareHook (label : String) :
    Option (Dict Value) → Except ConfigurationError (Option DeclaredHook)
  | none => .ok none
  | some d => (DeclaredHook.declare label (.ofDict d)).map some

/-- Declares what the file describes. -/
def declare (file : SoftwareFile) : Except ConfigurationError Software := do
  let described ← match kindOf? file.kind with
    | some kind => Primary.declare kind (.ofDict file.properties)
    | none => .error (.unsupportedSoftware file.kind)
  let prolog ← declareHook Decoration.prologName file.prolog
  let epilog ← declareHook Decoration.epilogName file.epilog
  return ⟨described, file.constraints.getD .empty, prolog, epilog⟩

end SoftwareFile

/-- The types of annotations that are declared by arguments. -/
inductive DecorationType where
  | task
  | prolog
  | epilog
  | constraint
  | primary (kind : PrimaryKind)
  | software
deriving DecidableEq, Repr

namespace DecorationType

def name : DecorationType → String
  | task => Decoration.taskName
  | prolog => Decoration.prologName
  | epilog => Decoration.epilogName
  | constraint => Decoration.constraintName
  | primary kind => kind.name
  | software => Decoration.softwareName

def configFile : String := "config_file"

/-- The argument rules. -/
def rules : DecorationType → Rules
  | task => .closed [] TaskOptions.names []
  | prolog | epilog => DeclaredHook.rules
  | constraint => .all
  | primary kind => kind.rules
  | software => .closed [configFile] [] []

/-- The older spellings that are understood, each behind its canonical one. -/
def spellings : DecorationType → List (String × String)
  | primary kind => kind.steps.filterMap Step.spelling?
  | _ => []

/-- Declares a software annotation from the file that its argument names. -/
def declareSoftware (files : Files) (a : Arguments) : Except ConfigurationError Decoration := do
  software.rules.check a software.name
  let path ← a.requiredText configFile software.name
  match (files path).bind SoftwareFile.ofBytes? with
  | none => .error (.invalidConfigFile path)
  | some file => return .software a (← file.declare)

/-- Declares an annotation. -/
def declare (files : Files) (t : DecorationType) (a : Arguments) :
    Except ConfigurationError Decoration :=
  match t with
  | task => do
    task.rules.check a task.name
    return .task a (← TaskOptions.ofArguments task.name a)
  | prolog => (DeclaredHook.declare prolog.name a).map .prolog
  | epilog => (DeclaredHook.declare epilog.name a).map .epilog
  | constraint => do
    constraint.rules.check a constraint.name
    return .constraint a
  | primary kind => (Primary.declare kind a).map .primary
  | software => declareSoftware files a

end DecorationType

end TaskDecoration
