import TaskDecoration.Decoration.Options
import TaskDecoration.Call
import TaskDecoration.Hook.Sample
import TaskDecoration.Json.Decoder
import TaskDecoration.Json.Printer
import TaskDecoration.Session

/-!
# Encodings

How settings, arguments, signatures and descriptors are written as JSON values, and how they are
read back. The encodings are derived from the data types, by the documented rules of derived
encodings: a record is an object with all of its fields under their names, an absent field of an
optional type is null, a choice without data is the text of its name, and a choice with data an
object that has the name as its only field. What reading accepts beyond this is said in
`Json.Decoder`.

So a parameter that declares null as its default is written like one that declares none, and is
read back as the latter. An identifier is written in lower case with hyphens, and is read in the
four documented spellings of its kind: without hyphens, with hyphens, in braces, or behind a
prefix.
-/

set_option autoImplicit false

namespace TaskDecoration

open Json (Decoder Record)

/-- An object with the given fields. -/
def Value.record (fields : List (String × Value)) : Value := .ofDict (.ofList fields)

namespace Scope

def encode (s : Scope) : Value := .text s.name

def ofName? (name : String) : Option Scope := [outOfScope, master, worker].find? (·.name == name)

def decoder : Decoder Scope := .oneOf ofName?

end Scope

namespace Context

def encode (c : Context) : Value :=
  .record [("scope", c.scope.encode), ("nesting", .bool c.nesting)]

def decoder : Decoder Context := fun depth t => do
  let r ← Record.ofTree? ["scope", "nesting"] depth t
  return ⟨← r.required "scope" Scope.decoder, ← r.required "nesting" .bool⟩

end Context

namespace Settings

def encode (s : Settings) : Value :=
  .record [("scope", s.scope.encode), ("nesting", .bool s.nesting), ("run_hooks", .bool s.runHooks),
    ("max_computing_units", .ofOption .nat s.maxComputingUnits)]

/-- Every setting has a default. -/
def decoder : Decoder Settings := fun depth t => do
  let r ← Record.ofTree? ["scope", "nesting", "run_hooks", "max_computing_units"] depth t
  return ⟨← r.withDefault "scope" default.scope Scope.decoder,
    ← r.withDefault "nesting" default.nesting .bool,
    ← r.withDefault "run_hooks" default.runHooks .bool,
    ← r.withDefault "max_computing_units" default.maxComputingUnits (.option .word)⟩

/-- The settings in the bytes of a file, absent when it does not decode; the reason is left out. -/
def ofBytes? (bytes : ByteArray) : Option Settings := do
  Json.decode? decoder (← String.fromUTF8? bytes).toList

end Settings

namespace Arguments

def encode (a : Arguments) : Value :=
  .record [("positional", .list a.positional), ("keyword", .ofDict a.keyword)]

def decoder : Decoder Arguments := fun depth t => do
  let r ← Record.ofTree? ["positional", "keyword"] depth t
  return ⟨← r.required "positional" (.list .value), ← r.required "keyword" (.dict .value)⟩

end Arguments

namespace Slot

def encode : Slot → Value
  | positional i => .record [("Positional", .nat i)]
  | keyword name => .record [("Keyword", .text name)]

def decoder : Decoder Slot :=
  .variant fun
    | "Positional" => some fun depth t => (Decoder.word depth t).map positional
    | "Keyword" => some fun depth t => (Decoder.text depth t).map keyword
    | _ => none

end Slot

namespace Parameter

def encode (p : Parameter) : Value :=
  .record [("name", .text p.name), ("default", .ofOption id p.default?)]

/-- A default that is null is no default. -/
def decoder : Decoder Parameter := fun depth t => do
  let r ← Record.ofTree? ["name", "default"] depth t
  return ⟨← r.required "name" .text, ← r.optional "default" .value⟩

end Parameter

namespace Signature

def encode (s : Signature) : Value :=
  .record [("module", .text s.moduleName), ("name", .text s.name),
    ("parameters", .list (s.parameters.map Parameter.encode))]

def decoder : Decoder Signature := fun depth t => do
  let r ← Record.ofTree? ["module", "name", "parameters"] depth t
  return .ofParameters (← r.required "module" .text) (← r.required "name" .text)
    (← r.required "parameters" (.list Parameter.decoder))

end Signature

namespace Hook

def encode (h : Hook) : Value :=
  .record [("binary", .text h.binary), ("params", .text h.params),
    ("fail_by_exit_value", .text h.failByExitValue)]

def decoder : Decoder Hook := fun depth t => do
  let r ← Record.ofTree? ["binary", "params", "fail_by_exit_value"] depth t
  return ⟨← r.required "binary" .text, ← r.required "params" .text,
    ← r.required "fail_by_exit_value" .text⟩

end Hook

namespace ImplementationKind

def encode (k : ImplementationKind) : Value := .text k.name

def decoder : Decoder ImplementationKind := .oneOf ofName?

end ImplementationKind

/-- The identifier of a stored descriptor: 32 hexadecimal digits. -/
structure Identifier where
  digits : List Nat
deriving DecidableEq, Repr

namespace Identifier

/-- The lengths of the groups between the hyphens. -/
def groups : List Nat := [8, 4, 4, 4, 12]

/-- Digits in groups, joined by hyphens. -/
def hyphenate : List Nat → List Char → List Char
  | [], _ => []
  | [n], cs => cs.take n
  | n :: ns, cs => cs.take n ++ '-' :: hyphenate ns (cs.drop n)

/-- The digits of groups that are joined by hyphens. -/
def ungroup? : List Nat → List Char → Option (List Char)
  | [], cs => if cs.isEmpty then some [] else none
  | [n], cs => if cs.length = n then some cs else none
  | n :: ns, cs => match cs.drop n with
    | '-' :: rest => (ungroup? ns rest).map (cs.take n ++ ·)
    | _ => none

/-- The canonical spelling: lower case, with hyphens. -/
def chars (i : Identifier) : List Char := hyphenate groups (i.digits.map Json.hexChar)

/-- The characters without a spelling's braces or prefix. -/
def strip (cs : List Char) : List Char :=
  let name := "urn:uuid:".toList
  if cs.length = 38 ∧ cs.head? = some '{' ∧ cs.getLast? = some '}' then cs.tail.dropLast
  else if cs.length = 45 ∧ Text.lowerAscii (cs.take 9) = name then cs.drop 9
  else cs

/-- The identifier a text spells, with or without hyphens; the hyphenated one may be in braces
or behind `urn:uuid:` in letters of any case. -/
def parse? (cs : List Char) : Option Identifier := do
  let digits ← if cs.length = 32 then some cs else ungroup? groups (strip cs)
  return ⟨← digits.mapM Json.hexValue?⟩

def encode (i : Identifier) : Value := .text (String.ofList i.chars)

def decoder : Decoder Identifier := fun depth t => (Decoder.text depth t).bind (parse? ·.toList)

end Identifier

namespace Element

def fields (e : Element) : List (String × Value) :=
  [("impl_kind", .ofOption ImplementationKind.encode e.kind),
    ("impl_signature", .ofOption .text e.signature),
    ("impl_type_args", .ofTexts e.typeArguments),
    ("prolog", .ofOption Hook.encode e.prolog),
    ("epilog", .ofOption Hook.encode e.epilog),
    ("constraints", .ofDict e.constraints),
    ("workflow", .bool e.workflow),
    ("primary_owner", .ofOption .text e.owner)]

end Element

/-- A descriptor in storage, with its identifier. -/
structure StoredElement where
  id : Identifier
  element : Element

namespace StoredElement

def encode (e : StoredElement) : Value := .record (("id", e.id.encode) :: e.element.fields)

def decoder : Decoder StoredElement := fun depth t => do
  let r ← Record.ofTree? ["id", "impl_kind", "impl_signature", "impl_type_args", "prolog",
    "epilog", "constraints", "workflow", "primary_owner"] depth t
  return ⟨← r.required "id" Identifier.decoder, {
    kind := ← r.optional "impl_kind" ImplementationKind.decoder
    signature := ← r.optional "impl_signature" .text
    typeArguments := ← r.required "impl_type_args" (.list .text)
    prolog := ← r.optional "prolog" Hook.decoder
    epilog := ← r.optional "epilog" Hook.decoder
    constraints := ← r.required "constraints" (.dict .value)
    workflow := ← r.required "workflow" .bool
    owner := ← r.optional "primary_owner" .text }⟩

end StoredElement

namespace TaskOptions

def encode (o : TaskOptions) : Value :=
  .record [("returns", o.returns), ("priority", .bool o.priority), ("time_out", .nat o.timeOut),
    ("on_failure", .text o.onFailure), ("is_replicated", .bool o.isReplicated),
    ("is_distributed", .bool o.isDistributed), ("is_reduce", .bool o.isReduce),
    ("chunk_size", .nat o.chunkSize), ("computing_nodes", o.computingNodes),
    ("is_workflow", .bool o.isWorkflow)]

def decoder : Decoder TaskOptions := fun depth t => do
  let r ← Record.ofTree? names depth t
  return {
    returns := ← r.required "returns" .value
    priority := ← r.required "priority" .bool
    timeOut := ← r.required "time_out" .word
    onFailure := ← r.required "on_failure" .text
    isReplicated := ← r.required "is_replicated" .bool
    isDistributed := ← r.required "is_distributed" .bool
    isReduce := ← r.required "is_reduce" .bool
    chunkSize := ← r.required "chunk_size" .word
    computingNodes := ← r.required "computing_nodes" .value
    isWorkflow := ← r.required "is_workflow" .bool }

end TaskOptions

end TaskDecoration
