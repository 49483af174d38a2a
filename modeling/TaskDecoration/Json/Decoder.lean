import TaskDecoration.Json.Reader

/-!
# Decoding JSON trees

Decoders read typed data off a syntax tree, so that fields nobody asks for are not judged. They
follow the documented rules of derived decoders:

* a record is an object, whose unknown fields are passed over and whose known fields come once,
  or the list of its fields in the order of their declaration, with none beyond the last;
* a field of an optional type may be null, and may be left out of an object (not out of a list);
* a field with a default may be left out of either;
* a choice between names is the text of the name, or an object with that name as its only field
  and null in it; a choice that holds data is an object with the name as its only field;
* a list or an object of data is one level of nesting, and `depthLimit` bounds all of them.
-/

set_option autoImplicit false

namespace TaskDecoration.Json

/-- Reads a tree whose lists and objects may be nested so deep. -/
abbrev Decoder (α : Type) := Nat → Tree → Option α

namespace Decoder

def value : Decoder Value := fun depth t => t.value? depth

def text : Decoder String
  | _, .text s => s
  | _, _ => none

def bool : Decoder Bool
  | _, .bool b => some b
  | _, _ => none

/-- An unsigned word; a floating-point number is none. -/
def word : Decoder Nat
  | _, .number n => (n.map Value.number).bind Value.word?
  | _, _ => none

def list {α : Type} (d : Decoder α) : Decoder (List α)
  | depth + 1, .list items => items.mapM (d depth)
  | _, _ => none

/-- An object with arbitrary fields, the last of a name staying. -/
def dict {α : Type} (d : Decoder α) : Decoder (Dict α)
  | depth + 1, .object fields => do
    let fields ← Tree.readableFields? fields
    return .ofList (← fields.mapM fun f => (d depth f.2).map fun x => (f.1, x))
  | _, _ => none

/-- Null stands for nothing. -/
def option {α : Type} (d : Decoder α) : Decoder (Option α)
  | _, .null => some none
  | depth, t => (d depth t).map some

/-- One of several names: its text, or an object with that field alone, which is null. -/
def oneOf {α : Type} (named? : String → Option α) : Decoder α
  | _, .text (some s) => named? s
  | _ + 1, .object [(some s, .null)] => named? s
  | _, _ => none

/-- An object with a single field, whose name says what it holds. -/
def variant {α : Type} (named? : String → Option (Decoder α)) : Decoder α
  | depth + 1, .object [(some s, t)] => (named? s).bind fun d => d depth t
  | _, _ => none

end Decoder

/-- The fields of a record that are present. -/
structure Record where
  depth : Nat
  /-- Whether the record is written as a list. -/
  asList : Bool
  fields : List (String × Tree)

namespace Record

/-- The record with the given field names that a tree writes. -/
def ofTree? (names : List String) : Nat → Tree → Option Record
  | depth + 1, .object fields => do
    let fields ← Tree.readableFields? fields
    let known := fields.filter fun f => names.contains f.1
    if (known.map (·.1)).Nodup then some ⟨depth, false, known⟩ else none
  | depth + 1, .list items =>
    if items.length ≤ names.length then some ⟨depth, true, names.zip items⟩ else none
  | _, _ => none

def field? (r : Record) (name : String) : Option Tree := r.fields.lookup name

variable {α : Type}

/-- A field that must be there. -/
def required (r : Record) (name : String) (d : Decoder α) : Option α :=
  (r.field? name).bind (d r.depth)

/-- A field that may be null, and may be left out of an object. -/
def optional (r : Record) (name : String) (d : Decoder α) : Option (Option α) :=
  match r.field? name with
  | some t => d.option r.depth t
  | none => if r.asList then none else some none

/-- A field that may be left out. -/
def withDefault (r : Record) (name : String) (fallback : α) (d : Decoder α) : Option α :=
  match r.field? name with
  | some t => d r.depth t
  | none => some fallback

end Record

/-- Decodes a JSON text. -/
def decode? {α : Type} (d : Decoder α) (cs : List Char) : Option α := do
  d depthLimit (← Tree.parse? cs)

end TaskDecoration.Json
