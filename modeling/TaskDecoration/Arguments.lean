import TaskDecoration.Value

/-!
# Arguments

Positional and keyword arguments, of a call as well as of an annotation. A `Slot` addresses one
of them.
-/

set_option autoImplicit false

namespace TaskDecoration

/-- Positional and keyword arguments. -/
structure Arguments where
  positional : List Value
  keyword : Dict Value

/-- The place of one argument. -/
inductive Slot where
  | positional (index : Nat)
  | keyword (name : String)
deriving DecidableEq, Repr

namespace Arguments

/-- No arguments. -/
def empty : Arguments := ⟨[], .empty⟩

instance : Inhabited Arguments := ⟨empty⟩
instance : EmptyCollection Arguments := ⟨empty⟩

/-- Keyword arguments only. -/
def ofDict (d : Dict Value) : Arguments := ⟨[], d⟩

/-- The fields of an object are keyword arguments, the items of a list positional ones; null
stands for no arguments, and any other value for a single positional one. -/
def ofValue : Value → Arguments
  | .object fields => ofDict (.ofList fields)
  | .list items => ⟨items, .empty⟩
  | .null => empty
  | v => ⟨[v], .empty⟩

/-- Appends a positional argument. -/
def push (a : Arguments) (v : Value) : Arguments := { a with positional := a.positional ++ [v] }

/-- The keyword argument of a name. -/
def get? (a : Arguments) (name : String) : Option Value := a.keyword.get? name

def contains (a : Arguments) (name : String) : Bool := a.keyword.contains name

/-- Gives a keyword argument its value. -/
def insert (a : Arguments) (name : String) (v : Value) : Arguments :=
  { a with keyword := a.keyword.insert name v }

/-- Takes a keyword argument out. -/
def erase (a : Arguments) (name : String) : Arguments :=
  { a with keyword := a.keyword.erase name }

/-- The value in a slot. -/
def slot? (a : Arguments) : Slot → Option Value
  | .positional i => a.positional[i]?
  | .keyword name => a.get? name

/-- Puts `v` at index `i`, after as many nulls as it takes to get there. -/
def setPositional (v : Value) : Nat → List Value → List Value
  | 0, [] => [v]
  | 0, _ :: xs => v :: xs
  | i + 1, [] => .null :: setPositional v i []
  | i + 1, x :: xs => x :: setPositional v i xs

/-- Writes a slot. -/
def set (a : Arguments) (s : Slot) (v : Value) : Arguments :=
  match s with
  | .positional i => { a with positional := setPositional v i a.positional }
  | .keyword name => a.insert name v

/-- The fields of the receiver: the first positional argument, when it is an object. -/
def receiver? (a : Arguments) : Option (List (String × Value)) :=
  a.positional.head?.bind Value.fields?

/-- Equality of arguments, values compared by `Value.same`. -/
def same (a b : Arguments) : Bool :=
  Value.sameItems a.positional b.positional && Value.sameDict a.keyword b.keyword

/-- The spelling of a keyword argument. -/
def spelling? (a : Arguments) (name : String) : Option String :=
  (a.get? name).bind Value.spelling?

end Arguments

end TaskDecoration
