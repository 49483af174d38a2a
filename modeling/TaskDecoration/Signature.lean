import TaskDecoration.Value

/-!
# Function signatures

A signature names a function and lists its parameters. An index from names to positions is kept
beside the list; where a name is repeated, it finds the last parameter of that name. A signature
is built at once (`ofParameters`) or parameter by parameter (`param`, `paramWithDefault`).
-/

set_option autoImplicit false

namespace TaskDecoration

/-- A declared parameter, with the value it has when no argument is given for it. -/
structure Parameter where
  name : String
  default? : Option Value

/-- The external signature of a function. -/
structure Signature where
  moduleName : String
  name : String
  parameters : List Parameter
  index : Dict Nat

namespace Signature

/-- The index of a parameter list whose first parameter is at position `i`. -/
def indexFrom (i : Nat) : List Parameter → Dict Nat → Dict Nat
  | [], index => index
  | p :: ps, index => indexFrom (i + 1) ps (index.insert p.name i)

/-- The signature with the given parameters. -/
def ofParameters (moduleName name : String) (parameters : List Parameter) : Signature :=
  ⟨moduleName, name, parameters, indexFrom 0 parameters .empty⟩

/-- The signature of a function without parameters. -/
def nullary (moduleName name : String) : Signature := ofParameters moduleName name []

/-- Adds a parameter at the end. -/
def push (s : Signature) (p : Parameter) : Signature :=
  { s with
    parameters := s.parameters ++ [p]
    index := s.index.insert p.name s.parameters.length }

/-- Adds a parameter without a default. -/
def param (s : Signature) (name : String) : Signature := s.push ⟨name, none⟩

/-- Adds a parameter with a default. -/
def paramWithDefault (s : Signature) (name : String) (default : Value) : Signature :=
  s.push ⟨name, some default⟩

/-- The name of the function within its module. -/
def qualifiedName (s : Signature) : String := s.moduleName ++ "." ++ s.name

/-- The position of a parameter. -/
def position? (s : Signature) (name : String) : Option Nat := s.index.get? name

/-- The parameter of a name. -/
def parameter? (s : Signature) (name : String) : Option Parameter :=
  (s.position? name).bind (s.parameters[·]?)

/-- The default of a parameter. -/
def default? (s : Signature) (name : String) : Option Value :=
  (s.parameter? name).bind Parameter.default?

/-- Equality of signatures, defaults compared by `Value.same`. -/
def same (s t : Signature) : Bool :=
  s.moduleName == t.moduleName && s.name == t.name &&
    sameParameters s.parameters t.parameters && s.index == t.index
where
  sameParameters : List Parameter → List Parameter → Bool
    | [], [] => true
    | p :: ps, q :: qs =>
      p.name == q.name && sameDefault p.default? q.default? && sameParameters ps qs
    | _, _ => false
  sameDefault : Option Value → Option Value → Bool
    | none, none => true
    | some v, some w => v.same w
    | _, _ => false

end Signature

end TaskDecoration
