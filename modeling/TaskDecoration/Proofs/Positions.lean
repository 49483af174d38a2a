import TaskDecoration.Proofs.Location

/-!
# What the index of a signature finds

The index beside the parameters of a signature is kept up by every way to come by a signature, of
which some set it up at once and others name by name (`Made.indexed`). It says for each name where the
last parameter of that name stands (`position?_eq_some_iff`), so that looking a parameter up never
points behind the last one, and finds what there is to find (`Accurate`).
-/

set_option autoImplicit false

namespace TaskDecoration

namespace Signature

/-- The ways to come by a signature. -/
inductive Made : Signature → Prop where
  | nullary (moduleName name : String) : Made (nullary moduleName name)
  | ofParameters (moduleName name : String) (ps : List Parameter) :
      Made (ofParameters moduleName name ps)
  | param {s : Signature} (made : Made s) (name : String) : Made (s.param name)
  | paramWithDefault {s : Signature} (made : Made s) (name : String) (default : Value) :
      Made (s.paramWithDefault name default)
  | parse {text : String} {s : Signature} (parsed : parse text = .ok s) : Made s
  | decode {depth : Nat} {t : Json.Tree} {s : Signature} (decoded : decoder depth t = some s) : Made s

variable {s : Signature}

theorem indexed_of_decoder {depth : Nat} {t : Json.Tree} (decoded : decoder depth t = some s) :
    s.Indexed := by
  obtain ⟨r, -, decoded⟩ := Option.bind_eq_some_iff.mp decoded
  obtain ⟨moduleName, -, decoded⟩ := Option.bind_eq_some_iff.mp decoded
  obtain ⟨name, -, decoded⟩ := Option.bind_eq_some_iff.mp decoded
  obtain ⟨ps, -, decoded⟩ := Option.bind_eq_some_iff.mp decoded
  cases decoded
  exact indexed_ofParameters moduleName name ps

theorem Made.indexed (made : s.Made) : s.Indexed := by
  induction made with
  | nullary moduleName name => exact indexed_ofParameters moduleName name []
  | ofParameters moduleName name ps => exact indexed_ofParameters moduleName name ps
  | param _ name ih => exact indexed_push ih ⟨name, none⟩
  | paramWithDefault _ name default ih => exact indexed_push ih ⟨name, some default⟩
  | parse parsed =>
    obtain ⟨moduleName, name, inside, rfl⟩ := eq_of_parse parsed
    exact indexed_ofParameters moduleName name _
  | decode decoded => exact indexed_of_decoder decoded

/-- Adds a parameter with what is there to add one. -/
def declare (s : Signature) (p : Parameter) : Signature :=
  match p.default? with
  | none => s.param p.name
  | some default => s.paramWithDefault p.name default

theorem declare_eq_push (s : Signature) (p : Parameter) : s.declare p = s.push p := by
  obtain ⟨name, default⟩ := p
  cases default with
  | none => rfl
  | some default => rfl

/-- Parameters can be added one by one. -/
theorem foldl_declare (moduleName name : String) (ps : List Parameter) :
    ps.foldl declare (nullary moduleName name) = ofParameters moduleName name ps := by
  have pushes : declare = push := funext fun s => funext fun p => s.declare_eq_push p
  have built := foldl_push id ps moduleName name []
  rw [List.map_id, List.nil_append] at built
  rw [pushes]
  exact built

/-- What is looked up by a name is the last parameter of that name, and its default. -/
structure Accurate (s : Signature) : Prop where
  position : ∀ name i, s.position? name = some i ↔ ∃ p, LastAt s.parameters name i p
  absent : ∀ name, s.position? name = none ↔ ∀ p ∈ s.parameters, p.name ≠ name
  inBounds : ∀ name i, s.position? name = some i → i < s.parameters.length
  parameter : ∀ name p, s.parameter? name = some p ↔ ∃ i, LastAt s.parameters name i p
  default : ∀ name v, s.default? name = some v ↔
    ∃ i p, LastAt s.parameters name i p ∧ p.default? = some v
  distinct : ∀ name other i, s.position? name = some i → s.position? other = some i → name = other
  rebuilt : s = ofParameters s.moduleName s.name s.parameters

theorem accurate_of_indexed (indexed : s.Indexed) : s.Accurate := by
  have position (name : String) (i : Nat) :
      s.position? name = some i ↔ ∃ p, LastAt s.parameters name i p :=
    position?_eq_some_iff indexed
  have parameter (name : String) (p : Parameter) :
      s.parameter? name = some p ↔ ∃ i, LastAt s.parameters name i p := by
    constructor
    · intro found
      obtain ⟨i, placed, found⟩ := Option.bind_eq_some_iff.mp found
      obtain ⟨q, lastAt⟩ := (position name i).mp placed
      obtain rfl := Option.some.inj (lastAt.found.symm.trans found)
      exact ⟨i, lastAt⟩
    · rintro ⟨i, lastAt⟩
      exact Option.bind_eq_some_iff.mpr ⟨i, (position name i).mpr ⟨p, lastAt⟩, lastAt.found⟩
  exact {
    position
    parameter
    absent := by
      intro name
      rw [← Option.not_isSome_iff_eq_none, position?_isSome_iff indexed]
      simp [Declares]
    inBounds := by
      intro name i placed
      obtain ⟨p, lastAt⟩ := (position name i).mp placed
      exact (List.getElem?_eq_some_iff.mp lastAt.found).1
    default := by
      intro name v
      rw [default?, Option.bind_eq_some_iff]
      simp only [parameter, ← exists_and_right]
      exact exists_comm
    distinct := fun name other i => position_injective indexed
    rebuilt := by rw [ofParameters, ← indexed] }

/-- However a signature is come by, also with names that are repeated, its index is right. And it makes
no difference whether parameters are given at once or one by one. -/
theorem made_accurate :
    (∀ s, Made s → s.Accurate) ∧
      ∀ (moduleName name : String) (ps : List Parameter),
        ps.foldl declare (nullary moduleName name) = ofParameters moduleName name ps :=
  ⟨fun _ made => accurate_of_indexed made.indexed, foldl_declare⟩

/-- A parameter is declared again, with a default: from then on, this is the one that is found. -/
theorem made_accurate_repeated :
    let s := (((nullary "m" "f").param "a").paramWithDefault "b" .null).paramWithDefault "a" (.int 1)
    s.Made ∧ (∃ p, LastAt s.parameters "a" 2 p) ∧ s.position? "c" = none ∧
      s = ofParameters "m" "f" [⟨"a", none⟩, ⟨"b", some .null⟩, ⟨"a", some (.int 1)⟩] := by
  intro s
  have made : s.Made := .paramWithDefault (.paramWithDefault (.param (.nullary "m" "f") "a") "b" _) "a" _
  have accurate := made_accurate.1 s made
  refine ⟨made, (accurate.position "a" 2).mp (by decide +kernel), (accurate.absent "c").mpr ?_,
    accurate.rebuilt⟩
  simp [s, paramWithDefault, param, push, nullary, ofParameters]

end Signature

end TaskDecoration
