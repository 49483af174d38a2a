import Mathlib.Data.List.Induction
import TaskDecoration.Transformation.Apply

/-!
# Slots

Where the value of a parameter stands among the arguments of a call. Writing a slot that is there
changes that slot only (`Arguments.slot?_set`), and different parameters of a signature stand in
different slots (`locate_injective`). The index of a signature finds the last parameter of each name
(`position?_eq_some_iff`), so no two names have one position.
-/

set_option autoImplicit false

namespace TaskDecoration

/-- The last parameter of the name `name` is `p`, at position `i`. -/
structure LastAt (ps : List Parameter) (name : String) (i : Nat) (p : Parameter) : Prop where
  found : ps[i]? = some p
  named : p.name = name
  last : ∀ j q, i < j → ps[j]? = some q → q.name ≠ name

namespace LastAt

variable {ps : List Parameter} {p q : Parameter} {name : String} {i : Nat}

/-- A parameter at the end is the last one of its name. -/
theorem snoc_self (ps : List Parameter) (p : Parameter) :
    LastAt (ps ++ [p]) p.name ps.length p where
  found := List.getElem?_concat_length
  named := rfl
  last := by
    intro j q behind found
    rw [List.getElem?_eq_none (by simp; omega)] at found
    cases found

theorem snoc_other (other : p.name ≠ name) : LastAt (ps ++ [p]) name i q ↔ LastAt ps name i q := by
  have within {j : Nat} {r : Parameter} (found : (ps ++ [p])[j]? = some r) (named : r.name = name) :
      ps[j]? = some r := by
    rw [List.getElem?_append] at found
    split at found
    · exact found
    · obtain rfl := List.mem_singleton.mp (List.mem_of_getElem? found)
      exact absurd named other
  have extend {j : Nat} {r : Parameter} (found : ps[j]? = some r) : (ps ++ [p])[j]? = some r := by
    rw [List.getElem?_append_left (List.getElem?_eq_some_iff.mp found).1]
    exact found
  constructor
  · intro lastAt
    exact ⟨within lastAt.found lastAt.named, lastAt.named,
      fun j r behind found => lastAt.last j r behind (extend found)⟩
  · intro lastAt
    refine ⟨extend lastAt.found, lastAt.named, fun j r behind found named => ?_⟩
    exact lastAt.last j r behind (within found named) named

theorem unique {i j : Nat} (first : LastAt ps name i p) (second : LastAt ps name j q) :
    i = j ∧ p = q := by
  have same : i = j := by
    rcases Nat.lt_trichotomy i j with before | same | behind
    · exact absurd second.named (first.last j q before second.found)
    · exact same
    · exact absurd first.named (second.last i p behind first.found)
  subst same
  exact ⟨rfl, Option.some.inj (first.found.symm.trans second.found)⟩

end LastAt

namespace Signature

/-- The index of a signature is that of its parameters. -/
def Indexed (f : Signature) : Prop := f.index = indexFrom 0 f.parameters .empty

theorem indexed_ofParameters (moduleName name : String) (ps : List Parameter) :
    (ofParameters moduleName name ps).Indexed := rfl

theorem indexFrom_append (ps : List Parameter) (p : Parameter) (i : Nat) (index : Dict Nat) :
    indexFrom i (ps ++ [p]) index = (indexFrom i ps index).insert p.name (i + ps.length) := by
  induction ps generalizing i index with
  | nil => rfl
  | cons q ps ih =>
    change indexFrom (i + 1) (ps ++ [p]) (index.insert q.name i) = _
    rw [ih, List.length_cons, Nat.add_assoc, Nat.add_comm 1]
    rfl

theorem indexed_push {f : Signature} (indexed : f.Indexed) (p : Parameter) :
    (f.push p).Indexed := by
  unfold Indexed push
  dsimp only
  rw [indexFrom_append, ← indexed, Nat.zero_add]

/-- The index of a list finds the last parameter of each name. -/
theorem get?_indexFrom_eq_some_iff {ps : List Parameter} {name : String} {i : Nat} :
    (indexFrom 0 ps .empty).get? name = some i ↔ ∃ p, LastAt ps name i p := by
  induction ps using List.reverseRecOn with
  | nil =>
    refine iff_of_false (by simp [indexFrom]) ?_
    rintro ⟨p, lastAt⟩
    cases lastAt.found
  | append_singleton ps p ih =>
    rw [indexFrom_append, Dict.get?_insert, Nat.zero_add]
    by_cases same : name = p.name
    · subst same
      rw [if_pos rfl]
      constructor
      · rintro ⟨⟩
        exact ⟨p, .snoc_self ps p⟩
      · rintro ⟨q, lastAt⟩
        rw [(LastAt.snoc_self ps p).unique lastAt |>.1]
    · rw [if_neg same, ih]
      simp only [LastAt.snoc_other (Ne.symm same)]

theorem position?_eq_some_iff {f : Signature} (indexed : f.Indexed) {name : String} {i : Nat} :
    f.position? name = some i ↔ ∃ p, LastAt f.parameters name i p := by
  rw [position?, indexed]
  exact get?_indexFrom_eq_some_iff

theorem position_injective {f : Signature} (indexed : f.Indexed) {p q : String} {i : Nat}
    (hp : f.position? p = some i) (hq : f.position? q = some i) : p = q := by
  obtain ⟨x, first⟩ := (position?_eq_some_iff indexed).mp hp
  obtain ⟨y, second⟩ := (position?_eq_some_iff indexed).mp hq
  obtain rfl := Option.some.inj (first.found.symm.trans second.found)
  exact first.named.symm.trans second.named

end Signature

namespace Arguments

/-- Keyword slots can always be written; positional ones are there or not. -/
def Within (a : Arguments) : Slot → Prop
  | .positional i => i < a.positional.length
  | .keyword _ => True

theorem setPositional_eq_set (v : Value) {i : Nat} {xs : List Value} (h : i < xs.length) :
    setPositional v i xs = xs.set i v := by
  induction xs generalizing i with
  | nil => cases h
  | cons x xs ih =>
    cases i with
    | zero => rfl
    | succ i => exact congrArg (x :: ·) (ih (Nat.lt_of_succ_lt_succ h))

theorem slot?_insert (a : Arguments) (name : String) (v : Value) (s : Slot) :
    (a.insert name v).slot? s = if s = .keyword name then some v else a.slot? s := by
  cases s with
  | positional i => rw [if_neg (by simp)]; rfl
  | keyword k =>
    change (a.keyword.insert name v).get? k = _
    rw [Dict.get?_insert]
    by_cases same : k = name
    · rw [if_pos same, if_pos (congrArg Slot.keyword same)]
    · rw [if_neg same, if_neg (fun h => same (Slot.keyword.inj h))]
      rfl

/-- Writing a slot changes that slot only. -/
theorem slot?_set {a : Arguments} {s : Slot} (within : a.Within s) (v : Value) (t : Slot) :
    (a.set s v).slot? t = if t = s then some v else a.slot? t := by
  cases s with
  | keyword name => exact a.slot?_insert name v t
  | positional i =>
    have written : (a.set (.positional i) v).positional = a.positional.set i v :=
      setPositional_eq_set v within
    cases t with
    | keyword name => rw [if_neg (by simp)]; rfl
    | positional j =>
      change (a.set (.positional i) v).positional[j]? = _
      rw [written, List.getElem?_set]
      by_cases same : i = j
      · subst same
        rw [if_pos rfl, if_pos rfl]
        exact if_pos within
      · rw [if_neg same, if_neg (fun h => same (Slot.positional.inj h).symm)]
        rfl

theorem length_set {a : Arguments} {s : Slot} (within : a.Within s) (v : Value) :
    (a.set s v).positional.length = a.positional.length := by
  cases s with
  | keyword name => rfl
  | positional i =>
    change (setPositional v i a.positional).length = _
    rw [setPositional_eq_set v within, List.length_set]

/-- Arguments are what stands in their slots. -/
theorem ext_slot {a b : Arguments} (h : ∀ s, a.slot? s = b.slot? s) : a = b := by
  have positional : a.positional = b.positional := List.ext_getElem? fun i => h (.positional i)
  have keyword : a.keyword = b.keyword := Dict.ext fun k => h (.keyword k)
  cases a
  cases b
  cases positional
  cases keyword
  rfl

/-- The slot of a parameter: that of its keyword argument if there is one, that of its position
if so many arguments are given, and else that of a keyword argument to be. -/
def home (a : Arguments) (f : Signature) (parameter : String) : Slot :=
  if a.contains parameter then .keyword parameter
  else match f.position? parameter with
    | some i => if i < a.positional.length then .positional i else .keyword parameter
    | none => .keyword parameter

/-- The value of a parameter: what stands in its slot, else its default, else null. -/
def valueOf (a : Arguments) (f : Signature) (parameter : String) : Value :=
  (a.slot? (a.home f parameter)).getD ((f.default? parameter).getD .null)

end Arguments

section Locating

variable {a b : Arguments} {f : Signature} {p q : String} {s : Slot} {v w : Value}

theorem Arguments.contains_of_get? {x : Value} (h : a.get? p = some x) : a.contains p = true := by
  unfold contains Dict.contains
  rw [show a.keyword.get? p = some x from h]
  rfl

theorem Arguments.not_contains_of_get? (h : a.get? p = none) : ¬ a.contains p = true := by
  unfold contains Dict.contains
  rw [show a.keyword.get? p = none from h]
  exact Bool.false_ne_true

/-- A parameter is found in its slot with its value. -/
theorem locate_ok (h : locate a f p = .ok (s, v)) : s = a.home f p ∧ v = a.valueOf f p := by
  unfold locate at h
  unfold Arguments.valueOf
  cases keyword : a.get? p with
  | some x =>
    have home : a.home f p = .keyword p := if_pos (Arguments.contains_of_get? keyword)
    rw [keyword] at h
    cases h
    rw [home, Arguments.slot?, keyword]
    exact ⟨rfl, rfl⟩
  | none =>
    have home : a.home f p = _ := if_neg (Arguments.not_contains_of_get? keyword)
    rw [keyword] at h
    cases position : f.position? p with
    | none =>
      rw [position] at h
      cases h
    | some i =>
      rw [position] at h home
      dsimp only at h home
      cases given : a.positional[i]? with
      | some x =>
        rw [given] at h
        cases h
        rw [if_pos (List.getElem?_eq_some_iff.mp given).1] at home
        rw [home, Arguments.slot?, given]
        exact ⟨rfl, rfl⟩
      | none =>
        rw [given] at h
        cases h
        rw [if_neg (Nat.not_lt.mpr (List.getElem?_eq_none_iff.mp given))] at home
        rw [home, Arguments.slot?, keyword]
        exact ⟨rfl, rfl⟩

theorem locate_within (h : locate a f p = .ok (s, v)) : a.Within s := by
  obtain ⟨rfl, -⟩ := locate_ok h
  unfold Arguments.home
  split
  · trivial
  · split
    · split
      · next given => exact given
      · trivial
    · trivial

theorem locate_keyword {name : String} (h : locate a f p = .ok (.keyword name, v)) :
    name = p := by
  obtain ⟨home, -⟩ := locate_ok h
  unfold Arguments.home at home
  split at home
  · exact Slot.keyword.inj home
  · split at home
    · split at home
      · cases home
      · exact Slot.keyword.inj home
    · exact Slot.keyword.inj home

theorem locate_positional {i : Nat} (h : locate a f p = .ok (.positional i, v)) :
    f.position? p = some i := by
  obtain ⟨home, -⟩ := locate_ok h
  unfold Arguments.home at home
  split at home
  · cases home
  · split at home
    · next j position =>
      split at home
      · rw [position, Slot.positional.inj home]
      · cases home
    · cases home

/-- Different parameters stand in different slots. -/
theorem locate_injective (indexed : f.Indexed) (hp : locate a f p = .ok (s, v))
    (hq : locate a f q = .ok (s, w)) : p = q := by
  cases s with
  | keyword name => rw [← locate_keyword hp, locate_keyword hq]
  | positional i =>
    exact Signature.position_injective indexed (locate_positional hp) (locate_positional hq)

/-- Where a parameter stands depends on the slots in which it can stand. -/
theorem locate_congr (keyword : a.slot? (.keyword p) = b.slot? (.keyword p))
    (positional : ∀ i, f.position? p = some i → a.slot? (.positional i) = b.slot? (.positional i)) :
    locate a f p = locate b f p := by
  unfold locate
  have keyword' : a.get? p = b.get? p := keyword
  rw [keyword']
  cases b.get? p with
  | some x => rfl
  | none =>
    cases position : f.position? p with
    | none => rfl
    | some i =>
      have positional' : a.positional[i]? = b.positional[i]? := positional i position
      dsimp only
      rw [positional']

end Locating

end TaskDecoration
