import TaskDecoration.Proofs.Encoding
import TaskDecoration.Proofs.Slots

/-!
# Where parameters are found

Transformations locate a parameter to write its slot (`locate`); a body looks its argument up
(`View.arg?`). The two agree: `locate_agrees` says that what stands in the slot is what the body
finds, and that writing the slot changes what the body finds for this parameter and for no other
name, also where parameters share a name.
-/

set_option autoImplicit false

namespace TaskDecoration

namespace Signature

/-- A signature declares the names of its parameters. -/
def Declares (f : Signature) (name : String) : Prop := ∃ p ∈ f.parameters, p.name = name

instance (f : Signature) (name : String) : Decidable (f.Declares name) :=
  inferInstanceAs (Decidable (∃ p ∈ f.parameters, p.name = name))

/-- A signature that has two parameters of one name. -/
def doubled : Signature := ofParameters "m" "f" [⟨"a", none⟩, ⟨"b", none⟩, ⟨"a", none⟩]

/-- An index has the names of its parameters, and those that it had before. -/
theorem isSome_get?_indexFrom {ps : List Parameter} {name : String} {i : Nat} {index : Dict Nat} :
    ((indexFrom i ps index).get? name).isSome = true ↔
      (∃ p ∈ ps, p.name = name) ∨ (index.get? name).isSome = true := by
  induction ps generalizing i index with
  | nil => simp [indexFrom]
  | cons p ps ih =>
    rw [indexFrom, ih, Dict.get?_insert]
    by_cases same : name = p.name
    · simp [same]
    · have other : ¬ p.name = name := fun h => same h.symm
      simp [same, other]

theorem position?_isSome_iff {f : Signature} (indexed : f.Indexed) {name : String} :
    (f.position? name).isSome = true ↔ f.Declares name := by
  unfold position?
  rw [indexed, isSome_get?_indexFrom]
  simp [Declares]

end Signature

section Locating

variable {a : Arguments} {f : Signature} {p q : String}

/-- A parameter stands in the slot of its keyword or in that of its position. -/
theorem Arguments.home_cases (a : Arguments) (f : Signature) (p : String) :
    a.home f p = .keyword p ∨
      ∃ i, a.home f p = .positional i ∧ a.get? p = none ∧ f.position? p = some i ∧
        i < a.positional.length := by
  unfold home
  split
  · exact .inl rfl
  · next absent =>
    have none : a.get? p = none := by
      cases keyword : a.get? p with
      | none => rfl
      | some x => exact absurd (contains_of_get? keyword) absent
    split
    · next i position =>
      split
      · next given => exact .inr ⟨i, rfl, none, position, given⟩
      · exact .inl rfl
    · exact .inl rfl

theorem Arguments.within_home (a : Arguments) (f : Signature) (p : String) :
    a.Within (a.home f p) := by
  rcases a.home_cases f p with keyword | ⟨i, positional, -, -, given⟩
  · rw [keyword]
    trivial
  · rw [positional]
    exact given

/-- What stands in the slot of a parameter is what has been given for it. -/
theorem Arguments.slot?_home (a : Arguments) (f : Signature) (p : String) :
    a.slot? (a.home f p) = a.supplied? f p := by
  unfold supplied? home
  cases keyword : a.get? p with
  | some x => rw [if_pos (contains_of_get? keyword), slot?, keyword, Option.some_or]
  | none =>
    rw [if_neg (not_contains_of_get? keyword), Option.none_or]
    cases f.position? p with
    | none => exact keyword
    | some i =>
      by_cases given : i < a.positional.length
      · exact congrArg a.slot? (if_pos given)
      · have beyond : a.positional[i]? = none := List.getElem?_eq_none (Nat.not_lt.mp given)
        rw [Option.bind_some, beyond]
        exact (congrArg a.slot? (if_neg given)).trans keyword

/-- Writing the slot of a parameter changes what is given for it, and for no other name. -/
theorem Arguments.supplied?_set (indexed : f.Indexed) (a : Arguments) (p q : String) (r : Value) :
    (a.set (a.home f p) r).supplied? f q = if q = p then some r else a.supplied? f q := by
  have written := slot?_set (a.within_home f p) r
  have keyword : (a.set (a.home f p) r).get? q = _ := written (.keyword q)
  have positional (i : Nat) : (a.set (a.home f p) r).positional[i]? = _ := written (.positional i)
  unfold supplied?
  simp only [keyword, positional]
  rcases a.home_cases f p with home | ⟨i, home, absent, position, -⟩
  · rw [home]
    by_cases same : q = p
    · simp [same]
    · simp [same, slot?]
  · rw [home]
    by_cases same : q = p
    · simp [same, slot?, absent, position]
    · -- No other name has this position, also where names are repeated.
      have elsewhere (j : Nat) (hj : f.position? q = some j) : j ≠ i := by
        rintro rfl
        exact same (Signature.position_injective indexed hj position)
      cases position' : f.position? q with
      | none => simp [same, slot?]
      | some j => simp [same, slot?, elsewhere j position']

/-- A parameter can be located unless it is neither given by keyword nor declared. -/
theorem locate_error_iff (indexed : f.Indexed) {e : TransformationError} :
    locate a f p = .error e ↔
      (¬ a.contains p = true ∧ ¬ f.Declares p) ∧ e = .unknownParameter f.qualifiedName p := by
  rw [← Signature.position?_isSome_iff indexed]
  unfold locate
  cases keyword : a.get? p with
  | some x => simp [Arguments.contains_of_get? keyword]
  | none =>
    have absent : a.contains p = false := by
      simpa using Arguments.not_contains_of_get? keyword
    cases f.position? p with
    | none => simp [absent, eq_comm]
    | some i =>
      dsimp only
      cases a.positional[i]? <;> simp

theorem exists_locate_iff (indexed : f.Indexed) :
    (∃ found, locate a f p = .ok found) ↔ a.contains p = true ∨ f.Declares p := by
  cases located : locate a f p with
  | ok found =>
    refine iff_of_true ⟨found, rfl⟩ (Decidable.byContradiction fun unknown => ?_)
    obtain ⟨absent, undeclared⟩ := not_or.mp unknown
    cases located.symm.trans ((locate_error_iff indexed).mpr ⟨⟨absent, undeclared⟩, rfl⟩)
  | error e =>
    obtain ⟨⟨absent, undeclared⟩, -⟩ := (locate_error_iff indexed).mp located
    exact iff_of_false (fun ⟨found, same⟩ => nomatch same) (not_or.mpr ⟨absent, undeclared⟩)

end Locating

/-- The call in which a slot has been written. -/
def Call.write (c : Call) (s : Slot) (v : Value) : Call :=
  { c with arguments := c.arguments.set s v }

/-- A slot is where a body finds the argument for a parameter, and `v` is what it finds there. -/
structure Call.Finds (c : Call) (f : Signature) (p : String) (s : Slot) (v : Value) : Prop where
  value : (c.view f).arg? p = some v ∨ (c.view f).arg? p = none ∧ v = .null
  written : ∀ r, ((c.write s r).view f).arg? p = some r
  others : ∀ r q, q ≠ p → ((c.write s r).view f).arg? q = (c.view f).arg? q
  length : ∀ r, (c.write s r).arguments.positional.length = c.arguments.positional.length

namespace Call

variable {f : Signature}

/-- What a body finds after the slot of a parameter has been written. -/
theorem arg?_write (indexed : f.Indexed) (c : Call) (p q : String) (r : Value) :
    ((c.write (c.arguments.home f p) r).view f).arg? q =
      if q = p then some r else (c.view f).arg? q := by
  rw [View.arg?_eq, View.arg?_eq]
  change ((c.arguments.set (c.arguments.home f p) r).supplied? f q).or (f.default? q) = _
  rw [Arguments.supplied?_set indexed]
  by_cases same : q = p
  · rw [if_pos same, if_pos same, Option.some_or]
  · rw [if_neg same, if_neg same]
    rfl

theorem arg?_eq_some_or (c : Call) (f : Signature) (p : String) :
    (c.view f).arg? p = some (c.arguments.valueOf f p) ∨
      (c.view f).arg? p = none ∧ c.arguments.valueOf f p = .null := by
  unfold Arguments.valueOf
  rw [View.arg?_eq, Arguments.slot?_home]
  change (c.arguments.supplied? f p).or (f.default? p) = _ ∨
    (c.arguments.supplied? f p).or (f.default? p) = none ∧ _
  cases c.arguments.supplied? f p with
  | some v => exact .inl rfl
  | none =>
    cases f.default? p with
    | some v => exact .inl rfl
    | none => exact .inr ⟨rfl, rfl⟩

/-- Parameters are located where the body looks for them. -/
theorem locate_agrees (indexed : f.Indexed) (c : Call) (p : String) :
    ((∃ e, locate c.arguments f p = .error e) ↔
      ¬ c.arguments.contains p = true ∧ ¬ f.Declares p) ∧
    ∀ s v, locate c.arguments f p = .ok (s, v) → c.Finds f p s v := by
  constructor
  · simp [locate_error_iff indexed]
  · intro s v located
    have within := locate_within located
    obtain ⟨rfl, rfl⟩ := locate_ok located
    exact {
      value := c.arg?_eq_some_or f p
      written := fun r => by rw [arg?_write indexed, if_pos rfl]
      others := fun r q other => by rw [arg?_write indexed, if_neg other]
      length := fun r => Arguments.length_set within r }

/-- The parameter `a` is the last one of that name. -/
theorem locate_agrees_doubled :
    Signature.doubled.Indexed ∧
      (start default ⟨[.text "x", .text "y", .text "z"], .empty⟩).Finds Signature.doubled "a"
        (.positional 2) (.text "z") := by
  have indexed : Signature.doubled.Indexed := Signature.indexed_ofParameters "m" "f" _
  refine ⟨indexed, (locate_agrees indexed _ "a").2 _ _ ?_⟩
  rfl

end Call

end TaskDecoration
