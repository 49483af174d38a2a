import TaskDecoration.Decoration.Declare
import TaskDecoration.Proofs.Descriptor
import TaskDecoration.Proofs.Revision

/-!
# Declared annotations

Declaring an annotation checks that its mandatory arguments are there and fills in the defaults of
others. What a primary annotation needs later, when it writes into a descriptor, is there from
then on: it may turn out to have no spelling, but it is never missing (`Primary.fields_error`).
-/

set_option autoImplicit false

namespace TaskDecoration

/-- The name that a step makes sure is given. -/
def Step.supplied? : Step → Option String
  | respelling canonical _ (some _) => some canonical
  | respelling _ _ none => none
  | filling name _ => some name
  | failureText => some Name.failByExitValue

/-- The name that a step takes away. -/
def Step.older? : Step → Option String
  | respelling _ older _ => some older
  | _ => none

/-- The name of the argument that an entry reads. -/
def Entry.name? : Entry → Option String
  | required name => some name
  | optional name => some name
  | constant _ => none

/-- The annotation has come out of a declaration. -/
def Primary.Declared (p : Primary) : Prop := ∃ a, Primary.declare p.kind a = .ok p

/-- The annotation has come out of a declaration. Data transformations are declared by their
substitutions, whatever these are. -/
def Decoration.Declared (x : Decoration) : Prop :=
  (∃ specs, x = .dataTransformation specs) ∨ ∃ files t a, DecorationType.declare files t a = .ok x

section Steps

variable {label name : String} {a a' : Arguments}

theorem Arguments.contains_erase {k : String} (other : name ≠ k)
    (there : a.contains name = true) : (a.erase k).contains name = true := by
  have same : (a.erase k).contains name = a.contains name := by
    simp [erase, contains, Dict.contains, Dict.get?_erase, other]
  rw [same]
  exact there

theorem Arguments.contains_insert_self (a : Arguments) (k : String) (v : Value) :
    (a.insert k v).contains k = true :=
  (contains_set (s := .keyword k)).mpr (.inl rfl)

theorem Arguments.contains_insert_of {k : String} (v : Value) (there : a.contains name = true) :
    (a.insert k v).contains name = true :=
  (contains_set (s := .keyword k)).mpr (.inr there)

namespace Step

/-- A step keeps the arguments that it does not take away. -/
theorem run_keeps {s : Step} (ran : s.run label a = .ok a') (kept : s.older? ≠ some name)
    (there : a.contains name = true) : a'.contains name = true := by
  cases s with
  | respelling canonical older fallback =>
    cases ran
    have other : name ≠ older := fun same => kept (congrArg some same.symm)
    unfold Arguments.resolveAlias
    split
    · exact Arguments.contains_erase other there
    · split
      · exact Arguments.contains_insert_of _ (Arguments.contains_erase other there)
      · exact Arguments.contains_insert_of _ there
      · exact there
  | filling k fallback =>
    cases ran
    split
    · exact there
    · exact Arguments.contains_insert_of _ there
  | failureText =>
    change (Arguments.failureText label _).map _ = _ at ran
    cases policy : Arguments.failureText label (a.get? Name.failByExitValue) with
    | error e =>
      rw [policy] at ran
      cases ran
    | ok text =>
      rw [policy] at ran
      cases ran
      exact Arguments.contains_insert_of _ there

/-- A step supplies what it is to supply. -/
theorem run_supplies {s : Step} (ran : s.run label a = .ok a') (supplied : s.supplied? = some name)
    (kept : s.older? ≠ some name) : a'.contains name = true := by
  cases s with
  | respelling canonical older fallback =>
    cases fallback with
    | none => cases supplied
    | some v =>
      cases supplied
      cases ran
      have other : name ≠ older := fun same => kept (congrArg some same.symm)
      unfold Arguments.resolveAlias
      split
      · next there => exact Arguments.contains_erase other there
      · split
        · exact Arguments.contains_insert_self _ _ _
        · exact Arguments.contains_insert_self _ _ _
        · next absent => cases absent
  | filling k fallback =>
    cases supplied
    cases ran
    split
    · next there => exact there
    · exact Arguments.contains_insert_self _ _ _
  | failureText =>
    cases supplied
    change (Arguments.failureText label _).map _ = _ at ran
    cases policy : Arguments.failureText label (a.get? Name.failByExitValue) with
    | error e =>
      rw [policy] at ran
      cases ran
    | ok text =>
      rw [policy] at ran
      cases ran
      exact Arguments.contains_insert_self _ _ _

/-- Behind all steps, a name is there that one of them supplies and none takes away. -/
theorem runAll_supplies {steps : List Step} (ran : runAll label steps a = .ok a')
    (supplied : a.contains name = true ∨ ∃ s ∈ steps, s.supplied? = some name)
    (kept : ∀ s ∈ steps, s.older? ≠ some name) : a'.contains name = true := by
  induction steps generalizing a with
  | nil =>
    cases ran
    rcases supplied with there | ⟨s, absent, _⟩
    · exact there
    · cases absent
  | cons s steps ih =>
    unfold runAll at ran
    rw [List.foldlM_cons] at ran
    obtain ⟨b, first, rest⟩ := Except.bind_eq_ok_iff.mp ran
    have kept' := kept s List.mem_cons_self
    apply ih rest ?_ fun t ht => kept t (List.mem_cons_of_mem s ht)
    rcases supplied with there | ⟨t, ht, supplies⟩
    · exact .inl (run_keeps first kept' there)
    · rcases List.mem_cons.mp ht with rfl | later
      · exact .inl (run_supplies first supplies kept')
      · exact .inr ⟨t, later, supplies⟩

end Step

end Steps

section Reading

variable {a : Arguments} {f : Signature} {e : ConfigurationError} {name label : String}

/-- What the layout of a kind requires is read when the annotation is declared, or one of the
steps supplies it. -/
theorem PrimaryKind.layout_supplied (k : PrimaryKind) :
    ∀ entry ∈ k.layout, entry ∈ k.reads ∨ ∀ name, entry = .required name →
      name ∈ k.steps.filterMap Step.supplied? ∧ name ∉ k.steps.filterMap Step.older? := by
  cases k <;>
    simp [layout, reads, steps, Step.supplied?, Step.older?, Step.workingDir,
      Step.computingNodes, Name.workingDir, Name.failByExitValue, Name.computingNodes, Name.binary,
      Name.runner]

/-- A list of partial steps fails with one of them. -/
theorem exists_of_mapM_error {ε α β : Type} {g : α → Except ε β} {xs : List α} {e : ε}
    (failed : xs.mapM g = .error e) : ∃ x ∈ xs, g x = .error e := by
  obtain ⟨before, x, after, rfl, -, failed⟩ := mapM_error_iff.mp failed
  exact ⟨x, by simp, failed⟩

theorem exists_of_mapM_ok {ε α β : Type} {g : α → Except ε β} {xs : List α} {ys : List β}
    (succeeded : xs.mapM g = .ok ys) {x : α} (hx : x ∈ xs) : ∃ y, g x = .ok y := by
  induction xs generalizing ys with
  | nil => cases hx
  | cons x' xs ih =>
    rw [List.mapM_cons] at succeeded
    obtain ⟨y, here, succeeded⟩ := Except.bind_eq_ok_iff.mp succeeded
    obtain ⟨rest, later, _⟩ := Except.bind_eq_ok_iff.mp succeeded
    rcases List.mem_cons.mp hx with rfl | inner
    · exact ⟨y, here⟩
    · exact ih later inner

/-- A required argument that is there is read as its spelling, or has the wrong sort. -/
theorem Arguments.requiredText_of_get? {v : Value} (given : a.get? name = some v) (label : String) :
    a.requiredText name label = match v.spelling? with
      | some s => .ok s
      | none => .error (.invalidArgument label name "a string" v.sort) := by
  unfold requiredText
  cases spelled : v.spelling? with
  | some s => simp [given, spelled]
  | none => simp [given, spelled]

theorem Arguments.contains_of_requiredText {text : String}
    (read : a.requiredText name label = .ok text) : a.contains name = true := by
  unfold requiredText at read
  cases given : a.get? name with
  | none =>
    rw [given] at read
    cases read
  | some v => exact Arguments.contains_of_get? given

theorem Entry.read_of_get? {entry : Entry} {v : Value} (named : entry.name? = some name)
    (given : a.get? name = some v) (label : String) :
    entry.read label a = match v.spelling? with
      | some s => .ok s
      | none => .error (.invalidArgument label name "a string" v.sort) := by
  rw [← Arguments.requiredText_of_get? given label]
  cases entry with
  | required other =>
    cases named
    rfl
  | optional other =>
    cases named
    exact if_pos (Arguments.contains_of_get? given)
  | constant text => cases named

/-- An entry that finds its argument and cannot be read has met a value without a spelling. -/
theorem Entry.read_error {entry : Entry}
    (there : ∀ name, entry = .required name → a.contains name = true)
    (failed : entry.read label a = .error e) :
    ∃ name, entry.name? = some name ∧ ∃ v, a.get? name = some v ∧ v.spelling? = none ∧
      e = .invalidArgument label name "a string" v.sort := by
  have present {name : String} (named : entry.name? = some name) (h : a.contains name = true) :
      ∃ v, a.get? name = some v ∧ v.spelling? = none ∧
        e = .invalidArgument label name "a string" v.sort := by
    obtain ⟨v, given⟩ := Option.isSome_iff_exists.mp h
    rw [Entry.read_of_get? named given] at failed
    cases spelled : v.spelling? with
    | some s =>
      rw [spelled] at failed
      cases failed
    | none =>
      rw [spelled] at failed
      cases failed
      exact ⟨v, given, spelled, rfl⟩
  cases entry with
  | required name => exact ⟨name, rfl, present rfl (there name rfl)⟩
  | optional name =>
    by_cases h : a.contains name = true
    · exact ⟨name, rfl, present rfl h⟩
    · have default : Except.ok unassigned = Except.error e := (if_neg h).symm.trans failed
      cases default
  | constant text => cases failed

/-- The signature is taken from arguments that are read when the annotation is declared. -/
theorem PrimaryKind.signature_error {k : PrimaryKind} (failed : k.signature a f = .error e) :
    ∃ entry ∈ k.reads, entry.read k.name a = .error e := by
  have mapped {name : String} {g : String → String} (member : .required name ∈ k.reads)
      (h : (a.requiredText name k.name).map g = .error e) :
      ∃ entry ∈ k.reads, entry.read k.name a = .error e := by
    refine ⟨.required name, member, ?_⟩
    change a.requiredText name k.name = .error e
    cases there : a.requiredText name k.name with
    | ok text =>
      rw [there] at h
      cases h
    | error e' =>
      rw [there] at h
      cases h
      rfl
  cases k with
  | binary => exact mapped (by simp [reads]) failed
  | ompss => exact mapped (by simp [reads]) failed
  | mpi =>
    unfold signature at failed
    dsimp only at failed
    by_cases given : a.contains Name.binary = true
    · rw [if_pos given] at failed
      refine ⟨.optional Name.binary, by simp [reads], ?_⟩
      change (if a.contains Name.binary then a.requiredText Name.binary mpi.name else _) = _
      rw [if_pos given]
      cases there : a.requiredText Name.binary mpi.name with
      | ok text =>
        rw [there] at failed
        cases failed
      | error e' =>
        rw [there] at failed
        cases failed
        rfl
    · rw [if_neg given] at failed
      cases failed
  | compss => exact mapped (by simp [reads]) failed
  | decaf => exact mapped (by simp [reads]) failed
  | multiNode => cases failed
  | container => cases failed
  | implement =>
    unfold signature at failed
    dsimp only at failed
    cases source : a.requiredText "source_class" PrimaryKind.implement.name with
    | error e' =>
      rw [source] at failed
      cases failed
      exact ⟨.required "source_class", by simp [reads], source⟩
    | ok text =>
      rw [source] at failed
      cases method : a.requiredText "method" PrimaryKind.implement.name with
      | ok text' =>
        rw [method] at failed
        cases failed
      | error e' =>
        rw [method] at failed
        cases failed
        exact ⟨.required "method", by simp [reads], method⟩

end Reading

namespace Primary

variable {p : Primary} {f : Signature} {e : ConfigurationError}

/-- What a declared annotation requires is there. -/
theorem Declared.contains (declared : p.Declared) {name : String}
    (required : .required name ∈ p.kind.layout ∨ .required name ∈ p.kind.reads) :
    p.arguments.contains name = true := by
  obtain ⟨kind, arguments⟩ := p
  obtain ⟨a, declaration⟩ := declared
  obtain ⟨_, _, declaration⟩ := Except.bind_eq_ok_iff.mp declaration
  obtain ⟨b, ran, declaration⟩ := Except.bind_eq_ok_iff.mp declaration
  obtain ⟨texts, read, declaration⟩ := Except.bind_eq_ok_iff.mp declaration
  cases declaration
  have reads (h : .required name ∈ kind.reads) : arguments.contains name = true := by
    obtain ⟨text, there⟩ := exists_of_mapM_ok read h
    exact Arguments.contains_of_requiredText there
  rcases required with layout | h
  · rcases kind.layout_supplied _ layout with h | supplied
    · exact reads h
    · obtain ⟨supplies, kept⟩ := supplied name rfl
      refine Step.runAll_supplies ran (.inr (List.mem_filterMap.mp supplies)) fun s hs older => ?_
      exact kept (List.mem_filterMap.mpr ⟨s, hs, older⟩)
  · exact reads h

/-- A declared annotation never lacks an argument. It cannot write where one has no spelling. -/
theorem fields_error (declared : p.Declared) (failed : p.fields f = .error e) :
    ∃ argument sort, e = .invalidArgument p.kind.name argument "a string" sort := by
  have unreadable : ∃ entry, (entry ∈ p.kind.layout ∨ entry ∈ p.kind.reads) ∧
      entry.read p.kind.name p.arguments = .error e := by
    unfold fields at failed
    cases layout : p.kind.layout.mapM (·.read p.kind.name p.arguments) with
    | error e' =>
      rw [layout] at failed
      cases failed
      obtain ⟨entry, member, failed⟩ := exists_of_mapM_error layout
      exact ⟨entry, .inl member, failed⟩
    | ok texts =>
      rw [layout] at failed
      cases named : p.kind.signature p.arguments f with
      | ok text =>
        rw [named] at failed
        cases failed
      | error e' =>
        rw [named] at failed
        cases failed
        obtain ⟨entry, member, failed⟩ := PrimaryKind.signature_error named
        exact ⟨entry, .inr member, failed⟩
  obtain ⟨entry, member, failed⟩ := unreadable
  obtain ⟨name, _, v, _, _, error⟩ :=
    Entry.read_error (fun name required => declared.contains (required ▸ member)) failed
  exact ⟨name, v.sort, error⟩

end Primary

theorem Primary.declared_of_declare {kind : PrimaryKind} {a : Arguments} {p : Primary}
    (made : Primary.declare kind a = .ok p) : p.Declared := by
  obtain ⟨_, _, rest⟩ := Except.bind_eq_ok_iff.mp made
  obtain ⟨_, _, rest⟩ := Except.bind_eq_ok_iff.mp rest
  obtain ⟨_, _, rest⟩ := Except.bind_eq_ok_iff.mp rest
  cases rest
  exact ⟨a, made⟩

/-- What a file describes is declared like any other annotation. -/
theorem SoftwareFile.declared_of_declare {file : SoftwareFile} {s : Software}
    (made : file.declare = .ok s) : s.described.Declared := by
  unfold declare at made
  split at made
  · obtain ⟨described, first, rest⟩ := Except.bind_eq_ok_iff.mp made
    obtain ⟨_, _, rest⟩ := Except.bind_eq_ok_iff.mp rest
    obtain ⟨_, _, rest⟩ := Except.bind_eq_ok_iff.mp rest
    cases rest
    exact Primary.declared_of_declare first
  · cases made

/-- The primary annotations that a declared annotation stands for are declared. -/
theorem Decoration.Declared.primary {x : Decoration} (declared : x.Declared) {p : Primary}
    (member : .primary p ∈ x.layers) : p.Declared := by
  rcases declared with ⟨specs, rfl⟩ | ⟨files, t, a, made⟩
  · simp [layers] at member
  · cases t with
    | task =>
      obtain ⟨_, _, rest⟩ := Except.bind_eq_ok_iff.mp made
      obtain ⟨_, _, rest⟩ := Except.bind_eq_ok_iff.mp rest
      cases rest
      simp [layers] at member
    | prolog =>
      obtain ⟨_, _, rfl⟩ := Except.map_eq_ok_iff.mp made
      simp [layers] at member
    | epilog =>
      obtain ⟨_, _, rfl⟩ := Except.map_eq_ok_iff.mp made
      simp [layers] at member
    | constraint =>
      obtain ⟨_, _, rest⟩ := Except.bind_eq_ok_iff.mp made
      cases rest
      simp [layers] at member
    | primary kind =>
      obtain ⟨q, declared, rfl⟩ := Except.map_eq_ok_iff.mp made
      obtain rfl : p = q := by simpa [layers] using member
      exact Primary.declared_of_declare declared
    | software =>
      obtain ⟨_, _, rest⟩ := Except.bind_eq_ok_iff.mp made
      obtain ⟨path, _, rest⟩ := Except.bind_eq_ok_iff.mp rest
      split at rest
      · cases rest
      · next file _ =>
        obtain ⟨s, described, rest⟩ := Except.bind_eq_ok_iff.mp rest
        cases rest
        obtain rfl : p = s.described := by simpa [layers] using member
        exact SoftwareFile.declared_of_declare described

end TaskDecoration
