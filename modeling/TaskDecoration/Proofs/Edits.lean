import TaskDecoration.Proofs.Descriptor

/-!
# Editing a descriptor

A descriptor that is being built gets edits in any order. The first implementation that is put into it
stays, and every later one is refused in its name (`edit_follows` for one edit, `editAll_follows` for
any number). Of hooks, constraints and the workflow flag the last value stays (`editAll_last`), and
implementations that come in between make no difference to them (`Edited.auxiliaryFields_eq`).
-/

set_option autoImplicit false

namespace TaskDecoration

/-- An implementation, with the annotation that it comes from. -/
structure Implementation where
  owner : String
  kind : ImplementationKind
  signature : String
  typeArguments : List String

/-- The primary field-set that an implementation is written as. -/
def Implementation.fields (i : Implementation) : PrimaryFields :=
  ⟨some i.kind, some i.signature, i.typeArguments, some i.owner⟩

/-- The fields of a descriptor that may be written again. -/
structure AuxiliaryFields where
  prolog : Option Hook
  epilog : Option Hook
  constraints : Dict Value
  workflow : Bool

def Element.auxiliaryFields (e : Element) : AuxiliaryFields :=
  ⟨e.prolog, e.epilog, e.constraints, e.workflow⟩

/-- What can be done with a descriptor that is being built. -/
inductive Edit where
  | implementation (i : Implementation)
  | prolog (hook : Hook)
  | epilog (hook : Hook)
  | constraints (added : List (String × Value))
  | workflow (value : Bool)

namespace Edit

def implementation? : Edit → Option Implementation
  | implementation i => some i
  | _ => none

/-- Whether an edit leaves the primary field-set alone. -/
def isAuxiliary (x : Edit) : Bool := x.implementation?.isNone

def prologs : Edit → List Hook
  | prolog hook => [hook]
  | _ => []

def epilogs : Edit → List Hook
  | epilog hook => [hook]
  | _ => []

/-- The values that an edit adds for the constraint `name`. -/
def values (name : String) : Edit → List Value
  | constraints added => (added.filter (·.1 = name)).map (·.2)
  | _ => []

def workflows : Edit → List Bool
  | workflow value => [value]
  | _ => []

/-- The first implementation among edits. -/
def first? (edits : List Edit) : Option Implementation := edits.findSome? implementation?

/-- How an edit is answered when it comes after others. -/
def answer (before : List Edit) : Edit → Except ConfigurationError Unit
  | implementation i =>
    match first? before with
    | some first => .error (.primaryConflict first.owner i.owner)
    | none => .ok ()
  | _ => .ok ()

/-- What an edit does to a descriptor. -/
def write : Edit → Change ConfigurationError Element Unit
  | implementation i => Element.writeImplementation i.owner i.kind i.signature i.typeArguments
  | prolog hook => modify (·.setProlog hook)
  | epilog hook => modify (·.setEpilog hook)
  | constraints added => modify (·.addConstraints added)
  | workflow value => modify (·.setWorkflow value)

theorem first?_snoc (edits : List Edit) (x : Edit) :
    first? (edits ++ [x]) = (first? edits).or x.implementation? := by
  unfold first?
  rw [List.findSome?_append, List.findSome?_singleton]

/-- What implementations do not write is written by the other edits alone. -/
theorem flatMap_filter_isAuxiliary {β : Type} {written : Edit → List β}
    (silent : ∀ i, written (.implementation i) = []) (edits : List Edit) :
    (edits.filter isAuxiliary).flatMap written = edits.flatMap written := by
  induction edits with
  | nil => rfl
  | cons x xs ih =>
    cases x with
    | implementation i =>
      rw [List.filter_cons_of_neg (by simp [isAuxiliary, implementation?]), ih, List.flatMap_cons,
        silent, List.nil_append]
    | _ => exact congrArg (_ ++ ·) ih

end Edit

namespace Element

/-- Carries out an edit. What it has written stays, also where it is refused. -/
def edit (e : Element) (x : Edit) : Except ConfigurationError Unit × Element := x.write.runOn e

/-- Carries out edits in order, with all their answers. -/
def editAll (e : Element) : List Edit → List (Except ConfigurationError Unit) × Element
  | [] => ([], e)
  | x :: xs => ((e.edit x).1 :: ((e.edit x).2.editAll xs).1, ((e.edit x).2.editAll xs).2)

section Steps

variable {e : Element}

theorem edit_implementation_unowned (unowned : e.owner = none) (i : Implementation) :
    e.edit (.implementation i) =
      (.ok (), { e with
        kind := some i.kind, signature := some i.signature, typeArguments := i.typeArguments,
        owner := some i.owner }) := by
  have written := setImplementation_of_unowned i.owner i.kind i.signature i.typeArguments unowned
  exact (writeImplementation_runOn _ _ _ _ e).trans (congrArg _ written)

theorem edit_implementation_owned {first : String} (owned : e.owner = some first)
    (i : Implementation) :
    e.edit (.implementation i) = (.error (.primaryConflict first i.owner), e) := by
  have refused := setImplementation_of_owned i.owner i.kind i.signature i.typeArguments owned
  exact (writeImplementation_runOn _ _ _ _ e).trans (congrArg _ refused)

theorem edit_implementation_auxiliary (e : Element) (i : Implementation) :
    (e.edit (.implementation i)).2.auxiliaryFields = e.auxiliaryFields := by
  cases owner : e.owner with
  | none => rw [edit_implementation_unowned owner]; rfl
  | some first => rw [edit_implementation_owned owner]

theorem edit_prolog (x : Edit) (e : Element) :
    (e.edit x).2.prolog = x.prologs.getLast?.or e.prolog := by
  cases x with
  | implementation i => exact congrArg AuxiliaryFields.prolog (e.edit_implementation_auxiliary i)
  | _ => rfl

theorem edit_epilog (x : Edit) (e : Element) :
    (e.edit x).2.epilog = x.epilogs.getLast?.or e.epilog := by
  cases x with
  | implementation i => exact congrArg AuxiliaryFields.epilog (e.edit_implementation_auxiliary i)
  | _ => rfl

theorem edit_constraint (name : String) (x : Edit) (e : Element) :
    (e.edit x).2.constraint? name = (x.values name).getLast?.or (e.constraint? name) := by
  cases x with
  | implementation i =>
    exact congrArg (·.constraints.get? name) (e.edit_implementation_auxiliary i)
  | constraints added => exact e.constraints.get?_insertMany_eq_getLast? added name
  | _ => rfl

theorem edit_workflow (x : Edit) (e : Element) :
    some (e.edit x).2.workflow = x.workflows.getLast?.or (some e.workflow) := by
  cases x with
  | implementation i =>
    exact congrArg (some ·.workflow) (e.edit_implementation_auxiliary i)
  | _ => rfl

/-- The primary field-set that edits of an empty descriptor leave behind. -/
def fieldsAfter (edits : List Edit) : PrimaryFields :=
  (Edit.first? edits).elim empty.primaryFields Implementation.fields

/-- An edit after others is answered, and writes the primary field-set, as the first implementation
among them has it. -/
theorem edit_follows {before : List Edit} (follows : e.primaryFields = fieldsAfter before)
    (x : Edit) :
    (e.edit x).1 = x.answer before ∧
      (e.edit x).2.primaryFields = fieldsAfter (before ++ [x]) := by
  unfold fieldsAfter at follows ⊢
  rw [Edit.first?_snoc]
  cases x with
  | implementation i =>
    unfold Edit.answer
    cases first : Edit.first? before with
    | none =>
      rw [first] at follows
      rw [edit_implementation_unowned (congrArg PrimaryFields.owner follows)]
      exact ⟨rfl, rfl⟩
    | some j =>
      rw [first] at follows
      rw [edit_implementation_owned (congrArg PrimaryFields.owner follows)]
      exact ⟨rfl, follows⟩
  | _ =>
    refine ⟨rfl, follows.trans ?_⟩
    exact congrArg (Option.elim · _ _) Option.or_none.symm

end Steps

/-- Of a field that edits may write again, the last one has the last word. -/
theorem editAll_last {β : Type} (field : Element → Option β) (written : Edit → List β)
    (step : ∀ x e, field (e.edit x).2 = (written x).getLast?.or (field e)) (edits : List Edit)
    (e : Element) :
    field (e.editAll edits).2 = (edits.flatMap written).getLast?.or (field e) := by
  induction edits generalizing e with
  | nil => rfl
  | cons x xs ih =>
    change field ((e.edit x).2.editAll xs).2 = _
    rw [ih, step, List.flatMap_cons, List.getLast?_append, Option.or_assoc]

/-- Edits after others are answered, and leave a primary field-set behind, as the first implementation
among all of them has it. -/
theorem editAll_follows {before : List Edit} {e : Element}
    (follows : e.primaryFields = fieldsAfter before) (edits : List Edit) :
    (e.editAll edits).1 = edits.mapIdx (fun n x => x.answer (before ++ edits.take n)) ∧
      (e.editAll edits).2.primaryFields = fieldsAfter (before ++ edits) := by
  induction edits generalizing before e with
  | nil => exact ⟨rfl, by rw [List.append_nil]; exact follows⟩
  | cons x xs ih =>
    -- The edit becomes one of those that the rest comes after.
    obtain ⟨answer, fields⟩ := edit_follows follows x
    obtain ⟨answers, rest⟩ := ih fields
    constructor
    · change (e.edit x).1 :: ((e.edit x).2.editAll xs).1 = _
      rw [answer, answers, List.mapIdx_cons]
      simp
    · rw [List.append_cons]
      exact rest

/-- What edits have made of an empty descriptor, and how they have been answered. -/
structure Edited (edits : List Edit) (answers : List (Except ConfigurationError Unit))
    (e : Element) : Prop where
  /-- The primary field-set is there as a whole, or nothing of it. -/
  whole : (e.kind.isSome = true ∧ e.signature.isSome = true ∧ e.owner.isSome = true) ∨
    (e.kind = none ∧ e.signature = none ∧ e.owner = none ∧ e.typeArguments = [])
  complete : e.isComplete = e.hasPrimary
  /-- The first implementation has written it, and it has stayed like this. -/
  primary : e.primaryFields = fieldsAfter edits
  answers : answers = edits.mapIdx fun n x => x.answer (edits.take n)
  /-- Once there has been an implementation, no other one changes anything. -/
  refused : ∀ first i, Edit.first? edits = some first →
    e.edit (.implementation i) = (.error (.primaryConflict first.owner i.owner), e)
  prolog : e.prolog = (edits.flatMap Edit.prologs).getLast?
  epilog : e.epilog = (edits.flatMap Edit.epilogs).getLast?
  constraint : ∀ name, e.constraint? name = (edits.flatMap (Edit.values name)).getLast?
  workflow : e.workflow = (edits.flatMap Edit.workflows).getLast?.getD false

/-- A primary field-set comes from one implementation as a whole, or from none. -/
theorem whole_of_primaryFields {e : Element} {edits : List Edit}
    (primary : e.primaryFields = fieldsAfter edits) :
    ((e.kind.isSome = true ∧ e.signature.isSome = true ∧ e.owner.isSome = true) ∨
      (e.kind = none ∧ e.signature = none ∧ e.owner = none ∧ e.typeArguments = [])) ∧
    e.isComplete = e.hasPrimary := by
  unfold fieldsAfter at primary
  unfold isComplete hasPrimary
  cases first : Edit.first? edits with
  | none =>
    rw [first] at primary
    obtain ⟨kind, signature, typeArguments, owner⟩ := PrimaryFields.mk.inj primary
    refine ⟨.inr ⟨kind, signature, owner, typeArguments⟩, ?_⟩
    rw [kind, signature, owner]
    rfl
  | some i =>
    rw [first] at primary
    obtain ⟨kind, signature, -, owner⟩ := PrimaryFields.mk.inj primary
    rw [kind, signature, owner]
    exact ⟨.inl ⟨rfl, rfl, rfl⟩, rfl⟩

theorem edited_editAll (edits : List Edit) :
    Edited edits (empty.editAll edits).1 (empty.editAll edits).2 := by
  obtain ⟨answers, primary⟩ :=
    editAll_follows (show empty.primaryFields = fieldsAfter [] from rfl) edits
  obtain ⟨whole, complete⟩ := whole_of_primaryFields primary
  refine {
    whole
    complete
    primary
    answers
    refused := ?_
    prolog := ?_
    epilog := ?_
    constraint := ?_
    workflow := ?_ }
  · intro first i found
    apply edit_implementation_owned
    rw [List.nil_append, fieldsAfter, found] at primary
    exact congrArg PrimaryFields.owner primary
  · rw [editAll_last (·.prolog) Edit.prologs edit_prolog]
    exact Option.or_none
  · rw [editAll_last (·.epilog) Edit.epilogs edit_epilog]
    exact Option.or_none
  · intro name
    rw [editAll_last (·.constraint? name) (Edit.values name) (edit_constraint name)]
    exact Option.or_none
  · have last := editAll_last (some ·.workflow) Edit.workflows edit_workflow edits empty
    exact Option.some.inj (last.trans Option.or_some)

/-- Implementations that come in between make no difference to hooks, constraints and workflow flag. -/
theorem Edited.auxiliaryFields_eq {edits edits' : List Edit}
    {answers answers' : List (Except ConfigurationError Unit)} {e e' : Element}
    (h : Edited edits answers e) (h' : Edited edits' answers' e')
    (same : edits.filter Edit.isAuxiliary = edits'.filter Edit.isAuxiliary) :
    e.auxiliaryFields = e'.auxiliaryFields := by
  have writtenAlike {β : Type} {written : Edit → List β}
      (silent : ∀ i, written (.implementation i) = []) :
      edits.flatMap written = edits'.flatMap written := by
    rw [← Edit.flatMap_filter_isAuxiliary silent edits, same,
      Edit.flatMap_filter_isAuxiliary silent edits']
  have prolog : e.prolog = e'.prolog := by
    rw [h.prolog, h'.prolog, writtenAlike fun _ => rfl]
  have epilog : e.epilog = e'.epilog := by
    rw [h.epilog, h'.epilog, writtenAlike fun _ => rfl]
  have constraints : e.constraints = e'.constraints := by
    apply Dict.ext
    intro name
    change e.constraint? name = e'.constraint? name
    rw [h.constraint, h'.constraint, writtenAlike fun _ => rfl]
  have workflow : e.workflow = e'.workflow := by
    rw [h.workflow, h'.workflow, writtenAlike fun _ => rfl]
  unfold auxiliaryFields
  rw [prolog, epilog, constraints, workflow]

/-- Whatever edits an empty descriptor gets, the first implementation is written as a whole and stays,
and every later one is refused. All other fields have what was written last, wherever
implementations come in between. -/
theorem primary_written_once (edits : List Edit) :
    Edited edits (empty.editAll edits).1 (empty.editAll edits).2 ∧
      ∀ other : List Edit, other.filter Edit.isAuxiliary = edits.filter Edit.isAuxiliary →
        (empty.editAll other).2.auxiliaryFields = (empty.editAll edits).2.auxiliaryFields :=
  ⟨edited_editAll edits, fun other same =>
    (edited_editAll other).auxiliaryFields_eq (edited_editAll edits) same⟩

/-- A second implementation comes between two values of one constraint. -/
theorem primary_written_once_between :
    let first : Implementation := ⟨"@ompss", .ompss, "OMPSS.sleep", ["sleep"]⟩
    let second : Implementation := ⟨"@binary", .binary, "BINARY.ls", []⟩
    let one : Edit := .constraints [("computing_units", .int 1)]
    let more : Edit := .constraints [("computing_units", .int 2), ("memory_size", .int 4)]
    let edits : List Edit := [one, .implementation first, .implementation second, more]
    let other : List Edit := [.implementation second, one, more]
    let e := (empty.editAll edits).2
    e.primaryFields = first.fields ∧ e.constraint? "computing_units" = some (.int 2) ∧
      (empty.editAll edits).1[2]? = some (.error (.primaryConflict "@ompss" "@binary")) ∧
      e.edit (.implementation second) = (.error (.primaryConflict "@ompss" "@binary"), e) ∧
      other.filter Edit.isAuxiliary = edits.filter Edit.isAuxiliary ∧
      (empty.editAll other).2.auxiliaryFields = e.auxiliaryFields := by
  intro first second one more edits other e
  obtain ⟨edited, independent⟩ := primary_written_once edits
  have same : other.filter Edit.isAuxiliary = edits.filter Edit.isAuxiliary := rfl
  have units : (edits.flatMap (Edit.values "computing_units")).getLast? = some (.int 2) := by
    simp [edits, one, more, Edit.values]
  have refusal : (empty.editAll edits).1[2]? =
      some (.error (.primaryConflict "@ompss" "@binary")) := by
    rw [edited.answers]
    rfl
  exact ⟨edited.primary, (edited.constraint _).trans units, refusal,
    edited.refused first second rfl, same, independent other same⟩

end Element

end TaskDecoration
