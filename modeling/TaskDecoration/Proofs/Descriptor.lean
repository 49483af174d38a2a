import TaskDecoration.Proofs.Caching

/-!
# What a descriptor says

A task is registered with a descriptor to which all layers have contributed. Of the fields that
any annotation may write, the innermost one to write has the last word; the primary field-set is
written once. `descriptor_describes` says what the descriptor is in terms of the annotations
alone, for every task that is registered, whatever calls went before it.
-/

set_option autoImplicit false

namespace TaskDecoration

/-- The primary field-set of a descriptor. -/
structure PrimaryFields where
  kind : Option ImplementationKind
  signature : Option String
  typeArguments : List String
  owner : Option String

def Element.primaryFields (e : Element) : PrimaryFields :=
  ⟨e.kind, e.signature, e.typeArguments, e.owner⟩

/-- The field-set that a primary annotation writes. -/
def Primary.fields (p : Primary) (f : Signature) : Except ConfigurationError PrimaryFields := do
  let typeArguments ← p.kind.layout.mapM (·.read p.kind.name p.arguments)
  let signature ← p.kind.signature p.arguments f
  return ⟨some p.kind.implementation, some signature, typeArguments, some p.kind.name⟩

/-- A container that runs a task in place of a program gets the internal type and the internal
function among its type-arguments. -/
def PrimaryFields.completed (x : PrimaryFields) (f : Signature) : PrimaryFields :=
  if x.kind = some .container then
    { x with typeArguments :=
        (x.typeArguments.set 2 "CET_PYTHON").set 4 (f.moduleName ++ "&" ++ f.name) }
  else x

/-- The field-set of a task whose implementation is the function itself. -/
def Signature.methodFields (f : Signature) : PrimaryFields :=
  ⟨some .method, some f.qualifiedName, [f.moduleName, f.name], some Decoration.taskName⟩

namespace Decoration

def primary? : Decoration → Option Primary
  | primary p => some p
  | _ => none

def prolog? : Decoration → Option Hook
  | prolog h => some h.hook
  | _ => none

def epilog? : Decoration → Option Hook
  | epilog h => some h.hook
  | _ => none

/-- The value that an annotation gives to a constraint. -/
def constraint? (name : String) : Decoration → Option Value
  | constraint a => a.get? name
  | software _ s => s.constraints.get? name
  | _ => none

end Decoration

/-- The descriptor of a task inside annotations, the outermost one first. -/
structure Element.Describes (e : Element) (f : Signature) (as : List Decoration)
    (options : TaskOptions) : Prop where
  /-- At most one annotation is primary, and it has written the field-set. -/
  primary : (as.filterMap Decoration.primary? = [] ∧ e.primaryFields = f.methodFields) ∨
    ∃ p fields, as.filterMap Decoration.primary? = [p] ∧ p.fields f = .ok fields ∧
      e.primaryFields = fields.completed f
  prolog : e.prolog = (as.filterMap Decoration.prolog?).getLast?
  epilog : e.epilog = (as.filterMap Decoration.epilog?).getLast?
  constraint : ∀ name, e.constraint? name = (as.filterMap (Decoration.constraint? name)).getLast?
  workflow : e.workflow = options.isWorkflow

section Writing

variable {f : Signature} {e e' : Element} {a : Decoration}

/-- A primary annotation reads its field-set first, and then writes it into a descriptor that has
none. -/
theorem Decoration.configure_primary (p : Primary) (f : Signature) (e : Element) :
    (primary p).configure f e = p.fields f >>= fun x => match e.owner with
      | some first => .error (.primaryConflict first p.kind.name)
      | none => .ok { e with
          kind := x.kind, signature := x.signature, typeArguments := x.typeArguments
          owner := x.owner } := by
  change (p.write f).result e = _
  unfold Primary.write Primary.fields
  rw [Change.result_ofExcept_bind]
  cases p.kind.layout.mapM (·.read p.kind.name p.arguments) with
  | error e => rfl
  | ok typeArguments =>
    change Change.result (_ >>= _) e = _
    rw [Change.result_ofExcept_bind]
    cases p.kind.signature p.arguments f with
    | error e => rfl
    | ok signature =>
      change e.setImplementation _ _ _ _ = _
      cases owner : e.owner with
      | some first => exact Element.setImplementation_of_owned _ _ _ _ owner
      | none => exact Element.setImplementation_of_unowned _ _ _ _ owner

theorem Decoration.configure_primary_ok {p : Primary} (h : (primary p).configure f e = .ok e') :
    e.owner = none ∧ ∃ x, p.fields f = .ok x ∧
      e' = { e with
        kind := x.kind, signature := x.signature, typeArguments := x.typeArguments
        owner := x.owner } := by
  rw [configure_primary] at h
  cases fields : p.fields f with
  | error e =>
    rw [fields] at h
    cases h
  | ok x =>
    rw [fields] at h
    change (match e.owner with
      | some first => Except.error (ConfigurationError.primaryConflict first p.kind.name)
      | none => .ok _) = _ at h
    cases owned : e.owner with
    | some first =>
      rw [owned] at h
      cases h
    | none =>
      rw [owned] at h
      cases h
      exact ⟨rfl, x, rfl, rfl⟩

theorem Primary.fields_ok {p : Primary} {x : PrimaryFields} (h : p.fields f = .ok x) :
    ∃ typeArguments signature,
      p.kind.layout.mapM (·.read p.kind.name p.arguments) = .ok typeArguments ∧
      p.kind.signature p.arguments f = .ok signature ∧
      x = ⟨some p.kind.implementation, some signature, typeArguments, some p.kind.name⟩ := by
  unfold Primary.fields at h
  cases layout : p.kind.layout.mapM (·.read p.kind.name p.arguments) with
  | error e =>
    rw [layout] at h
    cases h
  | ok typeArguments =>
    rw [layout] at h
    cases named : p.kind.signature p.arguments f with
    | error e =>
      rw [named] at h
      cases h
    | ok signature =>
      rw [named] at h
      cases h
      exact ⟨typeArguments, signature, rfl, rfl, rfl⟩

theorem Primary.owner_of_fields {p : Primary} {x : PrimaryFields} (h : p.fields f = .ok x) :
    x.owner = some p.kind.name := by
  obtain ⟨_, _, _, _, rfl⟩ := fields_ok h
  rfl

/-- The type-arguments that a container is declared with. -/
theorem Primary.typeArguments_of_container {p : Primary} {x : PrimaryFields}
    (h : p.fields f = .ok x) (container : x.kind = some .container) :
    ∃ engine image, x.typeArguments = [engine, image] ++ List.replicate 5 unassigned := by
  obtain ⟨typeArguments, signature, layout, _, rfl⟩ := fields_ok h
  have kind : p.kind = .container := by
    have implementation : p.kind.implementation = .container := Option.some.inj container
    cases named : p.kind <;> rw [named] at implementation <;> first | rfl | cases implementation
  rw [kind] at layout
  simp only [PrimaryKind.layout, List.replicate, List.cons_append, List.nil_append,
    List.mapM_cons, List.mapM_nil, Entry.read] at layout
  cases engine : p.arguments.requiredText "engine" PrimaryKind.container.name with
  | error e =>
    rw [engine] at layout
    cases layout
  | ok engineText =>
    rw [engine] at layout
    cases image : p.arguments.requiredText "image" PrimaryKind.container.name with
    | error e =>
      rw [image] at layout
      cases layout
    | ok imageText =>
      rw [image] at layout
      cases layout
      exact ⟨engineText, imageText, rfl⟩

/-- What a task makes of a field-set that a primary annotation has written. -/
theorem Primary.completed_of_fields {p : Primary} {x : PrimaryFields} (h : p.fields f = .ok x) :
    x.completed f = { x with
      typeArguments := if x.kind = some .container then
        Decoration.completeContainer x.typeArguments f else x.typeArguments } := by
  unfold PrimaryFields.completed
  by_cases container : x.kind = some .container
  · obtain ⟨engine, image, declared⟩ := typeArguments_of_container h container
    rw [if_pos container, if_pos container, declared]
    rfl
  · rw [if_neg container, if_neg container]

/-- A task fills in two of the type-arguments of a container and keeps the others. -/
theorem Primary.completed_typeArguments {p : Primary} {x : PrimaryFields}
    (h : p.fields f = .ok x) (container : x.kind = some .container) :
    (x.completed f).typeArguments[2]? = some "CET_PYTHON" ∧
      (x.completed f).typeArguments[4]? = some (f.moduleName ++ "&" ++ f.name) ∧
      ∀ i, i ≠ 2 → i ≠ 4 → (x.completed f).typeArguments[i]? = x.typeArguments[i]? := by
  obtain ⟨engine, image, declared⟩ := typeArguments_of_container h container
  unfold PrimaryFields.completed
  rw [if_pos container, declared]
  refine ⟨rfl, rfl, fun i second fourth => ?_⟩
  rw [List.getElem?_set_ne fourth.symm, List.getElem?_set_ne second.symm]

/-- What an annotation other than a task does to a descriptor. -/
structure Decoration.Writes (a : Decoration) (f : Signature) (e e' : Element) : Prop where
  primary : (a.primary? = none ∧ e'.primaryFields = e.primaryFields) ∨
    ∃ p, a.primary? = some p ∧ e.owner = none ∧ p.fields f = .ok e'.primaryFields
  prolog : e'.prolog = a.prolog?.or e.prolog
  epilog : e'.epilog = a.epilog?.or e.epilog
  constraint : ∀ name, e'.constraint? name = (a.constraint? name).or (e.constraint? name)
  workflow : e'.workflow = e.workflow

theorem Decoration.configure_writes (other : a.isTask = false) (h : a.configure f e = .ok e') :
    a.Writes f e e' := by
  cases a with
  | task arguments options => cases other
  | prolog declared =>
    cases h
    exact ⟨.inl ⟨rfl, rfl⟩, rfl, rfl, fun _ => rfl, rfl⟩
  | epilog declared =>
    cases h
    exact ⟨.inl ⟨rfl, rfl⟩, rfl, rfl, fun _ => rfl, rfl⟩
  | constraint arguments =>
    cases h
    exact ⟨.inl ⟨rfl, rfl⟩, rfl, rfl, Dict.get?_insertMany e.constraints arguments.keyword, rfl⟩
  | primary p =>
    obtain ⟨unowned, x, written, rfl⟩ := configure_primary_ok h
    exact ⟨.inr ⟨p, rfl, unowned, written⟩, rfl, rfl, fun _ => rfl, rfl⟩
  | software arguments description =>
    cases h
    exact ⟨.inl ⟨rfl, rfl⟩, rfl, rfl,
      Dict.get?_insertMany e.constraints description.constraints, rfl⟩
  | dataTransformation specs =>
    cases h
    exact ⟨.inl ⟨rfl, rfl⟩, rfl, rfl, fun _ => rfl, rfl⟩

end Writing

namespace Decoration

variable {f : Signature} {as : List Decoration} {e e' : Element}

theorem configureAll_cons (a : Decoration) (as : List Decoration) (e : Element) :
    configureAll f (a :: as) e = a.configure f e >>= configureAll f as := rfl

theorem configureAll_append (as bs : List Decoration) (e : Element) :
    configureAll f (as ++ bs) e = configureAll f as e >>= configureAll f bs :=
  List.foldlM_append

/-- Of a field that annotations may write again, the innermost one to write has the last word. -/
theorem configureAll_last {β : Type} (field : Element → Option β) (write : Decoration → Option β)
    (step : ∀ a e e', Writes a f e e' → field e' = (write a).or (field e))
    (noTask : ∀ a ∈ as, a.isTask = false) (written : configureAll f as e = .ok e') :
    field e' = (as.filterMap write).getLast?.or (field e) := by
  induction as generalizing e with
  | nil =>
    cases written
    rfl
  | cons a as ih =>
    rw [configureAll_cons] at written
    cases first : a.configure f e with
    | error x =>
      rw [first] at written
      cases written
    | ok e₁ =>
      rw [first] at written
      have here := step a e e₁ (configure_writes (noTask a List.mem_cons_self) first)
      have inner := ih (fun b hb => noTask b (List.mem_cons_of_mem a hb)) written
      rw [inner, here, List.filterMap_cons]
      cases write a with
      | none => rfl
      | some x =>
        rw [List.getLast?_cons]
        cases (as.filterMap write).getLast? with
        | none => rfl
        | some y => rfl

/-- The primary field-set is written once. -/
theorem configureAll_primary (noTask : ∀ a ∈ as, a.isTask = false)
    (written : configureAll f as e = .ok e') :
    (as.filterMap primary? = [] ∧ e'.primaryFields = e.primaryFields) ∨
      ∃ p, as.filterMap primary? = [p] ∧ e.owner = none ∧ p.fields f = .ok e'.primaryFields := by
  induction as generalizing e with
  | nil =>
    cases written
    exact .inl ⟨rfl, rfl⟩
  | cons a as ih =>
    rw [configureAll_cons] at written
    cases first : a.configure f e with
    | error x =>
      rw [first] at written
      cases written
    | ok e₁ =>
      rw [first] at written
      have inner := ih (fun b hb => noTask b (List.mem_cons_of_mem a hb)) written
      rcases (configure_writes (noTask a List.mem_cons_self) first).primary with
        ⟨silent, same⟩ | ⟨p, speaks, unowned, fields⟩
      · rw [List.filterMap_cons_none silent]
        rcases inner with ⟨none, same'⟩ | ⟨p, one, unowned, fields⟩
        · exact .inl ⟨none, same'.trans same⟩
        · exact .inr ⟨p, one, (congrArg PrimaryFields.owner same).symm.trans unowned, fields⟩
      · rw [List.filterMap_cons_some speaks]
        rcases inner with ⟨none, same⟩ | ⟨p', _, unowned', _⟩
        · rw [none, same]
          exact .inr ⟨p, rfl, unowned, fields⟩
        · -- The field-set has an owner now, so nobody else can have written it.
          have owned : e₁.owner = some p.kind.name := Primary.owner_of_fields fields
          cases owned.symm.trans unowned'

section Tasks

variable {arguments : Arguments} {options : TaskOptions}

/-- A task writes the field-set of the function itself into a descriptor without one. -/
theorem configure_task_of_unowned (unowned : e.owner = none) :
    (task arguments options).configure f e = .ok { e with
      kind := some .method, signature := some f.qualifiedName
      typeArguments := [f.moduleName, f.name], owner := some taskName
      workflow := options.isWorkflow } := by
  have first : ¬ e.hasPrimary = true := by
    unfold Element.hasPrimary
    rw [unowned]
    exact Bool.false_ne_true
  have written := Element.setImplementation_of_unowned taskName .method f.qualifiedName
    [f.moduleName, f.name] unowned
  change Change.result (_ >>= _) e = _
  rw [Change.result_bind_modify]
  unfold implementTask
  rw [Change.result_get_bind, if_pos first]
  change (e.setImplementation _ _ _ _).map _ = _
  rw [written]
  rfl

/-- A task completes the field-set that it finds in a descriptor. -/
theorem configure_task_of_owned (owned : e.owner ≠ none) :
    (task arguments options).configure f e = .ok { e with
      typeArguments := if e.kind = some .container then completeContainer e.typeArguments f
        else e.typeArguments
      workflow := options.isWorkflow } := by
  have later : ¬ ¬ e.hasPrimary = true := not_not_intro (Option.isSome_iff_ne_none.mpr owned)
  change Change.result (_ >>= _) e = _
  rw [Change.result_bind_modify]
  unfold implementTask
  rw [Change.result_get_bind, if_neg later]
  by_cases container : e.kind = some .container
  · rw [if_pos container, if_pos container]
    rfl
  · rw [if_neg container, if_neg container]
    rfl

/-- A task writes into every descriptor. -/
theorem exists_configure_task (arguments : Arguments) (options : TaskOptions) (f : Signature)
    (e : Element) : ∃ e', (task arguments options).configure f e = .ok e' := by
  by_cases unowned : e.owner = none
  · exact ⟨_, configure_task_of_unowned unowned⟩
  · exact ⟨_, configure_task_of_owned unowned⟩

theorem configure_task_ok (written : (task arguments options).configure f e = .ok e') :
    e'.prolog = e.prolog ∧ e'.epilog = e.epilog ∧ e'.constraints = e.constraints ∧
      e'.workflow = options.isWorkflow ∧
      ((e.owner = none ∧ e'.primaryFields = f.methodFields) ∨
        (e.owner ≠ none ∧ e'.primaryFields = { e.primaryFields with
          typeArguments := if e.kind = some .container then completeContainer e.typeArguments f
            else e.typeArguments })) := by
  by_cases unowned : e.owner = none
  · rw [configure_task_of_unowned unowned] at written
    cases written
    exact ⟨rfl, rfl, rfl, rfl, .inl ⟨unowned, rfl⟩⟩
  · rw [configure_task_of_owned unowned] at written
    cases written
    exact ⟨rfl, rfl, rfl, rfl, .inr ⟨unowned, rfl⟩⟩

end Tasks

/-- What annotations around a task write into an empty descriptor. -/
theorem configureAll_describes {arguments : Arguments} {options : TaskOptions}
    (noTask : ∀ a ∈ as, a.isTask = false)
    (written : configureAll f (as ++ [.task arguments options]) .empty = .ok e') :
    e'.Describes f as options := by
  rw [configureAll_append] at written
  cases around : configureAll f as .empty with
  | error x =>
    rw [around] at written
    cases written
  | ok e =>
    rw [around] at written
    have within : (task arguments options).configure f e = .ok e' := by
      change (configure _ f e >>= pure) = _ at written
      rwa [bind_pure] at written
    obtain ⟨prolog, epilog, constraints, workflow, primary⟩ := configure_task_ok within
    refine ⟨?_, ?_, ?_, ?_, workflow⟩
    · rcases configureAll_primary noTask around with ⟨none, same⟩ | ⟨p, one, _, fields⟩
      · have unowned : e.owner = Option.none := congrArg PrimaryFields.owner same
        rcases primary with ⟨_, method⟩ | ⟨owned, _⟩
        · exact .inl ⟨none, method⟩
        · exact absurd unowned owned
      · have owner : e.owner = some p.kind.name := Primary.owner_of_fields fields
        rcases primary with ⟨unowned, _⟩ | ⟨_, completed⟩
        · cases owner.symm.trans unowned
        · exact .inr ⟨p, e.primaryFields, one, fields,
            completed.trans (Primary.completed_of_fields fields).symm⟩
    · rw [prolog, configureAll_last (·.prolog) prolog? (fun _ _ _ w => w.prolog) noTask around]
      exact Option.or_none
    · rw [epilog, configureAll_last (·.epilog) epilog? (fun _ _ _ w => w.epilog) noTask around]
      exact Option.or_none
    · intro name
      unfold Element.constraint?
      rw [constraints]
      exact (configureAll_last (·.constraint? name) (constraint? name)
        (fun _ _ _ w => w.constraint name) noTask around).trans Option.or_none

end Decoration

namespace TaskFunction

/-- The descriptor of every task that a decorated function hands in and of every task that a call
of it registers, whatever calls went before, is what its annotations say. -/
theorem descriptor_describes {as inner : List Decoration} {arguments : Arguments}
    {options : TaskOptions} {base : BareFunction} {o o₁ : Orchestrator} {f : TaskFunction}
    (tidy : o.memory.Tidy) (decorated : decorate as (bare base) o = (f, o₁))
    (innermost : as.flatMap Decoration.layers = inner ++ [.task arguments options])
    (noTask : ∀ a ∈ inner, a.isTask = false) (history : List (Event Unit)) (r : Request) :
    let late := Event.replay (fun _ => f) history o₁
    (∀ q, f.handed r late = some q →
        q.descriptor.element.Describes base.signature inner options) ∧
      ∀ x ∈ (f.outcome r late).journal.registrations,
        x.descriptor.element.Describes base.signature inner options ∧
          ∃ q, f.handed r late = some q ∧ x.descriptor.element = q.descriptor.element := by
  intro late
  obtain ⟨bare, layers⟩ := layers_of_decorate decorated
  rw [innermost] at layers
  have signature : f.signature = base.signature := congrArg BareFunction.signature bare
  have describes (q : TaskRequest) (handed : f.handed r late = some q) :
      q.descriptor.element.Describes base.signature inner options := by
    have written := written_of_handed (replay_invariant tidy decorated history) handed
    rw [(ending_of_innermost layers noTask).1, layers] at written
    rw [← signature]
    exact Decoration.configureAll_describes noTask written
  refine ⟨describes, fun x registered => ?_⟩
  rw [outcome_eq] at registered
  obtain ⟨y, entered, rfl⟩ := List.mem_map.mp registered
  obtain ⟨q, handed, rfl⟩ := handed_of_mem_registrations entered
  exact ⟨describes q handed, q, handed, rfl⟩

theorem descriptor_describes_second_call :
    let hook : Decoration := .prolog ⟨.empty, ⟨"date", "", "false"⟩⟩
    let made := decorate [hook, .task .empty .standard] (bare .echo) .master
    let r := Request.plain ⟨.master, false⟩ .empty
    let late := Event.replay (fun _ => made.1) [.call () r] made.2
    ∃ x ∈ (made.1.outcome r late).journal.registrations,
      x.descriptor.element.Describes BareFunction.echo.signature [hook] .standard := by
  intro hook made r late
  have registers : ((made.1.outcome r late).journal.registrations.head?).isSome = true := rfl
  obtain ⟨x, first⟩ := Option.isSome_iff_exists.mp registers
  have registered := List.mem_of_mem_head? first
  have described := (descriptor_describes Memory.tidy_fresh rfl (show _ = [hook] ++ [_] from rfl)
    (by decide) [.call () r] r).2 x registered
  exact ⟨x, registered, described.1⟩

end TaskFunction

end TaskDecoration
