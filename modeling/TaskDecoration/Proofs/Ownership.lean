import TaskDecoration.Proofs.Legibility
import TaskDecoration.Proofs.Misfit

/-!
# Which fields an annotation owns

An annotation writes the fields of a descriptor that it owns, and keeps all others
(`Decoration.Keeps`). One that has been declared refuses to write for two reasons only
(`Decoration.Refuses`): an argument that is read late has no spelling, or the primary field-set has
an owner already. Then nothing has been written into the descriptor, nor into the call
(`configure_atomic`).
-/

set_option autoImplicit false

namespace TaskDecoration

namespace Decoration

/-- Reasons for which an annotation does not write into a descriptor. A late argument without a
spelling is noticed before the owner is. -/
inductive Refuses (x : Decoration) (e : Element) : ConfigurationError → Prop where
  | illegible {p : Primary} {argument : String} {v : Value} (primary : x = .primary p)
      (unread : argument ∈ p.kind.unread) (given : p.arguments.get? argument = some v)
      (illegible : v.spelling? = none) :
      Refuses x e (.invalidArgument p.kind.name argument "a string" v.sort)
  | conflict {p : Primary} {first : String} (primary : x = .primary p) (legible : p.Legible)
      (owned : e.owner = some first) : Refuses x e (.primaryConflict first p.kind.name)

/-- An annotation that has made a descriptor `e'` of `e` has written nothing but fields of its
own. -/
structure Keeps (x : Decoration) (e e' : Element) : Prop where
  owned : e.owner ≠ none →
    e'.kind = e.kind ∧ e'.signature = e.signature ∧ e'.owner = e.owner ∧
      (e'.typeArguments = e.typeArguments ∨ x.isTask = true ∧ e.kind = some .container)
  unowned : e.owner = none →
    e'.primaryFields = e.primaryFields ∨ x.isTask = true ∨ ∃ p, x = .primary p
  prolog : e'.prolog = e.prolog ∨ ∃ h, x = .prolog h
  epilog : e'.epilog = e.epilog ∨ ∃ h, x = .epilog h
  workflow : e'.workflow = e.workflow ∨ x.isTask = true
  constraints : e'.constraints = e.constraints ∨
    (∃ a, x = .constraint a) ∨ ∃ a s, x = .software a s
  undeclared : ∀ name, x.constraint? name = none → e'.constraint? name = e.constraint? name
  transformation : ∀ specs, x = .dataTransformation specs → e' = e

section Writing

variable {x : Decoration} {f : Signature} {e e' : Element}

/-- A task keeps the field-set it finds, but for the type-arguments of a container. -/
theorem keeps_task {arguments : Arguments} {options : TaskOptions}
    (written : (task arguments options).configure f e = .ok e') :
    (task arguments options).Keeps e e' := by
  obtain ⟨prolog, epilog, constraints, -, primary⟩ := configure_task_ok written
  refine {
    owned := fun owned => ?_
    unowned := fun _ => .inr (.inl rfl)
    prolog := .inl prolog
    epilog := .inl epilog
    workflow := .inr rfl
    constraints := .inl constraints
    undeclared := fun name _ => congrArg (Dict.get? · name) constraints
    transformation := nofun }
  rcases primary with ⟨unowned, -⟩ | ⟨-, fields⟩
  · exact absurd unowned owned
  · obtain ⟨kind, signature, typeArguments, owner⟩ := PrimaryFields.mk.inj fields
    refine ⟨kind, signature, owner, ?_⟩
    by_cases container : e.kind = some .container
    · exact .inr ⟨rfl, container⟩
    · exact .inl (typeArguments.trans (if_neg container))

/-- Any other annotation keeps the field-set it finds. -/
theorem Writes.keeps_owned (h : x.Writes f e e') (owned : e.owner ≠ none) :
    e'.primaryFields = e.primaryFields := by
  rcases h.primary with ⟨-, same⟩ | ⟨p, -, unowned, -⟩
  · exact same
  · exact absurd unowned owned

theorem configure_keeps (written : x.configure f e = .ok e') : x.Keeps e e' := by
  cases task : x.isTask with
  | true =>
    cases x with
    | task arguments options => exact keeps_task written
    | _ => cases task
  | false =>
    have writes := configure_writes task written
    refine {
      owned := fun owned => ?_
      unowned := fun unowned => ?_
      prolog := ?_
      epilog := ?_
      workflow := .inl writes.workflow
      constraints := ?_
      undeclared := fun name silent => by rw [writes.constraint, silent, Option.none_or]
      transformation := ?_ }
    · obtain ⟨kind, signature, typeArguments, owner⟩ :=
        PrimaryFields.mk.inj (writes.keeps_owned owned)
      exact ⟨kind, signature, owner, .inl typeArguments⟩
    · cases x with
      | primary p => exact .inr (.inr ⟨p, rfl⟩)
      | _ => exact .inl (writes.primary.elim And.right fun ⟨p, absent, _⟩ => nomatch absent)
    · cases x with
      | prolog declared => exact .inr ⟨declared, rfl⟩
      | _ => exact .inl writes.prolog
    · cases x with
      | epilog declared => exact .inr ⟨declared, rfl⟩
      | _ => exact .inl writes.epilog
    · cases x with
      | constraint arguments => exact .inr (.inl ⟨arguments, rfl⟩)
      | software arguments description => exact .inr (.inr ⟨arguments, description, rfl⟩)
      | _ => exact .inl (Dict.ext writes.constraint)
    · rintro specs rfl
      cases written
      rfl

/-- A declared annotation refuses to write only for the two reasons. -/
theorem configure_refuses {cause : ConfigurationError} (declared : x.Declared)
    (refused : x.configure f e = .error cause) : x.Refuses e cause := by
  cases x with
  | task arguments options =>
    obtain ⟨e', written⟩ := exists_configure_task arguments options f e
    cases refused.symm.trans written
  | primary p =>
    have declared := declared.primary (p := p) (by simp [layers])
    rw [configure_primary] at refused
    rcases declared.fields_cases with ⟨legible, fields⟩ | ⟨-, flawed, flaw, failed⟩
    · obtain ⟨fields, read⟩ := fields f
      cases owned : e.owner with
      | none =>
        rw [read, owned] at refused
        cases refused
      | some first =>
        rw [read, owned] at refused
        cases refused
        exact .conflict rfl legible owned
    · rw [failed f] at refused
      cases refused
      obtain ⟨argument, unread, v, given, illegible, rfl⟩ := flaw
      exact .illegible rfl unread given illegible
  | _ => cases refused

end Writing

end Decoration

open Change Procedure in
/-- A layer that does not write has done no more than to take the gate of the stack and to ask for
the descriptor, which is what it was. -/
theorem Layer.configure_runOn_error {l : Layer} {f : Signature} {s t : Situation} {e : TaskError}
    (failed : (l.configure f).runOn s = (.error e, t)) :
    ∃ cause, e = .configuration cause ∧
      l.decoration.configure f s.call.descriptor = .error cause ∧
      t = { s with call := s.call.hold.withElement s.call.descriptor } := by
  by_cases due : s.call.context.configures = true ∧ ¬ s.host.memory.configured l.id = true
  · rw [configure_runOn_due due] at failed
    cases written : l.decoration.configure f s.call.descriptor with
    | error cause =>
      rw [written] at failed
      obtain ⟨error, situation⟩ := Prod.mk.inj failed
      exact ⟨cause, (Except.error.inj error).symm, rfl, situation.symm⟩
    | ok element =>
      rw [written] at failed
      cases failed
  · rw [configure_runOn_idle due] at failed
    cases failed

namespace Decoration

/-- A declared annotation writes nothing but fields of its own, or refuses to and has written
nothing: its layer leaves the descriptor of the call and everything else as it was, and holds the
gate. -/
theorem configure_atomic {x : Decoration} (declared : x.Declared) (f : Signature) :
    (∀ e e' cause, (x.write f).runOn e = (.error cause, e') → x.Refuses e cause ∧ e' = e) ∧
    (∀ e e', (x.write f).runOn e = (.ok (), e') → x.Keeps e e') ∧
    ∀ (l : Layer) (s t : Situation) (e : TaskError), l.decoration = x →
      (l.configure f).runOn s = (.error e, t) →
        (∃ cause, e = .configuration cause ∧ x.Refuses s.call.descriptor cause) ∧
          t.call.descriptor = s.call.descriptor ∧
          t = { s with call := s.call.hold.withElement s.call.descriptor } := by
  refine ⟨fun e e' cause refused => ?_, fun e e' written => ?_, ?_⟩
  · rw [write_runOn, Change.settle_eq_error_iff] at refused
    exact ⟨configure_refuses declared refused.1, refused.2⟩
  · rw [write_runOn, Change.settle_eq_ok_iff] at written
    exact configure_keeps written
  · rintro l s t e rfl failed
    obtain ⟨cause, rfl, refused, rfl⟩ := Layer.configure_runOn_error failed
    exact ⟨⟨cause, rfl, configure_refuses declared refused⟩, rfl, rfl⟩

/-- An annotation that can be put around a function twice, but not write twice. -/
def oneNode : Decoration :=
  .primary ⟨.multiNode, ⟨[], Dict.empty.insert Name.computingNodes (.int 1)⟩⟩

/-- The descriptor that the annotation has written into. -/
def oneNodeElement : Element :=
  { Element.empty with
    kind := some .multiNode, signature := some "m.f", owner := some "@multinode" }

theorem configure_atomic_oneNode :
    let f := Signature.nullary "m" "f"
    let l : Layer := ⟨0, oneNode, ⟨.master, false⟩⟩
    let s : Situation :=
      ⟨(Call.start ⟨.master, false⟩ .empty).withElement oneNodeElement, .master⟩
    oneNode.Declared ∧ oneNode.Keeps .empty oneNodeElement ∧
      oneNode.Refuses oneNodeElement (.primaryConflict "@multinode" "@multinode") ∧
      ((l.configure f).runOn s).2.call.descriptor = oneNodeElement := by
  intro f l s
  have declared : oneNode.Declared := .inr ⟨fun _ => none, .primary .multiNode, .empty, rfl⟩
  obtain ⟨refuses, keeps, atomic⟩ := configure_atomic declared f
  have again : (oneNode.write f).runOn oneNodeElement =
    (.error (.primaryConflict "@multinode" "@multinode"), oneNodeElement) := rfl
  have failed : (l.configure f).runOn s =
    (.error (.configuration (.primaryConflict "@multinode" "@multinode")),
      ((l.configure f).runOn s).2) := rfl
  exact ⟨declared, keeps _ _ rfl, (refuses _ _ _ again).1, (atomic l s _ _ rfl failed).2.1⟩

end Decoration

end TaskDecoration
