import TaskDecoration.Proofs.Legibility
import TaskDecoration.Proofs.Misfit
import TaskDecoration.Proofs.Units

/-!
# What becomes of accepted annotations

An annotation that has been accepted writes into every fresh descriptor, whatever the function, or
into none. It writes if the arguments that its declaration has not read are legible. If they are
not, nothing says so until the function is called, and then every call that configures fails
(`DecorationType.accepted_configures_iff`).
-/

set_option autoImplicit false

namespace TaskDecoration

namespace Decoration

/-- The primary annotation that an annotation stands for. -/
def described? : Decoration → Option Primary
  | primary p => some p
  | software _ s => some s.described
  | _ => none

/-- The arguments of the primary annotation are legible, if there is one. -/
def Legible (x : Decoration) : Prop := ∀ p, x.described? = some p → p.Legible

/-- The error of an illegible argument of the primary annotation. -/
def Flaw (x : Decoration) (e : ConfigurationError) : Prop :=
  ∃ p, x.described? = some p ∧ p.Flaw e

/-- The layers of an annotation are some that write into any descriptor, around the primary one. -/
theorem exists_layers {x : Decoration} (noTask : x.isTask = false) :
    ∃ outer, x.layers = outer ++ (x.described?.map primary).toList ∧
      (∀ y ∈ outer, y.isTask = false) ∧ outer.filterMap primary? = [] := by
  cases x with
  | task arguments options => cases noTask
  | primary p => exact ⟨[], rfl, by simp, rfl⟩
  | software arguments s =>
    have hooks : ∀ y ∈ (s.prolog.map prolog).toList ++ (s.epilog.map epilog).toList,
        y.isTask = false ∧ y.primary? = none := by
      intro y hy
      rcases List.mem_append.mp hy with before | after
      · obtain ⟨h, -, rfl⟩ := Option.map_eq_some_iff.mp (Option.mem_toList.mp before)
        exact ⟨rfl, rfl⟩
      · obtain ⟨h, -, rfl⟩ := Option.map_eq_some_iff.mp (Option.mem_toList.mp after)
        exact ⟨rfl, rfl⟩
    refine ⟨software arguments s ::
      ((s.prolog.map prolog).toList ++ (s.epilog.map epilog).toList), rfl, ?_, ?_⟩
    · intro y hy
      rcases List.mem_cons.mp hy with rfl | inner
      · rfl
      · exact (hooks y inner).1
    · exact List.filterMap_eq_nil_iff.mpr fun y hy => by
        rcases List.mem_cons.mp hy with rfl | inner
        · rfl
        · exact (hooks y inner).2
  | _ => exact ⟨[_], rfl, by simp [isTask], rfl⟩

variable {x : Decoration}

/-- A declared annotation writes into fresh descriptors of all functions, or of none, with one error
for all. What comes inside it makes no difference to that error. -/
theorem Declared.configure_cases (declared : x.Declared) :
    (x.Legible ∧ ∀ f, ∃ e, configureAll f x.layers .empty = .ok e) ∨
      (¬ x.Legible ∧ ∃ e, x.Flaw e ∧
        ∀ f inner, configureAll f (x.layers ++ inner) .empty = .error e) := by
  cases task : x.isTask with
  | true =>
    obtain ⟨arguments, options, rfl⟩ := isTask_iff.mp task
    refine .inl ⟨fun p absent => (nomatch absent), fun f => ?_⟩
    obtain ⟨e, written⟩ := exists_configure_task arguments options f .empty
    exact ⟨e, (bind_pure _).trans written⟩
  | false =>
    obtain ⟨outer, layers, noTask, silent⟩ := exists_layers task
    have fit (f : Signature) : Fit f outer := ⟨noTask, by simp [silent], by simp [silent]⟩
    cases described : x.described? with
    | none =>
      refine .inl ⟨fun p h => (nomatch described.symm.trans h), fun f => ?_⟩
      rw [layers, described]
      exact exists_configureAll ((List.append_nil outer).symm ▸ fit f) (.inl rfl)
    | some p =>
      rw [described] at layers
      have read : p.Declared := declared.primary (layers ▸ List.mem_append_right outer (by simp))
      rcases read.fields_cases with ⟨legible, written⟩ | ⟨illegible, e, flaw, refused⟩
      · refine .inl ⟨fun q h => ?_, fun f => ?_⟩
        · cases described.symm.trans h
          exact legible
        · obtain ⟨fields, read⟩ := written f
          rw [layers]
          exact exists_configureAll ((fit f).first silent read) (.inl rfl)
      · refine .inr ⟨fun legible => illegible (legible p described), e, ⟨p, described, flaw⟩, ?_⟩
        obtain ⟨name, _, v, _, _, rfl⟩ := flaw
        intro f inner
        have offends : Offends f outer inner (.primary p)
            (.invalidArgument p.kind.name name "a string" v.sort) :=
          .illegible name v.sort (refused f)
        rw [layers, List.append_assoc]
        exact configureAll_of_offender (fit f) offends rfl

end Decoration

namespace Memory

variable {m : Memory} {c : Context} {f : Signature} {ls : List Layer} {e : Element}

/-- Layers that can write together are not refused, whether they have written before or not. -/
theorem drawUp_of_written (h : m.Pristine ls ∨ m.Settled f ls) (configures : c.configures = true)
    (written : Decoration.configureAll f ((reached ls).map (·.decoration)) .empty = .ok e) :
    ∃ b, drawUp m c f (reached ls) .blank = .ok b := by
  rcases h with pristine | settled
  · obtain ⟨b, drawn, -⟩ := pristine.drawUp_ok configures written
    exact ⟨b, drawn⟩
  · exact ⟨.blank, settled.drawUp_eq⟩

/-- Layers that cannot write together are refused, again and again. -/
theorem drawUp_of_refused {cause : ConfigurationError} (h : m.Pristine ls ∨ m.Settled f ls)
    (configures : c.configures = true)
    (refused : Decoration.configureAll f ((reached ls).map (·.decoration)) .empty =
      .error cause) : drawUp m c f (reached ls) .blank = .error cause := by
  rcases h with pristine | settled
  · have some : reached ls ≠ [] := by
      intro none
      rw [none] at refused
      cases refused
    rw [drawUp_configures configures, pristine.unmarked_eq, if_neg some]
    change (Decoration.configureAll _ _ .empty).map _ = _
    rw [refused]
    rfl
  · obtain ⟨e, written, -⟩ := settled.written
    cases refused.symm.trans written

end Memory

namespace TaskFunction

/-- The function is a task inside an annotation, and its layers have been called for nothing
else. -/
structure Wears (g : TaskFunction) (x : Decoration) (o : Orchestrator) : Prop where
  noTask : x.isTask = false
  layers : ∃ arguments options, g.layers.map (·.decoration) = x.layers ++ [.task arguments options]
  solitary : g.Solitary o

section Wearing

variable {g : TaskFunction} {x : Decoration} {o : Orchestrator} {r : Request}

theorem Wears.noTask_layers (wears : g.Wears x o) : ∀ y ∈ x.layers, y.isTask = false := by
  obtain ⟨outer, layers, noTask, -⟩ := Decoration.exists_layers wears.noTask
  intro y hy
  rw [layers] at hy
  rcases List.mem_append.mp hy with around | primary
  · exact noTask y around
  · obtain ⟨p, -, rfl⟩ := Option.map_eq_some_iff.mp (Option.mem_toList.mp primary)
    rfl

theorem Wears.arrival (wears : g.Wears x o) :
    reached g.layers = g.layers ∧ ∃ l options, ending g.layers = .task l options [] := by
  obtain ⟨arguments, options, layers⟩ := wears.layers
  obtain ⟨all, l, arrival⟩ := ending_of_innermost layers wears.noTask_layers
  exact ⟨all, l, options, arrival⟩

theorem Wears.quiet (wears : g.Wears x o) (quiet : x.Quiet) :
    ∀ l ∈ g.layers, l.decoration.Quiet := by
  obtain ⟨arguments, options, layers⟩ := wears.layers
  intro l hl
  have member : l.decoration ∈ x.layers ++ [.task arguments options] :=
    layers ▸ List.mem_map_of_mem hl
  rcases List.mem_append.mp member with around | last
  · exact Decoration.quiet_layers quiet around
  · rw [List.mem_singleton.mp last]
    exact fun specs same => nomatch same

theorem Wears.invariant (wears : g.Wears x o) :
    o.memory.Pristine g.layers ∨ o.memory.Settled g.signature g.layers :=
  wears.solitary.pristine_or_settled

/-- Inside an annotation that writes, every call hands in its task. -/
theorem Wears.handed (wears : g.Wears x o) (quiet : x.Quiet)
    (configures : r.context.configures = true) {e : Element}
    (written : Decoration.configureAll g.signature x.layers .empty = .ok e) :
    ∃ q, g.handed r o = some q := by
  obtain ⟨all, l, options, arrival⟩ := wears.arrival
  obtain ⟨arguments, options', layers⟩ := wears.layers
  -- The task itself writes into any descriptor, so all layers write together.
  obtain ⟨e', completed⟩ := Decoration.exists_configure_task arguments options' g.signature e
  have together : Decoration.configureAll g.signature ((reached g.layers).map (·.decoration))
      .empty = .ok e' := by
    rw [all, layers, Decoration.configureAll_append, written]
    exact (bind_pure _).trans completed
  obtain ⟨b, drawn⟩ := Memory.drawUp_of_written wears.invariant configures together
  rw [all] at drawn
  have crossing : g.cross r o = (.ok b, g.arriving r) := by
    unfold TaskFunction.cross
    rw [all]
    exact walk_quiet (Context.admitsCalls_of_configures configures) (wears.quiet quiet) drawn _
  obtain ⟨q, handed, -⟩ := handed_of_solitary wears.solitary arrival configures crossing
  exact ⟨q, handed⟩

/-- Inside an annotation that cannot write, every call fails with its error. -/
theorem Wears.refused (wears : g.Wears x o) (quiet : x.Quiet)
    (configures : r.context.configures = true) {cause : ConfigurationError}
    (refused : ∀ inner, Decoration.configureAll g.signature (x.layers ++ inner) .empty =
      .error cause) : (g.outcome r o).result = .error (.configuration cause) := by
  obtain ⟨all, -⟩ := wears.arrival
  obtain ⟨arguments, options, layers⟩ := wears.layers
  have together : Decoration.configureAll g.signature ((reached g.layers).map (·.decoration))
      .empty = .error cause := by
    rw [all, layers]
    exact refused _
  have drawn := Memory.drawUp_of_refused wears.invariant configures together
  rw [all] at drawn
  have stopped : ∃ d, g.cross r o = (.error (.configuration cause), d) := by
    unfold TaskFunction.cross
    rw [all]
    exact walk_quiet_refused (Context.admitsCalls_of_configures configures) (wears.quiet quiet)
      drawn r.draft
  obtain ⟨d, crossing⟩ := stopped
  rw [outcome_eq, report_of_stopped crossing]
  rfl

end Wearing

end TaskFunction

namespace DecorationType

variable {files : Files} {t : DecorationType} {a : Arguments} {x : Decoration}

/-- No transformation is declared by arguments. -/
theorem quiet_of_declare (accepted : t.declare files a = .ok x) : x.Quiet := by
  rintro specs rfl
  cases t with
  | task =>
    obtain ⟨_, _, rest⟩ := Except.bind_eq_ok_iff.mp accepted
    obtain ⟨_, _, rest⟩ := Except.bind_eq_ok_iff.mp rest
    cases rest
  | prolog =>
    obtain ⟨_, _, other⟩ := Except.map_eq_ok_iff.mp accepted
    cases other
  | epilog =>
    obtain ⟨_, _, other⟩ := Except.map_eq_ok_iff.mp accepted
    cases other
  | constraint =>
    obtain ⟨_, _, rest⟩ := Except.bind_eq_ok_iff.mp accepted
    cases rest
  | primary kind =>
    obtain ⟨_, _, other⟩ := Except.map_eq_ok_iff.mp accepted
    cases other
  | software =>
    obtain ⟨_, _, rest⟩ := Except.bind_eq_ok_iff.mp accepted
    obtain ⟨path, _, rest⟩ := Except.bind_eq_ok_iff.mp rest
    split at rest
    · cases rest
    · obtain ⟨_, _, rest⟩ := Except.bind_eq_ok_iff.mp rest
      cases rest

/-- An accepted annotation writes into a fresh descriptor of every function exactly if it is
legible, and then a task inside it is handed in by every call. Otherwise one of its arguments is a
flaw: no descriptor is written, and every call of a task inside it fails with that error. Whether
it is legible, only the given arguments decide. -/
theorem accepted_configures_iff (accepted : t.declare files a = .ok x) :
    (∀ f, (∃ e, Decoration.configureAll f x.layers .empty = .ok e) ↔ x.Legible) ∧
      (x.Legible → ∀ (g : TaskFunction) (o : Orchestrator) (r : Request), g.Wears x o →
        r.context.configures = true → ∃ q, g.handed r o = some q) ∧
      (¬ x.Legible → ∃ e, x.Flaw e ∧
        (∀ f, Decoration.configureAll f x.layers .empty = .error e) ∧
        ∀ (g : TaskFunction) (o : Orchestrator) (r : Request), g.Wears x o →
          r.context.configures = true → (g.outcome r o).result = .error (.configuration e)) ∧
      ∀ k, t = .primary k → (x.Legible ↔ ∀ name ∈ k.unread, (t.respell a).LegibleAt name) := by
  have quiet := quiet_of_declare accepted
  have given (k : PrimaryKind) (primary : t = .primary k) :
      x.Legible ↔ ∀ name ∈ k.unread, (t.respell a).LegibleAt name := by
    subst primary
    obtain ⟨p, declared, rfl⟩ := Except.map_eq_ok_iff.mp accepted
    have alone : (Decoration.primary p).Legible ↔ p.Legible :=
      ⟨fun h => h p rfl, fun h q same => Option.some.inj same ▸ h⟩
    exact alone.trans (Primary.legible_iff_given declared)
  rcases Decoration.Declared.configure_cases (.inr ⟨files, t, a, accepted⟩) with
    ⟨legible, written⟩ | ⟨illegible, e, flaw, refused⟩
  · refine ⟨fun f => iff_of_true (written f) legible, fun _ g o r wears configures => ?_,
      fun illegible => absurd legible illegible, given⟩
    obtain ⟨e, written⟩ := written g.signature
    exact wears.handed quiet configures written
  · have alone (f : Signature) : Decoration.configureAll f x.layers .empty = .error e := by
      have same := refused f []
      rwa [List.append_nil] at same
    refine ⟨fun f => iff_of_false ?_ illegible, fun legible => absurd legible illegible,
      fun _ => ⟨e, flaw, alone, fun g o r wears configures => ?_⟩, given⟩
    · rintro ⟨e', written⟩
      cases (alone f).symm.trans written
    · exact wears.refused quiet configures (refused g.signature)

/-- An integer in place of a directory has a spelling. -/
theorem accepted_configures_iff_integer :
    let a : Arguments := .ofDict (.ofList [("binary", .text "b"), ("workingDir", .int 5)])
    ∃ x, (primary .binary).declare (fun _ => none) a = .ok x ∧ x.Legible ∧
      ∀ f, ∃ e, Decoration.configureAll f x.layers .empty = .ok e := by
  intro a
  cases made : (primary .binary).declare (fun _ => none) a with
  | error e => cases made
  | ok x =>
    obtain ⟨writes, -, -, given⟩ := accepted_configures_iff made
    have names : PrimaryKind.binary.unread = ["working_dir", "params"] := by decide
    have legible : x.Legible := by
      refine (given .binary rfl).mpr fun name unread v there => ?_
      rw [names] at unread
      rcases List.mem_pair.mp unread with rfl | rfl
      · cases there
        exact ⟨_, rfl⟩
      · cases there
    exact ⟨x, rfl, legible, fun f => (writes f).mpr legible⟩

/-- A list has none. It is accepted, and then no descriptor can be written, and no call gets
through. -/
theorem accepted_illegible :
    let a : Arguments := .ofDict (.ofList [("binary", .text "b"), ("working_dir", .list [.int 1])])
    let cause := ConfigurationError.invalidArgument "@binary" "working_dir" "a string" "array"
    ∃ x, (primary .binary).declare (fun _ => none) a = .ok x ∧
      (∀ f, Decoration.configureAll f x.layers .empty = .error cause) ∧
      let made := TaskFunction.decorate [x, .task .empty .standard] (.bare .echo) .master
      ∀ b, (made.1.call b made.2).1 = .error (.configuration cause) := by
  intro a cause
  exact ⟨_, rfl, fun f => rfl, fun b => rfl⟩

end DecorationType

end TaskDecoration
