import TaskDecoration.Proofs.Declared
import TaskDecoration.Proofs.Scopes

/-!
# Annotations that do not go together

Of the annotations of a function, one at most may be primary, and only the innermost one may be a
task. Nothing checks this when the function is decorated: a call finds out on its way inwards, at
the first annotation that does not fit to those outside it (`Decoration.Offends`). The layers
before that one have configured by then, but they are marked by calls that get through only, so
every call finds out again (`misfit_never_executes`).
-/

set_option autoImplicit false

namespace TaskDecoration

namespace Decoration

/-- Two annotations are primary, or there is one inside a task. -/
def Misfit (xs : List Decoration) : Prop := 2 ≤ (xs.filterMap primary?).length ∨ ¬ Ordered xs

/-- Annotations that go together around others: none is a task, and at most one is primary and
can write its field-set. -/
structure Fit (f : Signature) (outer : List Decoration) : Prop where
  noTask : ∀ x ∈ outer, x.isTask = false
  single : (outer.filterMap primary?).length ≤ 1
  legible : ∀ p ∈ outer.filterMap primary?, ∃ fields, p.fields f = .ok fields

/-- An annotation that does not fit between outer and inner ones, and the error that it raises. -/
inductive Offends (f : Signature) (outer inner : List Decoration) :
    Decoration → ConfigurationError → Prop where
  /-- An argument has no spelling. -/
  | illegible {p : Primary} (argument sort : String)
      (failed : p.fields f = .error (.invalidArgument p.kind.name argument "a string" sort)) :
      Offends f outer inner (.primary p) (.invalidArgument p.kind.name argument "a string" sort)
  /-- There is a primary annotation already. -/
  | second {first p : Primary} {fields : PrimaryFields}
      (taken : outer.filterMap primary? = [first]) (legible : p.fields f = .ok fields) :
      Offends f outer inner (.primary p) (.primaryConflict first.kind.name p.kind.name)
  /-- A task has others inside it. -/
  | misplaced {arguments : Arguments} {options : TaskOptions} (around : inner ≠ []) :
      Offends f outer inner (.task arguments options) (.taskNotInnermost f.qualifiedName)

end Decoration

/-- A call has failed without a task or a body. -/
structure Outcome.Fruitless (p : Outcome Value) : Prop where
  failed : ∃ e, p.result = .error e
  registrations : p.journal.registrations = []
  runs : p.journal.runs = []

namespace Decoration

section Offences

variable {f : Signature} {outer : List Decoration}

theorem primary?_eq_some {x : Decoration} {p : Primary} (h : x.primary? = some p) :
    x = .primary p := by
  cases x with
  | primary q =>
    cases h
    rfl
  | _ => cases h

theorem Fit.nil (f : Signature) : Fit f [] :=
  ⟨fun _ absent => (nomatch absent), Nat.zero_le 1, fun _ absent => (nomatch absent)⟩

/-- One more annotation that is not primary fits. -/
theorem Fit.silent {x : Decoration} (fit : Fit f outer) (noTask : x.isTask = false)
    (silent : x.primary? = none) : Fit f (outer ++ [x]) := by
  have same : (outer ++ [x]).filterMap primary? = outer.filterMap primary? := by
    simp [silent]
  refine ⟨?_, same ▸ fit.single, same ▸ fit.legible⟩
  intro y hy
  rcases List.mem_append.mp hy with before | last
  · exact fit.noTask y before
  · rw [List.mem_singleton.mp last]
    exact noTask

/-- A first primary annotation fits if it can write its field-set. -/
theorem Fit.first {p : Primary} {fields : PrimaryFields} (fit : Fit f outer)
    (free : outer.filterMap primary? = []) (legible : p.fields f = .ok fields) :
    Fit f (outer ++ [primary p]) := by
  have same : (outer ++ [primary p]).filterMap primary? = [p] := by
    rw [List.filterMap_append, free]
    rfl
  refine ⟨?_, ?_, ?_⟩
  · intro y hy
    rcases List.mem_append.mp hy with before | last
    · exact fit.noTask y before
    · rw [List.mem_singleton.mp last]
      rfl
  · rw [same]
    exact Nat.le_refl 1
  · intro q hq
    rw [same] at hq
    rw [List.mem_singleton.mp hq]
    exact ⟨fields, legible⟩

/-- Annotations that go together are no misfits, with a task inside them or without. -/
theorem Fit.not_misfit (fit : Fit f outer) (arguments : Arguments) (options : TaskOptions) :
    ¬ Misfit outer ∧ ¬ Misfit (outer ++ [task arguments options]) := by
  have few := fit.single
  constructor
  · rintro (many | disordered)
    · omega
    · exact disordered fun x hx => fit.noTask x (List.dropLast_subset outer hx)
  · rintro (many | disordered)
    · rw [List.filterMap_append, List.length_append] at many
      change 2 ≤ (outer.filterMap primary?).length + 0 at many
      omega
    · refine disordered fun x hx => ?_
      rw [List.dropLast_concat] at hx
      exact fit.noTask x hx

/-- Among annotations that do not go together there is a first one that does not fit. -/
theorem exists_offender {inner : List Decoration} (fit : Fit f outer)
    (declared : ∀ p, primary p ∈ inner → p.Declared) (misfit : Misfit (outer ++ inner)) :
    ∃ before x after e, inner = before ++ x :: after ∧ Fit f (outer ++ before) ∧
      Offends f (outer ++ before) after x e := by
  induction inner generalizing outer with
  | nil =>
    rw [List.append_nil] at misfit
    exact absurd misfit (fit.not_misfit .empty .standard).1
  | cons x inner ih =>
    have here {e : ConfigurationError} (offends : Offends f outer inner x e) :
        ∃ before y after e, x :: inner = before ++ y :: after ∧ Fit f (outer ++ before) ∧
          Offends f (outer ++ before) after y e := by
      refine ⟨[], x, inner, e, rfl, ?_, ?_⟩
      · rw [List.append_nil]
        exact fit
      · rw [List.append_nil]
        exact offends
    have later (fits : Fit f (outer ++ [x])) : ∃ before y after e,
        x :: inner = before ++ y :: after ∧ Fit f (outer ++ before) ∧
          Offends f (outer ++ before) after y e := by
      rw [List.append_cons] at misfit
      obtain ⟨before, y, after, e, rfl, fit', offends⟩ :=
        ih fits (fun p hp => declared p (List.mem_cons_of_mem x hp)) misfit
      rw [List.append_assoc] at fit' offends
      exact ⟨x :: before, y, after, e, rfl, fit', offends⟩
    cases x with
    | task arguments options =>
      cases inner with
      | nil => exact absurd misfit (fit.not_misfit arguments options).2
      | cons y inner => exact here (.misplaced (List.cons_ne_nil y inner))
    | primary p =>
      cases fields : p.fields f with
      | error e =>
        have read := declared p List.mem_cons_self
        obtain ⟨argument, sort, rfl⟩ := Primary.fields_error read fields
        exact here (.illegible argument sort fields)
      | ok x =>
        cases taken : outer.filterMap primary? with
        | nil => exact later (fit.first taken fields)
        | cons first others =>
          have few := fit.single
          rw [taken, List.length_cons] at few
          obtain rfl : others = [] := List.length_eq_zero_iff.mp (by omega)
          exact here (.second taken fields)
    | _ => exact later (fit.silent rfl rfl)

/-- Annotations that are not primary write into every descriptor, and let its owner be. -/
theorem exists_configure {x : Decoration} (noTask : x.isTask = false) (silent : x.primary? = none)
    (e : Element) : ∃ e', x.configure f e = .ok e' ∧ e'.owner = e.owner := by
  cases x with
  | task arguments options => cases noTask
  | primary p => cases silent
  | _ => exact ⟨_, rfl, rfl⟩

/-- Annotations that go together write one after another. -/
theorem exists_configureAll {xs : List Decoration} {e : Element} (fit : Fit f xs)
    (free : e.owner = none ∨ xs.filterMap primary? = []) :
    ∃ e', configureAll f xs e = .ok e' := by
  induction xs generalizing e with
  | nil => exact ⟨e, rfl⟩
  | cons x xs ih =>
    obtain ⟨noTask, single, legible⟩ := fit
    have noTask' (y : Decoration) (hy : y ∈ xs) := noTask y (List.mem_cons_of_mem x hy)
    rw [configureAll_cons]
    cases speaks : x.primary? with
    | none =>
      rw [List.filterMap_cons_none speaks] at free single legible
      obtain ⟨e₁, written, owner⟩ := exists_configure (noTask x List.mem_cons_self) speaks e
      rw [written]
      exact ih ⟨noTask', single, legible⟩ (owner ▸ free)
    | some p =>
      obtain rfl := primary?_eq_some speaks
      rw [List.filterMap_cons_some speaks] at free single legible
      rw [List.length_cons] at single
      have last : xs.filterMap primary? = [] := List.length_eq_zero_iff.mp (by omega)
      have unowned : e.owner = none := free.resolve_right (List.cons_ne_nil _ _)
      obtain ⟨fields, read⟩ := legible p List.mem_cons_self
      rw [configure_primary, read, unowned]
      refine ih ⟨noTask', ?_, ?_⟩ (.inr last)
      · rw [last]
        exact Nat.zero_le 1
      · intro q hq
        exact legible q (List.mem_cons_of_mem p hq)

/-- Whatever comes inside an annotation that does not fit, the descriptor is refused. Only a task
that is not innermost writes as any other. -/
theorem configureAll_of_offender {inner after : List Decoration} {x : Decoration}
    {e : ConfigurationError} (fit : Fit f outer) (offends : Offends f outer inner x e)
    (other : x.isTask = false) : configureAll f (outer ++ x :: after) .empty = .error e := by
  obtain ⟨e₁, written⟩ := exists_configureAll fit (e := .empty) (.inl rfl)
  rw [configureAll_append, written]
  change x.configure f e₁ >>= configureAll f after = .error e
  cases offends with
  | illegible argument sort failed =>
    rw [configure_primary, failed]
    rfl
  | @second first p fields taken legible =>
    have owner : e₁.owner = some first.kind.name := by
      rcases configureAll_primary fit.noTask written with ⟨none, _⟩ | ⟨q, one, _, fields⟩
      · cases taken.symm.trans none
      · cases taken.symm.trans one
        exact Primary.owner_of_fields fields
    rw [configure_primary, legible, owner]
    rfl
  | misplaced around => cases other

end Offences

end Decoration

namespace TaskFunction

section Calls

variable {f : TaskFunction} {r : Request} {o : Orchestrator}

/-- A call that is stopped by a layer is fruitless. -/
theorem fruitless_of_stopped {e : TaskError} {d : Draft}
    (crossing : f.cross r o = (.error e, d)) : (f.outcome r o).Fruitless := by
  rw [outcome_eq, report_of_stopped crossing]
  exact ⟨⟨e, rfl⟩, rfl, rfl⟩

/-- A task with layers inside it makes every call fruitless, in whatever context. -/
theorem fruitless_of_disordered (disordered : ¬ f.Ordered) (r : Request) (o : Orchestrator) :
    (f.outcome r o).Fruitless := by
  rcases crossing : f.cross r o with ⟨e | b, d⟩
  · exact fruitless_of_stopped crossing
  · rw [outcome_eq, report_of_cross crossing]
    cases arrival : ending f.layers with
    | body =>
      refine absurd (ordered_iff.mpr fun l options inner same => ?_) disordered
      cases arrival.symm.trans same
    | task l options inner =>
      cases inner with
      | nil =>
        refine absurd (ordered_iff.mpr fun l' options' inner' same => ?_) disordered
        cases arrival.symm.trans same
        rfl
      | cons x inner => exact ⟨⟨_, rfl⟩, rfl, rfl⟩

/-- Layers that have never configured and whose annotations do not fit. -/
structure Unfit (f : TaskFunction) (m : Memory) (outer : List Decoration) (x : Decoration)
    (inner : List Decoration) (e : ConfigurationError) : Prop where
  layers : f.layers.map (·.decoration) = outer ++ x :: inner
  unmarked : ∀ l ∈ f.layers, m.configured l.id = false
  fit : Decoration.Fit f.signature outer
  offends : Decoration.Offends f.signature outer inner x e

variable {outer inner : List Decoration} {x : Decoration} {e : ConfigurationError}

/-- The layers that a call reaches are those up to the one that does not fit, or further layers
inside it. -/
theorem Unfit.split (unfit : f.Unfit o.memory outer x inner e) :
    ∃ xs l ys, f.layers = xs ++ l :: ys ∧ xs.map (·.decoration) = outer ∧ l.decoration = x ∧
      ys.map (·.decoration) = inner ∧ reached f.layers = xs ++ reached (l :: ys) ∧
      ending f.layers = ending (l :: ys) := by
  obtain ⟨xs, rest, split, around, within⟩ := List.map_eq_append_iff.mp unfit.layers
  obtain ⟨l, ys, rfl, here, behind⟩ := List.map_eq_cons_iff.mp within
  have noTask (l : Layer) (hl : l ∈ xs) : l.decoration.isTask = false :=
    unfit.fit.noTask _ (around ▸ List.mem_map_of_mem hl)
  obtain ⟨layers, arrival⟩ := reached_append noTask (l :: ys)
  rw [← split] at layers arrival
  exact ⟨xs, l, ys, split, around, here, behind, layers, arrival⟩

theorem Unfit.drawUp_eq (unfit : f.Unfit o.memory outer x inner e)
    (configures : r.context.configures = true) (some : reached f.layers ≠ []) :
    drawUp o.memory r.context f.signature (reached f.layers) .blank =
      (Decoration.configureAll f.signature ((reached f.layers).map (·.decoration)) .empty).map
        fun e => ⟨Option.some e, (reached f.layers).map (·.id), true⟩ := by
  have unmarked : o.memory.unmarked (reached f.layers) = reached f.layers :=
    List.filter_eq_self.mpr fun l hl => by simpa using unfit.unmarked l (mem_of_reached hl)
  rw [drawUp_configures configures, unmarked, if_neg some]
  rfl

/-- A call finds out about annotations that do not fit when it draws up the descriptor, or where
it arrives. -/
theorem Unfit.cases (unfit : f.Unfit o.memory outer x inner e)
    (configures : r.context.configures = true) :
    drawUp o.memory r.context f.signature (reached f.layers) .blank = .error e ∨
      ∃ l options y inner', ending f.layers = .task l options (y :: inner') ∧
        e = .taskNotInnermost f.signature.qualifiedName ∧
        ∃ b, drawUp o.memory r.context f.signature (reached f.layers) .blank = .ok b := by
  obtain ⟨xs, l, ys, _, rfl, rfl, rfl, layers, arrival⟩ := unfit.split
  cases first : l.decoration.isTask with
  | false =>
    rw [(reached_cons first ys).1] at layers
    have some : reached f.layers ≠ [] := by simp [layers]
    have refused : Decoration.configureAll f.signature ((reached f.layers).map (·.decoration))
        .empty = .error e := by
      rw [layers, List.map_append, List.map_cons]
      exact Decoration.configureAll_of_offender unfit.fit unfit.offends first
    refine .inl ?_
    rw [unfit.drawUp_eq configures some, refused]
    rfl
  | true =>
    obtain ⟨options, layers', arrival'⟩ := ending_cons_task first ys
    rw [layers'] at layers
    rw [arrival'] at arrival
    obtain ⟨arguments, options', decoration⟩ := Decoration.isTask_iff.mp first
    have offends := unfit.offends
    rw [decoration] at offends
    cases offends with
    | misplaced around =>
      cases ys with
      | nil => exact absurd rfl around
      | cons y ys =>
        have some : reached f.layers ≠ [] := by simp [layers]
        obtain ⟨e₁, written⟩ := Decoration.exists_configureAll unfit.fit (e := .empty) (.inl rfl)
        obtain ⟨e₂, written'⟩ := Decoration.exists_configure_task arguments options' f.signature e₁
        have accepted : Decoration.configureAll f.signature ((reached f.layers).map (·.decoration))
            .empty = .ok e₂ := by
          rw [layers, List.map_append, Decoration.configureAll_append, written]
          change l.decoration.configure f.signature e₁ >>= pure = _
          rw [decoration, bind_pure]
          exact written'
        refine .inr ⟨l, options, y, ys, arrival, rfl, ?_⟩
        rw [unfit.drawUp_eq configures some, accepted]
        exact ⟨_, rfl⟩

/-- A call of a function whose annotations do not fit is fruitless and marks no layer. -/
theorem Unfit.fruitless (unfit : f.Unfit o.memory outer x inner e)
    (configures : r.context.configures = true) : (f.outcome r o).Fruitless := by
  rcases unfit.cases configures with refused | ⟨l, options, y, inner', arrival, _⟩
  · obtain ⟨e', d, crossing⟩ := walk_of_refused refused o.registry r.draft
    exact fruitless_of_stopped crossing
  · refine fruitless_of_disordered (fun ordered => ?_) r o
    cases ordered_iff.mp ordered l options _ arrival

theorem Unfit.memoryAfter (unfit : f.Unfit o.memory outer x inner e) (r : Request) :
    f.memoryAfter r o = o.memory := by
  rcases f.memoryAfter_cases r o with unchanged | ⟨configures, b, drawn, _⟩
  · exact unchanged
  · rcases unfit.cases configures with refused | ⟨l, options, y, inner', arrival, _⟩
    · cases refused.symm.trans drawn
    · refine memoryAfter_of_disordered (fun ordered => ?_) r o
      cases ordered_iff.mp ordered l options _ arrival

/-- Without transformations, the first annotation that does not fit says how the call fails. -/
theorem Unfit.result (unfit : f.Unfit o.memory outer x inner e)
    (configures : r.context.configures = true) (quiet : ∀ l ∈ f.layers, l.decoration.Quiet) :
    (f.outcome r o).result = .error (.configuration e) := by
  have admitted := Context.admitsCalls_of_configures configures
  have quiet' (l : Layer) (hl : l ∈ reached f.layers) := quiet l (mem_of_reached hl)
  rcases unfit.cases configures with refused | ⟨l, options, y, inner', arrival, rfl, b, drawn⟩
  · have stopped : ∃ d, f.cross r o = (.error (.configuration e), d) :=
      walk_quiet_refused admitted quiet' refused r.draft
    obtain ⟨d, crossing⟩ := stopped
    rw [outcome_eq, report_of_stopped crossing]
    rfl
  · have crossing : f.cross r o = (.ok b, _) := walk_quiet admitted quiet' drawn r.draft
    rw [outcome_eq, report_of_cross crossing, arrival]
    rfl

end Calls

/-- A function whose annotations do not go together fails whenever descriptors are configured,
without a task or a body and without a mark on any layer, whatever calls went before. If nothing
is transformed, all these calls fail with the error of the first annotation that does not fit. A
task with others inside never runs the body, in whatever context. -/
theorem misfit_never_executes {as : List Decoration} {base : BareFunction} {o o₁ : Orchestrator}
    {f : TaskFunction} (tidy : o.memory.Tidy) (decorated : decorate as (bare base) o = (f, o₁))
    (declared : ∀ a ∈ as, a.Declared)
    (misfit : Decoration.Misfit (as.flatMap Decoration.layers)) :
    let late (history : List (Event Unit)) := Event.replay (fun _ => f) history o₁
    (∀ history r, r.context.configures = true →
      (f.outcome r (late history)).Fruitless ∧
        ∀ l ∈ f.layers, (f.serve r (late history)).memory.configured l.id = false) ∧
    ((∀ a ∈ as, a.Quiet) → ∃ outer x inner e,
      as.flatMap Decoration.layers = outer ++ x :: inner ∧
      Decoration.Fit base.signature outer ∧ Decoration.Offends base.signature outer inner x e ∧
      ∀ history r, r.context.configures = true →
        (f.outcome r (late history)).result = .error (.configuration e)) ∧
    (¬ Decoration.Ordered (as.flatMap Decoration.layers) →
      ∀ history r, (f.outcome r (late history)).journal.runs = []) := by
  intro late
  obtain ⟨rfl, layers⟩ := layers_of_decorate decorated
  have primaries (p : Primary) (hp : .primary p ∈ as.flatMap Decoration.layers) : p.Declared := by
    obtain ⟨a, ha, member⟩ := List.mem_flatMap.mp hp
    exact (declared a ha).primary member
  obtain ⟨outer, x, inner, e, split, fit, offends⟩ :=
    Decoration.exists_offender (.nil f.signature) primaries misfit
  rw [split] at layers
  have unfit (m : Memory) (unmarked : ∀ l ∈ f.layers, m.configured l.id = false) :
      f.Unfit m outer x inner e := ⟨layers, unmarked, fit, offends⟩
  have unmarked (history : List (Event Unit)) :
      ∀ l ∈ f.layers, (late history).memory.configured l.id = false := by
    refine Event.replay_invariant (fun m => ∀ l ∈ f.layers, m.configured l.id = false)
      (fun _ r o' h => ?_) history fun l hl => (untouched_of_decorate tidy decorated l hl).1
    rw [(unfit o'.memory h).memoryAfter r]
    exact h
  refine ⟨fun history r configures => ?_, fun quiet => ?_, fun disordered history r => ?_⟩
  · have here := unfit _ (unmarked history)
    refine ⟨here.fruitless configures, ?_⟩
    rw [serve_memory, here.memoryAfter r]
    exact unmarked history
  · refine ⟨outer, x, inner, e, split, fit, offends, fun history r configures => ?_⟩
    refine (unfit _ (unmarked history)).result configures fun l hl => ?_
    have member : l.decoration ∈ as.flatMap Decoration.layers := by
      rw [split, ← layers]
      exact List.mem_map_of_mem hl
    obtain ⟨a, ha, member⟩ := List.mem_flatMap.mp member
    exact Decoration.quiet_layers (quiet a ha) member
  · rw [split, ← layers] at disordered
    exact (fruitless_of_disordered disordered r _).runs

/-- The second of two primary annotations is noticed by every call, not just the first. -/
theorem misfit_never_executes_second_call :
    let nodes : Decoration :=
      .primary ⟨.multiNode, ⟨[], Dict.empty.insert Name.computingNodes (.int 1)⟩⟩
    let made := decorate [nodes, nodes, .task .empty .standard] (bare .echo) .master
    let r := Request.plain ⟨.master, false⟩ .empty
    let late := Event.replay (fun _ => made.1) [.call () r] made.2
    (made.1.outcome r late).Fruitless ∧ (made.1.outcome r late).result =
      .error (.configuration (.primaryConflict "@multinode" "@multinode")) := by
  intro nodes made r late
  have declared : ∀ a ∈ [nodes, nodes, .task .empty .standard], a.Declared := by
    have multiNode : nodes.Declared := .inr ⟨fun _ => none, .primary .multiNode, .empty, rfl⟩
    have task : (Decoration.task .empty .standard).Declared :=
      .inr ⟨fun _ => none, .task, .empty, rfl⟩
    simp [multiNode, task]
  have decorated : decorate [nodes, nodes, .task .empty .standard] (bare .echo) .master =
      (made.1, made.2) := rfl
  obtain ⟨fruitless, same, -⟩ := misfit_never_executes (o := .master) Memory.tidy_fresh decorated
    declared (.inl (Nat.le_refl 2))
  obtain ⟨_, _, _, e, _, _, _, same⟩ := same (by simp [nodes, Decoration.Quiet])
  have first := same [] r rfl
  have second := same [.call () r] r rfl
  have conflict : (made.1.outcome r made.2).result =
      .error (.configuration (.primaryConflict "@multinode" "@multinode")) := rfl
  exact ⟨(fruitless [.call () r] r rfl).1, second.trans (first.symm.trans conflict)⟩

end TaskFunction

end TaskDecoration
