import TaskDecoration.Proofs.Registration

/-!
# Waiting for units

The layers of a function start units, and the call waits for all of them at once: right before
the body of the function, or when its task is handed in. `Draft.Started` says which units layers
have started, and `Outcome.Waits` that nothing runs before they have all succeeded. Both routes
wait in the same way, and `failed_unit_blocks` puts the two together: the call fails with the
first unit to fail, in the order in which they were started.
-/

set_option autoImplicit false

namespace TaskDecoration

/-- The error of the first substitution that fails. -/
def PlannedSubstitution.firstFailure (ps : List PlannedSubstitution) : Option TaskError :=
  ps.findSome? fun p => match p.outcome with
    | .ok _ => none
    | .error e => some e

/-- Units have been started for substitutions, in order. Each applies the transform that its
substitution names. -/
structure Draft.Started (registry : Dict Transform) (specs : List Substitution)
    (ps : List PlannedSubstitution) (d d' : Draft) : Prop where
  specs : ps.map (·.spec) = specs
  transforms : ∀ p ∈ ps, p.spec.transform.resolve registry = .ok p.transform
  dependencies : d'.dependencies = d.dependencies ++ ps.map (·.dependency)
  units : d'.units = d.units ++ ps.map (·.record)

/-- What happens to a call that waits for results: nothing if one of them is a failure, and else
something runs. -/
structure Outcome.Waits (p : Outcome Value) (results : Except TaskError Unit) : Prop where
  units : p.journal.units = []
  blocked : ∀ e, results = .error e →
    p.result = .error e ∧ p.journal.hooks = [] ∧ p.journal.runs = []
  released : results = .ok () → ¬ (p.journal.hooks = [] ∧ p.journal.runs = [])

/-- A call in a context that configures gets through all layers, and the task, if there is one, is
accepted: it asks for no more computing units than there are. Unless its layers have been called
for this function only, it has to be known that they have a descriptor. -/
structure TaskFunction.Proceeds (f : TaskFunction) (r : Request) (o : Orchestrator) : Prop where
  ordered : f.Ordered
  configures : r.context.configures = true
  crosses : ∃ b d, f.cross r o = (.ok b, d)
  described : f.Solitary o ∨ ((∃ l ∈ f.layers, l.decoration.isTask = true) →
    ∃ q, f.handed r o = some q ∧ q.descriptor.element.isComplete = true)
  fits : ∀ q, f.handed r o = some q → o.scheduler.Fits q.descriptor.element

section Starting

variable {registry : Dict Transform} {f : Signature} {c : Context} {d d' : Draft}

namespace PlannedSubstitution

theorem firstFailure_of_some_fails {ps : List PlannedSubstitution}
    (fails : ∃ p ∈ ps, ∃ e, p.outcome = .error e) : ∃ e, firstFailure ps = some e := by
  obtain ⟨p, hp, e, failed⟩ := fails
  apply Option.isSome_iff_exists.mp
  unfold firstFailure
  rw [List.findSome?_isSome_iff]
  refine ⟨p, hp, ?_⟩
  rw [failed]
  rfl

theorem some_fails_of_firstFailure {ps : List PlannedSubstitution} {e : TaskError}
    (first : firstFailure ps = some e) : ∃ p ∈ ps, p.outcome = .error e := by
  obtain ⟨p, hp, failed⟩ := List.exists_of_findSome?_eq_some first
  refine ⟨p, hp, ?_⟩
  cases outcome : p.outcome with
  | ok v =>
    rw [outcome] at failed
    cases failed
  | error e' =>
    rw [outcome] at failed
    cases failed
    rfl

/-- Who waits for units gets the first failure among them. -/
theorem resolve_dependencies (ps : List PlannedSubstitution) (a : Arguments) :
    (Dependency.resolve (ps.map (·.dependency)) a).1 = match firstFailure ps with
      | none => .ok ()
      | some e => .error e := by
  induction ps generalizing a with
  | nil => rfl
  | cons p ps ih =>
    have waited : p.dependency.unit.wait = p.outcome := rfl
    rw [List.map_cons, Dependency.resolve, waited]
    unfold firstFailure
    rw [List.findSome?_cons]
    cases p.outcome with
    | error e => rfl
    | ok v => exact ih (a.set p.dependency.slot v)

end PlannedSubstitution

namespace Draft

theorem Started.none (registry : Dict Transform) (dependencies : d'.dependencies = d.dependencies)
    (units : d'.units = d.units) : Started registry [] [] d d' := by
  refine ⟨rfl, fun p absent => (nomatch absent), ?_, ?_⟩
  · rw [dependencies, List.map_nil, List.append_nil]
  · rw [units, List.map_nil, List.append_nil]

theorem Started.trans {specs specs' : List Substitution} {ps ps' : List PlannedSubstitution}
    {d₁ : Draft} (h : Started registry specs ps d d₁) (h' : Started registry specs' ps' d₁ d') :
    Started registry (specs ++ specs') (ps ++ ps') d d' := by
  constructor
  · rw [List.map_append, h.specs, h'.specs]
  · intro p hp
    rcases List.mem_append.mp hp with before | after
    · exact h.transforms p before
    · exact h'.transforms p after
  · rw [h'.dependencies, h.dependencies, List.map_append, List.append_assoc]
  · rw [h'.units, h.units, List.map_append, List.append_assoc]

/-- One layer starts the units of the substitutions that are due at it. -/
theorem prepare_started {x : Decoration} (prepared : d.prepare c registry f x = (.ok (), d')) :
    ∃ ps, Started registry (Decoration.awaited [x.override (d.given c)]) ps d d' := by
  cases x with
  | dataTransformation specs =>
    by_cases configures : c.configures = true
    · rw [prepare_configures configures] at prepared
      obtain ⟨planned, a, planning, _, _, _, rfl⟩ := substitute_iff.mp prepared
      refine ⟨planned.filter (!·.spec.workflow), (awaited_of_planned planning).symm, ?_, rfl, rfl⟩
      intro p hp
      have planned := (mapM_plan_ok planning).2 p (List.mem_filter.mp hp).1
      exact (Substitution.plan_ok planned).2.2
    · rw [prepare_plain configures] at prepared
      cases prepared
      have nothing : d.given c = some [] := if_neg configures
      rw [nothing]
      exact ⟨[], Started.none registry rfl rfl⟩
  | _ =>
    cases prepared
    exact ⟨[], Started.none registry (d.supply_dependencies _) (d.supply_units _)⟩

/-- Layers start the units of all substitutions that are due, the outermost first. -/
theorem pass_started {xs : List Decoration} (passed : d.pass c registry f xs = (.ok (), d')) :
    ∃ ps, Started registry (Decoration.awaited (Decoration.overridden (d.given c) xs)) ps d d' := by
  induction xs generalizing d with
  | nil =>
    cases passed
    exact ⟨[], Started.none registry rfl rfl⟩
  | cons x xs ih =>
    obtain ⟨-, d₁, prepared, behind⟩ := pass_cons_iff.mp passed
    obtain ⟨ps, here⟩ := prepare_started prepared
    obtain ⟨ps', there⟩ := ih behind
    change Started registry (Decoration.awaited (Decoration.overridden (d₁.given c) xs)) ps' _ d'
      at there
    rw [(prepare_revised prepared).2] at there
    -- Opening a frame starts nothing.
    have unframed : Started registry
        (Decoration.awaited (Decoration.overridden (x.leave (d.given c)) xs)) ps' d₁ d' :=
      ⟨there.specs, there.transforms, there.dependencies, there.units⟩
    have both := here.trans unframed
    rw [← Decoration.awaited_append] at both
    exact ⟨ps ++ ps', both⟩

end Draft

end Starting

/-- Where a sequence of parts leaves no entries, neither does any of them. -/
theorem Outcome.nil_of_bind {α β γ : Type} {entries : Journal → List γ}
    (split : ∀ i j, entries (i ++ j) = entries i ++ entries j) {p : Outcome α} {k : α → Outcome β}
    (none : entries (p >>= k).journal = []) :
    entries p.journal = [] ∧ ∀ v, p.result = .ok v → entries (k v).journal = [] := by
  cases first : p.result with
  | ok v =>
    rw [bind_ok first, split] at none
    obtain ⟨before, behind⟩ := List.append_eq_nil_iff.mp none
    refine ⟨before, fun w same => ?_⟩
    cases same
    exact behind
  | error e =>
    rw [bind_error first] at none
    exact ⟨none, fun v same => nomatch same⟩

section Waiting

/-- Either there is no hook to run, or running it is written down. -/
theorem Scheduler.hookReport_cases (s : Scheduler) (hook : Option Hook) :
    s.hookReport hook = pure () ∨ (s.hookReport hook).journal.hooks ≠ [] := by
  unfold hookReport
  split
  · exact .inr (List.cons_ne_nil _ _)
  · exact .inl rfl

/-- The function itself waits for the units of its draft. -/
theorem BareFunction.report_waits (f : BareFunction) (c : Context) (d : Draft) :
    (f.report c d).Waits (Dependency.resolve d.dependencies d.arguments).1 := by
  refine ⟨by rw [f.report_journal], fun e failed => ?_, fun arrived nothing => ?_⟩
  · rw [f.report_of_error c failed]
    exact ⟨rfl, rfl, rfl⟩
  · rw [f.report_of_ok c arrived] at nothing
    exact absurd nothing.2 (List.cons_ne_nil _ _)

namespace Scheduler

variable {s : Scheduler} {nesting : Bool} {q : TaskRequest} {f : BareFunction}

/-- A task that is accepted waits for the units it was handed in with. -/
theorem accept_waits
    (valid : s.validate f.signature.qualifiedName q.descriptor.element = .ok ()) :
    (s.accept nesting q f).Waits (Dependency.resolve q.dependencies q.arguments).1 := by
  have accepted : s.accept nesting q f =
      (Outcome.note (.ofRegistration (entry q f.signature)) >>= fun _ =>
        Outcome.ofExcept (Dependency.resolve q.dependencies q.arguments).1 >>= fun _ =>
        s.hookReport q.descriptor.element.prolog >>= fun _ =>
        f.report ⟨.worker, nesting⟩
          (workerDraft q (Dependency.resolve q.dependencies q.arguments).2) >>= fun result =>
        s.hookReport q.descriptor.element.epilog >>= fun _ => pure result) := by
    unfold accept
    rw [valid]
    exact Outcome.ofExcept_ok_bind () _
  rw [accepted]
  constructor
  · have split (i j : Journal) : (i ++ j).units = i.units ++ j.units := rfl
    refine Outcome.entries_bind_nil split rfl fun _ => ?_
    refine Outcome.entries_bind_nil split rfl fun _ => ?_
    refine Outcome.entries_bind_nil split (by rw [hookReport_journal]) fun _ => ?_
    refine Outcome.entries_bind_nil split (by rw [f.report_journal]) fun _ => ?_
    exact Outcome.entries_bind_nil split (by rw [hookReport_journal]) fun _ => rfl
  · intro e failed
    rw [failed]
    exact ⟨rfl, rfl, rfl⟩
  · rintro arrived ⟨noHooks, noRuns⟩
    have hooks (i j : Journal) : (i ++ j).hooks = i.hooks ++ j.hooks := rfl
    have runs (i j : Journal) : (i ++ j).runs = i.runs ++ j.runs := rfl
    -- Without a prolog, the next thing to run is the body, which waits for nothing any more.
    have noProlog := (Outcome.nil_of_bind hooks
      ((Outcome.nil_of_bind hooks ((Outcome.nil_of_bind hooks noHooks).2 () rfl)).2 () arrived)).1
    rcases s.hookReport_cases q.descriptor.element.prolog with silent | noted
    · have behind := (Outcome.nil_of_bind runs
        ((Outcome.nil_of_bind runs noRuns).2 () rfl)).2 () arrived
      rw [silent] at behind
      have body := (Outcome.nil_of_bind runs
        ((Outcome.nil_of_bind runs behind).2 () rfl)).1
      cases body
    · exact absurd noProlog noted

end Scheduler

end Waiting

namespace TaskFunction

variable {f : TaskFunction} {r : Request} {o : Orchestrator} {b : Blueprint} {d : Draft}

/-- A function that is called for itself has a descriptor with an implementation for its task. -/
theorem complete_of_solitary {l : Layer} {options : TaskOptions} {y : Option Descriptor}
    (solitary : f.Solitary o) (arrival : ending f.layers = .task l options [])
    (written : f.descriptor? o = .ok y) : ∃ x, y = some x ∧ x.element.isComplete = true := by
  obtain ⟨inner, arguments, layers, noTask⟩ := innermost_of_ending arrival
  obtain ⟨x, same, describes⟩ := describes_of_solitary solitary layers noTask written
  exact ⟨x, same, describes.complete⟩

/-- Every call that gets through its layers hands in its task. -/
theorem handed_of_solitary {l : Layer} {options : TaskOptions} (solitary : f.Solitary o)
    (arrival : ending f.layers = .task l options []) (configures : r.context.configures = true)
    (crossing : f.cross r o = (.ok b, d)) :
    ∃ q, f.handed r o = some q ∧ q.descriptor.element.isComplete = true := by
  have drawn := drawUp_of_walk crossing
  rw [reached_of_ending arrival] at drawn
  have written := (descriptor?_eq_ok_iff arrival configures).mpr ⟨b, drawn, rfl⟩
  obtain ⟨x, delivered, complete⟩ := complete_of_solitary solitary arrival written
  exact ⟨_, handed_of_delivered arrival configures crossing delivered, complete⟩

/-- What a call that proceeds finds behind the layers waits for the units of its draft. -/
theorem Proceeds.waits (proceeds : f.Proceeds r o) (crossing : f.cross r o = (.ok b, d)) :
    ((ending f.layers).report o r.context f.base b d).Waits
      (Dependency.resolve d.dependencies d.arguments).1 := by
  cases arrival : ending f.layers with
  | body => exact f.base.report_waits r.context d
  | task l options inner =>
    obtain rfl := ordered_iff.mp proceeds.ordered l options inner arrival
    have described : ∃ q, f.handed r o = some q ∧ q.descriptor.element.isComplete = true := by
      rcases proceeds.described with solitary | described
      · exact handed_of_solitary solitary arrival proceeds.configures crossing
      · apply described
        have task : (ending f.layers).shape ≠ none := by
          rw [arrival]
          exact Option.some_ne_none _
        simpa using Ending.shape_ne_none.mp task
    obtain ⟨q, handed, complete⟩ := described
    have fits := proceeds.fits q handed
    obtain ⟨b', d', l', options', descriptor, crossing', arrival', _, delivered, rfl⟩ :=
      handed_eq_some handed
    cases crossing.symm.trans crossing'
    cases arrival.symm.trans arrival'
    rw [Ending.report_delivered proceeds.configures delivered]
    exact Scheduler.accept_waits ((o.scheduler.validate_ok_iff _ _).mpr ⟨complete, fits⟩)

/-- The units that a call has started are those of the substitutions that are due and not in
workflow mode, from the outermost layer inwards. Neither hooks nor body run exactly if one of them
fails, and the call fails with the first of these failures, whatever the others give. -/
theorem failed_unit_blocks (proceeds : f.Proceeds r o) :
    ∃ ps : List PlannedSubstitution,
      ps.map (·.spec) = Decoration.awaited (f.due r) ∧
      (∀ p ∈ ps, p.spec.transform.resolve o.registry = .ok p.transform) ∧
      (f.outcome r o).journal.units = ps.map (·.record) ∧
      ((f.outcome r o).journal.hooks = [] ∧ (f.outcome r o).journal.runs = [] ↔
        ∃ p ∈ ps, ∃ e, p.outcome = .error e) ∧
      ∀ e, PlannedSubstitution.firstFailure ps = some e → (f.outcome r o).result = .error e := by
  obtain ⟨b, d, crossing⟩ := proceeds.crosses
  have passed := pass_of_walk crossing
  rw [reached_eq_self (ordered_iff.mp proceeds.ordered)] at passed
  obtain ⟨ps, started⟩ := Draft.pass_started passed
  have dependencies : d.dependencies = ps.map (·.dependency) := started.dependencies
  have waits := proceeds.waits crossing
  rw [dependencies, PlannedSubstitution.resolve_dependencies] at waits
  rw [outcome_eq, report_of_cross crossing]
  refine ⟨ps, started.specs, started.transforms, ?_, ⟨fun nothing => ?_, fun fails => ?_⟩,
    fun e first => ?_⟩
  · change d.units ++ _ = _
    rw [waits.units, List.append_nil]
    exact started.units
  · cases first : PlannedSubstitution.firstFailure ps with
    | none => exact absurd nothing (waits.released (by rw [first]))
    | some e =>
      obtain ⟨p, hp, failed⟩ := PlannedSubstitution.some_fails_of_firstFailure first
      exact ⟨p, hp, e, failed⟩
  · obtain ⟨e, first⟩ := PlannedSubstitution.firstFailure_of_some_fails fails
    exact (waits.blocked e (by rw [first])).2
  · exact (waits.blocked e (by rw [first])).1

/-- Of three units in two layers the last two fail, and the prolog does not run. -/
theorem failed_unit_blocks_second :
    let broken (message : String) : Transform := fun _ _ => .error (.execution message)
    let base : BareFunction :=
      { BareFunction.echo with
        signature := .ofParameters "m" "f" [⟨"x", none⟩, ⟨"y", none⟩, ⟨"z", none⟩] }
    let made := decorate [.prolog ⟨.empty, ⟨"date", "", "false"⟩⟩,
      .dataTransformation [.of "x" (.inline .twice), .of "y" (.inline (broken "first"))],
      .dataTransformation [.of "z" (.inline (broken "second"))], .task .empty .standard]
      (bare base) .master
    let r := Request.plain ⟨.master, false⟩ ⟨[.int 1, .int 2, .int 3], .empty⟩
    (made.1.outcome r made.2).journal.hooks = [] ∧ (made.1.outcome r made.2).journal.runs = [] ∧
      (made.1.outcome r made.2).result = .error (.execution "first") := by
  intro broken base made r
  have solitary : made.1.Solitary made.2 :=
    .decorated Memory.tidy_fresh rfl
  have ordered : made.1.Ordered := by
    intro a ha
    change a ∈ [_, _, _] at ha
    simp only [List.mem_cons, List.not_mem_nil, or_false] at ha
    rcases ha with rfl | rfl | rfl <;> rfl
  have crosses : ∃ b d, made.1.cross r made.2 = (.ok b, d) := by
    have through : (made.1.cross r made.2).1.isOk = true := rfl
    rcases crossing : made.1.cross r made.2 with ⟨e | b, d⟩
    · rw [crossing] at through
      cases through
    · exact ⟨b, d, rfl⟩
  have proceeds : made.1.Proceeds r made.2 :=
    ⟨ordered, rfl, crosses, .inl solitary, fun q _ available requested limit => nomatch limit⟩
  obtain ⟨ps, specs, transforms, -, blocked, first⟩ := failed_unit_blocks proceeds
  change ps.map (·.spec) = [.of "x" (.inline .twice), .of "y" (.inline (broken "first")),
    .of "z" (.inline (broken "second"))] at specs
  obtain ⟨p, rest, rfl, hp, specs⟩ := List.map_eq_cons_iff.mp specs
  obtain ⟨q, rest, rfl, hq, -⟩ := List.map_eq_cons_iff.mp specs
  have applied (p : PlannedSubstitution) (t : Transform) (named : p.spec.transform = .inline t)
      (resolved : p.spec.transform.resolve made.2.registry = .ok p.transform) :
      p.transform = t := by
    rw [named] at resolved
    exact (Except.ok.inj resolved).symm
  have succeeds : p.outcome = .ok (.list [p.value, p.value]) := by
    unfold PlannedSubstitution.outcome
    rw [applied p .twice (by rw [hp]; rfl) (transforms p (by simp))]
    rfl
  have fails : q.outcome = .error (.execution "first") := by
    unfold PlannedSubstitution.outcome
    rw [applied q (broken "first") (by rw [hq]; rfl) (transforms q (by simp))]
  obtain ⟨hooks, runs⟩ := blocked.mpr ⟨q, by simp, _, fails⟩
  refine ⟨hooks, runs, first _ ?_⟩
  unfold PlannedSubstitution.firstFailure
  rw [List.findSome?_cons, succeeds, List.findSome?_cons, fails]

end TaskFunction

end TaskDecoration
