import TaskDecoration.Proofs.Units

/-!
# Where failures come from

A call fails because a layer refuses it, because a transform, a hook or the body fails, or because
its task has no descriptor or the scheduler turns it down (`TaskFunction.Origin`). The reasons are
collected along the way of the call: through the layers (`walk_error`), and behind them by
`Outcome.FailsWith`, which is kept by sequences.
-/

set_option autoImplicit false

namespace TaskDecoration

/-- The transform of one of the substitutions fails with an error. -/
def Substitution.SomeFails (registry : Dict Transform) (specs : List Substitution)
    (e : TaskError) : Prop :=
  ∃ s ∈ specs, ∃ t v, s.transform.resolve registry = .ok t ∧ t v s.kwargs = .error e

/-- Reasons for which a call fails with an error, when bodies have run. -/
inductive TaskFunction.Origin (f : TaskFunction) (r : Request) (o : Orchestrator)
    (runs : List BodyRun) : TaskError → Prop where
  /-- A layer cannot be entered: it does not admit the call, does not fit to the others, or has
  substitutions that cannot be planned. -/
  | layer {e : TaskError} (refused : e.category ≠ .other) : Origin f r o runs e
  /-- A transform fails, at once or as a unit. -/
  | transform {e : TaskError}
      (failed : Substitution.SomeFails o.registry ((f.due r).flatMap Decoration.substitutions) e) :
      Origin f r o runs e
  /-- The layers have no descriptor for the task. -/
  | descriptor {l : Layer} {options : TaskOptions}
      (arrival : ending f.layers = .task l options []) (configures : r.context.configures = true)
      (missing : f.descriptor? o = .ok none) :
      Origin f r o runs (.registration (.noDescriptor f.signature.qualifiedName))
  /-- The scheduler turns the task down. -/
  | scheduler {q : TaskRequest} {cause : RegistrationError} (handed : f.handed r o = some q)
      (refused : o.scheduler.validate f.signature.qualifiedName q.descriptor.element =
        .error cause) : Origin f r o runs (.registration cause)
  | hook {h : Hook} {e : TaskError} (failed : h.run o.scheduler.environment = .error e) :
      Origin f r o runs e
  | body {x : BodyRun} {e : TaskError} (ran : x ∈ runs)
      (failed : f.base.body x.view = .error e) : Origin f r o runs e

/-- If an outcome is a failure, there is a reason for it, which may lie in its entries. -/
def Outcome.FailsWith {α : Type} (reason : Journal → TaskError → Prop) (p : Outcome α) : Prop :=
  ∀ e, p.result = .error e → reason p.journal e

section Layers

variable {registry : Dict Transform} {f : Signature} {c : Context} {d d' : Draft} {e : TaskError}

theorem Substitution.SomeFails.mono {specs specs' : List Substitution}
    (h : SomeFails registry specs e) (among : ∀ s ∈ specs, s ∈ specs') :
    SomeFails registry specs' e := by
  obtain ⟨s, hs, failed⟩ := h
  exact ⟨s, among s hs, failed⟩

/-- A planned substitution that fails does so by its transform. -/
theorem Substitution.someFails_of_planned {specs : List Substitution}
    {ps : List PlannedSubstitution} (same : ps.map (·.spec) = specs)
    (transforms : ∀ p ∈ ps, p.spec.transform.resolve registry = .ok p.transform)
    {p : PlannedSubstitution} (hp : p ∈ ps) (failed : p.outcome = .error e) :
    SomeFails registry specs e := by
  have member : p.spec ∈ specs := same ▸ List.mem_map_of_mem hp
  exact ⟨p.spec, member, p.transform, p.value, transforms p hp, failed⟩

namespace Draft

theorem actAll_error {ps : List PlannedSubstitution} (acted : actAll ps d = (.error e, d')) :
    ∃ p ∈ ps, p.outcome = .error e := by
  induction ps generalizing d with
  | nil => cases acted
  | cons p ps ih =>
    rw [actAll] at acted
    rcases first : d.act p with ⟨_ | _, d₁⟩
    · rw [first] at acted
      cases acted
      exact ⟨p, List.mem_cons_self, (act_error_iff.mp first).2.1⟩
    · rw [first] at acted
      obtain ⟨q, hq, failed⟩ := ih acted
      exact ⟨q, List.mem_cons_of_mem p hq, failed⟩

theorem substitute_error {specs : List Substitution}
    (refused : d.substitute registry f specs = (.error e, d')) :
    e.category ≠ .other ∨ Substitution.SomeFails registry specs e := by
  have planning (cause : TransformationError) :
      (TaskError.transformation cause).category ≠ .other := nofun
  cases planned : specs.mapM (Substitution.plan registry d.arguments f) with
  | error cause =>
    rw [substitute_unplanned planned] at refused
    cases refused
    exact .inl (planning cause)
  | ok ps =>
    rcases claiming : claimTargets (ps.map (·.spec.parameter)) d.targets with ⟨_ | cause, targets⟩
    · rw [substitute_claimed planned claiming] at refused
      obtain ⟨p, hp, failed⟩ := actAll_error refused
      obtain ⟨same, plans⟩ := mapM_plan_ok planned
      have transforms (q : PlannedSubstitution) (hq : q ∈ ps) :=
        (Substitution.plan_ok (plans q hq)).2.2
      exact .inr (Substitution.someFails_of_planned same transforms hp failed)
    · rw [substitute_refused planned claiming] at refused
      cases refused
      exact .inl (planning cause)

/-- A layer that does not prepare a call cannot carry out one of the substitutions that are
due. -/
theorem prepare_error {x : Decoration} (refused : d.prepare c registry f x = (.error e, d')) :
    e.category ≠ .other ∨
      Substitution.SomeFails registry (x.override (d.given c)).substitutions e := by
  cases x with
  | dataTransformation specs =>
    by_cases configures : c.configures = true
    · rw [prepare_configures configures] at refused
      exact substitute_error refused
    · rw [prepare_plain configures] at refused
      cases refused
  | _ => cases refused

end Draft

/-- A walk fails where a layer refuses the call or a transform that is due fails. -/
theorem walk_error {m : Memory} {ls : List Layer} {b : Blueprint}
    (walked : walk m c registry f ls b d = (.error e, d')) :
    e.category ≠ .other ∨ Substitution.SomeFails registry
      ((Decoration.overridden (d.given c) (ls.map (·.decoration))).flatMap
        Decoration.substitutions) e := by
  induction ls generalizing b d with
  | nil => cases walked
  | cons l ls ih =>
    have due : (Decoration.overridden (d.given c) ((l :: ls).map (·.decoration))).flatMap
        Decoration.substitutions = (l.decoration.override (d.given c)).substitutions ++
          (Decoration.overridden (l.decoration.leave (d.given c)) (ls.map (·.decoration))).flatMap
            Decoration.substitutions := rfl
    rw [due]
    unfold walk at walked
    by_cases admitted : c.admitsCalls = true
    · rw [if_pos admitted] at walked
      cases written : l.contribute m c f b with
      | error cause =>
        rw [written] at walked
        cases walked
        left
        intro other
        cases other
      | ok b₁ =>
        rw [written] at walked
        dsimp only at walked
        rcases prepared : d.prepare c registry f l.decoration with ⟨_ | _, d₁⟩
        · rw [prepared] at walked
          cases walked
          refine (Draft.prepare_error prepared).imp_right fun failed => ?_
          exact failed.mono fun s hs => List.mem_append_left _ hs
        · rw [prepared] at walked
          have behind := ih walked
          change _ ∨ Substitution.SomeFails registry
            ((Decoration.overridden (d₁.given c) _).flatMap _) e at behind
          rw [(Draft.prepare_revised prepared).2] at behind
          exact behind.imp_right fun failed => failed.mono fun s hs => List.mem_append_right _ hs
    · rw [if_neg admitted] at walked
      cases walked
      left
      intro other
      cases other

end Layers

namespace Outcome

variable {α β : Type} {reason : Journal → TaskError → Prop} {p : Outcome α} {k : α → Outcome β}

/-- A sequence fails for the reasons of its parts. -/
theorem FailsWith.bind (grows : ∀ i j e, reason j e → reason (i ++ j) e)
    (first : p.FailsWith reason) (rest : ∀ x, (k x).FailsWith reason) :
    (p >>= k).FailsWith reason := by
  intro e failed
  cases here : p.result with
  | error e' =>
    rw [bind_error here] at failed ⊢
    cases failed
    exact first e here
  | ok x =>
    rw [bind_ok here] at failed ⊢
    exact grows p.journal (k x).journal e (rest x e failed)

theorem FailsWith.of_ok {x : α} (h : p.result = .ok x) : p.FailsWith reason :=
  fun _ failed => nomatch h.symm.trans failed

end Outcome

namespace TaskFunction

variable {f : TaskFunction} {r : Request} {o : Orchestrator} {b : Blueprint} {d : Draft}

theorem Origin.mono {runs runs' : List BodyRun} {e : TaskError} (h : f.Origin r o runs e)
    (among : ∀ x ∈ runs, x ∈ runs') : f.Origin r o runs' e := by
  cases h with
  | layer refused => exact .layer refused
  | transform failed => exact .transform failed
  | descriptor arrival configures missing => exact .descriptor arrival configures missing
  | scheduler handed refused => exact .scheduler handed refused
  | hook failed => exact .hook failed
  | body ran failed => exact .body (among _ ran) failed

/-- Waiting for the units of a call fails with one of their transforms. -/
theorem someFails_of_resolve {e : TaskError} (crossing : f.cross r o = (.ok b, d))
    (all : reached f.layers = f.layers) {a : Arguments}
    (failed : (Dependency.resolve d.dependencies a).1 = .error e) :
    Substitution.SomeFails o.registry ((f.due r).flatMap Decoration.substitutions) e := by
  have passed := pass_of_walk crossing
  rw [all] at passed
  obtain ⟨ps, started⟩ := Draft.pass_started passed
  have dependencies : d.dependencies = ps.map (·.dependency) := started.dependencies
  rw [dependencies, PlannedSubstitution.resolve_dependencies] at failed
  cases first : PlannedSubstitution.firstFailure ps with
  | none =>
    rw [first] at failed
    cases failed
  | some e' =>
    rw [first] at failed
    cases failed
    obtain ⟨p, hp, failed⟩ := PlannedSubstitution.some_fails_of_firstFailure first
    refine (Substitution.someFails_of_planned started.specs started.transforms hp failed).mono ?_
    intro s hs
    exact (List.mem_filter.mp hs).1

/-- A body fails by itself, or with one of the units it waits for. -/
theorem report_failsWith {c : Context}
    (waiting : ∀ e, (Dependency.resolve d.dependencies d.arguments).1 = .error e →
      Substitution.SomeFails o.registry ((f.due r).flatMap Decoration.substitutions) e) :
    (f.base.report c d).FailsWith fun j e => f.Origin r o j.runs e := by
  intro e failed
  cases resolved : (Dependency.resolve d.dependencies d.arguments).1 with
  | error e' =>
    rw [f.base.report_of_error c resolved] at failed
    cases failed
    exact .transform (waiting e resolved)
  | ok u =>
    rw [f.base.report_of_ok c resolved] at failed ⊢
    exact .body (List.mem_singleton.mpr rfl) failed

theorem hookReport_failsWith (hook : Option Hook) :
    (o.scheduler.hookReport hook).FailsWith fun j e => f.Origin r o j.runs e := by
  intro e failed
  unfold Scheduler.hookReport at failed
  split at failed
  · next h _ =>
    rw [Outcome.bind_ok (x := ()) rfl] at failed
    exact .hook (h := h) failed
  · cases failed

/-- A task that is handed in fails because it is turned down, with one of the units it waits for,
by a hook, or by its body. -/
theorem accept_failsWith {q : TaskRequest} (handed : f.handed r o = some q) :
    (o.scheduler.accept o.session.context.nesting q f.base).FailsWith
      fun j e => f.Origin r o j.runs e := by
  obtain ⟨b, d, l, options, descriptor, crossing, arrival, _, _, same⟩ := handed_eq_some handed
  have all := reached_of_ending arrival
  have grows (i j : Journal) (e : TaskError) (h : f.Origin r o j.runs e) :
      f.Origin r o (i ++ j).runs e := h.mono fun x hx => List.mem_append_right i.runs hx
  unfold Scheduler.accept
  refine Outcome.FailsWith.bind grows ?_ fun _ => ?_
  · intro e failed
    change (o.scheduler.validate f.signature.qualifiedName q.descriptor.element).mapError _ = _
      at failed
    cases refused : o.scheduler.validate f.signature.qualifiedName q.descriptor.element with
    | ok u =>
      rw [refused] at failed
      cases failed
    | error cause =>
      rw [refused] at failed
      cases failed
      exact .scheduler handed refused
  refine Outcome.FailsWith.bind grows (.of_ok (x := ()) rfl) fun _ => ?_
  refine Outcome.FailsWith.bind grows (fun e failed => ?_) fun _ => ?_
  · subst same
    exact .transform (someFails_of_resolve crossing all failed)
  refine Outcome.FailsWith.bind grows (hookReport_failsWith _) fun _ => ?_
  refine Outcome.FailsWith.bind grows (report_failsWith fun e failed => nomatch failed)
    fun v => ?_
  exact Outcome.FailsWith.bind grows (hookReport_failsWith _) fun _ => .of_ok (x := v) rfl

/-- What a call finds behind the layers fails for one of the reasons. -/
theorem ending_failsWith (crossing : f.cross r o = (.ok b, d)) :
    ((ending f.layers).report o r.context f.base b d).FailsWith
      fun j e => f.Origin r o j.runs e := by
  cases arrival : ending f.layers with
  | body =>
    have all : reached f.layers = f.layers := reached_eq_self fun l options inner same =>
      nomatch arrival.symm.trans same
    exact report_failsWith fun e failed => someFails_of_resolve crossing all failed
  | task l options inner =>
    cases inner with
    | cons _ _ =>
      intro e failed
      cases failed
      exact .layer nofun
    | nil =>
      have all := reached_of_ending arrival
      by_cases configures : r.context.configures = true
      · cases delivered : l.delivered o.memory b with
        | none =>
          have drawn := drawUp_of_walk crossing
          rw [all] at drawn
          have missing := (descriptor?_eq_ok_iff arrival configures).mpr ⟨b, drawn, delivered⟩
          rw [Ending.report_missing configures delivered]
          intro e failed
          cases failed
          exact .descriptor arrival configures missing
        | some x =>
          have handed := handed_of_delivered arrival configures crossing delivered
          rw [Ending.report_delivered configures delivered]
          exact accept_failsWith handed
      · rw [Ending.report_plain configures]
        exact report_failsWith fun e failed => someFails_of_resolve crossing all failed

/-- Every failure of a call has one of the reasons. -/
theorem origin_of_error {e : TaskError} (failed : (f.outcome r o).result = .error e) :
    f.Origin r o (f.outcome r o).journal.runs e := by
  rw [outcome_eq] at failed ⊢
  change (f.report r o).result = _ at failed
  change f.Origin r o (f.report r o).journal.runs e
  rcases crossing : f.cross r o with ⟨e' | b, d⟩
  · rw [report_of_stopped crossing] at failed
    cases failed
    obtain ⟨rest, layers⟩ := exists_eq_reached_append f.layers
    rcases walk_error crossing with refused | failed
    · exact .layer refused
    · refine .transform (failed.mono fun s hs => ?_)
      unfold due
      rw [layers, List.map_append, Decoration.overridden_append, List.flatMap_append]
      exact List.mem_append_left _ hs
  · rw [report_of_cross crossing] at failed ⊢
    exact ending_failsWith crossing e failed

end TaskFunction

end TaskDecoration
