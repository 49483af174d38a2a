import TaskDecoration.Proofs.Revision

/-!
# Rejected transformations

A layer checks all its substitutions before it carries out any: what is planned is whatever can
be located and called, and the parameters are claimed before the first transform runs. So a layer
that rejects a call has started nothing (`Draft.prepare_of_invalid`). The layers outside it have
been passed by then, and the units that they have started stay (`rejected_units`).
-/

set_option autoImplicit false

namespace TaskDecoration

namespace Substitution

/-- A substitution cannot be carried out on given arguments, when there are targets already. -/
inductive Invalid (registry : Dict Transform) (f : Signature) (a : Arguments)
    (targets : List String) (s : Substitution) : Prop where
  /-- The parameter is neither a keyword argument nor declared. -/
  | unknown (absent : ¬ a.contains s.parameter = true) (undeclared : f.position? s.parameter = none)
  /-- There is no transform of this name. -/
  | notCallable (name : String) (named : s.transform = .named name)
      (unregistered : registry.get? name = none)
  /-- The parameter is a target. -/
  | claimed (taken : s.parameter ∈ targets)

/-- One of the substitutions is invalid. Those before it have made their parameters targets. -/
def SomeInvalid (registry : Dict Transform) (f : Signature) (a : Arguments)
    (targets : List String) (specs : List Substitution) : Prop :=
  ∃ before s after, specs = before ++ s :: after ∧
    s.Invalid registry f a (targets ++ before.map (·.parameter))

end Substitution

namespace TaskFunction

/-- A call comes through the layers `outer`, and a substitution that is due at the next layer is
invalid. -/
structure Rejects (f : TaskFunction) (r : Request) (o : Orchestrator) (outer : List Layer) :
    Prop where
  configures : r.context.configures = true
  passed : ∀ l ∈ outer, l.decoration.isTask = false
  stopped : ∃ next inner declared b d, f.layers = outer ++ next :: inner ∧
    next.decoration = .dataTransformation declared ∧
    walk o.memory r.context o.registry f.signature outer .blank r.draft = (.ok b, d) ∧
    Substitution.SomeInvalid o.registry f.signature d.arguments d.targets
      ((d.given r.context).getD declared)

end TaskFunction

section Steps

variable {registry : Dict Transform} {f : Signature} {a : Arguments} {c : Context} {d : Draft}

/-- What can be planned is known and callable. -/
theorem Substitution.claimed_of_plan {s : Substitution} {p : PlannedSubstitution}
    {targets : List String} (planned : s.plan registry a f = .ok p)
    (invalid : s.Invalid registry f a targets) : s.parameter ∈ targets := by
  obtain ⟨-, located, resolved⟩ := Substitution.plan_ok planned
  cases invalid with
  | unknown absent undeclared =>
    unfold locate at located
    cases keyword : a.get? s.parameter with
    | some v => exact absurd (Arguments.contains_of_get? keyword) absent
    | none =>
      rw [keyword, undeclared] at located
      cases located
  | notCallable name named unregistered =>
    rw [named, TransformRef.resolve, unregistered] at resolved
    cases resolved
  | claimed taken => exact taken

namespace Draft

/-- A list with an invalid substitution is refused as a whole, before any of it is carried
out. -/
theorem substitute_of_invalid {specs : List Substitution}
    (invalid : Substitution.SomeInvalid registry f d.arguments d.targets specs) :
    ∃ e d', d.substitute registry f specs = (.error (.transformation e), d') ∧
      d'.units = d.units := by
  cases planning : specs.mapM (Substitution.plan registry d.arguments f) with
  | error e => exact ⟨e, d, substitute_unplanned planning, rfl⟩
  | ok planned =>
    rcases claiming : claimTargets (planned.map (·.spec.parameter)) d.targets with
      ⟨refused, targets⟩
    cases refused with
    | some e => exact ⟨e, _, substitute_refused planning claiming, rfl⟩
    | none =>
      obtain ⟨specs', plans⟩ := mapM_plan_ok planning
      obtain ⟨-, distinct, fresh⟩ := claimTargets_none_iff.mp claiming
      have parameters := PlannedSubstitution.map_parameter specs'
      rw [parameters] at distinct fresh
      obtain ⟨before, s, after, rfl, invalid⟩ := invalid
      have member : s ∈ planned.map (·.spec) := by
        rw [specs']
        simp
      obtain ⟨p, hp, rfl⟩ := List.mem_map.mp member
      have taken := Substitution.claimed_of_plan (plans p hp) invalid
      -- All parameters could be claimed, so this one is neither a target nor named before.
      rcases List.mem_append.mp taken with claimed | named
      · exact absurd claimed (fresh p.spec.parameter (by simp))
      · rw [List.map_append, List.map_cons] at distinct
        exact absurd rfl ((List.nodup_append.mp distinct).2.2 _ named _ List.mem_cons_self)

/-- A layer with an invalid substitution starts no unit. -/
theorem prepare_of_invalid {declared : List Substitution} (configures : c.configures = true)
    (invalid : Substitution.SomeInvalid registry f d.arguments d.targets
      ((d.given c).getD declared)) :
    ∃ e d', d.prepare c registry f (.dataTransformation declared) =
      (.error (.transformation e), d') ∧ d'.units = d.units := by
  rw [prepare_configures configures]
  exact substitute_of_invalid (d := d.take) invalid

end Draft

/-- Layers write what they are asked to, unless they are refused. -/
theorem Layer.contribute_dataTransformation {l : Layer} {declared : List Substitution}
    (decoration : l.decoration = .dataTransformation declared) (m : Memory) (b : Blueprint) :
    ∃ b', l.contribute m c f b = .ok b' := by
  unfold contribute
  rw [decoration]
  split
  · exact ⟨_, rfl⟩
  · exact ⟨b, rfl⟩

end Steps

namespace Decoration

theorem leaveAll_nil (xs : List Decoration) : leaveAll (some []) xs = some [] := by
  induction xs with
  | nil => rfl
  | cons x xs ih =>
    have still : x.leave (some []) = some [] := by cases x <;> rfl
    unfold leaveAll at ih ⊢
    rw [List.foldl_cons, still, ih]

/-- As long as some of the substitutions that came with a call are left, none has been due. -/
theorem substitutions_of_leaveAll {given : List Substitution} {xs : List Decoration}
    (remain : leaveAll (some given) xs ≠ some []) :
    (overridden (some given) xs).flatMap substitutions = [] := by
  induction xs with
  | nil => rfl
  | cons x xs ih =>
    have behind : leaveAll (x.leave (some given)) xs ≠ some [] := remain
    cases x with
    | dataTransformation specs => exact absurd (leaveAll_nil xs) behind
    | _ => exact ih behind

end Decoration

namespace TaskFunction

variable {f : TaskFunction} {r : Request} {o : Orchestrator} {outer : List Layer}

/-- The way of a call to the layer that rejects it. -/
theorem Rejects.cross (h : f.Rejects r o outer) :
    ∃ e d d', f.cross r o = (.error (.transformation e), d') ∧ d'.units = d.units ∧
      d.given r.context ≠ some [] ∧
      r.draft.pass r.context o.registry f.signature (outer.map (·.decoration)) = (.ok (), d) := by
  obtain ⟨next, inner, declared, b, d, layers, decoration, walked, invalid⟩ := h.stopped
  have admitted := Context.admitsCalls_of_configures h.configures
  have other : next.decoration.isTask = false := by
    rw [decoration]
    rfl
  have way : reached f.layers = outer ++ next :: reached inner := by
    rw [layers, (reached_append h.passed _).1, (reached_cons other inner).1]
  obtain ⟨b', written⟩ := Layer.contribute_dataTransformation (c := r.context) (f := f.signature)
    decoration o.memory b
  obtain ⟨e, d', refused, units⟩ := Draft.prepare_of_invalid h.configures invalid
  have due : d.given r.context ≠ some [] := by
    intro nothing
    rw [nothing] at invalid
    obtain ⟨before, s, after, absent, _⟩ := invalid
    simp at absent
  refine ⟨e, d, d', ?_, units, due, pass_of_walk walked⟩
  unfold TaskFunction.cross
  rw [way, walk_append, walked]
  dsimp only
  rw [walk, if_pos admitted, written]
  dsimp only
  rw [decoration, refused]

/-- A call that is rejected for a substitution does nothing more, but the units of the layers that
it has come through have been started. There are none exactly if all substitutions of these layers
are made at once, and never if the call brings its own. -/
theorem rejected_units (h : f.Rejects r o outer) :
    let due := Decoration.overridden (r.draft.given r.context) (outer.map (·.decoration))
    (∃ e, (f.outcome r o).result = .error (.transformation e)) ∧
      (f.outcome r o).journal = .ofUnits (f.outcome r o).journal.units ∧
      (f.outcome r o).journal.units.map (·.name) = (Decoration.awaited due).map (·.unitName) ∧
      ((f.outcome r o).journal.units = [] ↔
        ∀ s ∈ due.flatMap Decoration.substitutions, s.workflow = true) ∧
      (r.transformations ≠ none → (f.outcome r o).journal.units = []) := by
  intro due
  obtain ⟨e, d, d', crossing, units, remain, passed⟩ := h.cross
  obtain ⟨revised, left⟩ := Draft.pass_revised passed
  have outcome : f.outcome r o = ⟨.error (.transformation e), .ofUnits d.units⟩ := by
    rw [outcome_eq, report_of_stopped crossing, ← units]
    rfl
  have names : d.units.map (·.name) = (Decoration.awaited due).map (·.unitName) := revised.units
  have none_iff : d.units = [] ↔
      ∀ s ∈ due.flatMap Decoration.substitutions, s.workflow = true := by
    rw [← List.map_eq_nil_iff (f := (·.name)), names, List.map_eq_nil_iff, Decoration.awaited,
      List.filter_eq_nil_iff]
    simp
  rw [outcome]
  refine ⟨⟨e, rfl⟩, rfl, names, none_iff, fun brought => none_iff.mpr ?_⟩
  obtain ⟨specs, own⟩ := Option.ne_none_iff_exists'.mp brought
  have given : r.draft.given r.context = some specs := by
    unfold Draft.given
    rw [if_pos h.configures]
    simp [Request.draft, own]
  have nothing : due.flatMap Decoration.substitutions = [] := by
    rw [left, given] at remain
    change (Decoration.overridden (r.draft.given r.context) _).flatMap _ = []
    rw [given]
    exact Decoration.substitutions_of_leaveAll remain
  rw [nothing]
  intro s absent
  cases absent

theorem rejected_units_workflow :
    let doubled := Substitution.withWorkflow (.of "x" (.inline .twice)) true
    let f := (decorate [.dataTransformation [doubled],
      .dataTransformation [.of "nope" (.inline .twice)], .task .empty .standard] (bare .echo)
      .master).1
    let r := Request.plain ⟨.master, false⟩ (Arguments.empty.push (.int 1))
    (f.outcome r .master).journal.units = [] := by
  intro doubled f r
  have unknown : Substitution.Invalid Orchestrator.master.registry f.signature
      ⟨[.list [.int 1, .int 1]], .empty⟩ ["x"] (.of "nope" (.inline .twice)) :=
    .unknown (by decide) rfl
  have rejects : f.Rejects r .master [⟨2, .dataTransformation [doubled], ⟨.master, false⟩⟩] := by
    refine ⟨rfl, by simp [Decoration.isTask], ?_⟩
    exact ⟨_, _, _, _, _, rfl, rfl, rfl, [], _, [], rfl, unknown⟩
  refine (rejected_units rejects).2.2.2.1.mpr ?_
  intro s hs
  rw [List.mem_singleton.mp hs]
  rfl

/-- Behind a layer that starts a unit, the next layer rejects the call. -/
theorem unit_left_behind :
    let f := (decorate [.dataTransformation [.of "x" (.inline .twice)],
      .dataTransformation [.of "nope" (.inline .twice)], .task .empty .standard] (bare .echo)
      .master).1
    let r := Request.plain ⟨.master, false⟩ (Arguments.empty.push (.int 1))
    (f.outcome r .master).result = .error (.transformation (.unknownParameter "m.f" "nope")) ∧
      (f.outcome r .master).journal.units = [⟨"transform[x]", .int 1⟩] :=
  ⟨rfl, rfl⟩

end TaskFunction

end TaskDecoration
