import TaskDecoration.Proofs.Substitution

/-!
# What layers make of arguments

Each layer revises the arguments of a call: it supplies a number of computing nodes, or carries
out the substitutions that are due. `Decoration.revise` says what comes of this while units are
still running, and `Decoration.overridden` which substitutions are due when the call brings its
own. `Draft.pass_revised` reads off a call that has passed through layers what they have revised,
claimed and started, and `Draft.exists_pass` says when a call gets through.
-/

set_option autoImplicit false

namespace TaskDecoration

/-- A substitution in workflow mode writes its result; until the result of a unit arrives, null
stands in the slot. -/
def PlannedSubstitution.revise (a : Arguments) (p : PlannedSubstitution) :
    Except TaskError Arguments :=
  if p.spec.workflow then p.outcome.map fun v => a.set p.slot v else .ok (a.set p.slot .null)

namespace Decoration

/-- What an annotation makes of the arguments of a call. All its substitutions are planned on the
arguments that it is given. -/
def revise (registry : Dict Transform) (f : Signature) (a : Arguments) (x : Decoration) :
    Except TaskError Arguments :=
  match x with
  | .dataTransformation specs => match specs.mapM (Substitution.plan registry a f) with
    | .ok planned => planned.foldlM PlannedSubstitution.revise a
    | .error e => .error (.transformation e)
  | x => .ok (match x.nodes? with
    | some nodes => a.insert Name.computingNodes nodes
    | none => a)

/-- What annotations make of the arguments of a call, the outermost first. -/
def reviseAll (registry : Dict Transform) (f : Signature) (xs : List Decoration) (a : Arguments) :
    Except TaskError Arguments :=
  xs.foldlM (revise registry f) a

/-- The annotation with given substitutions, if there are any, in place of its own. -/
def override (given : Option (List Substitution)) : Decoration → Decoration
  | dataTransformation specs => dataTransformation (given.getD specs)
  | x => x

/-- What is left of given substitutions behind an annotation. The first one to ask for them takes
them all, and none is carried out behind it. -/
def leave (given : Option (List Substitution)) : Decoration → Option (List Substitution)
  | dataTransformation _ => given.map fun _ => []
  | _ => given

/-- The annotations with the substitutions that are due in place of the declared ones. -/
def overridden : Option (List Substitution) → List Decoration → List Decoration
  | _, [] => []
  | given, x :: xs => x.override given :: overridden (x.leave given) xs

/-- What is left of given substitutions behind annotations. -/
def leaveAll (given : Option (List Substitution)) (xs : List Decoration) :
    Option (List Substitution) :=
  xs.foldl (fun given x => x.leave given) given

/-- The parameters that annotations replace. -/
def targets (xs : List Decoration) : List String :=
  (xs.flatMap substitutions).map (·.parameter)

/-- The substitutions that units carry out. -/
def awaited (xs : List Decoration) : List Substitution :=
  (xs.flatMap substitutions).filter (!·.workflow)

theorem targets_append (xs ys : List Decoration) :
    targets (xs ++ ys) = targets xs ++ targets ys := by
  simp [targets]

theorem awaited_append (xs ys : List Decoration) :
    awaited (xs ++ ys) = awaited xs ++ awaited ys := by
  simp [awaited]

/-- What is due at inner annotations depends on what the outer ones leave. -/
theorem overridden_append (given : Option (List Substitution)) (xs ys : List Decoration) :
    overridden given (xs ++ ys) = overridden given xs ++ overridden (leaveAll given xs) ys := by
  induction xs generalizing given with
  | nil => rfl
  | cons x xs ih => exact congrArg (x.override given :: ·) (ih (x.leave given))

end Decoration

/-- A dependency that a substitution has brought about. Its slot is that of the parameter, and a
keyword argument is there already. -/
structure Dependency.Serves (u : Dependency) (f : Signature) (a : Arguments) (s : Substitution) :
    Prop where
  parameter : u.parameter = s.parameter
  slot : (u.slot = .keyword s.parameter ∧ a.contains s.parameter = true) ∨
    ∃ i, f.position? s.parameter = some i ∧ u.slot = .positional i

namespace Draft

/-- The substitutions that a call brings along in place of the declared ones, as far as they are
left. Where descriptors are not configured, there is nothing to substitute. -/
def given (c : Context) (d : Draft) : Option (List Substitution) :=
  if c.configures then
    if d.transformationsTaken || d.transformations.isSome then some (d.transformations.getD [])
    else none
  else some []

/-- What annotations with the substitutions that are due have made of a draft. -/
structure Revised (registry : Dict Transform) (f : Signature) (xs : List Decoration)
    (d d' : Draft) : Prop where
  arguments : Decoration.reviseAll registry f xs d.arguments = .ok d'.arguments
  kept : ∀ k, d.arguments.contains k = true → d'.arguments.contains k = true
  targets : d'.targets = d.targets ++ Decoration.targets xs
  distinct : (Decoration.targets xs).Nodup ∧ ∀ p ∈ Decoration.targets xs, p ∉ d.targets
  dependencies : ∃ us, d'.dependencies = d.dependencies ++ us ∧
    List.Forall₂ (fun u s => u.Serves f d'.arguments s) us (Decoration.awaited xs)
  units : d'.units.map (·.name) =
    d.units.map (·.name) ++ (Decoration.awaited xs).map (·.unitName)

/-- Substitutions have been carried out, and left the arguments `a`. -/
def carried (d : Draft) (ps : List PlannedSubstitution) (a : Arguments) : Draft :=
  { d with
    arguments := a
    dependencies := d.dependencies ++ (ps.filter (!·.spec.workflow)).map (·.dependency)
    units := d.units ++ (ps.filter (!·.spec.workflow)).map (·.record) }

end Draft

theorem Except.bind_eq_ok_iff {ε α β : Type} {x : Except ε α} {k : α → Except ε β} {y : β} :
    x >>= k = .ok y ↔ ∃ v, x = .ok v ∧ k v = .ok y := by
  cases x with
  | error e => simp [bind, Except.bind]
  | ok v => simp [bind, Except.bind]

theorem Except.map_eq_ok_iff {ε α β : Type} {x : Except ε α} {g : α → β} {y : β} :
    x.map g = .ok y ↔ ∃ v, x = .ok v ∧ g v = y := by
  cases x <;> simp [Except.map]

/-- A sequence fails in its first part, or behind it. -/
theorem Except.bind_eq_error_iff {ε α β : Type} {x : Except ε α} {k : α → Except ε β} {e : ε} :
    x >>= k = .error e ↔ x = .error e ∨ ∃ v, x = .ok v ∧ k v = .error e := by
  cases x with
  | error e' => simp [bind, Except.bind]
  | ok v => simp [bind, Except.bind]

/-- A list of partial steps fails with the first of them to fail. -/
theorem mapM_error_iff {ε α β : Type} {g : α → Except ε β} {xs : List α} {e : ε} :
    xs.mapM g = .error e ↔ ∃ before x after, xs = before ++ x :: after ∧
      (∀ y ∈ before, ∃ z, g y = .ok z) ∧ g x = .error e := by
  induction xs with
  | nil => simp [pure, Except.pure]
  | cons y ys ih =>
    have split : (y :: ys).mapM g = .error e ↔
        g y = .error e ∨ ∃ z, g y = .ok z ∧ ys.mapM g = .error e := by
      rw [List.mapM_cons, Except.bind_eq_error_iff]
      simp [Except.bind_eq_error_iff, pure, Except.pure]
    rw [split]
    constructor
    · rintro (failed | ⟨z, fine, later⟩)
      · exact ⟨[], y, ys, rfl, by simp, failed⟩
      · obtain ⟨before, x, after, rfl, others, failed⟩ := ih.mp later
        exact ⟨y :: before, x, after, rfl, List.forall_mem_cons.mpr ⟨⟨z, fine⟩, others⟩, failed⟩
    · rintro ⟨_ | ⟨b, before⟩, x, after, same, fine, failed⟩
      · cases same
        exact .inl failed
      · cases same
        obtain ⟨⟨z, first⟩, others⟩ := List.forall_mem_cons.mp fine
        exact .inr ⟨z, first, ih.mpr ⟨before, x, after, rfl, others, failed⟩⟩

theorem Arguments.contains_set {a : Arguments} {s : Slot} {v : Value} {k : String} :
    (a.set s v).contains k = true ↔ s = .keyword k ∨ a.contains k = true := by
  cases s with
  | positional i => simp [Arguments.set, Arguments.contains]
  | keyword name =>
    by_cases same : k = name
    · simp [Arguments.set, Arguments.insert, Arguments.contains, Dict.contains, Dict.get?_insert,
        same]
    · have other : ¬ name = k := fun h => same h.symm
      simp [Arguments.set, Arguments.insert, Arguments.contains, Dict.contains, Dict.get?_insert,
        same, other]

section Steps

variable {registry : Dict Transform} {f : Signature} {a a' : Arguments} {d d' : Draft}
  {c : Context}

/-- A substitution writes its slot. -/
theorem PlannedSubstitution.revise_ok {p : PlannedSubstitution} (h : p.revise a = .ok a') :
    ∃ v, a' = a.set p.slot v := by
  unfold revise at h
  split at h
  · cases outcome : p.outcome with
    | error e =>
      rw [outcome] at h
      cases h
    | ok v =>
      rw [outcome] at h
      cases h
      exact ⟨v, rfl⟩
  · cases h
    exact ⟨.null, rfl⟩

/-- Substitutions take no keyword argument away, and those whose slots are keyword arguments are
there afterwards. -/
theorem PlannedSubstitution.contains_of_foldlM {ps : List PlannedSubstitution} {k : String}
    (h : ps.foldlM revise a = .ok a')
    (there : a.contains k = true ∨ ∃ p ∈ ps, p.slot = .keyword k) : a'.contains k = true := by
  induction ps generalizing a with
  | nil =>
    cases h
    rcases there with there | ⟨p, absent, _⟩
    · exact there
    · cases absent
  | cons p ps ih =>
    rw [List.foldlM_cons] at h
    obtain ⟨b, first, rest⟩ := Except.bind_eq_ok_iff.mp h
    obtain ⟨v, rfl⟩ := revise_ok first
    apply ih rest
    rw [Arguments.contains_set]
    rcases there with there | ⟨q, member, slot⟩
    · exact .inl (.inr there)
    · rcases List.mem_cons.mp member with rfl | later
      · exact .inl (.inl slot)
      · exact .inr ⟨q, later, slot⟩

namespace Draft

theorem act_iff {p : PlannedSubstitution} :
    d.act p = (.ok (), d') ↔ ∃ a, p.revise d.arguments = .ok a ∧ d' = d.carried [p] a := by
  unfold act PlannedSubstitution.revise carried
  cases workflow : p.spec.workflow with
  | true =>
    cases outcome : p.outcome with
    | error e => simp [Except.map]
    | ok v => simp [Except.map, workflow, write, eq_comm]
  | false => simp [workflow, await, eq_comm]

/-- A substitution that fails has done nothing. -/
theorem act_error_iff {p : PlannedSubstitution} {e : TaskError} :
    d.act p = (.error e, d') ↔ p.spec.workflow = true ∧ p.outcome = .error e ∧ d' = d := by
  unfold act
  cases p.spec.workflow with
  | false => simp
  | true => cases p.outcome <;> simp [eq_comm]

/-- Carrying out one substitution and then others is carrying out all of them. -/
theorem carried_cons (d : Draft) (p : PlannedSubstitution) (ps : List PlannedSubstitution)
    (a b : Arguments) : (d.carried [p] a).carried ps b = d.carried (p :: ps) b := by
  unfold carried
  cases workflow : p.spec.workflow <;> simp [workflow]

theorem actAll_cons_iff {p : PlannedSubstitution} {ps : List PlannedSubstitution} :
    actAll (p :: ps) d = (.ok (), d') ↔
      ∃ d₁, d.act p = (.ok (), d₁) ∧ actAll ps d₁ = (.ok (), d') := by
  rw [actAll]
  rcases d.act p with ⟨r, d₁⟩
  cases r with
  | error e => simp
  | ok u => simp

/-- Substitutions are carried out one after another, and that is all that happens. -/
theorem actAll_iff {ps : List PlannedSubstitution} :
    actAll ps d = (.ok (), d') ↔
      ∃ a, ps.foldlM PlannedSubstitution.revise d.arguments = .ok a ∧ d' = d.carried ps a := by
  induction ps generalizing d with
  | nil => simp [actAll, carried, pure, Except.pure, eq_comm]
  | cons p ps ih =>
    rw [actAll_cons_iff, List.foldlM_cons]
    constructor
    · rintro ⟨d₁, first, rest⟩
      obtain ⟨a, revised, rfl⟩ := act_iff.mp first
      obtain ⟨b, revised', rfl⟩ := ih.mp rest
      exact ⟨b, Except.bind_eq_ok_iff.mpr ⟨a, revised, revised'⟩, carried_cons d p ps a b⟩
    · rintro ⟨b, revised, rfl⟩
      obtain ⟨a, first, rest⟩ := Except.bind_eq_ok_iff.mp revised
      have rest := ih.mpr ⟨b, rest, (carried_cons d p ps a b).symm⟩
      exact ⟨d.carried [p] a, act_iff.mpr ⟨a, first, rfl⟩, rest⟩

end Draft

/-- Parameters can be claimed if none of them is a target yet and none is named twice. -/
theorem claimTargets_none_iff {ps targets targets' : List String} :
    claimTargets ps targets = (none, targets') ↔
      targets' = targets ++ ps ∧ ps.Nodup ∧ ∀ p ∈ ps, p ∉ targets := by
  induction ps generalizing targets with
  | nil => simp [claimTargets, eq_comm]
  | cons p ps ih =>
    unfold claimTargets
    by_cases taken : p ∈ targets
    · simp [taken]
    · have free : ¬ targets.contains p = true := by simpa using taken
      have split : targets ++ p :: ps = targets ++ [p] ++ ps := by simp
      rw [if_neg free, ih, split, List.nodup_cons, List.forall_mem_cons]
      refine and_congr_right fun _ => ?_
      constructor
      · rintro ⟨distinct, fresh⟩
        refine ⟨⟨fun again => ?_, distinct⟩, taken, fun q hq used => ?_⟩
        · exact fresh p again (by simp)
        · exact fresh q hq (by simp [used])
      · rintro ⟨⟨once, distinct⟩, -, fresh⟩
        refine ⟨distinct, fun q hq used => ?_⟩
        rcases List.mem_append.mp used with before | last
        · exact fresh q hq before
        · exact once (List.mem_singleton.mp last ▸ hq)

namespace Draft

/-- A list of substitutions gets through if they can all be planned, claimed and carried out. -/
theorem substitute_iff {specs : List Substitution} :
    d.substitute registry f specs = (.ok (), d') ↔
      ∃ (planned : List PlannedSubstitution) (a : Arguments),
        specs.mapM (Substitution.plan registry d.arguments f) = .ok planned ∧
        (planned.map (·.spec.parameter)).Nodup ∧
        (∀ p ∈ planned.map (·.spec.parameter), p ∉ d.targets) ∧
        planned.foldlM PlannedSubstitution.revise d.arguments = .ok a ∧
        d' = carried { d with targets := d.targets ++ planned.map (·.spec.parameter) }
          planned a := by
  cases planning : specs.mapM (Substitution.plan registry d.arguments f) with
  | error e => simp [substitute_unplanned planning]
  | ok planned =>
    rcases claiming : claimTargets (planned.map (·.spec.parameter)) d.targets with
      ⟨refused, targets⟩
    cases refused with
    | some e =>
      rw [substitute_refused planning claiming]
      have clash : ¬ ((planned.map (·.spec.parameter)).Nodup ∧
          ∀ p ∈ planned.map (·.spec.parameter), p ∉ d.targets) := by
        rintro ⟨distinct, fresh⟩
        have claimed := claimTargets_none_iff.mpr ⟨rfl, distinct, fresh⟩
        rw [claiming] at claimed
        cases claimed
      constructor
      · intro stopped
        cases stopped
      · rintro ⟨_, _, same, distinct, fresh, _⟩
        cases same
        exact absurd ⟨distinct, fresh⟩ clash
    | none =>
      rw [substitute_claimed planning claiming, actAll_iff]
      obtain ⟨rfl, distinct, fresh⟩ := claimTargets_none_iff.mp claiming
      constructor
      · rintro ⟨a, revised, rfl⟩
        exact ⟨planned, a, rfl, distinct, fresh, revised, rfl⟩
      · rintro ⟨_, a, same, _, _, revised, rfl⟩
        cases same
        exact ⟨a, revised, rfl⟩

/-- What a layer is to carry out is given by the call, or declared. -/
theorem due_eq (configures : c.configures = true) (declared : List Substitution) :
    d.due declared = (d.given c).getD declared := by
  unfold due given
  rw [if_pos configures]
  by_cases own : (d.transformationsTaken || d.transformations.isSome) = true
  · rw [if_pos own, if_pos own]
    rfl
  · rw [if_neg own, if_neg own]
    rfl

/-- Substitutions that came with the call are handed out once. -/
theorem given_take (configures : c.configures = true) :
    d.take.given c = (d.given c).map fun _ => [] := by
  unfold given take
  rw [if_pos configures, if_pos configures]
  simp only [Option.isSome_none, Bool.or_false, Option.getD_none]
  by_cases own : (d.transformationsTaken || d.transformations.isSome) = true
  · rw [if_pos own, if_pos own]
    rfl
  · rw [if_neg own, if_neg own]
    rfl

/-- Carrying out substitutions leaves what the call brings along. -/
theorem given_substitute {specs : List Substitution}
    (substituted : d.substitute registry f specs = (.ok (), d')) : d'.given c = d.given c := by
  obtain ⟨planned, a, _, _, _, _, rfl⟩ := substitute_iff.mp substituted
  rfl

theorem given_supply (nodes : Option Value) : (d.supply nodes).given c = d.given c := by
  cases nodes with
  | none => rfl
  | some v => rfl

theorem prepare_configures (configures : c.configures = true) (specs : List Substitution) :
    d.prepare c registry f (.dataTransformation specs) =
      d.take.substitute registry f ((d.given c).getD specs) := by
  unfold prepare
  dsimp only
  rw [if_pos configures, due_eq configures]

theorem prepare_plain (plain : ¬ c.configures = true) (specs : List Substitution) :
    d.prepare c registry f (.dataTransformation specs) = (.ok (), d) := if_neg plain

/-- What an annotation that carries out no substitutions makes of a draft. -/
theorem revised_of_silent {x : Decoration} (silent : x.substitutions = [])
    (revised : x.revise registry f d.arguments = .ok a)
    (kept : ∀ k, d.arguments.contains k = true → a.contains k = true) :
    Revised registry f [x] d { d with arguments := a } := by
  have noTargets : Decoration.targets [x] = [] := by
    simp [Decoration.targets, silent]
  have noneAwaited : Decoration.awaited [x] = [] := by
    simp [Decoration.awaited, silent]
  constructor
  · unfold Decoration.reviseAll
    rw [List.foldlM_cons, revised]
    rfl
  · exact kept
  · rw [noTargets, List.append_nil]
  · rw [noTargets]
    exact ⟨List.nodup_nil, fun p absent => absurd absent List.not_mem_nil⟩
  · rw [noneAwaited]
    exact ⟨[], (List.append_nil _).symm, .nil⟩
  · rw [noneAwaited]
    simp

/-- A number of computing nodes that comes in. -/
theorem supply_revised {x : Decoration} (other : ∀ specs, x ≠ .dataTransformation specs) :
    Revised registry f [x] d (d.supply x.nodes?) := by
  have silent : x.substitutions = [] := by
    cases x with
    | dataTransformation specs => exact absurd rfl (other specs)
    | _ => rfl
  have revised (a : Arguments) : x.revise registry f a = .ok (match x.nodes? with
      | some nodes => a.insert Name.computingNodes nodes
      | none => a) := by
    cases x with
    | dataTransformation specs => exact absurd rfl (other specs)
    | _ => rfl
  cases supplied : x.nodes? with
  | none =>
    rw [supplied] at revised
    exact revised_of_silent silent (revised _) fun k there => there
  | some nodes =>
    rw [supplied] at revised
    refine revised_of_silent silent (revised _) fun k there => ?_
    exact Arguments.contains_set (s := .keyword Name.computingNodes).mpr (.inr there)

/-- What units carry out of planned substitutions. -/
theorem awaited_of_planned {specs : List Substitution} {planned : List PlannedSubstitution}
    (planning : specs.mapM (Substitution.plan registry a f) = .ok planned) :
    Decoration.awaited [.dataTransformation specs] =
      (planned.filter (!·.spec.workflow)).map (·.spec) := by
  rw [← (mapM_plan_ok planning).1]
  simp [Decoration.awaited, Decoration.substitutions, List.filter_map, Function.comp_def]

/-- What substitutions that are not refused make of a draft. -/
theorem substitute_revised {specs : List Substitution}
    (substituted : d.take.substitute registry f specs = (.ok (), d')) :
    Revised registry f [.dataTransformation specs] d d' := by
  obtain ⟨planned, a, planning, distinct, fresh, revised, rfl⟩ := substitute_iff.mp substituted
  obtain ⟨specs', plans⟩ := mapM_plan_ok planning
  have parameters := PlannedSubstitution.map_parameter specs'
  have targets : Decoration.targets [.dataTransformation specs] = specs.map (·.parameter) := by
    simp [Decoration.targets, Decoration.substitutions]
  have awaited := awaited_of_planned planning
  rw [parameters] at distinct fresh
  constructor
  · have whole : Decoration.revise registry f d.arguments (.dataTransformation specs) = .ok a := by
      unfold Decoration.revise
      dsimp only
      rw [show specs.mapM (Substitution.plan registry d.arguments f) = .ok planned from planning]
      exact revised
    unfold Decoration.reviseAll
    rw [List.foldlM_cons, whole]
    rfl
  · intro k there
    exact PlannedSubstitution.contains_of_foldlM revised (.inl there)
  · rw [targets, ← parameters]
    rfl
  · rw [targets]
    exact ⟨distinct, fresh⟩
  · rw [awaited]
    refine ⟨_, rfl, ?_⟩
    rw [List.forall₂_map_left_iff, List.forall₂_map_right_iff, List.forall₂_same]
    intro p hp
    have member : p ∈ planned := (List.mem_filter.mp hp).1
    obtain ⟨-, located, -⟩ := Substitution.plan_ok (plans p member)
    refine ⟨rfl, ?_⟩
    change (p.slot = _ ∧ _) ∨ ∃ i, _ ∧ p.slot = _
    cases slot : p.slot with
    | keyword name =>
      rw [slot] at located
      obtain rfl := locate_keyword located
      exact .inl ⟨rfl, PlannedSubstitution.contains_of_foldlM revised (.inr ⟨p, member, slot⟩)⟩
    | positional i =>
      rw [slot] at located
      exact .inr ⟨i, locate_positional located, rfl⟩
  · rw [awaited]
    simp [carried, take, PlannedSubstitution.record, Function.comp_def]

/-- What one layer that is not refused makes of a draft. -/
theorem prepare_revised {x : Decoration} (prepared : d.prepare c registry f x = (.ok (), d')) :
    Revised registry f [x.override (d.given c)] d d' ∧ d'.given c = x.leave (d.given c) := by
  cases x with
  | dataTransformation specs =>
    by_cases configures : c.configures = true
    · rw [prepare_configures configures] at prepared
      have taken := given_take (d := d) configures
      rw [← given_substitute prepared] at taken
      exact ⟨substitute_revised prepared, taken⟩
    · rw [prepare_plain configures] at prepared
      cases prepared
      have nothing : d.given c = some [] := if_neg configures
      rw [nothing]
      exact ⟨revised_of_silent rfl rfl fun _ there => there, rfl⟩
  | _ =>
    cases prepared
    exact ⟨supply_revised fun _ same => (nomatch same), given_supply _⟩

theorem Revised.trans {xs ys : List Decoration} {d₁ : Draft}
    (h : Revised registry f xs d d₁) (h' : Revised registry f ys d₁ d') :
    Revised registry f (xs ++ ys) d d' := by
  constructor
  · unfold Decoration.reviseAll
    rw [List.foldlM_append]
    exact Except.bind_eq_ok_iff.mpr ⟨_, h.arguments, h'.arguments⟩
  · intro k there
    exact h'.kept k (h.kept k there)
  · rw [Decoration.targets_append, h'.targets, h.targets, List.append_assoc]
  · obtain ⟨distinct, fresh⟩ := h.distinct
    obtain ⟨distinct', fresh'⟩ := h'.distinct
    rw [h.targets] at fresh'
    rw [Decoration.targets_append]
    constructor
    · refine List.nodup_append.mpr ⟨distinct, distinct', ?_⟩
      rintro p before q after rfl
      exact fresh' p after (List.mem_append_right _ before)
    · intro p hp
      rcases List.mem_append.mp hp with before | after
      · exact fresh p before
      · exact fun claimed => fresh' p after (List.mem_append_left _ claimed)
  · obtain ⟨us, first, serve⟩ := h.dependencies
    obtain ⟨us', second, serve'⟩ := h'.dependencies
    have stillServe : List.Forall₂ (fun u s => u.Serves f d'.arguments s) us
        (Decoration.awaited xs) := by
      refine serve.imp fun u s serves => ⟨serves.parameter, ?_⟩
      rcases serves.slot with ⟨keyword, there⟩ | positional
      · exact .inl ⟨keyword, h'.kept _ there⟩
      · exact .inr positional
    refine ⟨us ++ us', by rw [second, first, List.append_assoc], ?_⟩
    rw [Decoration.awaited_append]
    exact List.rel_append stillServe serve'
  · rw [Decoration.awaited_append, List.map_append, h'.units, h.units, List.append_assoc]

/-- A layer is passed if calls are admitted and the layer does not refuse to prepare this one. -/
theorem pass_cons_iff {x : Decoration} {xs : List Decoration} :
    d.pass c registry f (x :: xs) = (.ok (), d') ↔
      c.admitsCalls = true ∧ ∃ d₁, d.prepare c registry f x = (.ok (), d₁) ∧
        (d₁.openFrame x.keepsMarks).pass c registry f xs = (.ok (), d') := by
  rw [pass]
  by_cases admitted : c.admitsCalls = true
  · rw [if_pos admitted]
    rcases d.prepare c registry f x with ⟨r, d₁⟩
    cases r with
    | error e => simp
    | ok u => simp [admitted]
  · simp [admitted]

/-- What layers have made of a draft that has passed through them. -/
theorem pass_revised {xs : List Decoration} (passed : d.pass c registry f xs = (.ok (), d')) :
    Revised registry f (Decoration.overridden (d.given c) xs) d d' ∧
      d'.given c = Decoration.leaveAll (d.given c) xs := by
  induction xs generalizing d with
  | nil =>
    cases passed
    refine ⟨⟨rfl, fun k there => there, (List.append_nil _).symm, ?_, ?_, ?_⟩, rfl⟩
    · exact ⟨List.nodup_nil, fun p absent => absurd absent List.not_mem_nil⟩
    · exact ⟨[], (List.append_nil _).symm, .nil⟩
    · exact (List.append_nil _).symm
  | cons x xs ih =>
    obtain ⟨-, d₁, prepared, behind⟩ := pass_cons_iff.mp passed
    obtain ⟨first, left⟩ := prepare_revised prepared
    obtain ⟨rest, left'⟩ := ih behind
    change Revised registry f (Decoration.overridden (d₁.given c) xs) _ d' at rest
    change d'.given c = Decoration.leaveAll (d₁.given c) xs at left'
    rw [left] at rest left'
    -- Opening a frame changes nothing of what revising is about.
    have unframed : Revised registry f (Decoration.overridden (x.leave (d.given c)) xs) d₁ d' :=
      ⟨rest.arguments, rest.kept, rest.targets, rest.distinct, rest.dependencies, rest.units⟩
    exact ⟨first.trans unframed, left'⟩

/-- A layer gets through with substitutions that can be carried out and have targets of their
own. -/
theorem exists_prepare {x : Decoration}
    (revised : (x.override (d.given c)).revise registry f d.arguments = .ok a)
    (distinct : (Decoration.targets [x.override (d.given c)]).Nodup)
    (fresh : ∀ p ∈ Decoration.targets [x.override (d.given c)], p ∉ d.targets) :
    ∃ d', d.prepare c registry f x = (.ok (), d') := by
  cases x with
  | dataTransformation specs =>
    by_cases configures : c.configures = true
    · rw [prepare_configures configures]
      unfold Decoration.override Decoration.revise at revised
      dsimp only at revised
      cases planning : ((d.given c).getD specs).mapM (Substitution.plan registry d.arguments f) with
      | error e =>
        rw [planning] at revised
        cases revised
      | ok planned =>
        rw [planning] at revised
        have parameters : planned.map (·.spec.parameter) =
            Decoration.targets [.dataTransformation ((d.given c).getD specs)] := by
          rw [← (mapM_plan_ok planning).1]
          simp [Decoration.targets, Decoration.substitutions]
        refine ⟨_, substitute_iff.mpr ⟨planned, a, planning, ?_, ?_, revised, rfl⟩⟩
        · rw [parameters]
          exact distinct
        · rw [parameters]
          exact fresh
    · exact ⟨d, prepare_plain configures specs⟩
  | _ => exact ⟨_, rfl⟩

/-- A draft gets through layers whose substitutions can be carried out and have targets of their
own. -/
theorem exists_pass {xs : List Decoration} (admitted : c.admitsCalls = true)
    (revised : Decoration.reviseAll registry f (Decoration.overridden (d.given c) xs) d.arguments =
      .ok a)
    (distinct : (Decoration.targets (Decoration.overridden (d.given c) xs)).Nodup)
    (fresh : ∀ p ∈ Decoration.targets (Decoration.overridden (d.given c) xs), p ∉ d.targets) :
    ∃ d', d.pass c registry f xs = (.ok (), d') := by
  induction xs generalizing d with
  | nil => exact ⟨d, rfl⟩
  | cons x xs ih =>
    have split : Decoration.overridden (d.given c) (x :: xs) =
        [x.override (d.given c)] ++ Decoration.overridden (x.leave (d.given c)) xs := rfl
    rw [split, Decoration.targets_append] at distinct fresh
    obtain ⟨distinctHere, distinctBehind, apart⟩ := List.nodup_append.mp distinct
    unfold Decoration.reviseAll at revised
    rw [split, List.singleton_append, List.foldlM_cons] at revised
    obtain ⟨b, here, behind⟩ := Except.bind_eq_ok_iff.mp revised
    obtain ⟨d₁, prepared⟩ := exists_prepare here distinctHere
      fun p hp => fresh p (List.mem_append_left _ hp)
    obtain ⟨first, left⟩ := prepare_revised prepared
    have arguments : d₁.arguments = b := by
      have same := first.arguments
      unfold Decoration.reviseAll at same
      rw [List.foldlM_cons, here] at same
      exact (Except.ok.inj same).symm
    have next : ∃ d', (d₁.openFrame x.keepsMarks).pass c registry f xs = (.ok (), d') := by
      apply ih
      · change Decoration.reviseAll registry f (Decoration.overridden (d₁.given c) xs)
          d₁.arguments = _
        rw [left, arguments]
        exact behind
      · change (Decoration.targets (Decoration.overridden (d₁.given c) xs)).Nodup
        rw [left]
        exact distinctBehind
      · change ∀ p ∈ Decoration.targets (Decoration.overridden (d₁.given c) xs), p ∉ d₁.targets
        rw [left, first.targets]
        intro p hp claimed
        rcases List.mem_append.mp claimed with before | justNow
        · exact fresh p (List.mem_append_right _ hp) before
        · exact apart p justNow p hp rfl
    obtain ⟨d', passed⟩ := next
    exact ⟨d', pass_cons_iff.mpr ⟨admitted, d₁, prepared, passed⟩⟩

end Draft

end Steps

namespace TaskFunction

/-- The annotations of a function with the substitutions that are due in a call. -/
def due (f : TaskFunction) (r : Request) : List Decoration :=
  Decoration.overridden (r.draft.given r.context) (f.layers.map (·.decoration))

/-- What all layers together have made of a call. -/
theorem revised_of_cross {f : TaskFunction} {r : Request} {o : Orchestrator} {b : Blueprint}
    {d : Draft} (crossing : f.cross r o = (.ok b, d)) (all : reached f.layers = f.layers) :
    Draft.Revised o.registry f.signature (f.due r) r.draft d := by
  have passed := pass_of_walk crossing
  rw [all] at passed
  exact (Draft.pass_revised passed).1

end TaskFunction

end TaskDecoration
