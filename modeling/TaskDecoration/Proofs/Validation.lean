import TaskDecoration.Proofs.Location
import TaskDecoration.Proofs.Revision

/-!
# Validation before action

Substitutions are checked as a whole before any of them is carried out. Lists that pass the check
are `Valid`; of all others, `Refused` says with which error. The check sees the parameters and the
names of transforms (`Substitution.face`), so a refusal is the same whatever the transforms would
do (`Refused.congr`): none of them has run. What becomes of a valid list, `CarriedOut` says.
`applyTransformations_validates` puts the two together.
-/

set_option autoImplicit false

namespace TaskDecoration

/-- The first parameter that cannot be claimed is refused, and those before it are targets then. -/
theorem claimTargets_some_iff {ps targets targets' : List String} {e : TransformationError} :
    claimTargets ps targets = (some e, targets') ↔ ∃ before p after, ps = before ++ p :: after ∧
      claimTargets before targets = (none, targets') ∧ p ∈ targets' ∧ e = .duplicateTarget p := by
  induction ps generalizing targets with
  | nil => simp [claimTargets]
  | cons q ps ih =>
    rw [claimTargets]
    by_cases taken : targets.contains q = true
    · rw [if_pos taken]
      constructor
      · rintro ⟨⟩
        exact ⟨[], q, ps, rfl, rfl, by simpa using taken, rfl⟩
      · rintro ⟨_ | ⟨b, before⟩, p, after, same, claimed, -, rfl⟩
        · cases same
          cases claimed
          rfl
        · cases same
          rw [claimTargets, if_pos taken] at claimed
          cases claimed
    · rw [if_neg taken, ih]
      constructor
      · rintro ⟨before, p, after, rfl, claimed, again, rfl⟩
        exact ⟨q :: before, p, after, rfl, (if_neg taken).trans claimed, again, rfl⟩
      · rintro ⟨_ | ⟨b, before⟩, p, after, same, claimed, again, rfl⟩
        · cases same
          cases claimed
          exact absurd (by simpa using again) taken
        · cases same
          exact ⟨before, p, after, rfl, (if_neg taken).symm.trans claimed, again, rfl⟩

namespace TransformRef

variable {r : TransformRef} {registry : Dict Transform} {e : TransformationError}

theorem resolve_error_iff :
    r.resolve registry = .error e ↔
      ∃ name, r.name? = some name ∧ ¬ registry.contains name = true ∧ e = .notCallable name := by
  cases r with
  | inline t => simp [resolve, name?]
  | named name =>
    have same : e = .notCallable name ↔ .notCallable name = e := eq_comm
    cases found : registry.get? name <;> simp [resolve, name?, Dict.contains, found, same]

theorem exists_resolve_iff :
    (∃ t, r.resolve registry = .ok t) ↔
      ∀ name, r.name? = some name → registry.contains name = true := by
  cases r with
  | inline t => simp [resolve, name?]
  | named name =>
    cases found : registry.get? name <;> simp [resolve, name?, Dict.contains, found]

end TransformRef

namespace Substitution

/-- The parameter of the substitution can be found, and so can its transform. -/
structure Plannable (registry : Dict Transform) (f : Signature) (a : Arguments)
    (s : Substitution) : Prop where
  known : a.contains s.parameter = true ∨ f.Declares s.parameter
  callable : ∀ name, s.transform.name? = some name → registry.contains name = true

/-- What stands in the way of a substitution. The parameter is looked for before the transform. -/
inductive Hindered (registry : Dict Transform) (f : Signature) (a : Arguments)
    (s : Substitution) : TransformationError → Prop where
  | unknown (absent : ¬ a.contains s.parameter = true) (undeclared : ¬ f.Declares s.parameter) :
      Hindered registry f a s (.unknownParameter f.qualifiedName s.parameter)
  | notCallable {name : String} (known : a.contains s.parameter = true ∨ f.Declares s.parameter)
      (named : s.transform.name? = some name) (unregistered : ¬ registry.contains name = true) :
      Hindered registry f a s (.notCallable name)

/-- What the check of substitutions sees of each: the parameter, and the name of the transform if
it has one. -/
def face (s : Substitution) : String × Option String := (s.parameter, s.transform.name?)

/-- Substitutions that a call can carry out, if none of its transforms fails. -/
structure Valid (registry : Dict Transform) (f : Signature) (a : Arguments)
    (targets : List String) (specs : List Substitution) : Prop where
  plannable : ∀ s ∈ specs, s.Plannable registry f a
  distinct : (specs.map (·.parameter)).Nodup
  fresh : ∀ s ∈ specs, s.parameter ∉ targets

/-- The error for which substitutions are refused, and the parameters that have become targets by
then: that of the first substitution with a hindrance; or else, where there is none, that of the
first whose parameter is a target already. -/
inductive Refused (registry : Dict Transform) (f : Signature) (a : Arguments)
    (targets : List String) (specs : List Substitution) :
    TransformationError → List String → Prop where
  | unplanned {before after : List Substitution} {s : Substitution} {e : TransformationError}
      (split : specs = before ++ s :: after)
      (plannable : ∀ t ∈ before, t.Plannable registry f a)
      (hindered : s.Hindered registry f a e) : Refused registry f a targets specs e []
  | duplicate {before after : List Substitution} {s : Substitution}
      (split : specs = before ++ s :: after)
      (plannable : ∀ t ∈ specs, t.Plannable registry f a)
      (distinct : (before.map (·.parameter)).Nodup)
      (fresh : ∀ t ∈ before, t.parameter ∉ targets)
      (again : s.parameter ∈ targets ∨ s.parameter ∈ before.map (·.parameter)) :
      Refused registry f a targets specs (.duplicateTarget s.parameter)
        (before.map (·.parameter))

section Planning

variable {registry registry' : Dict Transform} {f : Signature} {a : Arguments}
  {targets : List String} {s s' : Substitution} {specs specs' : List Substitution}
  {e : TransformationError} {claimed : List String}

theorem plan_error_iff (indexed : f.Indexed) :
    s.plan registry a f = .error e ↔ s.Hindered registry f a e := by
  have planning : s.plan registry a f = .error e ↔ locate a f s.parameter = .error e ∨
      ∃ found, locate a f s.parameter = .ok found ∧ s.transform.resolve registry = .error e := by
    unfold plan
    simp [Except.bind_eq_error_iff, pure, Except.pure]
  rw [planning, locate_error_iff indexed, TransformRef.resolve_error_iff]
  constructor
  · rintro (⟨⟨absent, undeclared⟩, rfl⟩ | ⟨found, located, name, named, unregistered, rfl⟩)
    · exact .unknown absent undeclared
    · exact .notCallable ((exists_locate_iff indexed).mp ⟨found, located⟩) named unregistered
  · rintro (⟨absent, undeclared⟩ | ⟨known, named, unregistered⟩)
    · exact .inl ⟨⟨absent, undeclared⟩, rfl⟩
    · obtain ⟨found, located⟩ := (exists_locate_iff indexed).mpr known
      exact .inr ⟨found, located, _, named, unregistered, rfl⟩

theorem exists_plan_iff (indexed : f.Indexed) :
    (∃ p, s.plan registry a f = .ok p) ↔ s.Plannable registry f a := by
  constructor
  · rintro ⟨p, planned⟩
    obtain ⟨-, located, resolved⟩ := plan_ok planned
    exact ⟨(exists_locate_iff indexed).mp ⟨_, located⟩,
      TransformRef.exists_resolve_iff.mp ⟨_, resolved⟩⟩
  · rintro ⟨known, callable⟩
    obtain ⟨found, located⟩ := (exists_locate_iff indexed).mpr known
    obtain ⟨t, resolved⟩ := TransformRef.exists_resolve_iff.mpr callable
    unfold plan
    rw [located, resolved]
    exact ⟨_, rfl⟩

theorem Plannable.congr (faces : s'.face = s.face)
    (registered : ∀ name, registry'.contains name = registry.contains name)
    (h : s.Plannable registry f a) : s'.Plannable registry' f a := by
  obtain ⟨parameter, named⟩ := Prod.mk.inj faces
  constructor
  · rw [parameter]
    exact h.known
  · rw [named]
    exact fun name same => (registered name).trans (h.callable name same)

theorem Hindered.congr (faces : s'.face = s.face)
    (registered : ∀ name, registry'.contains name = registry.contains name)
    (h : s.Hindered registry f a e) : s'.Hindered registry' f a e := by
  obtain ⟨parameter, name⟩ := Prod.mk.inj faces
  cases h with
  | unknown absent undeclared =>
    rw [← parameter] at absent undeclared ⊢
    exact .unknown absent undeclared
  | notCallable known named unregistered =>
    rw [← parameter] at known
    rw [← name] at named
    rw [← registered] at unregistered
    exact .notCallable known named unregistered

/-- Lists with the same faces split alike. -/
theorem exists_split_of_faces {before after : List Substitution}
    (faces : specs'.map face = specs.map face) (split : specs = before ++ s :: after) :
    ∃ before' s' after', specs' = before' ++ s' :: after' ∧ before'.map face = before.map face ∧
      s'.face = s.face := by
  rw [split, List.map_append, List.map_cons, List.map_eq_append_iff] at faces
  obtain ⟨before', rest, rfl, same, rest'⟩ := faces
  obtain ⟨s', after', rfl, same', -⟩ := List.map_eq_cons_iff.mp rest'
  exact ⟨before', s', after', rfl, same, same'⟩

theorem parameters_of_faces (faces : specs'.map face = specs.map face) :
    specs'.map (·.parameter) = specs.map (·.parameter) := by
  simpa [Function.comp_def, face] using congrArg (List.map Prod.fst) faces

theorem plannable_of_faces (faces : specs'.map face = specs.map face)
    (registered : ∀ name, registry'.contains name = registry.contains name)
    (plannable : ∀ t ∈ specs, t.Plannable registry f a) :
    ∀ t ∈ specs', t.Plannable registry' f a := by
  intro t' ht'
  have among : t'.face ∈ specs.map face := faces ▸ List.mem_map_of_mem ht'
  obtain ⟨t, ht, same⟩ := List.mem_map.mp among
  exact (plannable t ht).congr same.symm registered

/-- What substitutions are refused for does not depend on what their transforms do. -/
theorem Refused.congr (faces : specs'.map face = specs.map face)
    (registered : ∀ name, registry'.contains name = registry.contains name)
    (h : Refused registry f a targets specs e claimed) :
    Refused registry' f a targets specs' e claimed := by
  cases h with
  | unplanned split plannable hindered =>
    obtain ⟨before', s', after', split', same, same'⟩ := exists_split_of_faces faces split
    exact .unplanned split' (plannable_of_faces same registered plannable)
      (hindered.congr same' registered)
  | duplicate split plannable distinct fresh again =>
    obtain ⟨before', s', after', split', same, same'⟩ := exists_split_of_faces faces split
    have parameters := parameters_of_faces same
    obtain ⟨parameter, -⟩ := Prod.mk.inj same'
    have fresh : ∀ p ∈ before'.map (·.parameter), p ∉ targets := by simpa [parameters] using fresh
    rw [← parameters] at distinct again ⊢
    rw [← parameter] at again ⊢
    exact .duplicate split' (plannable_of_faces faces registered plannable) distinct
      (by simpa using fresh) again

end Planning

end Substitution

namespace PlannedSubstitution

/-- A substitution has been planned on the arguments `a`. -/
structure Follows (registry : Dict Transform) (f : Signature) (a : Arguments)
    (p : PlannedSubstitution) : Prop where
  slot : p.slot = a.home f p.spec.parameter
  value : p.value = a.valueOf f p.spec.parameter
  transform : p.spec.transform.resolve registry = .ok p.transform

/-- Carrying out the substitution does not fail. That of a unit never does. -/
def Passes (p : PlannedSubstitution) : Prop := p.spec.workflow = true → ∃ v, p.outcome = .ok v

/-- Which substitutions have been carried out with which result: all of them, or those before the
first in workflow mode whose transform fails. -/
inductive CarriedOut (planned : List PlannedSubstitution) :
    List PlannedSubstitution → Except TaskError Unit → Prop where
  | all (pass : ∀ p ∈ planned, p.Passes) : CarriedOut planned planned (.ok ())
  | failing {before after : List PlannedSubstitution} {p : PlannedSubstitution} {e : TaskError}
      (split : planned = before ++ p :: after) (pass : ∀ q ∈ before, q.Passes)
      (inline : p.spec.workflow = true) (failed : p.outcome = .error e) :
      CarriedOut planned before (.error e)

theorem CarriedOut.cons {p : PlannedSubstitution} {planned done : List PlannedSubstitution}
    {result : Except TaskError Unit} (passes : p.Passes) (h : CarriedOut planned done result) :
    CarriedOut (p :: planned) (p :: done) result := by
  cases h with
  | all pass => exact .all (List.forall_mem_cons.mpr ⟨passes, pass⟩)
  | failing split pass inline failed =>
    exact .failing (congrArg (p :: ·) split) (List.forall_mem_cons.mpr ⟨passes, pass⟩) inline
      failed

end PlannedSubstitution

namespace Draft

open Substitution

variable {registry : Dict Transform} {f : Signature} {d d' : Draft} {p : PlannedSubstitution}
  {e : TaskError} {specs : List Substitution}

theorem passes_of_act (acted : d.act p = (.ok (), d')) : p.Passes := by
  intro workflow
  obtain ⟨a, revised, -⟩ := act_iff.mp acted
  rw [PlannedSubstitution.revise, if_pos workflow] at revised
  obtain ⟨v, outcome, -⟩ := Except.map_eq_ok_iff.mp revised
  exact ⟨v, outcome⟩

/-- Substitutions are carried out up to the first that fails. -/
theorem actAll_carriedOut (ps : List PlannedSubstitution) (d : Draft) :
    ∃ done result a, PlannedSubstitution.CarriedOut ps done result ∧
      done.foldlM PlannedSubstitution.revise d.arguments = .ok a ∧
      actAll ps d = (result, d.carried done a) := by
  induction ps generalizing d with
  | nil => exact ⟨[], .ok (), d.arguments, .all nofun, rfl, by simp [actAll, carried]⟩
  | cons p ps ih =>
    rw [actAll]
    rcases acted : d.act p with ⟨_ | _, d₁⟩
    · -- The failing transform leaves no trace: the draft is that of the substitutions before it.
      obtain ⟨inline, failed, rfl⟩ := act_error_iff.mp acted
      exact ⟨[], _, d₁.arguments, .failing (List.nil_append (p :: ps)).symm nofun inline failed,
        rfl, by simp [carried]⟩
    · obtain ⟨a, revised, rfl⟩ := act_iff.mp acted
      obtain ⟨done, result, b, carriedOut, rest, run⟩ := ih (d.carried [p] a)
      refine ⟨p :: done, result, b, carriedOut.cons (passes_of_act acted), ?_, ?_⟩
      · rw [List.foldlM_cons]
        exact Except.bind_eq_ok_iff.mpr ⟨a, revised, rest⟩
      · rw [carried_cons] at run
        exact run

/-- Substitutions that are refused leave a draft as it was, but for the targets of the call. -/
theorem substitute_of_refused (indexed : f.Indexed) {cause : TransformationError}
    {claimed : List String}
    (h : Refused registry f d.arguments d.targets specs cause claimed) :
    d.substitute registry f specs =
      (.error (.transformation cause), { d with targets := d.targets ++ claimed }) := by
  cases h with
  | unplanned split plannable hindered =>
    have planning : specs.mapM (Substitution.plan registry d.arguments f) = .error cause :=
      mapM_error_iff.mpr ⟨_, _, _, split, fun t ht => (exists_plan_iff indexed).mpr
        (plannable t ht), (plan_error_iff indexed).mpr hindered⟩
    rw [substitute_unplanned planning, List.append_nil]
  | @duplicate before after s split plannable distinct fresh again =>
    -- Nothing is in the way of planning, so claiming starts and stops at the repeated parameter.
    cases planning : specs.mapM (Substitution.plan registry d.arguments f) with
    | error cause =>
      obtain ⟨_, t, _, among, _, failed⟩ := mapM_error_iff.mp planning
      obtain ⟨p, planned⟩ := (exists_plan_iff indexed).mpr (plannable t (by simp [among]))
      cases failed.symm.trans planned
    | ok planned =>
      have parameters := PlannedSubstitution.map_parameter (mapM_plan_ok planning).1
      have claiming : claimTargets (planned.map (·.spec.parameter)) d.targets =
          (some (.duplicateTarget s.parameter), d.targets ++ before.map (·.parameter)) := by
        rw [parameters, split, List.map_append, List.map_cons]
        refine claimTargets_some_iff.mpr ⟨_, _, _, rfl, ?_, List.mem_append.mpr again, rfl⟩
        exact claimTargets_none_iff.mpr ⟨rfl, distinct, by simpa using fresh⟩
      rw [substitute_refused planning claiming]

/-- Substitutions are refused, or they are valid, planned, and their parameters become targets. -/
theorem substitute_cases (indexed : f.Indexed) (registry : Dict Transform)
    (specs : List Substitution) (d : Draft) :
    (∃ cause claimed, Refused registry f d.arguments d.targets specs cause claimed) ∨
      Valid registry f d.arguments d.targets specs ∧
        ∃ planned, planned.map (·.spec) = specs ∧
          (∀ p ∈ planned, p.Follows registry f d.arguments) ∧
          d.substitute registry f specs =
            actAll planned { d with targets := d.targets ++ specs.map (·.parameter) } := by
  cases planning : specs.mapM (Substitution.plan registry d.arguments f) with
  | error cause =>
    obtain ⟨before, s, after, split, fine, failed⟩ := mapM_error_iff.mp planning
    exact .inl ⟨cause, [], .unplanned split (fun t ht => (exists_plan_iff indexed).mp (fine t ht))
      ((plan_error_iff indexed).mp failed)⟩
  | ok planned =>
    obtain ⟨specs', plans⟩ := mapM_plan_ok planning
    have plannable (t : Substitution) (ht : t ∈ specs) : t.Plannable registry f d.arguments := by
      rw [← specs'] at ht
      obtain ⟨p, hp, rfl⟩ := List.mem_map.mp ht
      exact (exists_plan_iff indexed).mp ⟨p, plans p hp⟩
    have parameters := PlannedSubstitution.map_parameter specs'
    rcases claiming : claimTargets (planned.map (·.spec.parameter)) d.targets with
      ⟨_ | cause, targets⟩
    · right
      obtain ⟨rfl, distinct, fresh⟩ := claimTargets_none_iff.mp claiming
      rw [parameters] at distinct fresh
      refine ⟨⟨plannable, distinct, by simpa using fresh⟩, planned, specs', fun p hp => ?_, ?_⟩
      · obtain ⟨-, located, resolved⟩ := plan_ok (plans p hp)
        obtain ⟨slot, value⟩ := locate_ok located
        exact ⟨slot, value, resolved⟩
      · rw [substitute_claimed planning claiming, parameters]
    · left
      rw [parameters] at claiming
      obtain ⟨_, _, _, split, claimed, again, rfl⟩ := claimTargets_some_iff.mp claiming
      obtain ⟨before, rest, rfl, rfl, split'⟩ := List.map_eq_append_iff.mp split
      obtain ⟨s, after, rfl, rfl, -⟩ := List.map_eq_cons_iff.mp split'
      obtain ⟨rfl, distinct, fresh⟩ := claimTargets_none_iff.mp claimed
      exact ⟨_, _, .duplicate rfl plannable distinct (by simpa using fresh)
        (List.mem_append.mp again)⟩

end Draft

namespace Substitution

variable {registry : Dict Transform} {f : Signature} {a : Arguments} {targets : List String}
  {specs : List Substitution}

/-- Valid substitutions are not refused. -/
theorem Valid.not_refused (valid : Valid registry f a targets specs) {e : TransformationError}
    {claimed : List String} : ¬ Refused registry f a targets specs e claimed := by
  intro refused
  cases refused with
  | @unplanned before after s e split plannable hindered =>
    obtain ⟨known, callable⟩ := valid.plannable s (by simp [split])
    cases hindered with
    | unknown absent undeclared => exact known.elim absent undeclared
    | notCallable _ named unregistered => exact unregistered (callable _ named)
  | @duplicate before after s split plannable distinct fresh again =>
    rcases again with taken | repeated
    · exact valid.fresh s (by simp [split]) taken
    · have distinct := valid.distinct
      rw [split, List.map_append, List.map_cons, List.nodup_append] at distinct
      exact distinct.2.2 _ repeated _ List.mem_cons_self rfl

end Substitution

namespace Situation

/-- The situation in which parameters have become targets of the call, and nothing else has
changed. -/
def claiming (s : Situation) (parameters : List String) : Situation :=
  { s with call := { s.call with targets := s.call.targets ++ parameters } }

/-- The situation with other transforms. -/
def withRegistry (s : Situation) (registry : Dict Transform) : Situation :=
  { s with host := { s.host with registry := registry } }

/-- The situation in which units have been started for substitutions, the call waits for them, and
`a` are its arguments. -/
def started (s : Situation) (done : List PlannedSubstitution) (a : Arguments) : Situation :=
  let units := done.filter (!·.spec.workflow)
  { call := { s.call with
      arguments := a
      dependencies := s.call.dependencies ++ units.map (·.dependency) }
    host := { s.host with
      journal := { s.host.journal with
        units := s.host.journal.units ++ units.map (·.record) } } }

end Situation

section Applying

variable {f : Signature}

open Substitution

/-- A refusal does not depend on what the transforms do: whatever stands behind their names, the
same error is reported, and nothing happens but that parameters are claimed. -/
theorem applyTransformations_refused (indexed : f.Indexed) {specs specs' : List Substitution}
    {s : Situation} {registry : Dict Transform} {e : TransformationError} {claimed : List String}
    (h : Refused s.host.registry f s.call.arguments s.call.targets specs e claimed)
    (faces : specs'.map face = specs.map face)
    (registered : ∀ name, registry.contains name = s.host.registry.contains name) :
    (applyTransformations f specs').runOn (s.withRegistry registry) =
      (.error (.transformation e), (s.withRegistry registry).claiming claimed) := by
  have refused := Draft.substitute_of_refused (d := (s.withRegistry registry).draft) indexed
    (h.congr faces registered)
  rw [applyTransformations_runOn]
  change (((s.withRegistry registry).draft.substitute registry f specs').1,
    (s.withRegistry registry).adopt
      ((s.withRegistry registry).draft.substitute registry f specs').2) = _
  rw [refused]
  rfl

/-- Substitutions are validated before any of them is carried out. -/
theorem applyTransformations_validates (indexed : f.Indexed) (specs : List Substitution)
    (s : Situation) :
    (¬ Valid s.host.registry f s.call.arguments s.call.targets specs →
      ∃ e claimed,
        Refused s.host.registry f s.call.arguments s.call.targets specs e claimed ∧
        (applyTransformations f specs).runOn s =
          (.error (.transformation e), s.claiming claimed) ∧
        ∀ specs' registry, specs'.map face = specs.map face →
          (∀ name, registry.contains name = s.host.registry.contains name) →
          (applyTransformations f specs').runOn (s.withRegistry registry) =
            (.error (.transformation e), (s.withRegistry registry).claiming claimed)) ∧
    (Valid s.host.registry f s.call.arguments s.call.targets specs →
      ∃ planned done result a, planned.map (·.spec) = specs ∧
        (∀ p ∈ planned, p.Follows s.host.registry f s.call.arguments) ∧
        PlannedSubstitution.CarriedOut planned done result ∧
        done.foldlM PlannedSubstitution.revise s.call.arguments = .ok a ∧
        (applyTransformations f specs).runOn s =
          (result, (s.claiming (specs.map (·.parameter))).started done a)) := by
  rcases Draft.substitute_cases indexed s.host.registry specs s.draft with
    ⟨e, claimed, refused⟩ | ⟨valid, planned, specs', follow, substituted⟩
  · refine ⟨fun _ => ⟨e, claimed, refused, ?_, ?_⟩, fun valid => (valid.not_refused refused).elim⟩
    · exact applyTransformations_refused indexed refused rfl fun _ => rfl
    · exact fun specs' registry => applyTransformations_refused indexed refused
  · refine ⟨fun invalid => absurd valid invalid, fun _ => ?_⟩
    obtain ⟨done, result, a, carriedOut, revised, run⟩ := Draft.actAll_carriedOut planned
      { s.draft with targets := s.draft.targets ++ specs.map (·.parameter) }
    refine ⟨planned, done, result, a, specs', follow, carriedOut, revised, ?_⟩
    rw [applyTransformations_runOn, substituted, run]
    rfl

/-- A substitution that is valid on its own is refused the second time. -/
theorem applyTransformations_validates_doubled :
    let f := BareFunction.echo.signature
    let doubled := Substitution.of "x" (.inline .twice)
    let s : Situation := ⟨.start ⟨.master, false⟩ (Arguments.empty.push (.int 1)), .master⟩
    f.Indexed ∧
      (∃ claimed, Refused s.host.registry f s.call.arguments s.call.targets [doubled, doubled]
        (.duplicateTarget "x") claimed) ∧
      ∃ planned, planned.map (·.spec) = [doubled] ∧
        PlannedSubstitution.CarriedOut planned planned (.ok ()) ∧
        ((applyTransformations f [doubled]).runOn s).2.call.dependencies =
          planned.map (·.dependency) := by
  intro f doubled s
  have indexed : f.Indexed := Signature.indexed_ofParameters "m" "f" _
  have repeated : ¬ Valid s.host.registry f s.call.arguments s.call.targets [doubled, doubled] :=
    fun valid => by simpa using valid.distinct
  have plannable : doubled.Plannable s.host.registry f s.call.arguments :=
    ⟨.inr (by decide), nofun⟩
  have single : Valid s.host.registry f s.call.arguments s.call.targets [doubled] :=
    ⟨by simpa using plannable, by simp, by simp [s, Call.start]⟩
  obtain ⟨e, claimed, refused, run, -⟩ :=
    (applyTransformations_validates indexed [doubled, doubled] s).1 repeated
  obtain ⟨planned, done, result, a, specs, -, carriedOut, -, run'⟩ :=
    (applyTransformations_validates indexed [doubled] s).2 single
  have error : ((applyTransformations f [doubled, doubled]).runOn s).1 =
    .error (.transformation (.duplicateTarget "x")) := rfl
  have success : ((applyTransformations f [doubled]).runOn s).1 = .ok () := rfl
  rw [run] at error
  rw [run'] at success ⊢
  cases error
  cases success
  cases carriedOut with
  | all pass =>
    refine ⟨indexed, ⟨claimed, refused⟩, planned, specs, .all pass, ?_⟩
    obtain ⟨p, rfl, same⟩ := List.map_eq_singleton_iff.mp specs
    simp [Situation.started, Situation.claiming, s, Call.start, same, doubled, Substitution.of]

end Applying

end TaskDecoration
