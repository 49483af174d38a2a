import Mathlib.Data.List.Nodup
import TaskDecoration.Proofs.History
import TaskDecoration.Proofs.Slots

/-!
# Transformations are one simultaneous substitution

Layers transform arguments one after another, some at once and some by units whose results are
written much later, while other layers change the arguments in between. The body sees none of
this: `substitution_simultaneous` says that it gets the arguments of the call in which every
target has been replaced by what its transform makes of the original value. `Draft.Progress` is
what holds between two substitutions, `Draft.Underway` what holds between two layers.
-/

set_option autoImplicit false

namespace TaskDecoration

/-- The substitutions that an annotation declares. -/
def Decoration.substitutions : Decoration → List Substitution
  | dataTransformation specs => specs
  | _ => []

/-- All substitutions that the layers of a function declare. -/
def TaskFunction.substitutions (f : TaskFunction) : List Substitution :=
  f.layers.flatMap (·.decoration.substitutions)

/-- The number of computing nodes that the innermost layer to do so hands to the call. -/
def TaskFunction.nodes? (f : TaskFunction) : Option Value :=
  (f.layers.filterMap (·.decoration.nodes?)).getLast?

/-- The arguments `a'` are `a` with every target replaced, at once, by what its transform makes of
the value in `a`, and with the number of computing nodes. -/
structure Substituted (registry : Dict Transform) (f : Signature) (specs : List Substitution)
    (nodes : Option Value) (a a' : Arguments) : Prop where
  targets : ∀ s ∈ specs, ∃ t v, s.transform.resolve registry = .ok t ∧
    t (a.valueOf f s.parameter) s.kwargs = .ok v ∧ a'.slot? (a.home f s.parameter) = some v
  supplied : ∀ v, nodes = some v → a'.get? Name.computingNodes = some v
  others : ∀ slot, (∀ s ∈ specs, a.home f s.parameter ≠ slot) →
    (nodes = none ∨ slot ≠ .keyword Name.computingNodes) → a'.slot? slot = a.slot? slot

namespace Substitution

/-- The same replacement, in one mode or the other. -/
structure Alike (s s' : Substitution) : Prop where
  parameter : s.parameter = s'.parameter
  transform : s.transform = s'.transform
  kwargs : s.kwargs = s'.kwargs

/-- The same replacements, in any order and mode. -/
structure Rearranged (ss ss' : List Substitution) : Prop where
  forth : ∀ s ∈ ss, ∃ s' ∈ ss', s.Alike s'
  back : ∀ s' ∈ ss', ∃ s ∈ ss, s.Alike s'

end Substitution

/-- Rearranged substitutions have the same result. -/
theorem Substituted.unique {registry : Dict Transform} {f : Signature}
    {specs specs' : List Substitution} {nodes : Option Value} {a b b' : Arguments}
    (h : Substituted registry f specs nodes a b) (h' : Substituted registry f specs' nodes a b')
    (rearranged : Substitution.Rearranged specs specs') : b = b' := by
  apply Arguments.ext_slot
  intro slot
  by_cases target : ∃ s ∈ specs, a.home f s.parameter = slot
  · obtain ⟨s, hs, rfl⟩ := target
    obtain ⟨s', hs', alike⟩ := rearranged.forth s hs
    obtain ⟨t, v, resolved, applied, stands⟩ := h.targets s hs
    obtain ⟨t', v', resolved', applied', stands'⟩ := h'.targets s' hs'
    rw [← alike.transform] at resolved'
    obtain rfl := Except.ok.inj (resolved.symm.trans resolved')
    rw [← alike.parameter, ← alike.kwargs] at applied'
    obtain rfl := Except.ok.inj (applied.symm.trans applied')
    rw [stands, alike.parameter, stands']
  · have free : ∀ s ∈ specs, a.home f s.parameter ≠ slot := fun s hs same => target ⟨s, hs, same⟩
    have free' : ∀ s ∈ specs', a.home f s.parameter ≠ slot := by
      intro s' hs' same
      obtain ⟨s, hs, alike⟩ := rearranged.back s' hs'
      exact free s hs (alike.parameter ▸ same)
    cases given : nodes with
    | none => rw [h.others slot free (.inl given), h'.others slot free' (.inl given)]
    | some v =>
      by_cases supplied : slot = .keyword Name.computingNodes
      · rw [supplied]
        exact (h.supplied v given).trans (h'.supplied v given).symm
      · rw [h.others slot free (.inr supplied), h'.others slot free' (.inr supplied)]

/-- A substitution has been planned on the arguments `a`. -/
structure PlannedSubstitution.Sound (registry : Dict Transform) (f : Signature) (a : Arguments)
    (p : PlannedSubstitution) : Prop where
  located : locate a f p.spec.parameter = .ok (p.slot, p.value)
  resolved : p.spec.transform.resolve registry = .ok p.transform
  other : p.spec.parameter ≠ Name.computingNodes

/-- The substitutions `done` of a call with arguments `a` have been carried out: those in workflow
mode have written their results, the draft waits for the others, and nothing else has changed but
the number of computing nodes. -/
structure Draft.Progress (registry : Dict Transform) (f : Signature) (a : Arguments)
    (done : List PlannedSubstitution) (nodes : Option Value) (d : Draft) : Prop where
  sound : ∀ p ∈ done, p.Sound registry f a
  distinct : (done.map (·.spec.parameter)).Nodup
  length : d.arguments.positional.length = a.positional.length
  written : ∀ p ∈ done, p.spec.workflow = true →
    ∃ v, p.outcome = .ok v ∧ d.arguments.slot? p.slot = some v
  awaited : d.dependencies = (done.filter (!·.spec.workflow)).map (·.dependency)
  supplied : ∀ v, nodes = some v → d.arguments.get? Name.computingNodes = some v
  others : ∀ s, (∀ p ∈ done, p.slot ≠ s) →
    (nodes = none ∨ s ≠ .keyword Name.computingNodes) → d.arguments.slot? s = a.slot? s

/-- What a draft knows of the transformations of its call. -/
def Draft.claims (d : Draft) : List String × Option (List Substitution) × Bool :=
  (d.targets, d.transformations, d.transformationsTaken)

/-- Between two layers, the targets of a call are the parameters that have been replaced. -/
structure Draft.Underway (registry : Dict Transform) (f : Signature) (a : Arguments)
    (done : List PlannedSubstitution) (nodes : Option Value) (d : Draft) : Prop where
  progress : d.Progress registry f a done nodes
  claims : d.claims = (done.map (·.spec.parameter), none, false)

section Steps

variable {registry : Dict Transform} {f : Signature} {a : Arguments}
  {done : List PlannedSubstitution} {nodes : Option Value} {d d' : Draft}
  {p q : PlannedSubstitution}

theorem PlannedSubstitution.Sound.slot_ne (indexed : f.Indexed) (hp : p.Sound registry f a)
    (hq : q.Sound registry f a) (h : p.spec.parameter ≠ q.spec.parameter) : p.slot ≠ q.slot := by
  intro same
  have located := hp.located
  rw [same] at located
  exact h (locate_injective indexed located hq.located)

theorem PlannedSubstitution.Sound.slot_ne_nodes (hp : p.Sound registry f a) :
    p.slot ≠ .keyword Name.computingNodes := by
  intro same
  have located := hp.located
  rw [same] at located
  exact hp.other (locate_keyword located).symm

theorem Arguments.within_congr {a b : Arguments} {s : Slot}
    (length : b.positional.length = a.positional.length) (h : a.Within s) : b.Within s := by
  cases s with
  | keyword name => trivial
  | positional i => exact Nat.lt_of_lt_of_eq h length.symm

namespace Draft

/-- A parameter that has not been replaced is still where it was. -/
theorem Progress.locate_eq (h : d.Progress registry f a done nodes) (indexed : f.Indexed)
    {parameter : String} (other : parameter ≠ Name.computingNodes)
    (fresh : parameter ∉ done.map (·.spec.parameter)) :
    locate d.arguments f parameter = locate a f parameter := by
  have elsewhere (q : PlannedSubstitution) (hq : q ∈ done) : q.spec.parameter ≠ parameter :=
    fun same => fresh (same ▸ List.mem_map_of_mem hq)
  refine locate_congr (h.others _ (fun q hq same => ?_) (.inr fun same => ?_))
    fun i position => h.others _ (fun q hq same => ?_) (.inr (by simp))
  · have located := (h.sound q hq).located
    rw [same] at located
    exact elsewhere q hq (locate_keyword located).symm
  · exact other (Slot.keyword.inj same)
  · have located := (h.sound q hq).located
    rw [same] at located
    exact elsewhere q hq
      (Signature.position_injective indexed (locate_positional located) position)

/-- What carrying out a substitution does: it writes its slot, and in workflow mode that is all. -/
theorem act_ok (acted : d.act p = (.ok (), d')) :
    ∃ x, d'.arguments = d.arguments.set p.slot x ∧
      (p.spec.workflow = true → p.outcome = .ok x) ∧
      d'.dependencies = d.dependencies ++ ([p].filter (!·.spec.workflow)).map (·.dependency) ∧
      d'.claims = d.claims := by
  unfold act at acted
  by_cases workflow : p.spec.workflow = true
  · rw [if_pos workflow] at acted
    have silent : [p].filter (!·.spec.workflow) = [] :=
      List.filter_cons_of_neg (by rw [workflow]; exact Bool.false_ne_true)
    rw [silent]
    cases result : p.outcome with
    | error e =>
      rw [result] at acted
      cases acted
    | ok v =>
      rw [result] at acted
      cases acted
      exact ⟨v, rfl, fun _ => rfl, (List.append_nil _).symm, rfl⟩
  · rw [if_neg workflow] at acted
    cases acted
    have awaits : [p].filter (!·.spec.workflow) = [p] :=
      List.filter_cons_of_pos (by rw [Bool.eq_false_iff.mpr workflow]; rfl)
    rw [awaits]
    exact ⟨.null, rfl, fun yes => absurd yes workflow, rfl, rfl⟩

/-- One substitution. -/
theorem Progress.act (h : d.Progress registry f a done nodes) (indexed : f.Indexed)
    (sound : p.Sound registry f a) (fresh : p.spec.parameter ∉ done.map (·.spec.parameter))
    (acted : d.act p = (.ok (), d')) :
    d'.Progress registry f a (done ++ [p]) nodes ∧ d'.claims = d.claims := by
  obtain ⟨x, arguments, result, dependencies, claims⟩ := act_ok acted
  have within : d.arguments.Within p.slot :=
    Arguments.within_congr h.length (locate_within sound.located)
  have slots (s : Slot) :
      d'.arguments.slot? s = if s = p.slot then some x else d.arguments.slot? s := by
    rw [arguments]
    exact Arguments.slot?_set within x s
  have elsewhere (q : PlannedSubstitution) (hq : q ∈ done) : q.slot ≠ p.slot :=
    (h.sound q hq).slot_ne indexed sound fun same => fresh (same ▸ List.mem_map_of_mem hq)
  refine ⟨?_, claims⟩
  constructor
  · intro q hq
    rcases List.mem_append.mp hq with before | last
    · exact h.sound q before
    · rw [List.mem_singleton.mp last]
      exact sound
  · rw [List.map_append]
    refine List.nodup_append.mpr ⟨h.distinct, by simp, ?_⟩
    intro y hy z hz same
    have named : y = p.spec.parameter := same.trans (List.mem_singleton.mp hz)
    exact fresh (named ▸ hy)
  · rw [arguments, Arguments.length_set within]
    exact h.length
  · intro q hq workflow
    rcases List.mem_append.mp hq with before | last
    · obtain ⟨v, outcome, stands⟩ := h.written q before workflow
      exact ⟨v, outcome, by rw [slots, if_neg (elsewhere q before), stands]⟩
    · rw [List.mem_singleton.mp last] at workflow ⊢
      exact ⟨x, result workflow, by rw [slots, if_pos rfl]⟩
  · rw [dependencies, h.awaited, List.filter_append, List.map_append]
  · intro v given
    have stands : d'.arguments.slot? (.keyword Name.computingNodes) = some v := by
      rw [slots, if_neg (fun same => sound.slot_ne_nodes same.symm)]
      exact h.supplied v given
    exact stands
  · intro s free other
    have here : s ≠ p.slot := fun same =>
      free p (List.mem_append_right _ List.mem_cons_self) same.symm
    rw [slots, if_neg here]
    exact h.others s (fun q hq => free q (List.mem_append_left _ hq)) other

/-- Substitutions of different parameters, one after another. -/
theorem Progress.actAll {ps : List PlannedSubstitution} (h : d.Progress registry f a done nodes)
    (indexed : f.Indexed) (sound : ∀ p ∈ ps, p.Sound registry f a)
    (distinct : ((done ++ ps).map (·.spec.parameter)).Nodup)
    (acted : Draft.actAll ps d = (.ok (), d')) :
    d'.Progress registry f a (done ++ ps) nodes ∧ d'.claims = d.claims := by
  induction ps generalizing done d with
  | nil =>
    cases acted
    rw [List.append_nil]
    exact ⟨h, rfl⟩
  | cons p ps ih =>
    have split : done ++ p :: ps = done ++ [p] ++ ps := by rw [List.append_assoc]; rfl
    rw [split] at distinct ⊢
    have fresh : p.spec.parameter ∉ done.map (·.spec.parameter) := by
      rw [List.map_append, List.map_append] at distinct
      have first := (List.nodup_append.mp distinct).1
      intro member
      exact (List.nodup_append.mp first).2.2 _ member _ List.mem_cons_self rfl
    unfold Draft.actAll at acted
    rcases first : d.act p with ⟨r, d₁⟩
    rw [first] at acted
    cases r with
    | error e => cases acted
    | ok u =>
      obtain ⟨progress, claims⟩ := h.act indexed (sound p List.mem_cons_self) fresh first
      obtain ⟨progress', claims'⟩ :=
        ih progress (fun q hq => sound q (List.mem_cons_of_mem p hq)) distinct acted
      exact ⟨progress', claims'.trans claims⟩

end Draft

theorem claimTargets_none {ps targets targets' : List String} (distinct : targets.Nodup)
    (h : claimTargets ps targets = (none, targets')) :
    targets' = targets ++ ps ∧ (targets ++ ps).Nodup := by
  induction ps generalizing targets with
  | nil =>
    cases h
    rw [List.append_nil]
    exact ⟨rfl, distinct⟩
  | cons p ps ih =>
    unfold claimTargets at h
    by_cases taken : targets.contains p = true
    · rw [if_pos taken] at h
      cases h
    · rw [if_neg taken] at h
      have fresh : p ∉ targets := fun member => taken (List.contains_iff_mem.mpr member)
      have split : targets ++ p :: ps = targets ++ [p] ++ ps := by rw [List.append_assoc]; rfl
      rw [split]
      refine ih (List.nodup_append.mpr ⟨distinct, by simp, ?_⟩) h
      intro x hx y hy same
      exact fresh (List.mem_singleton.mp (same ▸ hy) ▸ hx)

theorem Substitution.plan_ok {s : Substitution} {b : Arguments}
    (h : s.plan registry b f = .ok p) :
    p.spec = s ∧ locate b f s.parameter = .ok (p.slot, p.value) ∧
      s.transform.resolve registry = .ok p.transform := by
  unfold plan at h
  cases located : locate b f s.parameter with
  | error e =>
    rw [located] at h
    cases h
  | ok found =>
    rw [located] at h
    cases resolved : s.transform.resolve registry with
    | error e =>
      rw [resolved] at h
      cases h
    | ok t =>
      rw [resolved] at h
      cases h
      exact ⟨rfl, rfl, rfl⟩

/-- Substitutions are planned one by one. -/
theorem mapM_plan_ok {specs : List Substitution} {b : Arguments}
    {planned : List PlannedSubstitution}
    (h : specs.mapM (Substitution.plan registry b f) = .ok planned) :
    planned.map (·.spec) = specs ∧ ∀ p ∈ planned, p.spec.plan registry b f = .ok p := by
  induction specs generalizing planned with
  | nil =>
    cases h
    exact ⟨rfl, fun p hp => nomatch hp⟩
  | cons s specs ih =>
    rw [List.mapM_cons] at h
    cases first : s.plan registry b f with
    | error e =>
      rw [first] at h
      cases h
    | ok p =>
      rw [first] at h
      cases rest : specs.mapM (Substitution.plan registry b f) with
      | error e =>
        rw [rest] at h
        cases h
      | ok ps =>
        rw [rest] at h
        cases h
        obtain ⟨specs', plans⟩ := ih rest
        obtain ⟨rfl, -⟩ := Substitution.plan_ok first
        refine ⟨List.cons_eq_cons.mpr ⟨rfl, specs'⟩, fun q hq => ?_⟩
        rcases List.mem_cons.mp hq with rfl | later
        · exact first
        · exact plans q later

theorem PlannedSubstitution.map_parameter {planned : List PlannedSubstitution}
    {specs : List Substitution} (same : planned.map (·.spec) = specs) :
    planned.map (·.spec.parameter) = specs.map (·.parameter) := by
  rw [← same, List.map_map]
  rfl

namespace Draft

/-- The substitutions of one layer. -/
theorem Underway.substitute {specs : List Substitution}
    (h : d.Underway registry f a done nodes) (indexed : f.Indexed)
    (other : ∀ s ∈ specs, s.parameter ≠ Name.computingNodes)
    (substituted : d.substitute registry f specs = (.ok (), d')) :
    ∃ more, more.map (·.spec) = specs ∧ d'.Underway registry f a (done ++ more) nodes := by
  cases planning : specs.mapM (Substitution.plan registry d.arguments f) with
  | error e =>
    rw [substitute_unplanned planning] at substituted
    cases substituted
  | ok planned =>
    rcases claiming : claimTargets (planned.map (·.spec.parameter)) d.targets
      with ⟨refused, targets⟩
    cases refused with
    | some e =>
      rw [substitute_refused planning claiming] at substituted
      cases substituted
    | none =>
      rw [substitute_claimed planning claiming] at substituted
      obtain ⟨specs', plans⟩ := mapM_plan_ok planning
      obtain ⟨targets', rest⟩ := Prod.mk.inj h.claims
      obtain ⟨given, taken⟩ := Prod.mk.inj rest
      rw [targets'] at claiming
      obtain ⟨rfl, distinct⟩ := claimTargets_none h.progress.distinct claiming
      rw [← List.map_append] at distinct substituted
      have sound (p : PlannedSubstitution) (hp : p ∈ planned) : p.Sound registry f a := by
        obtain ⟨-, located, resolved⟩ := Substitution.plan_ok (plans p hp)
        have declared : p.spec ∈ specs := specs' ▸ List.mem_map_of_mem hp
        have fresh : p.spec.parameter ∉ done.map (·.spec.parameter) := by
          intro member
          rw [List.map_append] at distinct
          exact (List.nodup_append.mp distinct).2.2 _ member _ (List.mem_map_of_mem hp) rfl
        rw [h.progress.locate_eq indexed (other _ declared) fresh] at located
        exact ⟨located, resolved, other _ declared⟩
      have claimed : ({ d with targets := (done ++ planned).map (·.spec.parameter) } :
          Draft).Progress registry f a done nodes :=
        ⟨h.progress.sound, h.progress.distinct, h.progress.length, h.progress.written,
          h.progress.awaited, h.progress.supplied, h.progress.others⟩
      obtain ⟨progress, claims⟩ := claimed.actAll indexed sound distinct substituted
      refine ⟨planned, specs', progress, claims.trans ?_⟩
      unfold Draft.claims
      dsimp only
      rw [given, taken]

/-- A number of computing nodes. -/
theorem Underway.supply (h : d.Underway registry f a done nodes) (given : Option Value) :
    (d.supply given).Underway registry f a done (given.or nodes) := by
  cases given with
  | none => exact h
  | some x =>
    refine ⟨⟨h.progress.sound, h.progress.distinct, h.progress.length, ?_, h.progress.awaited,
      ?_, ?_⟩, h.claims⟩
    · intro p hp workflow
      obtain ⟨v, outcome, stands⟩ := h.progress.written p hp workflow
      refine ⟨v, outcome, ?_⟩
      change (d.arguments.insert Name.computingNodes x).slot? p.slot = some v
      rw [Arguments.slot?_insert, if_neg (h.progress.sound p hp).slot_ne_nodes, stands]
    · intro v same
      obtain rfl := Option.some.inj same
      change (d.arguments.insert Name.computingNodes x).slot? (.keyword Name.computingNodes) = _
      rw [Arguments.slot?_insert, if_pos rfl]
    · intro s free other
      have elsewhere : s ≠ .keyword Name.computingNodes := by
        rcases other with none | elsewhere
        · cases none
        · exact elsewhere
      change (d.arguments.insert Name.computingNodes x).slot? s = _
      rw [Arguments.slot?_insert, if_neg elsewhere]
      exact h.progress.others s free (.inr elsewhere)

/-- One layer. -/
theorem Underway.prepare {c : Context} {x : Decoration}
    (h : d.Underway registry f a done nodes) (indexed : f.Indexed)
    (configures : c.configures = true)
    (other : ∀ s ∈ x.substitutions, s.parameter ≠ Name.computingNodes)
    (prepared : d.prepare c registry f x = (.ok (), d')) :
    ∃ more, more.map (·.spec) = x.substitutions ∧
      d'.Underway registry f a (done ++ more) (x.nodes?.or nodes) := by
  cases x with
  | dataTransformation specs =>
    unfold Draft.prepare at prepared
    dsimp only at prepared
    rw [if_pos configures] at prepared
    obtain ⟨-, rest⟩ := Prod.mk.inj h.claims
    obtain ⟨given, taken⟩ := Prod.mk.inj rest
    have due : d.due specs = specs := by
      unfold Draft.due
      rw [given, taken]
      rfl
    have taking : d.take = d := by
      unfold Draft.take
      rw [taken, given]
      cases d
      cases given
      cases taken
      rfl
    rw [taking, due] at prepared
    exact h.substitute indexed other prepared
  | _ =>
    cases prepared
    refine ⟨[], rfl, ?_⟩
    rw [List.append_nil]
    exact h.supply _

/-- All layers. -/
theorem Underway.pass {c : Context} {xs : List Decoration}
    (h : d.Underway registry f a done nodes) (indexed : f.Indexed)
    (configures : c.configures = true)
    (other : ∀ s ∈ xs.flatMap Decoration.substitutions, s.parameter ≠ Name.computingNodes)
    (passed : d.pass c registry f xs = (.ok (), d')) :
    ∃ more, more.map (·.spec) = xs.flatMap Decoration.substitutions ∧
      d'.Underway registry f a (done ++ more)
        ((xs.filterMap Decoration.nodes?).getLast?.or nodes) := by
  induction xs generalizing done nodes d with
  | nil =>
    cases passed
    refine ⟨[], rfl, ?_⟩
    rw [List.append_nil]
    exact h
  | cons x xs ih =>
    rw [List.flatMap_cons] at other ⊢
    unfold Draft.pass at passed
    by_cases admitted : c.admitsCalls = true
    · rw [if_pos admitted] at passed
      rcases prepared : d.prepare c registry f x with ⟨r, d₁⟩
      rw [prepared] at passed
      cases r with
      | error e => cases passed
      | ok u =>
        obtain ⟨first, specs, underway⟩ := h.prepare indexed configures
          (fun s hs => other s (List.mem_append_left _ hs)) prepared
        have opened : (d₁.openFrame x.keepsMarks).Underway registry f a (done ++ first)
            (x.nodes?.or nodes) :=
          ⟨⟨underway.progress.sound, underway.progress.distinct, underway.progress.length,
            underway.progress.written, underway.progress.awaited, underway.progress.supplied,
            underway.progress.others⟩, underway.claims⟩
        obtain ⟨more, specs', underway'⟩ :=
          ih opened (fun s hs => other s (List.mem_append_right _ hs)) passed
        refine ⟨first ++ more, by rw [List.map_append, specs, specs'], ?_⟩
        rw [← List.append_assoc]
        have last : ((x :: xs).filterMap Decoration.nodes?).getLast?.or nodes =
            (xs.filterMap Decoration.nodes?).getLast?.or (x.nodes?.or nodes) := by
          cases supplied : x.nodes? with
          | none => rw [List.filterMap_cons_none supplied]; rfl
          | some v =>
            rw [List.filterMap_cons_some supplied, List.getLast?_cons]
            cases (xs.filterMap Decoration.nodes?).getLast? with
            | none => rfl
            | some w => rfl
        rw [last]
        exact underway'
    · rw [if_neg admitted] at passed
      cases passed

end Draft

/-- Results that arrive for different slots. -/
theorem Dependency.resolve_ok {ps : List PlannedSubstitution} {b b' : Arguments}
    (within : ∀ p ∈ ps, b.Within p.slot) (distinct : (ps.map (·.slot)).Nodup)
    (h : Dependency.resolve (ps.map (·.dependency)) b = (.ok (), b')) :
    (∀ p ∈ ps, ∃ v, p.outcome = .ok v ∧ b'.slot? p.slot = some v) ∧
      ∀ s, (∀ p ∈ ps, p.slot ≠ s) → b'.slot? s = b.slot? s := by
  induction ps generalizing b with
  | nil =>
    cases h
    exact ⟨fun p hp => (nomatch hp), fun s _ => rfl⟩
  | cons p ps ih =>
    obtain ⟨fresh, rest⟩ := List.nodup_cons.mp distinct
    have here := within p List.mem_cons_self
    rw [List.map_cons] at h
    unfold Dependency.resolve at h
    have waited : p.dependency.unit.wait = p.outcome := rfl
    rw [waited] at h
    cases result : p.outcome with
    | error e =>
      rw [result] at h
      cases h
    | ok v =>
      rw [result] at h
      obtain ⟨arrived, others⟩ := ih (b := b.set p.slot v)
        (fun q hq => Arguments.within_congr (Arguments.length_set here v)
          (within q (List.mem_cons_of_mem p hq))) rest h
      have apart (q : PlannedSubstitution) (hq : q ∈ ps) : q.slot ≠ p.slot := by
        intro same
        exact fresh (List.mem_map.mpr ⟨q, hq, same⟩)
      constructor
      · intro q hq
        rcases List.mem_cons.mp hq with rfl | later
        · refine ⟨v, result, ?_⟩
          rw [others _ apart, Arguments.slot?_set here, if_pos rfl]
        · exact arrived q later
      · intro s free
        rw [others s fun q hq => free q (List.mem_cons_of_mem p hq), Arguments.slot?_set here,
          if_neg (free p List.mem_cons_self).symm]

theorem Draft.Progress.slots_distinct (h : d.Progress registry f a done nodes)
    (indexed : f.Indexed) : (done.map (·.slot)).Nodup := by
  have parameters := List.pairwise_map.mp h.distinct
  refine List.pairwise_map.mpr (parameters.imp_of_mem ?_)
  intro p q hp hq
  exact (h.sound p hp).slot_ne indexed (h.sound q hq)

/-- When all results have arrived, the substitution is complete. -/
theorem Draft.Progress.resolve {a' : Arguments} (h : d.Progress registry f a done nodes)
    (indexed : f.Indexed)
    (resolved : Dependency.resolve d.dependencies d.arguments = (.ok (), a')) :
    Substituted registry f (done.map (·.spec)) nodes a a' := by
  have distinct := h.slots_distinct indexed
  rw [h.awaited] at resolved
  obtain ⟨arrived, others⟩ := Dependency.resolve_ok
    (fun p hp => Arguments.within_congr h.length
      (locate_within (h.sound p (List.mem_filter.mp hp).1).located))
    (distinct.sublist (List.filter_sublist.map _)) resolved
  constructor
  · intro s hs
    obtain ⟨p, hp, rfl⟩ := List.mem_map.mp hs
    obtain ⟨home, value⟩ := locate_ok (h.sound p hp).located
    rw [← home, ← value]
    by_cases workflow : p.spec.workflow = true
    · obtain ⟨v, outcome, stands⟩ := h.written p hp workflow
      refine ⟨p.transform, v, (h.sound p hp).resolved, outcome, ?_⟩
      rw [others, stands]
      -- Nobody waits for the slot, since every other target has a slot of its own.
      intro q hq same
      obtain ⟨member, waits⟩ := List.mem_filter.mp hq
      obtain rfl := List.inj_on_of_nodup_map distinct member hp same
      rw [workflow] at waits
      cases waits
    · obtain ⟨v, outcome, stands⟩ := arrived p
        (List.mem_filter.mpr ⟨hp, by rw [Bool.eq_false_iff.mpr workflow]; rfl⟩)
      exact ⟨p.transform, v, (h.sound p hp).resolved, outcome, stands⟩
  · intro v given
    have stands : a'.slot? (.keyword Name.computingNodes) = some v := by
      rw [others _ fun p hp => (h.sound p (List.mem_filter.mp hp).1).slot_ne_nodes]
      exact h.supplied v given
    exact stands
  · intro slot free other
    have apart (p : PlannedSubstitution) (hp : p ∈ done) : p.slot ≠ slot := by
      rw [(locate_ok (h.sound p hp).located).1]
      exact free p.spec (List.mem_map_of_mem hp)
    rw [others slot fun p hp => apart p (List.mem_filter.mp hp).1]
    exact h.others slot apart other

end Steps

namespace TaskFunction

/-- The body of a function runs, as `x`, in a call that configures and brings no transformations
of its own; no layer replaces the number of computing nodes. -/
structure Transforms (f : TaskFunction) (r : Request) (o : Orchestrator) (x : BodyRun) : Prop where
  configures : r.context.configures = true
  plain : r.transformations = none
  other : ∀ s ∈ f.substitutions, s.parameter ≠ Name.computingNodes
  ran : x ∈ (f.outcome r o).journal.runs

theorem Transforms.substituted {f : TaskFunction} {r : Request} {o : Orchestrator} {x : BodyRun}
    (h : f.Transforms r o x) (indexed : f.signature.Indexed) :
    Substituted o.registry f.signature f.substitutions f.nodes? r.arguments x.view.arguments := by
  have ran := h.ran
  rw [outcome_eq] at ran
  obtain ⟨b, d, crossing, all, resolved, -⟩ := mem_report_runs ran
  have passed := pass_of_walk crossing
  have start : r.draft.Underway o.registry f.signature r.arguments [] none := by
    refine ⟨⟨fun p hp => (nomatch hp), List.nodup_nil, rfl, fun p hp => (nomatch hp), rfl,
      fun v given => (nomatch given), fun s _ _ => rfl⟩, ?_⟩
    unfold Draft.claims Request.draft
    rw [h.plain]
    rfl
  have declared : (f.layers.map (·.decoration)).flatMap Decoration.substitutions =
      f.substitutions := List.flatMap_map _ _ _
  have supplied : ((f.layers.map (·.decoration)).filterMap Decoration.nodes?).getLast? =
      f.nodes? := congrArg List.getLast? List.filterMap_map
  rw [all] at passed
  obtain ⟨done, specs, underway⟩ := start.pass indexed h.configures
    (fun s hs => h.other s (declared ▸ hs)) passed
  have substituted := underway.progress.resolve indexed resolved
  rw [List.nil_append, specs, declared, supplied, Option.or_none] at substituted
  exact substituted

/-- The body sees the arguments of the call in which all targets have been replaced at once. How
the substitutions are ordered, spread over layers and carried out makes no difference. -/
theorem substitution_simultaneous {f : TaskFunction} {r : Request} {o : Orchestrator} {x : BodyRun}
    (indexed : f.signature.Indexed) (h : f.Transforms r o x) :
    Substituted o.registry f.signature f.substitutions f.nodes? r.arguments x.view.arguments ∧
      ∀ f' r' o' x', Transforms f' r' o' x' → f'.signature = f.signature →
        o'.registry = o.registry → r'.arguments = r.arguments →
        Substitution.Rearranged f.substitutions f'.substitutions → f'.nodes? = f.nodes? →
        x'.view.arguments = x.view.arguments := by
  refine ⟨h.substituted indexed, ?_⟩
  intro f' r' o' x' h' signature registry arguments rearranged nodes
  have there := h'.substituted (signature ▸ indexed)
  rw [signature, registry, arguments, nodes] at there
  exact ((h.substituted indexed).unique there rearranged).symm

theorem substitution_simultaneous_unit :
    let twice : Transform := fun v _ => .ok (.list [v, v])
    let f := (decorate [.dataTransformation [.of "x" (.inline twice)], .task .empty .standard]
      (bare .echo) .master).1
    let r := Request.plain ⟨.master, false⟩ (Arguments.empty.push (.text "a"))
    ∃ x ∈ (f.outcome r .master).journal.runs,
      Substituted .empty f.signature [.of "x" (.inline twice)] none r.arguments
        x.view.arguments := by
  intro twice f r
  have ran : (f.outcome r .master).journal.runs ≠ [] := List.cons_ne_nil _ _
  obtain ⟨x, hx⟩ := List.exists_mem_of_ne_nil _ ran
  have other : ∀ s ∈ f.substitutions, s.parameter ≠ Name.computingNodes := by
    intro s hs
    rw [List.mem_singleton.mp hs]
    decide
  exact ⟨x, hx, (substitution_simultaneous (f := f) rfl ⟨rfl, rfl, other, hx⟩).1⟩

end TaskFunction

end TaskDecoration
