import TaskDecoration.Proofs.Procedure

/-!
# Preparing a call

The layers of a function prepare a call before its body sees it: a number of computing nodes
becomes a keyword argument, transformations are carried out or started as units, and frames are
opened. All of this reads and writes the `Draft` of a situation and nothing else.
`Decoration.prepare_runOn` says so: preparing is a function on drafts, `Draft.prepare`, and what
the call and the orchestrator hold besides stays as it was.
-/

set_option autoImplicit false

namespace TaskDecoration

/-- The part of a situation that preparation works on: what layers change of a call besides its
descriptor, and the journal of started units. -/
structure Draft where
  arguments : Arguments
  frames : List Frame
  dependencies : List Dependency
  transformations : Option (List Substitution)
  transformationsTaken : Bool
  targets : List String
  units : List UnitRecord

/-- Annotations that run on computing nodes of their own. -/
def PrimaryKind.parallel : List PrimaryKind := [.ompss, .mpi, .compss, .decaf, .multiNode]

theorem PrimaryKind.injectsNodes_iff (k : PrimaryKind) :
    k.injectsNodes = true ↔ k ∈ PrimaryKind.parallel := by
  cases k <;> decide

/-- The number of computing nodes an annotation hands to the call. -/
def Decoration.nodes? : Decoration → Option Value
  | primary p => if p.kind ∈ PrimaryKind.parallel then p.arguments.get? Name.computingNodes else none
  | _ => none

namespace PlannedSubstitution

/-- What the transform makes of the value. -/
def outcome (p : PlannedSubstitution) : Except TaskError Value :=
  p.transform p.value p.spec.kwargs

/-- The unit of the substitution as its slot waits for it. -/
def dependency (p : PlannedSubstitution) : Dependency :=
  ⟨p.spec.parameter, p.slot, .of p.spec.unitName p.outcome⟩

/-- The unit of the substitution as the scheduler records it. -/
def record (p : PlannedSubstitution) : UnitRecord := ⟨p.spec.unitName, p.value⟩

end PlannedSubstitution

/-- Adds parameters to the targets of a call, up to the first that already is one. -/
def claimTargets : List String → List String → Option TransformationError × List String
  | [], targets => (none, targets)
  | p :: ps, targets =>
    if targets.contains p then (some (.duplicateTarget p), targets)
    else claimTargets ps (targets ++ [p])

namespace Draft

/-- A substitution in workflow mode has written its result. -/
def write (d : Draft) (p : PlannedSubstitution) (v : Value) : Draft :=
  { d with arguments := d.arguments.set p.slot v }

/-- The unit of a substitution has been started, and its slot waits for the result. -/
def await (d : Draft) (p : PlannedSubstitution) : Draft :=
  { d with
    arguments := d.arguments.set p.slot .null
    dependencies := d.dependencies ++ [p.dependency]
    units := d.units ++ [p.record] }

/-- Carries out a planned substitution. -/
def act (d : Draft) (p : PlannedSubstitution) : Except TaskError Unit × Draft :=
  if p.spec.workflow then
    match p.outcome with
    | .ok v => (.ok (), d.write p v)
    | .error e => (.error e, d)
  else (.ok (), d.await p)

/-- Carries out substitutions in order, up to the first failure. -/
def actAll : List PlannedSubstitution → Draft → Except TaskError Unit × Draft
  | [], d => (.ok (), d)
  | p :: ps, d => match d.act p with
    | (.ok (), d) => actAll ps d
    | (.error e, d) => (.error e, d)

/-- Plans substitutions, claims their targets and carries them out. -/
def substitute (registry : Dict Transform) (f : Signature) (specs : List Substitution)
    (d : Draft) : Except TaskError Unit × Draft :=
  match specs.mapM (Substitution.plan registry d.arguments f) with
  | .error e => (.error (.transformation e), d)
  | .ok planned =>
    match claimTargets (planned.map (·.spec.parameter)) d.targets with
    | (some e, targets) => (.error (.transformation e), { d with targets := targets })
    | (none, targets) => actAll planned { d with targets := targets }

/-- The transformations that came with the call have been handed out. -/
def take (d : Draft) : Draft :=
  { d with
    transformations := none
    transformationsTaken := d.transformationsTaken || d.transformations.isSome }

/-- The draft of a call that has not brought any transformations. -/
def dropGiven (d : Draft) : Draft :=
  { d with transformations := none, transformationsTaken := false }

/-- The substitutions that a layer carries out, given those it declares. -/
def due (d : Draft) (declared : List Substitution) : List Substitution :=
  if d.transformationsTaken || d.transformations.isSome then d.transformations.getD []
  else declared

/-- A number of computing nodes becomes a keyword argument. -/
def supply (d : Draft) : Option Value → Draft
  | some nodes => { d with arguments := d.arguments.insert Name.computingNodes nodes }
  | none => d

theorem substitute_unplanned {registry : Dict Transform} {f : Signature}
    {specs : List Substitution} {d : Draft} {e : TransformationError}
    (planning : specs.mapM (Substitution.plan registry d.arguments f) = .error e) :
    d.substitute registry f specs = (.error (.transformation e), d) := by
  unfold substitute
  rw [planning]

theorem substitute_refused {registry : Dict Transform} {f : Signature}
    {specs : List Substitution} {d : Draft} {planned : List PlannedSubstitution}
    {e : TransformationError} {targets : List String}
    (planning : specs.mapM (Substitution.plan registry d.arguments f) = .ok planned)
    (claiming : claimTargets (planned.map (·.spec.parameter)) d.targets = (some e, targets)) :
    d.substitute registry f specs =
      (.error (.transformation e), { d with targets := targets }) := by
  unfold substitute
  rw [planning]
  dsimp only
  rw [claiming]

theorem substitute_claimed {registry : Dict Transform} {f : Signature}
    {specs : List Substitution} {d : Draft} {planned : List PlannedSubstitution}
    {targets : List String}
    (planning : specs.mapM (Substitution.plan registry d.arguments f) = .ok planned)
    (claiming : claimTargets (planned.map (·.spec.parameter)) d.targets = (none, targets)) :
    d.substitute registry f specs = actAll planned { d with targets := targets } := by
  unfold substitute
  rw [planning]
  dsimp only
  rw [claiming]

/-- What an annotation does to the draft of an admitted call. -/
def prepare (c : Context) (registry : Dict Transform) (f : Signature) (a : Decoration)
    (d : Draft) : Except TaskError Unit × Draft :=
  match a with
  | .dataTransformation specs =>
    if c.configures then d.take.substitute registry f (d.due specs) else (.ok (), d)
  | a => (.ok (), d.supply a.nodes?)

/-- Opens the frame of a layer. -/
def openFrame (d : Draft) (prependStrings : Bool) : Draft :=
  { d with frames := .ofArguments d.arguments prependStrings :: d.frames }

/-- The draft of a call before which other units had been started. -/
def after (units : List UnitRecord) (d : Draft) : Draft := { d with units := units ++ d.units }

/-- The draft of a call over which other frames are open. -/
def withFrames (frames : List Frame) (d : Draft) : Draft := { d with frames := frames }

/-- A change of drafts that substitutions do not notice. -/
structure Inert (g : Draft → Draft) : Prop where
  arguments : ∀ d, (g d).arguments = d.arguments
  targets : ∀ d, (g d).targets = d.targets
  write : ∀ d p v, (g d).write p v = g (d.write p v)
  await : ∀ d p, (g d).await p = g (d.await p)
  claim : ∀ d targets, { g d with targets := targets } = g { d with targets := targets }

section Inert

variable {g : Draft → Draft}

theorem act_inert (inert : Inert g) (d : Draft) (p : PlannedSubstitution) :
    (g d).act p = ((d.act p).1, g (d.act p).2) := by
  unfold act
  by_cases workflow : p.spec.workflow = true
  · rw [if_pos workflow, if_pos workflow]
    cases p.outcome with
    | ok v =>
      dsimp only
      rw [inert.write]
    | error e => rfl
  · rw [if_neg workflow, if_neg workflow, inert.await]

theorem actAll_inert (inert : Inert g) (ps : List PlannedSubstitution) (d : Draft) :
    actAll ps (g d) = ((actAll ps d).1, g (actAll ps d).2) := by
  induction ps generalizing d with
  | nil => rfl
  | cons p ps ih =>
    unfold actAll
    rw [act_inert inert]
    rcases d.act p with ⟨r, d⟩
    cases r with
    | ok u => exact ih d
    | error e => rfl

theorem substitute_inert (inert : Inert g) (registry : Dict Transform) (f : Signature)
    (specs : List Substitution) (d : Draft) :
    (g d).substitute registry f specs =
      ((d.substitute registry f specs).1, g (d.substitute registry f specs).2) := by
  have arguments := inert.arguments d
  cases planning : specs.mapM (Substitution.plan registry d.arguments f) with
  | error e =>
    rw [substitute_unplanned planning, substitute_unplanned (arguments ▸ planning)]
  | ok planned =>
    rcases claiming : claimTargets (planned.map (·.spec.parameter)) d.targets with
      ⟨refused, targets⟩
    have claiming' := inert.targets d ▸ claiming
    cases refused with
    | some e =>
      rw [substitute_refused planning claiming,
        substitute_refused (arguments ▸ planning) claiming', inert.claim]
    | none =>
      rw [substitute_claimed planning claiming,
        substitute_claimed (arguments ▸ planning) claiming', inert.claim]
      exact actAll_inert inert planned { d with targets := targets }

end Inert

theorem inert_after (units : List UnitRecord) : Inert (after units) where
  arguments _ := rfl
  targets _ := rfl
  write _ _ _ := rfl
  await d p := by simp [await, after]
  claim _ _ := rfl

theorem inert_dropGiven : Inert dropGiven where
  arguments _ := rfl
  targets _ := rfl
  write _ _ _ := rfl
  await _ _ := rfl
  claim _ _ := rfl

theorem inert_withFrames (frames : List Frame) : Inert (withFrames frames) where
  arguments _ := rfl
  targets _ := rfl
  write _ _ _ := rfl
  await _ _ := rfl
  claim _ _ := rfl

theorem supply_after (units : List UnitRecord) (d : Draft) (nodes : Option Value) :
    (d.after units).supply nodes = (d.supply nodes).after units := by
  cases nodes with
  | none => rfl
  | some v => rfl

theorem supply_dependencies (d : Draft) (nodes : Option Value) :
    (d.supply nodes).dependencies = d.dependencies := by
  cases nodes with
  | none => rfl
  | some v => rfl

theorem supply_units (d : Draft) (nodes : Option Value) : (d.supply nodes).units = d.units := by
  cases nodes with
  | none => rfl
  | some v => rfl

theorem prepare_after (units : List UnitRecord) (c : Context) (registry : Dict Transform)
    (f : Signature) (a : Decoration) (d : Draft) :
    (d.after units).prepare c registry f a =
      ((d.prepare c registry f a).1, (d.prepare c registry f a).2.after units) := by
  cases a with
  | dataTransformation specs =>
    unfold prepare
    dsimp only
    by_cases configures : c.configures = true
    · rw [if_pos configures, if_pos configures]
      exact substitute_inert (inert_after units) registry f _ d.take
    · rw [if_neg configures, if_neg configures]
  | task _ _ => rfl
  | prolog _ => rfl
  | epilog _ => rfl
  | constraint _ => rfl
  | software _ _ => rfl
  | primary p =>
    change (Except.ok (), (d.after units).supply _) = (Except.ok (), (d.supply _).after units)
    rw [supply_after]

/-- Preparing leaves the frames as they are, also where it fails. -/
theorem frames_prepare (c : Context) (registry : Dict Transform) (f : Signature) (a : Decoration)
    (d : Draft) : (d.prepare c registry f a).2.frames = d.frames := by
  have supplied (nodes : Option Value) : (d.supply nodes).frames = d.frames := by
    cases nodes with
    | none => rfl
    | some v => rfl
  cases a with
  | dataTransformation specs =>
    unfold prepare
    dsimp only
    by_cases configures : c.configures = true
    · rw [if_pos configures]
      -- Frames are not noticed, so they can be put in again at the end.
      have inert := substitute_inert (inert_withFrames d.frames) registry f (d.due specs) d.take
      exact congrArg (fun r => r.2.frames) inert
    · rw [if_neg configures]
  | _ => exact supplied _

end Draft

namespace Situation

/-- The draft in a situation. -/
def draft (s : Situation) : Draft where
  arguments := s.call.arguments
  frames := s.call.frames
  dependencies := s.call.dependencies
  transformations := s.call.transformations
  transformationsTaken := s.call.transformationsTaken
  targets := s.call.targets
  units := s.host.journal.units

/-- The situation with another draft. -/
def adopt (s : Situation) (d : Draft) : Situation where
  call := { s.call with
    arguments := d.arguments
    frames := d.frames
    dependencies := d.dependencies
    transformations := d.transformations
    transformationsTaken := d.transformationsTaken
    targets := d.targets }
  host := { s.host with journal := { s.host.journal with units := d.units } }

end Situation

theorem claimAll_eq (ps : List String) (c : Call) :
    claimAll ps c =
      ((claimTargets ps c.targets).1, { c with targets := (claimTargets ps c.targets).2 }) := by
  induction ps generalizing c with
  | nil => rfl
  | cons p ps ih =>
    unfold claimAll claimTargets
    by_cases h : c.targets.contains p = true
    · have refused : c.claim p = .error (.duplicateTarget p) := if_pos h
      rw [refused, if_pos h]
    · have claimed : c.claim p = .ok { c with targets := c.targets ++ [p] } := if_neg h
      rw [claimed, if_neg h]
      exact ih { c with targets := c.targets ++ [p] }

namespace PlannedSubstitution

open Change Procedure

theorem act_runOn (p : PlannedSubstitution) (s : Situation) :
    p.act.runOn s = ((s.draft.act p).1, s.adopt (s.draft.act p).2) := by
  unfold act Draft.act
  by_cases workflow : p.spec.workflow = true
  · rw [if_pos workflow, if_pos workflow]
    have applied := runOn_ofExcept (p.transform p.value p.spec.kwargs) s
    change _ = (p.outcome, s) at applied
    cases result : p.outcome with
    | ok v =>
      rw [result] at applied
      exact runOn_bind_ok applied
    | error e =>
      rw [result] at applied
      exact runOn_bind_error applied
  · rw [if_neg workflow, if_neg workflow]
    rfl

theorem actAll_runOn (ps : List PlannedSubstitution) (s : Situation) :
    (actAll ps).runOn s = ((Draft.actAll ps s.draft).1, s.adopt (Draft.actAll ps s.draft).2) := by
  induction ps generalizing s with
  | nil => rfl
  | cons p ps ih =>
    have first := act_runOn p s
    unfold actAll Draft.actAll
    rcases acted : s.draft.act p with ⟨r, d⟩
    rw [acted] at first
    cases r with
    | ok u => exact (runOn_bind_ok first).trans (ih (s.adopt d))
    | error e => exact runOn_bind_error first

end PlannedSubstitution

open Change Procedure in
theorem applyTransformations_runOn (f : Signature) (specs : List Substitution) (s : Situation) :
    (applyTransformations f specs).runOn s =
      ((s.draft.substitute s.host.registry f specs).1,
        s.adopt (s.draft.substitute s.host.registry f specs).2) := by
  unfold applyTransformations
  rw [runOn_get_bind]
  cases planning : specs.mapM (Substitution.plan s.host.registry s.call.arguments f) with
  | error e =>
    rw [Draft.substitute_unplanned (d := s.draft) planning]
    rfl
  | ok planned =>
    rcases claiming : claimTargets (planned.map (·.spec.parameter)) s.call.targets with
      ⟨refused, targets⟩
    have claims := claimAll_eq (planned.map (·.spec.parameter)) s.call
    rw [claiming] at claims
    dsimp only
    rw [claims]
    cases refused with
    | some e =>
      rw [Draft.substitute_refused (d := s.draft) planning claiming]
      rfl
    | none =>
      rw [Draft.substitute_claimed (d := s.draft) planning claiming]
      exact PlannedSubstitution.actAll_runOn planned _

open Change Procedure in
/-- Preparing works on the draft alone. -/
theorem Decoration.prepare_runOn (a : Decoration) (f : Signature) (s : Situation) :
    (a.prepare f).runOn s =
      ((s.draft.prepare s.call.context s.host.registry f a).1,
        s.adopt (s.draft.prepare s.call.context s.host.registry f a).2) := by
  cases a with
  | task _ _ => rfl
  | prolog _ => rfl
  | epilog _ => rfl
  | constraint _ => rfl
  | software _ _ => rfl
  | primary p =>
    unfold Decoration.prepare Draft.prepare Decoration.nodes?
    dsimp only
    by_cases injects : p.kind.injectsNodes = true
    · rw [if_pos injects, if_pos (p.kind.injectsNodes_iff.mp injects)]
      cases p.arguments.get? Name.computingNodes with
      | none => rfl
      | some nodes => rfl
    · rw [if_neg injects, if_neg fun parallel => injects (p.kind.injectsNodes_iff.mpr parallel)]
      rfl
  | dataTransformation specs =>
    unfold Decoration.prepare Draft.prepare
    dsimp only
    rw [runOn_get_bind]
    by_cases configures : s.call.context.configures = true
    · rw [if_pos configures, if_pos configures]
      rcases s with ⟨⟨_, _, _, _, _, given, taken, _, _, _⟩, _⟩
      cases given with
      | some given => cases taken <;> exact applyTransformations_runOn f given _
      | none => cases taken with
        | true => rfl
        | false => exact applyTransformations_runOn f specs _
    · rw [if_neg configures, if_neg configures]
      rfl

end TaskDecoration
