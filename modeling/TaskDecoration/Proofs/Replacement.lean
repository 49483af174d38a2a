import TaskDecoration.Proofs.Scopes

/-!
# Transformations that come with a call

A call may bring substitutions of its own. The first layer that asks for them carries them out
instead of those it declares, and from then on none are carried out. So the call goes like one
that brings nothing through other annotations, of which the outermost data transformation declares
what the call has brought, and every other one declares nothing: `walk_overridden` compares the
two on their way through the layers, and `given_replace_declared` says that nobody can tell them
apart.
-/

set_option autoImplicit false

namespace TaskDecoration

namespace Decoration

section Overriding

variable {x : Decoration} {given : Option (List Substitution)}

theorem name_override (x : Decoration) (given : Option (List Substitution)) :
    (x.override given).name = x.name := by
  cases x <;> rfl

theorem configure_override (x : Decoration) (given : Option (List Substitution)) :
    (x.override given).configure = x.configure := by
  cases x <;> rfl

theorem keepsMarks_override (x : Decoration) (given : Option (List Substitution)) :
    (x.override given).keepsMarks = x.keepsMarks := by
  cases x <;> rfl

theorem isTask_override (x : Decoration) (given : Option (List Substitution)) :
    (x.override given).isTask = x.isTask := by
  cases x <;> rfl

theorem override_of_quiet (quiet : x.Quiet) : x.override given = x := by
  cases x with
  | dataTransformation specs => exact absurd rfl (quiet specs)
  | _ => rfl

theorem leave_of_quiet (quiet : x.Quiet) : x.leave given = given := by
  cases x with
  | dataTransformation specs => exact absurd rfl (quiet specs)
  | _ => rfl

theorem length_overridden (given : Option (List Substitution)) (xs : List Decoration) :
    (overridden given xs).length = xs.length := by
  induction xs generalizing given with
  | nil => rfl
  | cons x xs ih => exact congrArg (· + 1) (ih (x.leave given))

theorem overridden_of_quiet {xs : List Decoration} (quiet : ∀ x ∈ xs, x.Quiet) :
    overridden given xs = xs ∧ leaveAll given xs = given := by
  induction xs with
  | nil => exact ⟨rfl, rfl⟩
  | cons x xs ih =>
    have here := quiet x List.mem_cons_self
    obtain ⟨inner, left⟩ := ih fun y hy => quiet y (List.mem_cons_of_mem x hy)
    unfold overridden leaveAll
    rw [List.foldl_cons, leave_of_quiet here, override_of_quiet here, inner]
    exact ⟨rfl, left⟩

/-- Once the given substitutions have been handed out, none are carried out. -/
theorem overridden_nothing (xs : List Decoration) :
    overridden (some []) xs = xs.map (·.override (some [])) := by
  induction xs with
  | nil => rfl
  | cons x xs ih =>
    have left : x.leave (some []) = some [] := by
      cases x <;> rfl
    unfold overridden
    rw [left, ih, List.map_cons]

/-- Given substitutions go to the outermost data transformation, and the others carry out none. -/
theorem overridden_outermost {outer : List Decoration} (quiet : ∀ x ∈ outer, x.Quiet)
    (given declared : List Substitution) (inner : List Decoration) :
    overridden (some given) (outer ++ dataTransformation declared :: inner) =
      outer ++ dataTransformation given :: inner.map (·.override (some [])) := by
  obtain ⟨same, left⟩ : overridden (some given) outer = outer ∧
      leaveAll (some given) outer = some given := overridden_of_quiet quiet
  rw [overridden_append, same, left]
  exact congrArg (outer ++ dataTransformation given :: ·) (overridden_nothing inner)

end Overriding

end Decoration

section Walking

variable {m m' : Memory} {c : Context} {registry : Dict Transform} {f : Signature} {d : Draft}

/-- A layer does with given substitutions what an overridden one does by itself. -/
theorem Draft.prepare_overridden (configures : c.configures = true) (d : Draft) (x : Decoration) :
    d.dropGiven.prepare c registry f (x.override (d.given c)) =
      ((d.prepare c registry f x).1, (d.prepare c registry f x).2.dropGiven) := by
  cases x with
  | dataTransformation specs =>
    have nothing : d.dropGiven.given c = none := by
      unfold given
      rw [if_pos configures]
      rfl
    unfold Decoration.override
    dsimp only
    rw [prepare_configures configures, prepare_configures configures, nothing]
    exact substitute_inert inert_dropGiven registry f _ d.take
  | primary p =>
    change (Except.ok (), d.dropGiven.supply (Decoration.primary p).nodes?) =
      (Except.ok (), (d.supply (Decoration.primary p).nodes?).dropGiven)
    cases (Decoration.primary p).nodes? with
    | none => rfl
    | some nodes => rfl
  | _ => rfl

variable (registry) in
/-- A walk with given substitutions goes like a walk without them through overridden layers with
the same marks. -/
theorem walk_overridden {ls ls' : List Layer} {b b' : Blueprint}
    (configures : c.configures = true)
    (layers : ls'.map (·.decoration) =
      Decoration.overridden (d.given c) (ls.map (·.decoration)))
    (marks : ls.map (m.configured ·.id) = ls'.map (m'.configured ·.id))
    (element : b.element = b'.element) :
    ((walk m c registry f ls b d).1.map (·.element), (walk m c registry f ls b d).2.dropGiven) =
      ((walk m' c registry f ls' b' d.dropGiven).1.map (·.element),
        (walk m' c registry f ls' b' d.dropGiven).2) := by
  induction ls generalizing ls' b b' d with
  | nil =>
    obtain rfl : ls' = [] := List.map_eq_nil_iff.mp layers
    change (Except.ok b.element, d.dropGiven) = (Except.ok b'.element, d.dropGiven)
    rw [element]
  | cons l ls ih =>
    obtain ⟨l', rest, rfl, decoration, layers⟩ := List.map_eq_cons_iff.mp layers
    replace decoration : l'.decoration = l.decoration.override (d.given c) := decoration
    obtain ⟨mark, marks⟩ := List.cons.inj marks
    refine walk_cons_congr Draft.dropGiven ?_ ?_ mark element ?_ ?_
    · rw [decoration, Decoration.name_override]
    · rw [decoration, Decoration.configure_override]
    · rw [decoration]
      exact Draft.prepare_overridden configures d l.decoration
    · intro b b' d₁ element prepared
      have left : d₁.given c = l.decoration.leave (d.given c) := (Draft.prepare_revised prepared).2
      rw [decoration, Decoration.keepsMarks_override]
      exact ih (d := d₁.openFrame l.decoration.keepsMarks)
        (layers.trans (congrArg (Decoration.overridden · _) left.symm)) marks element

theorem length_of_overridden {ls ls' : List Layer} {given : Option (List Substitution)}
    (layers : ls'.map (·.decoration) = Decoration.overridden given (ls.map (·.decoration))) :
    ls.length = ls'.length := by
  have mapped := congrArg List.length layers
  rw [Decoration.length_overridden, List.length_map, List.length_map] at mapped
  exact mapped.symm

/-- Overridden layers lead to the same place, and to the same layers if they are the same ones. -/
theorem reached_overridden {ls ls' : List Layer} {given : Option (List Substitution)}
    (layers : ls'.map (·.decoration) = Decoration.overridden given (ls.map (·.decoration))) :
    (reached ls').map (·.decoration) =
        Decoration.overridden given ((reached ls).map (·.decoration)) ∧
      (ending ls).shape = (ending ls').shape ∧
      (ls.map (·.id) = ls'.map (·.id) →
        (reached ls).map (·.id) = (reached ls').map (·.id) ∧
          ∀ m, (ending ls).kept m = (ending ls').kept m) := by
  induction ls generalizing ls' given with
  | nil =>
    obtain rfl : ls' = [] := List.map_eq_nil_iff.mp layers
    exact ⟨rfl, rfl, fun _ => ⟨rfl, fun _ => rfl⟩⟩
  | cons l ls ih =>
    obtain ⟨l', rest, rfl, decoration, layers⟩ := List.map_eq_cons_iff.mp layers
    replace decoration : l'.decoration = l.decoration.override given := decoration
    cases task : l.decoration.isTask with
    | false =>
      have task' : l'.decoration.isTask = false := by
        rw [decoration, Decoration.isTask_override, task]
      obtain ⟨within, shape, identical⟩ := ih layers
      rw [(reached_cons task ls).1, (reached_cons task ls).2, (reached_cons task' rest).1,
        (reached_cons task' rest).2, List.map_cons, List.map_cons, decoration, within]
      refine ⟨rfl, shape, fun ids => ?_⟩
      obtain ⟨first, ids⟩ := List.cons.inj ids
      obtain ⟨ids, kept⟩ := identical ids
      exact ⟨List.cons_eq_cons.mpr ⟨first, ids⟩, kept⟩
    | true =>
      obtain ⟨arguments, options, here⟩ := Decoration.isTask_iff.mp task
      have there : l'.decoration = .task arguments options := by
        rw [decoration, here]
        rfl
      have isEmpty : ls.isEmpty = rest.isEmpty := by
        rw [Bool.eq_iff_iff, List.isEmpty_iff_length_eq_zero, List.isEmpty_iff_length_eq_zero,
          length_of_overridden layers]
      unfold reached ending
      rw [here, there]
      refine ⟨?_, congrArg (fun b => some (options, b)) isEmpty, fun ids => ?_⟩
      · rw [List.map_singleton, List.map_singleton, there, here]
        rfl
      · have first : l.id = l'.id := (List.cons.inj ids).1
        refine ⟨congrArg (fun i => [i]) first, fun m => ?_⟩
        exact congrArg (fun i => (m.descriptor i).map (·.element)) first

end Walking

namespace TaskFunction

section Replacing

variable {f g : TaskFunction} {o o' : Orchestrator}

/-- A call with given substitutions goes like one without them through overridden layers, as far as
their memories agree. -/
theorem conduct_overridden {r : Request} {given : List Substitution}
    (base : f.base = g.base)
    (layers : g.layers.map (·.decoration) =
      Decoration.overridden (some given) (f.layers.map (·.decoration)))
    (alike : o.Alike o') (configures : r.context.configures = true)
    (marks : (reached f.layers).map (o.memory.configured ·.id) =
      (reached g.layers).map (o'.memory.configured ·.id))
    (kept : (ending f.layers).kept o.memory = (ending g.layers).kept o'.memory) :
    f.conduct { r with transformations := some given } o =
      g.conduct { r with transformations := none } o' := by
  have signature : f.signature = g.signature := congrArg BareFunction.signature base
  obtain ⟨within, shape, -⟩ := reached_overridden layers
  have due : { r with transformations := some given }.draft.given r.context = some given :=
    if_pos configures
  have walks := walk_overridden o.registry (f := f.signature) configures
    (within.trans (congrArg (Decoration.overridden · _) due.symm)) marks
    (show Blueprint.blank.element = Blueprint.blank.element from rfl)
  obtain ⟨same, drafts⟩ := Prod.mk.inj walks
  refine conduct_of_elements base shape rfl alike ?_ kept
  unfold cross
  rw [← signature, ← alike.registry]
  have dropped := congrArg Draft.dropGiven drafts
  exact Prod.ext same dropped

/-- As far as both functions are untouched or settled, their memories need not agree. -/
theorem conduct_overridden_apart {r : Request} {given : List Substitution}
    (base : f.base = g.base)
    (layers : g.layers.map (·.decoration) =
      Decoration.overridden (some given) (f.layers.map (·.decoration)))
    (alike : o.Alike o') (configures : r.context.configures = true)
    (here : o.memory.Pristine f.layers ∨ o.memory.Settled f.signature f.layers)
    (there : o'.memory.Pristine g.layers ∨ o'.memory.Settled g.signature g.layers) :
    f.conduct { r with transformations := some given } o =
      g.conduct { r with transformations := none } o' := by
  rw [conduct_fresh _ here, conduct_fresh _ there]
  have marks : (reached f.layers).map (Memory.fresh.configured ·.id) =
      (reached g.layers).map (Memory.fresh.configured ·.id) := by
    change (reached f.layers).map (fun _ => false) = (reached g.layers).map fun _ => false
    rw [List.map_const', List.map_const', length_of_overridden (reached_overridden layers).1]
  exact conduct_overridden base layers ⟨alike.session, alike.registry, alike.scheduler⟩ configures
    marks ((Memory.pristine_fresh f.layers).kept.trans (Memory.pristine_fresh g.layers).kept.symm)

/-- A call that brings substitutions goes like one that brings none through the same annotations,
with the outermost data transformation declaring what the call has brought and every other one
declaring nothing. That holds in any state when the annotations are changed in place, and whatever
calls went before either of them when the two functions have been decorated apart. -/
theorem given_replace_declared {outer inner : List Decoration}
    {declared given : List Substitution} (base : f.base = g.base)
    (quiet : ∀ x ∈ outer, x.Quiet)
    (layers : f.layers.map (·.decoration) = outer ++ .dataTransformation declared :: inner)
    (replaced : g.layers.map (·.decoration) =
      outer ++ .dataTransformation given :: inner.map (·.override (some [])))
    {r : Request} (configures : r.context.configures = true) :
    (f.layers.map (·.id) = g.layers.map (·.id) → ∀ o,
      f.outcome { r with transformations := some given } o =
        g.outcome { r with transformations := none } o) ∧
    (∀ as as' o o' o₁ o₁', o.memory.Tidy → o'.memory.Tidy →
      decorate as (bare f.base) o = (f, o₁) → decorate as' (bare g.base) o' = (g, o₁') →
      ∀ history history' : List (Event Unit),
        let late := Event.replay (fun _ => f) history o₁
        let late' := Event.replay (fun _ => g) history' o₁'
        late.Alike late' →
          f.outcome { r with transformations := some given } late =
            g.outcome { r with transformations := none } late') := by
  rw [← Decoration.overridden_outermost quiet given declared, ← layers] at replaced
  refine ⟨fun ids o => ?_, ?_⟩
  · obtain ⟨ids, kept⟩ := (reached_overridden replaced).2.2 ids
    have marks := congrArg (List.map o.memory.configured) ids
    rw [List.map_map, List.map_map] at marks
    exact congrArg Prod.fst
      (conduct_overridden base replaced ⟨rfl, rfl, rfl⟩ configures marks (kept o.memory))
  · intro as as' o o' o₁ o₁' tidy tidy' decorated decorated' history history' late late' alike
    exact congrArg Prod.fst (conduct_overridden_apart base replaced alike configures
      (replay_invariant tidy decorated history) (replay_invariant tidy' decorated' history'))

/-- Two transformations declare something, but the call brings something else. The first one
carries that out, and the second one nothing, in a second call as well. -/
theorem given_replace_declared_second_call :
    let twice : Substitution := .of "x" (.inline .twice)
    let never : Substitution := .of "x" (.inline fun _ _ => .ok .null)
    let made := decorate
      [.dataTransformation [twice], .dataTransformation [twice], .task .empty .standard]
      (bare .echo) .master
    let copied := decorate
      [.dataTransformation [never], .dataTransformation [], .task .empty .standard]
      (bare .echo) .master
    let r : Request := ⟨⟨.master, false⟩, ⟨[.int 1], .empty⟩, [], none⟩
    let late := made.1.serve { r with transformations := some [] } made.2
    (∀ o, made.1.outcome { r with transformations := some [never] } o = copied.1.outcome r o) ∧
      made.1.outcome { r with transformations := some [never] } late =
        copied.1.outcome r copied.2 := by
  intro twice never made copied r late
  have layers : made.1.layers.map (·.decoration) =
      [] ++ .dataTransformation [twice] ::
        [.dataTransformation [twice], .task .empty .standard] := rfl
  have replaced : copied.1.layers.map (·.decoration) =
      [] ++ .dataTransformation [never] ::
        [Decoration.dataTransformation [twice], .task .empty .standard].map
          (·.override (some [])) := rfl
  have quiet : ∀ x ∈ ([] : List Decoration), x.Quiet := fun x absent => nomatch absent
  have configures : r.context.configures = true := rfl
  obtain ⟨inPlace, apart⟩ :=
    given_replace_declared (f := made.1) (g := copied.1) rfl quiet layers replaced configures
  refine ⟨inPlace rfl, ?_⟩
  have same : made.2.Alike copied.2 := ⟨rfl, rfl, rfl⟩
  exact apart _ _ _ _ made.2 copied.2 Memory.tidy_fresh Memory.tidy_fresh rfl rfl
    [.call () { r with transformations := some [] }] []
    ((serve_alike made.1 { r with transformations := some [] } made.2).trans same)

end Replacing

end TaskFunction

end TaskDecoration
